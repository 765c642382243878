import DbPager.Lexer

/-!
# What the tags use of the outside world

Files, processes, database servers and libraries are reached through
operations on an abstract world.  An operation may change the world and may
return, raise an exception, or have no defined behaviour, for instance when
it is given a pointer that does not come from the server itself.  Nothing is
assumed about the operations here.
-/

namespace DbPager

open Effect

/-- An operation on the outside world. -/
abbrev Io (W α : Type) := W → W × Outcome Exc α

/-- A JSON document as jsoncpp sees it.  `scalar` stands for the booleans,
numbers and strings, all of which convert to a string. -/
inductive Json where
  | null
  | scalar (asString : Str) (source : Str)
  | array (elements : List Json)
  | object (members : List (Str × Json))

/-- jsoncpp. -/
structure JsonApi where
  parse : Str → Option Json
  /-- `FastWriter::write`. -/
  write : Json → Str
  /-- `Json::Value(std::stoi(text))` and `Json::Value(std::stod(text))`;
  the conversions raise on a text that is not a number. -/
  ofInteger : Str → Option Json
  ofNumber : Str → Option Json
  ofBoolean : Bool → Json
  ofString : Str → Json

/-- pcrecpp. -/
structure RegexpApi where
  /-- `GlobalReplace`: the new text, if anything was replaced. -/
  globalReplace : Str → Str → Str → Option Str
  /-- `FindAndConsume`: the match and the input left over. -/
  findAndConsume : Str → Str → Option (Str × Str)

/-- The libraries behind the built-in functions. -/
structure FunctionApi (W : Type) where
  encodeBase64 : Str → Str
  decodeBase64 : Str → Str
  md5 : Str → Str
  sha256 : Str → Str
  crypt : Str → Str → Str
  toUpper : Char → Char
  toLower : Char → Char
  /-- `datetime(text, format)`, printed with another format. -/
  date : Str → Str → Str → Except Exc Str
  dateAsGmt : Str → Except Exc Str
  /-- `i18n::translate` for a locale, a domain and a text. -/
  translate : Str → Str → Str → Str
  uuid : Io W Str
  rand : Io W Int
  time : Io W Int
  getenv : Str → Io W (Option Str)

inductive LogLevel where
  | info | warning | error
  deriving DecidableEq, Repr

/-- What `tag_http` hands to curl. -/
structure HttpCall where
  href : Str
  user : Str
  password : Str
  certificate : Str
  privateKey : Str
  caCertificate : Str
  certificateData : Str
  privateKeyData : Str
  caCertificateData : Str
  method : Str
  content : Str
  headers : List (Str × Str)

/-- Files, processes, the logger, message catalogs and curl. -/
structure SystemApi (W : Type) where
  readFile : Str → Io W (Option Str)
  writeFile : Str → Str → Io W Bool
  remove : Str → Io W Bool
  rename : Str → Str → Io W Bool
  /-- Program, arguments and input give output and error output. -/
  process : Str → Str → Str → Io W (Str × Str)
  log : LogLevel → Str → Io W Unit
  registerCatalogAt : Str → Str → Io W Unit
  curlInit : Io W Bool
  /-- The response code with the body, or curl's error text. -/
  curlPerform : HttpCall → Io W (Except Str (Int × Str))

/-- A column of a pgsql row; type 16 is boolean and may fail to convert. -/
inductive PgsqlField where
  | boolean (value : Option Bool)
  | text (value : Str)

/-- libpqxx and the connection pool.  Resetting a pool item and aborting a
transaction of one's own do not raise. -/
structure PgsqlApi (W : Type) where
  acquire : Str → Io W Nat
  /-- The connection a pool item holds, if any. -/
  connection : Nat → Io W (Option Nat)
  connect : Nat → Str → Io W Nat
  reset : Nat → W → W
  work : Nat → Io W Nat
  commit : Nat → Io W Unit
  abort : Nat → W → W
  prepare : Nat → Nat → Str → Io W Unit
  /-- Run the prepared statement; a missing value is sent as NULL. -/
  exec : Nat → List (Option Str) → Io W (List (List (Str × PgsqlField)))

inductive SqliteStep where
  | row (columns : List (Option Str × Option Str))
  | done
  | error (code : Int)

/-- sqlite3 and its connection pool. -/
structure SqliteApi (W : Type) where
  acquire : Str → Io W Nat
  isOpen : Nat → Io W Bool
  openDatabase : Nat → Str → Io W Unit
  getPtr : Nat → Io W Nat
  prepare : Nat → Str → Io W (Option Nat)
  parameterNames : Nat → Io W (List (Option Str))
  bind : Nat → Nat → Option Str → Io W Bool
  step : Nat → Io W SqliteStep
  changes : Nat → Io W Nat
  reset : Nat → W → W
  finalize : Nat → W → W
  /-- `sqlite3_exec`: the error message, if it failed. -/
  exec : Nat → Str → Io W (Option Str)
  errstr : Int → Str

/-- The odbc classes of `dcl`. -/
structure OdbcApi (W : Type) where
  acquire : Str → Io W Nat
  isOpen : Nat → Io W Bool
  openConnection : Nat → Str → Str → Str → Io W Unit
  close : Nat → Io W Unit
  beginTransaction : Nat → Io W Unit
  commit : Nat → Io W Unit
  rollback : Nat → Io W Unit
  /-- A query object and the names of its parameters. -/
  prepare : Nat → Str → Io W (Nat × List Str)
  execute : Nat → List (Option Str) → Io W Unit
  next : Nat → Io W (Option (List (Str × Str)))

/-- A hiredis reply. -/
inductive RedisReply where
  | status (str : Str)
  | error (str : Str)
  | integer (value : Int)
  | string (str : Str)
  | nil
  | array (elements : List RedisReply)
  | unknown

/-- The `str` member; it is null for integers, arrays and nil. -/
def RedisReply.str : RedisReply → Option Str
  | status str | error str | string str => some str
  | integer _ | nil | array _ | unknown => none

/-- hiredis and the connection pool, with the settings of the module. -/
structure RedisApi (W : Type) where
  server : Str
  password : Str
  databaseNumber : Nat
  acquire : Str → Io W Nat
  isConfigured : Nat → Io W Bool
  configure : Nat → Str → Io W Unit
  login : Nat → Str → Io W Unit
  selectDatabase : Nat → Nat → Io W Unit
  reset : Nat → W → W
  /-- `redisCommandArgv`: the reply, or the connection's error text. -/
  command : Nat → List Str → Io W (Except Str RedisReply)

/-- Berkeley DB. -/
structure BdbApi (W : Type) where
  openStorage : Str → Io W Nat
  get : Nat → Str → Io W Str
  set : Nat → Str → Str → Io W Unit
  del : Nat → Str → Io W Unit
  find : Nat → Str → Io W Nat
  /-- The record under a cursor, and the cursor moved on. -/
  next : Nat → Io W (Option (Str × Str))

/-- The MongoDB client. -/
structure MongoApi (W : Type) where
  connect : Str → Io W Nat
  builder : Io W Nat
  append : Nat → Str → Str → Io W Unit
  insert : Nat → Str → Nat → Io W Unit
  remove : Nat → Str → Nat → Io W Unit
  query : Nat → Str → Nat → Io W (List Str)

/-- OpenLDAP as `ldap_connection` uses it.  `ldap_sasl_bind_s` takes a name and
a password, each of which may be `NULL`; a result other than `LDAP_SUCCESS` comes
with the text of `ldap_err2string`. -/
structure LdapApi (W : Type) where
  connect : Str → Io W Nat
  saslBind : Nat → Option Str → Option Str → W → W × Option Str
  search : Nat → Str → Str → Io W (List (List (Str × Str)))

/-- `ldap_connection::bind`. -/
def LdapApi.bind {W : Type} (api : LdapApi W) (connection : Nat)
    (dn password : Str) : Io W Unit := fun world =>
  let answer :=
    if dn.isEmpty && password.isEmpty then
      api.saslBind connection none none world
    else api.saslBind connection (some (cString dn)) (some password) world
  (answer.1, match answer.2 with
    | none => .value ()
    | some message => .error (.dbp message))

/-- mosquitto, with the settings of the module; a result other than
`MOSQ_ERR_SUCCESS` is `false`.  Creating a client and closing it do not
raise. -/
structure MqttApi (W : Type) where
  host : Str
  port : Str
  user : Str
  password : Str
  connection : W → W × Nat
  authenticate : Nat → Str → Str → Io W Bool
  connect : Nat → Str → Int → Io W Bool
  disconnect : Nat → W → W
  publish : Nat → Str → Str → Int → Bool → Io W Bool
  subscribe : Nat → Str → Int → Io W Bool

/-- libxslt and the script engine. -/
structure XsltApi (W : Type) where
  parseStylesheet : Str → Io W (Option Nat)
  parseXml : Str → Io W (Option Nat)
  /-- The document `write_value` builds from a JSON text. -/
  ofJson : Str → Io W Nat
  apply : Nat → Nat → List (Str × Str) → Io W (Option Str)
  compile : Str → Io W Unit

/-- Everything outside the repository that executing a tag can reach, and
the choices the C++ language leaves to the implementation. -/
structure Outside (W : Type) where
  dcl : Dcl
  json : JsonApi
  regexp : RegexpApi
  functions : FunctionApi W
  system : SystemApi W
  pgsql : PgsqlApi W
  sqlite : SqliteApi W
  odbc : OdbcApi W
  redis : RedisApi W
  bdb : BdbApi W
  mongo : MongoApi W
  ldap : LdapApi W
  mqtt : MqttApi W
  xslt : XsltApi W
  /-- An insertion into a vector or a hash map with the given number of
  earlier changes and the given size has to move the elements. -/
  vectorMoves : Nat → Nat → Bool
  mapMoves : Nat → Nat → Bool
  /-- Where a key inserted into a hash map ends up in its iteration order. -/
  mapPosition : Vars → Str → Nat
  /-- The iteration order of a hash map filled with the given entries. -/
  mapOrder : List (Str × Str) → List (Str × Str)
  mapOrder_perm : ∀ entries, (mapOrder entries).Perm entries
  /-- The left operand of a comparison or an arithmetic operator is
  converted before the right one is evaluated. -/
  leftFirst : Bool
  /-- The type of a token object nothing has been read into yet. -/
  rawToken : TokenType
  /-- The order in which the threads of `dbp:async` get to run. -/
  schedule : Nat → List Nat
  schedule_perm : ∀ count, (schedule count).Perm (List.range count)

end DbPager
