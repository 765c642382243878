import DbPager.Interpreter
import DbPager.Library.Uniform

/-!
# One tag under several interpreters

A family of interpreters differs in the virtual calls only, and a family of
places in the ancestors of a tag only.  A property of families of programs
that the operations of the machine have, and that sequences and handlers hand
on, is then a matter of what the tag runs besides its own code.
-/

namespace DbPager

open Effect

variable {W ι : Type}

/-- Which operations of the libraries a statement is about. -/
abbrev Permits (W : Type) :=
  ∀ {α : Type}, Io W α → Prop

/-- A change of the world as an operation. -/
abbrev Io.ofChange (change : W → W) : Io W Unit :=
  fun world => (change world, .value ())

structure FunctionApi.Permitted (api : FunctionApi W)
    (Allowed : Permits W) : Prop where
  uuid : Allowed api.uuid
  rand : Allowed api.rand
  time : Allowed api.time
  getenv : ∀ name, Allowed (api.getenv name)

structure SystemApi.Permitted (api : SystemApi W)
    (Allowed : Permits W) : Prop where
  readFile : ∀ path, Allowed (api.readFile path)
  writeFile : ∀ path text, Allowed (api.writeFile path text)
  remove : ∀ path, Allowed (api.remove path)
  rename : ∀ path newName, Allowed (api.rename path newName)
  process : ∀ program arguments input,
    Allowed (api.process program arguments input)
  log : ∀ level message, Allowed (api.log level message)
  registerCatalogAt : ∀ domain path,
    Allowed (api.registerCatalogAt domain path)
  curlInit : Allowed api.curlInit
  curlPerform : ∀ call, Allowed (api.curlPerform call)

structure PgsqlApi.Permitted (api : PgsqlApi W)
    (Allowed : Permits W) : Prop where
  acquire : ∀ dsn, Allowed (api.acquire dsn)
  connection : ∀ item, Allowed (api.connection item)
  connect : ∀ item dsn, Allowed (api.connect item dsn)
  reset : ∀ item, Allowed (Io.ofChange (api.reset item))
  work : ∀ connection, Allowed (api.work connection)
  commit : ∀ work, Allowed (api.commit work)
  abort : ∀ work, Allowed (Io.ofChange (api.abort work))
  prepare : ∀ connection work statement,
    Allowed (api.prepare connection work statement)
  exec : ∀ work values, Allowed (api.exec work values)

structure SqliteApi.Permitted (api : SqliteApi W)
    (Allowed : Permits W) : Prop where
  acquire : ∀ dsn, Allowed (api.acquire dsn)
  isOpen : ∀ connection, Allowed (api.isOpen connection)
  openDatabase : ∀ connection dsn, Allowed (api.openDatabase connection dsn)
  getPtr : ∀ connection, Allowed (api.getPtr connection)
  prepare : ∀ connection statement, Allowed (api.prepare connection statement)
  parameterNames : ∀ stmt, Allowed (api.parameterNames stmt)
  bind : ∀ stmt index value, Allowed (api.bind stmt index value)
  step : ∀ stmt, Allowed (api.step stmt)
  changes : ∀ connection, Allowed (api.changes connection)
  reset : ∀ stmt, Allowed (Io.ofChange (api.reset stmt))
  finalize : ∀ stmt, Allowed (Io.ofChange (api.finalize stmt))
  exec : ∀ connection statement, Allowed (api.exec connection statement)

structure OdbcApi.Permitted (api : OdbcApi W)
    (Allowed : Permits W) : Prop where
  acquire : ∀ source, Allowed (api.acquire source)
  isOpen : ∀ connection, Allowed (api.isOpen connection)
  openConnection : ∀ connection dsn user password,
    Allowed (api.openConnection connection dsn user password)
  close : ∀ connection, Allowed (api.close connection)
  beginTransaction : ∀ connection, Allowed (api.beginTransaction connection)
  commit : ∀ connection, Allowed (api.commit connection)
  rollback : ∀ connection, Allowed (api.rollback connection)
  prepare : ∀ connection statement, Allowed (api.prepare connection statement)
  execute : ∀ query values, Allowed (api.execute query values)
  next : ∀ query, Allowed (api.next query)

structure RedisApi.Permitted (api : RedisApi W)
    (Allowed : Permits W) : Prop where
  acquire : ∀ server, Allowed (api.acquire server)
  isConfigured : ∀ connection, Allowed (api.isConfigured connection)
  configure : ∀ connection server, Allowed (api.configure connection server)
  login : ∀ connection password, Allowed (api.login connection password)
  selectDatabase : ∀ connection number,
    Allowed (api.selectDatabase connection number)
  reset : ∀ connection, Allowed (Io.ofChange (api.reset connection))
  command : ∀ connection arguments, Allowed (api.command connection arguments)

structure BdbApi.Permitted (api : BdbApi W)
    (Allowed : Permits W) : Prop where
  openStorage : ∀ path, Allowed (api.openStorage path)
  get : ∀ db key, Allowed (api.get db key)
  set : ∀ db key value, Allowed (api.set db key value)
  del : ∀ db key, Allowed (api.del db key)
  find : ∀ db key, Allowed (api.find db key)
  next : ∀ cursor, Allowed (api.next cursor)

structure MongoApi.Permitted (api : MongoApi W)
    (Allowed : Permits W) : Prop where
  connect : ∀ host, Allowed (api.connect host)
  builder : Allowed api.builder
  append : ∀ builder name value, Allowed (api.append builder name value)
  insert : ∀ db collection builder, Allowed (api.insert db collection builder)
  remove : ∀ db collection builder, Allowed (api.remove db collection builder)
  query : ∀ db collection builder, Allowed (api.query db collection builder)

structure LdapApi.Permitted (api : LdapApi W)
    (Allowed : Permits W) : Prop where
  connect : ∀ url, Allowed (api.connect url)
  bind : ∀ connection dn password, Allowed (api.bind connection dn password)
  search : ∀ connection base filter, Allowed (api.search connection base filter)

structure MqttApi.Permitted (api : MqttApi W)
    (Allowed : Permits W) : Prop where
  connection : Allowed fun world =>
    ((api.connection world).1, .value (api.connection world).2)
  authenticate : ∀ connection user password,
    Allowed (api.authenticate connection user password)
  connect : ∀ connection host port, Allowed (api.connect connection host port)
  disconnect : ∀ connection, Allowed (Io.ofChange (api.disconnect connection))
  publish : ∀ connection topic payload level kept,
    Allowed (api.publish connection topic payload level kept)
  subscribe : ∀ connection topic level,
    Allowed (api.subscribe connection topic level)

structure XsltApi.Permitted (api : XsltApi W)
    (Allowed : Permits W) : Prop where
  parseStylesheet : ∀ path, Allowed (api.parseStylesheet path)
  parseXml : ∀ source, Allowed (api.parseXml source)
  ofJson : ∀ source, Allowed (api.ofJson source)
  apply : ∀ stylesheet doc params, Allowed (api.apply stylesheet doc params)
  compile : ∀ script, Allowed (api.compile script)

/-- Of the modules, the two that have a statement of their own are asked for
only where they are used. -/
structure Outside.Permitted (outside : Outside W) (pgsql ldap : Prop)
    (Allowed : Permits W) : Prop where
  functions : outside.functions.Permitted Allowed
  system : outside.system.Permitted Allowed
  pgsql : pgsql → outside.pgsql.Permitted Allowed
  sqlite : outside.sqlite.Permitted Allowed
  odbc : outside.odbc.Permitted Allowed
  redis : outside.redis.Permitted Allowed
  bdb : outside.bdb.Permitted Allowed
  mongo : outside.mongo.Permitted Allowed
  ldap : ldap → outside.ldap.Permitted Allowed
  mqtt : outside.mqtt.Permitted Allowed
  xslt : outside.xslt.Permitted Allowed

/-- Everything that the libraries offer. -/
theorem Outside.permitted (outside : Outside W) :
    outside.Permitted True True fun _ => True := by
  constructor <;> intros <;> constructor <;> intros <;> trivial

/-- A name an expression can spell has no colon. -/
def Spelt (name : Str) : Prop :=
  ':' ∉ name

theorem Spelt.append {first second : Str} (left : Spelt first)
    (right : Spelt second) : Spelt (first ++ second) := by
  unfold Spelt
  rw [List.mem_append]
  exact not_or.mpr ⟨left, right⟩

theorem spelt_takeWhile {allowed : Char → Bool}
    (colon : allowed ':' = false) (text : Str) :
    Spelt (text.takeWhile allowed) := by
  intro member
  have holds := List.all_eq_true.mp (List.all_takeWhile (p := allowed)) ':'
    member
  rw [colon] at holds
  cases holds

theorem Spelt.ne_htmlFirst {name : Str} (spelt : Spelt name) :
    upName name ≠ htmlFirst := by
  intro same
  have member : ':' ∈ upName name := by
    rw [same]
    decide
  obtain ⟨c, inside, upper⟩ := List.mem_map.mp member
  have colon : c = ':' := eq_of_toUpper_eq upper (by decide)
  exact spelt (colon ▸ inside)

/-- The name is not that of the variable of the renderer, unless that variable
may be seen. -/
def Apart (seen : Prop) (name : Str) : Prop :=
  upName name = htmlFirst → seen

namespace Apart

variable {seen : Prop} {name : Str}

theorem of_ne (other : upName name ≠ htmlFirst) : Apart seen name :=
  fun same => absurd same other

theorem of_seen (sees : seen) : Apart seen name :=
  fun _ => sees

/-- The variables of a handle start in another way. -/
theorem stem {start : Str} (other : (upName start).isPrefixOf htmlFirst = false)
    (rest : Str) : Apart seen (start ++ rest) := by
  apply of_ne
  intro same
  have begins : upName start <+: htmlFirst := by
    rw [← same]
    exact ⟨upName rest, List.map_append.symm⟩
  rw [List.isPrefixOf_iff_prefix.mpr begins] at other
  cases other

end Apart

/-- No parameter of a prepared statement has the name of that variable. -/
def SqliteApi.NamesApart (api : SqliteApi W) (seen : Prop) : Prop :=
  ∀ {stmt : Nat} {world : W} {names : List (Option Str)},
    (api.parameterNames stmt world).2 = .value names →
    ∀ name, some name ∈ names → Apart seen name.tail

def OdbcApi.NamesApart (api : OdbcApi W) (seen : Prop) : Prop :=
  ∀ {connection : Nat} {statement : Str} {world : W}
    {prepared : Nat × List Str},
    (api.prepare connection statement world).2 = .value prepared →
    ∀ name ∈ prepared.2, Apart seen name

section Natives

variable (dcl : Dcl) (Allowed : Permits W) (seen : Prop)
  (Holds Inside Closes : ∀ {α : Type}, (ι → M W α) → Prop)

/-- The operations of the machine that leave the layers alone. -/
structure Operations : Prop where
  getValue : ∀ name, Apart seen name →
    Holds fun _ => (M.getValue name : M W Str)
  setValue : ∀ name value, Apart seen name →
    Holds fun _ => (M.setValue dcl name value : M W Unit)
  services : Holds fun _ => Prog.read fun state : St W =>
    state.contexts.head?.any Context.services
  withVector : ∀ {α : Type} {body : ι → Nat → M W α},
    (∀ addr, Holds fun member => body member addr) →
    Holds fun member => M.withVector (body member)
  withMap : ∀ {α : Type} {body : ι → Nat → M W α},
    (∀ addr, Holds fun member => body member addr) →
    Holds fun member => M.withMap (body member)
  getVector : ∀ addr, Holds fun _ => (M.getVector addr : M W Vector)
  setVector : ∀ addr vector,
    Holds fun _ => (M.setVector addr vector : M W Unit)
  getMap : ∀ addr, Holds fun _ => (M.getMap addr : M W StringMap)
  setMap : ∀ addr map, Holds fun _ => (M.setMap addr map : M W Unit)
  io : ∀ {α : Type} {operation : Io W α},
    Allowed operation → Holds fun _ => M.io operation
  ask : ∀ {α β : Type} {operation : Io W α} {next : ι → α → M W β},
    Allowed operation →
    (∀ world result, (operation world).2 = .value result →
      Holds fun member => next member result) →
    Holds fun member => M.io operation >>= next member

/-- How layers are entered and left: what holds outside a layer holds inside
as well, and what is entered has to be closed. -/
structure Layering : Prop where
  raise : ∀ {α : Type} {program : ι → M W α}, Holds program → Inside program
  addTyped : ∀ name value type,
    Inside fun _ => (M.addTyped dcl name value type : M W Unit)
  enter : ∀ {α : Type} {next : ι → M W α}, Closes next →
    Holds fun member => M.enter >>= fun _ => next member
  leave : Closes fun _ => (M.leave : M W Unit)
  leak : ∀ place, Closes fun _ => (M.record (.leak place) : M W Unit)
  leaveTwice : ∀ place, seen →
    Holds fun _ => (do M.record (.leak place); M.leave : M W Unit)
  stop : ∀ reason, Closes fun _ => (Prog.halt reason : M W Unit)
  follow : ∀ {α β : Type} {first : ι → M W α} {next : ι → α → M W β},
    Closes first → (∀ result, Holds fun member => next member result) →
    Closes fun member => first member >>= next member
  before : ∀ {α : Type} {operation : W → W} {next : ι → M W α},
    Allowed (Io.ofChange operation) → Closes next →
    Closes fun member => M.change operation >>= fun _ => next member
  guarded : ∀ {α β : Type} {body : ι → M W α} {cleanup : ι → M W Unit}
      {next : ι → α → M W β},
    Inside body → Closes cleanup →
    (∀ result, Closes fun member => next member result) →
    Closes fun member => (body member).onError (cleanup member) >>= next member
  tryLeave : ∀ {body : ι → M W Unit} {handler : ι → Exc → M W Unit},
    Inside body → (∀ exception, Closes fun member => handler member exception) →
    Closes fun member =>
      Prog.tryCatch (body member >>= fun _ => M.leave) (handler member)

/-- Uniform properties of what stands outside and inside a layer, which the
operations of the machine have. -/
structure Native : Prop extends Prog.Uniform Holds,
    Operations dcl Allowed seen Holds,
    Layering dcl Allowed seen Holds Inside Closes where
  inside : Prog.Uniform Inside

end Natives

namespace Native

variable {dcl : Dcl} {Allowed : Permits W} {seen : Prop}
  {Holds Inside Closes : ∀ {α : Type}, (ι → M W α) → Prop}
  (native : Native dcl Allowed seen Holds Inside Closes)

include native

theorem addValue (name value : Str) :
    Inside fun _ => (M.addValue dcl name value : M W Unit) :=
  native.addTyped name value []

theorem withLayer {α : Type} {body : ι → M W α} (inside : Inside body) :
    Holds fun member => M.withLayer (body member) := by
  apply native.enter
  apply native.guarded inside native.leave
  intro result
  exact native.follow native.leave fun _ => native.pure result

theorem change {operation : W → W}
    (allowed : Allowed (Io.ofChange operation)) :
    Holds fun _ => (M.change operation : M W Unit) :=
  native.io allowed

theorem pointer (text : Str) :
    Holds fun _ => (M.pointer dcl text : M W Nat) :=
  native.orThrow _ _

theorem int (text : Str) : Holds fun _ => (M.int dcl text : M W Int) :=
  native.orThrow _ _

theorem orTimeout {α : Type} (result : Option α) :
    Holds fun _ => (M.orTimeout result : M W α) := by
  cases result with
  | some result => exact native.pure result
  | none => exact native.halt .timeout

end Native

/-- A tag, with a family of interpreters and places for it. -/
structure Family (W ι : Type) where
  outside : Outside W
  budget : Nat
  runs : ι → Loc → Option Loc → M W Unit
  evaluates : ι → List Tag → Str → M W Str
  tag : Tag
  ups : ι → List Tag
  callers : ι → Option Loc

namespace Family

variable (family : Family W ι)

def interp (member : ι) : Interp W :=
  ⟨family.outside, family.budget, family.runs member, family.evaluates member⟩

def self (member : ι) : Loc :=
  ⟨family.tag, family.ups member⟩

/-- What the members have in common. -/
theorem shared (member : ι) :
    (family.interp member).outside = family.outside ∧
      (family.interp member).dcl = family.outside.dcl ∧
      (family.interp member).budget = family.budget ∧
      (family.self member).tag = family.tag :=
  ⟨rfl, rfl, rfl, rfl⟩

/-- What the tag runs besides its own code has the property. -/
structure Serves (Holds : ∀ {α : Type}, (ι → M W α) → Prop) : Prop where
  childs : Holds fun member =>
    (family.interp member).executeChilds (family.self member)
      (family.callers member)
  param : ∀ text, Holds fun member =>
    (family.interp member).executeParam (family.self member) text
  handler : ∀ child ∈ family.tag.childs, child.kind = .catch →
    Holds fun member =>
      (family.interp member).executeChilds ((family.self member).child child)
        (family.callers member)
  text : Holds fun member =>
    (family.interp member).evaluate (family.tag :: family.ups member)
      family.tag.text

namespace Serves

variable {family : Family W ι}
  {Holds Inside Closes : ∀ {α : Type}, (ι → M W α) → Prop}

protected theorem inside {dcl : Dcl} {Allowed : Permits W} {seen : Prop}
    (serves : family.Serves Holds)
    (native : Native dcl Allowed seen Holds Inside Closes) :
    family.Serves Inside where
  childs := native.raise serves.childs
  param text := native.raise (serves.param text)
  handler child member isCatch :=
    native.raise (serves.handler child member isCatch)
  text := native.raise serves.text

theorem getParameter (serves : family.Serves Holds)
    (uniform : Prog.Uniform Holds) (name : String) : Holds fun member =>
    (family.interp member).getParameter (family.self member) name := by
  unfold Interp.getParameter
  have found : ∀ member, (family.self member).findParam name.toList =
      (family.tag.params.find? fun param => param.1 == name.toList).map
        Prod.snd := fun _ => rfl
  simp only [found]
  cases (family.tag.params.find? fun param => param.1 == name.toList).map
      Prod.snd with
  | some text => exact serves.param text
  | none => exact uniform.pure _

theorem parameter {dcl : Dcl} {Allowed : Permits W} {seen : Prop}
    (serves : family.Serves Holds)
    (native : Native dcl Allowed seen Holds Inside Closes) (name : String) :
    Holds fun member =>
      (family.interp member).getParameter (family.self member) name :=
  serves.getParameter native.toUniform name

end Serves

end Family

end DbPager
