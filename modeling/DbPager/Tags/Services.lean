import DbPager.Tags.Database

/-!
# Stores, directories, messages and transformations

The tags of the modules `dbp_redis`, `dbp_bdb`, `dbp_mongo`, `dbp_ldap`,
`dbp_mqtt`, `dbp_xslt` and `dbp_script`.
-/

namespace DbPager

open Effect

variable {W : Type}

/-- The pointer in a handle variable with a fixed name. -/
def fixedPointer (interp : Interp W) (variableName : Str) (message : String) :
    M W Nat := do
  let pointer ← M.getValue variableName
  if pointer.isEmpty then Prog.throw (interp.dcl.exception message [])
  else M.pointer interp.dcl pointer

namespace Redis

def connectionHandle : String := "@REDIS:CONNECTION@"

/-- `tag_connection` of `dbp_redis`. -/
def TagConnection.execute (interp : Interp W) (self : Loc)
    (caller : Option Loc) : M W Unit := do
  let redis := interp.outside.redis
  let serverParam ← interp.getParameter self "server"
  let server := if serverParam.isEmpty then redis.server else serverParam
  let passwordParam ← interp.getParameter self "password"
  let password :=
    if passwordParam.isEmpty then redis.password else passwordParam
  let id ← interp.getParameter self "id"
  let pointer ← M.getValue (connectionHandle.toList ++ id)
  if !pointer.isEmpty then interp.executeChilds self caller
  else do
    let connection ← M.io (redis.acquire (server ++ id))
    M.withLayer
      (Prog.onError
        (do
          let isConfigured ← M.io (redis.isConfigured connection)
          Prog.when (!isConfigured) do
            M.io (redis.configure connection server)
            Prog.when (!password.isEmpty)
              (M.io (redis.login connection password))
            Prog.when (redis.databaseNumber > 0)
              (M.io (redis.selectDatabase connection redis.databaseNumber))
          M.addValue interp.dcl (connectionHandle.toList ++ id)
            (interp.dcl.toStringPtr connection)
          interp.executeChilds self caller)
        (M.change (redis.reset connection)))

/-- A `char*` member converted to a string; a null pointer raises. -/
def textOf (reply : RedisReply) : M W Str :=
  Prog.orThrow
    ⟨.std, "basic_string: construction from null is not valid".toList, 0⟩
    (reply.str.map cString)

/-- The children with the variable `value`. -/
def withValue (interp : Interp W) (self : Loc) (caller : Option Loc)
    (value : M W Str) : M W Unit := do
  M.addValue interp.dcl "value".toList (← value)
  interp.executeChilds self caller

/-- What a reply does. -/
def TagQuery.process (interp : Interp W) (self : Loc) (caller : Option Loc) :
    RedisReply → M W Unit
  | .status str => withValue interp self caller (textOf (.status str))
  | .error str => Prog.throw (.dbp (cString str))
  | .integer value =>
      withValue interp self caller (pure (interp.dcl.toStringInt value))
  | .string str => withValue interp self caller (textOf (.string str))
  | .nil => pure ()
  | .array elements => do
      M.addValue interp.dcl "count".toList
        (interp.dcl.toStringInt elements.length)
      Prog.forEach (fun element =>
          M.withLayer (withValue interp self caller (textOf element)))
        elements
  | .unknown => Prog.throw (.dbp "Redis: unknown reply type".toList)

/-- `tag_query` of `dbp_redis`. -/
def TagQuery.execute (interp : Interp W) (self : Loc) (caller : Option Loc) :
    M W Unit := do
  let connection ← databasePointer interp self connectionHandle
  M.withLayer
    (rewrap
      (do
        let statement ← interp.getParameter self "command"
        let args ← interp.getParameter self "args"
        match ← M.io (interp.outside.redis.command connection
            (statement :: interp.dcl.tokens args)) with
        | .error message => Prog.throw (.dbp message)
        | .ok reply => TagQuery.process interp self caller reply)
      (pure ()))

end Redis

namespace Bdb

def databaseHandle : String := "@BDB:DATABASE@"

/-- `tag_storage`. -/
def TagStorage.execute (interp : Interp W) (self : Loc)
    (caller : Option Loc) : M W Unit := do
  let href ← interp.getParameter self "href"
  let id ← interp.getParameter self "id"
  Prog.when href.isEmpty
    (Prog.throw (interp.dcl.exception
      "storage file name (href) is not defined" []))
  let db ← M.io (interp.outside.bdb.openStorage href)
  M.withLayer do
    M.addValue interp.dcl (databaseHandle.toList ++ id)
      (interp.dcl.toStringPtr db)
    interp.executeChilds self caller

/-- The key in the parameter `name` and the storage a nested tag works on. -/
def keyAndStorage (interp : Interp W) (self : Loc) : M W (Str × Nat) := do
  let name ← interp.getParameter self "name"
  Prog.when name.isEmpty
    (Prog.throw (interp.dcl.exception "key name (name) is not defined" []))
  let storage ← interp.getParameter self "storage"
  let pointer ← M.getValue (databaseHandle.toList ++ storage)
  if pointer.isEmpty then
    let id ← interp.getParameter self "storage"
    Prog.throw (interp.dcl.exception
      "storage (id='\x7b0\x7d') is not defined in the current context"
      [if id.isEmpty then interp.dcl.text "(default)" else id])
  else
    let db ← M.pointer interp.dcl pointer
    pure (name, db)

/-- `tag_get`. -/
def TagGet.execute (interp : Interp W) (self : Loc) (caller : Option Loc) :
    M W Unit := do
  let (name, db) ← keyAndStorage interp self
  Prog.emit (← M.io (interp.outside.bdb.get db name))
  interp.executeChilds self caller

/-- `tag_set` of `dbp_bdb`. -/
def TagSet.execute (interp : Interp W) (self : Loc) (caller : Option Loc) :
    M W Unit := do
  let (name, db) ← keyAndStorage interp self
  let value ← (interp.executeChilds self caller).capture
  M.io (interp.outside.bdb.set db name value)

/-- `tag_delete` of `dbp_bdb`. -/
def TagDelete.execute (interp : Interp W) (self : Loc)
    (caller : Option Loc) : M W Unit := do
  let (name, db) ← keyAndStorage interp self
  M.io (interp.outside.bdb.del db name)
  interp.executeChilds self caller

/-- `tag_find`. -/
def TagFind.execute (interp : Interp W) (self : Loc) (caller : Option Loc) :
    M W Unit := do
  let (name, db) ← keyAndStorage interp self
  let cursor ← M.io (interp.outside.bdb.find db name)
  Prog.whileSome (M.io (interp.outside.bdb.next cursor))
    (fun record => executeRow interp self caller
      [("key".toList, record.1), ("value".toList, record.2)])
    interp.budget

end Bdb

namespace Mongo

def databaseHandle : Str := "@MONGODB:DATABASE@".toList

def paramHandle : Str := "@MONGODB:PARAM@".toList

/-- `tag_database` of `dbp_mongo`. -/
def TagDatabase.execute (interp : Interp W) (self : Loc)
    (caller : Option Loc) : M W Unit := do
  let host ← interp.getParameter self "host"
  Prog.when host.isEmpty
    (Prog.throw (interp.dcl.exception
      "MongoDB server host name (host) is not defined" []))
  let db ← M.io (interp.outside.mongo.connect host)
  M.withLayer do
    M.addValue interp.dcl databaseHandle (interp.dcl.toStringPtr db)
    interp.executeChilds self caller

/-- What the tags that address a collection have in common: they look up the
database and run a body in a layer of their own. -/
def onCollection (interp : Interp W) (self : Loc)
    (body : Nat → Str → M W Unit) : M W Unit := do
  let collection ← interp.getParameter self "collection"
  Prog.when collection.isEmpty
    (Prog.throw (interp.dcl.exception
      "query collection (collection) is not defined" []))
  let db ← fixedPointer interp databaseHandle
    "MongoDB database is not defined in the current context"
  M.withLayer (body db collection)

/-- Collect the parameters the children define. -/
def buildQuery (interp : Interp W) (self : Loc) (caller : Option Loc) :
    M W Nat := do
  let builder ← M.io interp.outside.mongo.builder
  M.addValue interp.dcl paramHandle (interp.dcl.toStringPtr builder)
  interp.executeChilds self caller
  pure builder

/-- `tag_delete` of `dbp_mongo`. -/
def TagDelete.execute (interp : Interp W) (self : Loc)
    (caller : Option Loc) : M W Unit :=
  onCollection interp self fun db collection => do
    let builder ← buildQuery interp self caller
    M.io (interp.outside.mongo.remove db collection builder)

/-- `tag_insert`. -/
def TagInsert.execute (interp : Interp W) (self : Loc)
    (caller : Option Loc) : M W Unit :=
  onCollection interp self fun db collection => do
    let builder ← buildQuery interp self caller
    M.io (interp.outside.mongo.insert db collection builder)

/-- `tag_query` of `dbp_mongo`. -/
def TagQuery.execute (interp : Interp W) (self : Loc) (caller : Option Loc) :
    M W Unit :=
  onCollection interp self fun db collection => do
    let builder ← buildQuery interp self caller
    let documents ← M.io (interp.outside.mongo.query db collection builder)
    Prog.emit documents.flatten

/-- `tag_update`: its body is commented out in the source. -/
def TagUpdate.execute (interp : Interp W) (self : Loc) : M W Unit :=
  onCollection interp self fun _ _ => pure ()

/-- `tag_param`. -/
def TagParam.execute (interp : Interp W) (self : Loc) : M W Unit := do
  let builder ← fixedPointer interp paramHandle
    "query is not defined in the current context"
  let value ← interp.getParameter self "value"
  let name ← interp.getParameter self "name"
  if name.isEmpty then
    Prog.throw (interp.dcl.exception
      "parameter name (name) is not defined" [])
  else M.io (interp.outside.mongo.append builder name value)

end Mongo

namespace Ldap

def connectionHandle : Str := "@LDAP_CONNECTION@".toList

def bindDn : Str := "@LDAP_BIND_DN@".toList

def bindPw : Str := "@LDAP_BIND_PW@".toList

def pointer (interp : Interp W) : M W Nat :=
  fixedPointer interp connectionHandle
    "LDAP server is not defined in the current context"

/-- `tag_connection` of `dbp_ldap`.  The connection is opened between
`enter` and the `try` block. -/
def TagConnection.execute (interp : Interp W) (self : Loc)
    (caller : Option Loc) : M W Unit := do
  let href ← interp.getParameter self "href"
  Prog.when href.isEmpty
    (Prog.throw (interp.dcl.exception
      "LDAP connection URI (href) is not defined" []))
  M.enter
  let connection ← (M.io (interp.outside.ldap.connect href)).onError
    (M.record (.leak .ldapConnect))
  Prog.onError
    (do
      M.addValue interp.dcl connectionHandle
        (interp.dcl.toStringPtr connection)
      interp.executeChilds self caller)
    M.leave
  M.leave

/-- Bind again with the credentials of the enclosing `tag_bind`. -/
def TagBind.rebind (interp : Interp W) (connection : Nat) : M W Unit := do
  let oldDn ← M.getValue bindDn
  let oldPw ← M.getValue bindPw
  Prog.when (!oldDn.isEmpty && !oldPw.isEmpty)
    (M.io (interp.outside.ldap.bind connection oldDn oldPw))

/-- `tag_bind`.  The second bind stands in the same `try` block as the first
one, after `leave`: when it raises, the handler leaves once more. -/
def TagBind.execute (interp : Interp W) (self : Loc) (caller : Option Loc) :
    M W Unit := do
  let dn ← interp.getParameter self "dn"
  let password ← interp.getParameter self "password"
  let connection ← pointer interp
  M.withLayer do
    M.addValue interp.dcl bindDn dn
    M.addValue interp.dcl bindPw password
    M.io (interp.outside.ldap.bind connection dn password)
    interp.executeChilds self caller
  (TagBind.rebind interp connection).onError
    (do
      M.record (.leak .ldapRebind)
      M.leave)

/-- `tag_search`. -/
def TagSearch.execute (interp : Interp W) (self : Loc)
    (caller : Option Loc) : M W Unit := do
  let basedn ← interp.getParameter self "base"
  Prog.when basedn.isEmpty
    (Prog.throw (interp.dcl.exception "base DN (base) is not defined" []))
  let filter ← interp.getParameter self "filter"
  Prog.when filter.isEmpty
    (Prog.throw (interp.dcl.exception "filter is not defined" []))
  let connection ← pointer interp
  let rows ← M.io (interp.outside.ldap.search connection basedn filter)
  Prog.forEach (executeRow interp self caller) rows

end Ldap

namespace Mqtt

def connectionHandle : Str := "@MOSQUITTO:CONNECTION@".toList

/-- `tag_connection` of `dbp_mqtt`. -/
def TagConnection.execute (interp : Interp W) (self : Loc)
    (caller : Option Loc) : M W Unit := do
  let mqtt := interp.outside.mqtt
  let pointer ← M.getValue connectionHandle
  if !pointer.isEmpty then interp.executeChilds self caller
  else do
    let connection ← M.effect mqtt.connection
    M.withLayer do
      Prog.when (!mqtt.user.isEmpty) do
        let accepted ←
          M.io (mqtt.authenticate connection mqtt.user mqtt.password)
        Prog.when (!accepted)
          (Prog.throw (.dbp "Can't authenticate on MQTT server".toList))
      let port ← M.int interp.dcl mqtt.port
      let connected ← M.io (mqtt.connect connection mqtt.host port)
      Prog.when (!connected)
        (Prog.throw (.dbp "Can't establish MQTT connection".toList))
      M.addValue interp.dcl connectionHandle
        (interp.dcl.toStringPtr connection)
      interp.executeChilds self caller
    M.change (mqtt.disconnect connection)

def pointer (interp : Interp W) : M W Nat :=
  fixedPointer interp connectionHandle
    "MQTT connection is not established yet"

def orZero (text : Str) : Str :=
  if text.isEmpty then "0".toList else text

/-- `tag_pub`. -/
def TagPub.execute (interp : Interp W) (self : Loc) (caller : Option Loc) :
    M W Unit := do
  let topic ← interp.getParameter self "topic"
  let qos ← interp.getParameter self "qos"
  let retain ← interp.getParameter self "retain"
  let payload ← (interp.executeChilds self caller).capture
  let connection ← pointer interp
  let level ← M.int interp.dcl (orZero qos)
  let kept ← Prog.orThrow (interp.dcl.conversionException (orZero retain))
    (interp.dcl.fromStringBool (orZero retain))
  let published ← M.io (interp.outside.mqtt.publish connection
    (cString topic) payload level kept)
  Prog.when (!published)
    (Prog.throw (interp.dcl.exception "MQTT message publish failed" []))

/-- `tag_sub`. -/
def TagSub.execute (interp : Interp W) (self : Loc) : M W Unit := do
  let topic ← interp.getParameter self "topic"
  let qos ← interp.getParameter self "qos"
  let connection ← pointer interp
  let level ← M.int interp.dcl (orZero qos)
  let subscribed ← M.io (interp.outside.mqtt.subscribe connection
    (cString topic) level)
  Prog.when (!subscribed)
    (Prog.throw (interp.dcl.exception "Can't subscribe to MQTT topic" []))

end Mqtt

namespace Xslt

/-- The text of a stylesheet parameter: put between single quotes unless it
starts or ends with one already. -/
def quoteValue (value : Str) : Str :=
  if !value.isEmpty && value.head? != some '\'' &&
      value.getLast? != some '\'' then
    '\'' :: value.flatMap (fun c => if c == '\'' then "''".toList else [c]) ++
      ['\'']
  else value

/-- The parameters handed to the stylesheet, in the order of the map, as the
C strings the library sees. -/
def stylesheetParams (interp : Interp W) (self : Loc) :
    List (Str × Str) → M W (List (Str × Str))
  | [] => pure []
  | param :: params =>
      if param.1 = "href".toList then stylesheetParams interp self params
      else do
        let value ← interp.executeParam self param.2
        let rest ← stylesheetParams interp self params
        pure ((cString param.1, cString (quoteValue value)) :: rest)

/-- `tag_transform` and `tag_transform_json`; they differ in how the
document is read and in the last message. -/
def transform (interp : Interp W) (self : Loc) (caller : Option Loc)
    (document : Str → M W Nat) (failure : String) : M W Unit := do
  let href ← interp.getParameter self "href"
  match ← M.io (interp.outside.xslt.parseStylesheet (cString href)) with
  | none =>
      Prog.throw (interp.dcl.exception
        "can't parse stylesheet file '\x7b0\x7d'" [href])
  | some stylesheet =>
      let source ← (interp.executeChilds self caller).capture
      let doc ← document source
      let params ← stylesheetParams interp self self.tag.params
      match ← M.io (interp.outside.xslt.apply stylesheet doc params) with
      | some result => Prog.emit result
      | none => Prog.throw (interp.dcl.exception failure [])

def TagTransform.execute (interp : Interp W) (self : Loc)
    (caller : Option Loc) : M W Unit :=
  transform interp self caller
    (fun source => do
      match ← M.io (interp.outside.xslt.parseXml source) with
      | some doc => pure doc
      | none =>
          Prog.throw (interp.dcl.exception
            "the input stream does not contain the valid XML data" []))
    "can't transform XML data"

def TagTransformJson.execute (interp : Interp W) (self : Loc)
    (caller : Option Loc) : M W Unit :=
  transform interp self caller
    (fun source => M.io (interp.outside.xslt.ofJson source))
    "can't transform JSON data"

end Xslt

/-- `tag_javascript`: the script is compiled and never run. -/
def TagJavascript.execute (interp : Interp W) (self : Loc)
    (caller : Option Loc) : M W Unit := do
  let src ← interp.getParameter self "src"
  if src.isEmpty then
    let script ← (interp.executeChilds self caller).capture
    M.io (interp.outside.xslt.compile (cString script))
  else
    match ← M.io (interp.outside.system.readFile (cString src)) with
    | some content => M.io (interp.outside.xslt.compile (cString content))
    | none =>
        Prog.throw ⟨.std, "basic_ios::clear: iostream error".toList, 0⟩

end DbPager
