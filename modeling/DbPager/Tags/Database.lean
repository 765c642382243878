import DbPager.Tags.System

/-!
# Relational databases

The tags of the modules `dbp_pgsql`, `dbp_sqlite` and `dbp_odbc`.  A
`database` tag publishes the address of its connection in a variable, and
the tags below it look the connection up by the database's id.
-/

namespace DbPager

open Effect

variable {W : Type}

/-- The connection a nested tag works on: the handle variable for the id in
its `database` parameter. -/
def databasePointer (interp : Interp W) (self : Loc) (stem : String) :
    M W Nat := do
  let database ← interp.getParameter self "database"
  let pointer ← M.getValue (stem.toList ++ database)
  if pointer.isEmpty then
    let id ← interp.getParameter self "database"
    Prog.throw (interp.dcl.exception
      "database (id='\x7b0\x7d') is not defined in the current context"
      [if id.isEmpty then interp.dcl.text "(default)" else id])
  else M.pointer interp.dcl pointer

/-- `catch (const std::exception &e) { throw tag_exception(e.what()); }`. -/
def rewrap {α : Type} (body : M W α) (cleanup : M W Unit) : M W α :=
  body.tryCatch fun exception =>
    if exception.isStd then do
      cleanup
      Prog.throw (.dbp exception.what)
    else Prog.throw exception

/-- The children once for a row of a result, with its columns as variables
of a new layer. -/
def executeRow (interp : Interp W) (self : Loc) (caller : Option Loc)
    (columns : List (Str × Str)) : M W Unit :=
  M.withLayer do
    Prog.forEach (fun column => M.addValue interp.dcl column.1 column.2)
      columns
    interp.executeChilds self caller

namespace Pgsql

def databaseHandle : String := "@PGSQL:DATABASE@"

def workHandle : Str := "@PGSQL:WORK@".toList

namespace TagDatabase

/-- The connection of the pool item, opened if necessary. -/
def connect (interp : Interp W) (dsn : Str) (item : Nat) : M W Nat := do
  match ← M.io (interp.outside.pgsql.connection item) with
  | some connection => pure connection
  | none => M.io (interp.outside.pgsql.connect item dsn)

/-- One attempt: connect if necessary, publish the connection and execute
the children. -/
def attempt (interp : Interp W) (self : Loc) (caller : Option Loc)
    (dsn : Str) (item : Nat) : M W Unit := do
  let connection ← connect interp dsn item
  let id ← interp.getParameter self "id"
  M.addValue interp.dcl (databaseHandle.toList ++ id)
    (interp.dcl.toStringPtr connection)
  interp.executeChilds self caller

/-- The loop over the attempts.  The layer entered before the loop is left
on every way out but one: an exception raised by the logger while the
handler announces another attempt. -/
def loop (interp : Interp W) (self : Loc) (caller : Option Loc)
    (dsn : Str) (item : Nat) : Nat → M W Unit
  | 0 => Prog.halt .timeout
  | attempts + 1 =>
      Prog.tryCatch
        (do
          attempt interp self caller dsn item
          M.leave)
        (fun exception =>
          if exception.cls == .brokenConnection then do
            M.change (interp.outside.pgsql.reset item)
            if attempts = 0 then do
              M.leave
              logMessage interp .error (interp.dcl.trim exception.what)
              Prog.throw (.dbp exception.what)
            else do
              (logMessage interp .warning
                (interp.dcl.trim exception.what ++
                  ", reconnecting...".toList)).onError
                (M.record (.leak .pgsqlLogger))
              loop interp self caller dsn item attempts
          else do
            M.leave
            Prog.throw exception)

/-- `tag_database` of `dbp_pgsql`. -/
def execute (interp : Interp W) (self : Loc) (caller : Option Loc) :
    M W Unit := do
  let dsn ← interp.getParameter self "dsn"
  let database ← interp.getParameter self "id"
  Prog.when dsn.isEmpty
    (Prog.throw (interp.dcl.exception
      "data source name (dsn) is not defined" []))
  let pointer ← M.getValue (databaseHandle.toList ++ database)
  if !pointer.isEmpty then interp.executeChilds self caller
  else do
    let item ← M.io (interp.outside.pgsql.acquire dsn)
    M.enter
    loop interp self caller dsn item 3

end TagDatabase

/-- `tag_transaction` of `dbp_pgsql`. -/
def TagTransaction.execute (interp : Interp W) (self : Loc)
    (caller : Option Loc) : M W Unit := do
  let connection ← databasePointer interp self databaseHandle
  let work ← rewrap (M.io (interp.outside.pgsql.work connection)) (pure ())
  M.withLayer
    (Prog.onError
      (do
        M.addValue interp.dcl workHandle (interp.dcl.toStringPtr work)
        interp.executeChilds self caller
        M.io (interp.outside.pgsql.commit work))
      (M.change (interp.outside.pgsql.abort work)))

namespace TagQuery

def isParamChar (c : Char) : Bool :=
  c.isAlphanum || c == '_'

/-- The loop of `parse`: the statement still to be read, whether a single or
a double quote is open, the number of parameters so far, and what has been
produced. -/
def parseLoop (dcl : Dcl) :
    Nat → Str → Bool → Bool → Nat → Str → List Str → Option (Str × List Str)
  | 0, _, _, _, _, _, _ => none
  | _ + 1, [], _, _, _, q, parameters => some (q, parameters)
  | budget + 1, c :: rest, ssq, dsq, n, q, parameters =>
      let placeholder (name after : Str) : Option (Str × List Str) :=
        parseLoop dcl budget after ssq dsq (n + 1)
          (q ++ '$' :: dcl.toStringInt (n + 1)) (parameters ++ [name])
      if c == '\'' then
        parseLoop dcl budget rest (!ssq) dsq n (q ++ [c]) parameters
      else if c == '"' then
        parseLoop dcl budget rest ssq (!dsq) n (q ++ [c]) parameters
      else if c == '?' && !ssq && !dsq then placeholder [] rest
      else if c == ':' && !ssq && !dsq then
        placeholder (rest.takeWhile isParamChar) (rest.dropWhile isParamChar)
      else parseLoop dcl budget rest ssq dsq n (q ++ [c]) parameters

/-- `tag_query::parse`. -/
def parse (dcl : Dcl) (statement : Str) : Option (Str × List Str) :=
  parseLoop dcl (statement.length + 1) statement false false 0 [] []

/-- The values for the placeholders.  An unnamed one takes the next passed
value; reading past the last one is not defined. -/
def values : List Str → List Str → M W (List (Option Str))
  | [], _ => pure []
  | name :: names, passed =>
      if name.isEmpty then
        match passed with
        | [] => Prog.halt .fault
        | value :: rest => do
            let later ← values names rest
            pure (some value :: later)
      else do
        let value ← M.getValue name
        let later ← values names passed
        pure ((if value.isEmpty then none else some value) :: later)

/-- The variable a column is bound to. -/
def columnText : PgsqlField → Str
  | .boolean (some true) => "1".toList
  | .boolean (some false) => "0".toList
  | .boolean none => []
  | .text value => value

/-- Prepare the statement, bind its parameters and run it. -/
def run (interp : Interp W) (self : Loc) (connection work : Nat) :
    M W (List (List (Str × PgsqlField))) := do
  let text ← interp.getParameter self "statement"
  match parse interp.dcl text with
  | none => Prog.halt .timeout
  | some (statement, names) => do
      M.io (interp.outside.pgsql.prepare connection work statement)
      let passed ← interp.getParameter self "parameters"
      let bound ← values names (interp.dcl.tokens passed)
      M.io (interp.outside.pgsql.exec work bound)

/-- Run the statement in the transaction the pointer names, or in one of its
own. -/
def fetch (interp : Interp W) (self : Loc) (connection : Nat)
    (pointer : Str) : M W (List (List (Str × PgsqlField))) :=
  if pointer.isEmpty then do
    let work ← rewrap (M.io (interp.outside.pgsql.work connection)) (pure ())
    rewrap
      (do
        let rows ← run interp self connection work
        M.io (interp.outside.pgsql.commit work)
        pure rows)
      (M.change (interp.outside.pgsql.abort work))
  else do
    let work ← M.pointer interp.dcl pointer
    rewrap (run interp self connection work) (pure ())

/-- `tag_query` of `dbp_pgsql`. -/
def execute (interp : Interp W) (self : Loc) (caller : Option Loc) :
    M W Unit := do
  let connection ← databasePointer interp self databaseHandle
  let pointer ← M.getValue workHandle
  let rows ← fetch interp self connection pointer
  let stem ← interp.getParameter self "prefix"
  Prog.forEach (fun row =>
      executeRow interp self caller
        (row.map fun field => (stem ++ field.1, columnText field.2)))
    rows

end TagQuery

end Pgsql

namespace Sqlite

def databaseHandle : String := "@SQLITE:DATABASE@"

/-- `tag_database` of `dbp_sqlite`. -/
def TagDatabase.execute (interp : Interp W) (self : Loc)
    (caller : Option Loc) : M W Unit := do
  let dsn ← interp.getParameter self "dsn"
  let database ← interp.getParameter self "id"
  Prog.when dsn.isEmpty
    (Prog.throw (interp.dcl.exception
      "data source name (dsn) is not defined" []))
  let pointer ← M.getValue (databaseHandle.toList ++ database)
  if !pointer.isEmpty then interp.executeChilds self caller
  else
    M.withLayer do
      let connection ← M.io (interp.outside.sqlite.acquire dsn)
      let isOpen ← M.io (interp.outside.sqlite.isOpen connection)
      Prog.when (!isOpen)
        (M.io (interp.outside.sqlite.openDatabase connection (cString dsn)))
      let id ← interp.getParameter self "id"
      let db ← M.io (interp.outside.sqlite.getPtr connection)
      M.addValue interp.dcl (databaseHandle.toList ++ id)
        (interp.dcl.toStringPtr db)
      interp.executeChilds self caller

/-- Run a statement without a result, and raise its error. -/
def exec (interp : Interp W) (connection : Nat) (statement : String) :
    M W Unit := do
  match ← M.io (interp.outside.sqlite.exec connection statement.toList) with
  | some message => Prog.throw (.dbp message)
  | none => pure ()

/-- `tag_transaction` of `dbp_sqlite`. -/
def TagTransaction.execute (interp : Interp W) (self : Loc)
    (caller : Option Loc) : M W Unit := do
  let connection ← databasePointer interp self databaseHandle
  exec interp connection "BEGIN"
  Prog.onError
    (do
      interp.executeChilds self caller
      exec interp connection "COMMIT")
    (exec interp connection "ROLLBACK")

namespace TagQuery

/-- Bind one parameter; an empty value is bound as NULL. -/
def bind (interp : Interp W) (stmt index : Nat) (value : Str) : M W Unit := do
  let bound ← M.io (interp.outside.sqlite.bind stmt index
    (if value.isEmpty then none else some value))
  Prog.when (!bound) (Prog.throw (.dbp (interp.outside.sqlite.errstr 1)))

/-- Bind the parameters; unnamed ones take the passed values as long as
there are any. -/
def bindAll (interp : Interp W) (stmt : Nat) :
    Nat → List (Option Str) → List Str → M W Unit
  | _, [], _ => pure ()
  | index, none :: names, [] => bindAll interp stmt (index + 1) names []
  | index, none :: names, value :: passed => do
      bind interp stmt index value
      bindAll interp stmt (index + 1) names passed
  | index, some name :: names, passed => do
      let value ← M.getValue name.tail
      bind interp stmt index value
      bindAll interp stmt (index + 1) names passed

/-- The variable for one column of a row. -/
def bindColumn (interp : Interp W) (column : Option Str × Option Str) :
    M W Unit :=
  match column.1 with
  | none =>
      Prog.throw (interp.dcl.exception
        "Can't allocate memory to fetch query results" [])
  | some name => M.addValue interp.dcl name (column.2.getD [])

/-- One round of the loop over the rows: the result of the next step, if
there is one. -/
def round (interp : Interp W) (self : Loc) (caller : Option Loc) (stmt : Nat)
    (code : SqliteStep) : M W (Option SqliteStep) :=
  M.withLayer
    (match code with
    | .done => do
        M.change (interp.outside.sqlite.reset stmt)
        pure none
    | .row columns => do
        Prog.forEach (bindColumn interp) columns
        interp.executeChilds self caller
        let next ← M.io (interp.outside.sqlite.step stmt)
        pure (some next)
    | .error code => Prog.throw (.dbp (interp.outside.sqlite.errstr code)))

def rows (interp : Interp W) (self : Loc) (caller : Option Loc) (stmt : Nat) :
    Nat → SqliteStep → M W Unit
  | 0, _ => Prog.halt .timeout
  | budget + 1, code => do
      match ← round interp self caller stmt code with
      | some next => rows interp self caller stmt budget next
      | none => pure ()

/-- The part of `execute` inside its outer `try` block. -/
def run (interp : Interp W) (self : Loc) (caller : Option Loc)
    (connection stmt : Nat) : M W Unit := do
  let passed ← interp.getParameter self "parameters"
  let names ← M.io (interp.outside.sqlite.parameterNames stmt)
  bindAll interp stmt 1 names (interp.dcl.tokens passed)
  match ← M.io (interp.outside.sqlite.step stmt) with
  | .done =>
      let changes ← M.io (interp.outside.sqlite.changes connection)
      if changes > 0 then do
        M.change (interp.outside.sqlite.reset stmt)
        M.withLayer (interp.executeChilds self caller)
      else rows interp self caller stmt interp.budget .done
  | code => rows interp self caller stmt interp.budget code

/-- `tag_query` of `dbp_sqlite`. -/
def execute (interp : Interp W) (self : Loc) (caller : Option Loc) :
    M W Unit := do
  let connection ← databasePointer interp self databaseHandle
  let statement ← interp.getParameter self "statement"
  match ← M.io (interp.outside.sqlite.prepare connection statement) with
  | none => Prog.throw (.dbp (interp.outside.sqlite.errstr 1))
  | some stmt =>
      (run interp self caller connection stmt).onError
        (M.change (interp.outside.sqlite.finalize stmt))
      M.change (interp.outside.sqlite.finalize stmt)

end TagQuery

end Sqlite

namespace Odbc

def databaseHandle : String := "@ODBC:DATABASE@"

/-- `tag_database` of `dbp_odbc`.  The handler closes the connection before
it leaves the layer; an exception raised by that leaves the layer on the
stack. -/
def TagDatabase.execute (interp : Interp W) (self : Loc)
    (caller : Option Loc) : M W Unit := do
  let dsn ← interp.getParameter self "dsn"
  let user ← interp.getParameter self "user"
  let password ← interp.getParameter self "password"
  let database ← interp.getParameter self "id"
  Prog.when dsn.isEmpty
    (Prog.throw (interp.dcl.exception
      "data source name (dsn) is not defined" []))
  let pointer ← M.getValue (databaseHandle.toList ++ database)
  if !pointer.isEmpty then interp.executeChilds self caller
  else do
    let connection ← M.io
      (interp.outside.odbc.acquire (dsn ++ user ++ password))
    M.enter
    Prog.onError
      (do
        let isOpen ← M.io (interp.outside.odbc.isOpen connection)
        Prog.when (!isOpen)
          (M.io (interp.outside.odbc.openConnection connection dsn user
            password))
        let id ← interp.getParameter self "id"
        M.addValue interp.dcl (databaseHandle.toList ++ id)
          (interp.dcl.toStringPtr connection)
        interp.executeChilds self caller)
      (do
        (M.io (interp.outside.odbc.close connection)).onError
          (M.record (.leak .odbcClose))
        M.leave)
    M.leave

/-- `tag_transaction` of `dbp_odbc`. -/
def TagTransaction.execute (interp : Interp W) (self : Loc)
    (caller : Option Loc) : M W Unit := do
  let connection ← databasePointer interp self databaseHandle
  M.io (interp.outside.odbc.beginTransaction connection)
  Prog.onError
    (do
      interp.executeChilds self caller
      M.io (interp.outside.odbc.commit connection))
    (M.io (interp.outside.odbc.rollback connection))

/-- The values of the parameters; an unnamed one without a passed value is
not set. -/
def TagQuery.values : List Str → List Str → M W (List (Option Str))
  | [], _ => pure []
  | name :: names, passed =>
      if name.isEmpty then do
        let later ← TagQuery.values names passed.tail
        pure (passed.head? :: later)
      else do
        let value ← M.getValue name
        let later ← TagQuery.values names passed
        pure (some value :: later)

/-- `tag_query` of `dbp_odbc`. -/
def TagQuery.execute (interp : Interp W) (self : Loc) (caller : Option Loc) :
    M W Unit := do
  let connection ← databasePointer interp self databaseHandle
  let statement ← interp.getParameter self "statement"
  let (query, names) ←
    M.io (interp.outside.odbc.prepare connection statement)
  let passed ← interp.getParameter self "parameters"
  let bound ← TagQuery.values names (interp.dcl.tokens passed)
  M.io (interp.outside.odbc.execute query bound)
  Prog.whileSome (M.io (interp.outside.odbc.next query))
    (executeRow interp self caller) interp.budget

end Odbc

end DbPager
