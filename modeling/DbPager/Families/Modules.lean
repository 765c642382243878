import DbPager.Evaluation
import DbPager.Families.Core

/-!
# The tags of the modules, and all tags together

The databases and services follow the same pattern as the built-in tags.  At
the end, one statement covers every class of tags that neither touches the
stack of calls nor looks at the caller.
-/

namespace DbPager

open Effect

open Prog (Uniform)

variable {W ι : Type} {family : Family W ι} {Allowed : Permits W}
  {seen : Prop}
  {Holds Inside Closes : ∀ {α : Type}, (ι → M W α) → Prop}

namespace Pgsql.TagQuery

/-- A placeholder has no colon in its name. -/
theorem parseLoop_spelt {dcl : Dcl} {budget : Nat} :
    ∀ {rest : Str} {ssq dsq : Bool} {n : Nat} {q text : Str}
      {parameters names : List Str}, (∀ name ∈ parameters, Spelt name) →
      parseLoop dcl budget rest ssq dsq n q parameters = some (text, names) →
      ∀ name ∈ names, Spelt name := by
  induction budget with
  | zero =>
      intro rest ssq dsq n q text parameters names spelt parsed
      cases parsed
  | succ budget induction =>
      intro rest ssq dsq n q text parameters names spelt parsed
      cases rest with
      | nil =>
          cases parsed
          exact spelt
      | cons c rest =>
          have appended (name : Str) (named : Spelt name) :
              ∀ other ∈ parameters ++ [name], Spelt other := by
            intro other member
            rcases List.mem_append.mp member with earlier | here
            · exact spelt other earlier
            · exact List.mem_singleton.mp here ▸ named
          simp only [parseLoop] at parsed
          repeat' split at parsed
          · exact induction spelt parsed
          · exact induction spelt parsed
          · exact induction (appended [] List.not_mem_nil) parsed
          · have named := spelt_takeWhile (by decide : isParamChar ':' = false) rest
            exact induction (appended _ named) parsed
          · exact induction spelt parsed

theorem parse_spelt {dcl : Dcl} {statement : Str} {parsed : Str × List Str}
    (divided : parse dcl statement = some parsed) :
    ∀ name ∈ parsed.2, Spelt name :=
  parseLoop_spelt (List.forall_mem_nil _) divided

end Pgsql.TagQuery

section Modules

variable (native : Native family.outside.dcl Allowed seen Holds Inside Closes)
  (serves : family.Serves Holds)

namespace Family

theorem rewrap_uniform {α : Type} {body : ι → M W α} {cleanup : ι → M W Unit}
    (uniform : Uniform Holds) (ran : Holds body) (cleaned : Holds cleanup) :
    Holds fun member => rewrap (body member) (cleanup member) := by
  apply uniform.tryCatch ran
  intro exception
  apply Uniform.ite _ (uniform.throw exception)
  exact uniform.bind cleaned fun _ => uniform.throw _

include native serves

theorem databasePointer_uniform {stem : String}
    (other : (upName stem.toList).isPrefixOf htmlFirst = false) :
    Holds fun member =>
    databasePointer (family.interp member) (family.self member) stem := by
  simp only [databasePointer, family.shared]
  refine native.bind (serves.parameter native "database") fun database => ?_
  refine native.bind (native.getValue _ (.stem other _)) fun pointer => ?_
  apply Uniform.ite _ (native.pointer _)
  exact native.bind (serves.parameter native "database") fun _ =>
    native.throw _

theorem executeRow_uniform (columns : List (Str × Str)) : Holds fun member =>
    executeRow (family.interp member) (family.self member)
      (family.callers member) columns := by
  simp only [executeRow, family.shared]
  apply native.withLayer
  exact native.inside.bind
    (native.inside.forEach fun column _ => native.addValue _ _)
    fun _ => native.raise serves.childs

omit serves in
theorem fixedPointer_uniform {variableName : Str}
    (apart : Apart seen variableName) (message : String) :
    Holds fun member =>
      fixedPointer (family.interp member) variableName message := by
  simp only [fixedPointer, family.shared]
  refine native.bind (native.getValue _ apart) fun pointer => ?_
  exact Uniform.ite (native.throw _) (native.pointer _)

section Pgsql

open Pgsql

variable {pgsql ldap : Prop}
  (permitted : family.outside.Permitted pgsql ldap Allowed)
  (api : family.outside.pgsql.Permitted Allowed)

omit serves in
theorem pgsqlValues_uniform {names : List Str}
    (apart : ∀ name ∈ names, Apart seen name) :
    ∀ passed, Holds fun _ => (TagQuery.values names passed : M W _) := by
  induction names with
  | nil => exact fun _ => native.pure _
  | cons name names induction =>
      intro passed
      obtain ⟨here, later⟩ := List.forall_mem_cons.mp apart
      apply Uniform.ite
      · cases passed with
        | nil => exact native.halt .fault
        | cons value rest =>
            exact native.bind (induction later _) fun _ => native.pure _
      · refine native.bind (native.getValue _ here) fun value => ?_
        exact native.bind (induction later _) fun _ => native.pure _

include permitted api in
/-- Every way out of the loop leaves the layer, except for the logger's
exception, which is a leak. -/
theorem pgsqlLoop_uniform (dsn : Str) (item attempts : Nat) :
    Closes fun member =>
      TagDatabase.loop (family.interp member) (family.self member)
        (family.callers member) dsn item attempts := by
  have inner := serves.inside native
  have log := fun level message =>
    family.logMessage_uniform native permitted level message
  have connect : Holds fun member =>
      TagDatabase.connect (family.interp member) dsn item := by
    simp only [TagDatabase.connect, family.shared]
    refine native.bind (native.io (api.connection item)) fun found => ?_
    cases found with
    | some connection => exact native.pure connection
    | none => exact native.io (api.connect item dsn)
  have attempt : Inside fun member =>
      TagDatabase.attempt (family.interp member) (family.self member)
        (family.callers member) dsn item := by
    simp only [TagDatabase.attempt, family.shared]
    refine native.inside.bind (native.raise connect) fun connection => ?_
    refine native.inside.bind (inner.getParameter native.inside "id")
      fun id => ?_
    exact native.inside.bind (native.addValue _ _) fun _ => inner.childs
  induction attempts with
  | zero => exact native.stop .timeout
  | succ attempts induction =>
      simp only [TagDatabase.loop, family.shared]
      apply native.tryLeave attempt
      intro exception
      apply Uniform.ite
      · apply native.before (api.reset item)
        apply Uniform.ite
        · refine native.follow native.leave fun _ => ?_
          exact native.bind (log _ _) fun _ => native.throw _
        · exact native.guarded (native.raise (log _ _)) (native.leak _)
            fun _ => induction
      · exact native.follow native.leave fun _ => native.throw _

include permitted api in
theorem pgsqlDatabase_uniform : Holds fun member =>
    TagDatabase.execute (family.interp member) (family.self member)
      (family.callers member) := by
  simp only [TagDatabase.execute, family.shared]
  refine native.bind (serves.parameter native "dsn") fun dsn => ?_
  refine native.bind (serves.parameter native "id") fun database => ?_
  refine native.bind (native.when (native.throw _)) fun _ => ?_
  refine native.bind (native.getValue _ (.stem (by decide) _)) fun pointer => ?_
  apply Uniform.ite serves.childs
  refine native.bind (native.io (api.acquire dsn)) fun item => ?_
  exact native.enter
    (family.pgsqlLoop_uniform native serves permitted api dsn item 3)

include api in
theorem pgsqlTransaction_uniform : Holds fun member =>
    TagTransaction.execute (family.interp member) (family.self member)
      (family.callers member) := by
  simp only [TagTransaction.execute, family.shared]
  refine native.bind (family.databasePointer_uniform native serves (by decide))
    fun connection => ?_
  refine native.bind (rewrap_uniform native.toUniform
    (native.io (api.work connection)) (native.pure _)) fun work => ?_
  apply native.withLayer
  apply native.inside.onError _ (native.raise (native.change (api.abort work)))
  refine native.inside.bind (native.addValue _ _) fun _ => native.raise ?_
  exact native.bind serves.childs fun _ => native.io (api.commit work)

include api in
theorem pgsqlRun_uniform (connection work : Nat) : Holds fun member =>
    TagQuery.run (family.interp member) (family.self member) connection
      work := by
  simp only [TagQuery.run, family.shared]
  refine native.bind (serves.parameter native "statement") fun text => ?_
  cases divided : TagQuery.parse family.outside.dcl text with
  | none => exact native.halt .timeout
  | some parsed =>
      have spelt := TagQuery.parse_spelt divided
      refine native.bind (native.io (api.prepare _ _ _)) fun _ => ?_
      refine native.bind (serves.parameter native "parameters")
        fun passed => ?_
      refine native.bind (pgsqlValues_uniform native ?_ _) fun bound =>
        native.io (api.exec _ _)
      exact fun name member => .of_ne (spelt name member).ne_htmlFirst

include api in
theorem pgsqlQuery_uniform : Holds fun member =>
    TagQuery.execute (family.interp member) (family.self member)
      (family.callers member) := by
  have run := fun connection work =>
    family.pgsqlRun_uniform native serves api connection work
  simp only [TagQuery.execute, TagQuery.fetch, family.shared]
  refine native.bind (family.databasePointer_uniform native serves (by decide))
    fun connection => ?_
  refine native.bind (native.getValue _ (.of_ne (by decide))) fun pointer => ?_
  refine native.bind (Uniform.ite ?_ ?_) fun rows => ?_
  · refine native.bind (rewrap_uniform native.toUniform
      (native.io (api.work connection)) (native.pure _)) fun work => ?_
    apply rewrap_uniform native.toUniform _ (native.change (api.abort work))
    refine native.bind (run connection work) fun rows => ?_
    exact native.bind (native.io (api.commit work)) fun _ => native.pure rows
  · refine native.bind (native.pointer _) fun work => ?_
    exact rewrap_uniform native.toUniform (run connection work)
      (native.pure _)
  · refine native.bind (serves.parameter native "prefix") fun stem => ?_
    exact native.forEach fun row _ =>
      family.executeRow_uniform native serves _

end Pgsql

section Sqlite

open Sqlite

variable (api : family.outside.sqlite.Permitted Allowed)
include api

theorem sqliteDatabase_uniform : Holds fun member =>
    TagDatabase.execute (family.interp member) (family.self member)
      (family.callers member) := by
  have inner := serves.inside native
  have ask := fun {α : Type} {operation : Io W α}
    (allowed : Allowed operation) => native.raise (native.io allowed)
  simp only [TagDatabase.execute, family.shared]
  refine native.bind (serves.parameter native "dsn") fun dsn => ?_
  refine native.bind (serves.parameter native "id") fun database => ?_
  refine native.bind (native.when (native.throw _)) fun _ => ?_
  refine native.bind (native.getValue _ (.stem (by decide) _)) fun pointer => ?_
  apply Uniform.ite serves.childs
  apply native.withLayer
  refine native.inside.bind (ask (api.acquire dsn)) fun connection => ?_
  refine native.inside.bind (ask (api.isOpen connection)) fun isOpen => ?_
  refine native.inside.bind
    (native.inside.when (ask (api.openDatabase _ _))) fun _ => ?_
  refine native.inside.bind (inner.getParameter native.inside "id")
    fun id => ?_
  refine native.inside.bind (ask (api.getPtr connection)) fun db => ?_
  exact native.inside.bind (native.addValue _ _) fun _ => inner.childs

omit serves in
theorem exec_uniform (connection : Nat) (statement : String) :
    Holds fun member =>
      exec (family.interp member) connection statement := by
  simp only [exec, family.shared]
  refine native.bind (native.io (api.exec _ _)) fun result => ?_
  cases result with
  | some message => exact native.throw _
  | none => exact native.pure _

theorem sqliteTransaction_uniform : Holds fun member =>
    TagTransaction.execute (family.interp member) (family.self member)
      (family.callers member) := by
  have exec := fun connection statement =>
    family.exec_uniform native api connection statement
  refine native.bind (family.databasePointer_uniform native serves (by decide))
    fun connection => ?_
  refine native.bind (exec _ _) fun _ => ?_
  apply native.onError _ (exec _ _)
  exact native.bind serves.childs fun _ => exec _ _

omit serves in
theorem bindAll_uniform (stmt : Nat) {names : List (Option Str)}
    (apart : ∀ name, some name ∈ names → Apart seen name.tail) :
    ∀ index passed, Holds fun member =>
      TagQuery.bindAll (family.interp member) stmt index names passed := by
  have bound : ∀ index value, Holds fun member =>
      TagQuery.bind (family.interp member) stmt index value := by
    intro index value
    simp only [TagQuery.bind, family.shared]
    exact native.bind (native.io (api.bind _ _ _)) fun _ =>
      native.when (native.throw _)
  induction names with
  | nil => exact fun _ _ => native.pure _
  | cons name names induction =>
      intro index passed
      have later := induction fun other member =>
        apart other (List.mem_cons_of_mem _ member)
      cases name with
      | none =>
          cases passed with
          | nil => exact later _ _
          | cons value passed =>
              exact native.bind (bound _ _) fun _ => later _ _
      | some name =>
          have here := apart name List.mem_cons_self
          refine native.bind (native.getValue _ here) fun value => ?_
          exact native.bind (bound _ _) fun _ => later _ _

theorem sqliteRows_uniform (stmt budget : Nat) :
    ∀ code, Holds fun member =>
      TagQuery.rows (family.interp member) (family.self member)
        (family.callers member) stmt budget code := by
  have round : ∀ code, Holds fun member =>
      TagQuery.round (family.interp member) (family.self member)
        (family.callers member) stmt code := by
    intro code
    simp only [TagQuery.round, family.shared]
    apply native.withLayer
    cases code with
    | done =>
        exact native.inside.bind (native.raise (native.change (api.reset stmt)))
          fun _ => native.inside.pure _
    | row columns =>
        refine native.inside.bind (native.inside.forEach fun column _ => ?_)
          fun _ => native.raise ?_
        · simp only [TagQuery.bindColumn, family.shared]
          cases column.1 with
          | none => exact native.inside.throw _
          | some name => exact native.addValue _ _
        · refine native.bind serves.childs fun _ => ?_
          exact native.bind (native.io (api.step stmt)) fun _ => native.pure _
    | error code => exact native.inside.throw _
  induction budget with
  | zero => exact fun _ => native.halt .timeout
  | succ budget induction =>
      intro code
      refine native.bind (round code) fun next => ?_
      cases next with
      | some next => exact induction next
      | none => exact native.pure _

theorem sqliteQuery_uniform (apart : family.outside.sqlite.NamesApart seen) :
    Holds fun member =>
    TagQuery.execute (family.interp member) (family.self member)
      (family.callers member) := by
  have rows := fun stmt code => family.sqliteRows_uniform native serves api
    stmt family.budget code
  have run : ∀ connection stmt, Holds fun member =>
      TagQuery.run (family.interp member) (family.self member)
        (family.callers member) connection stmt := by
    intro connection stmt
    simp only [TagQuery.run, family.shared]
    refine native.bind (serves.parameter native "parameters") fun passed => ?_
    refine native.ask (api.parameterNames stmt) fun world names found => ?_
    refine native.bind
      (family.bindAll_uniform native api _ (apart found) _ _) fun _ => ?_
    refine native.bind (native.io (api.step stmt)) fun code => ?_
    cases code with
    | done =>
        refine native.bind (native.io (api.changes connection))
          fun changes => ?_
        apply Uniform.ite _ (rows stmt .done)
        refine native.bind (native.change (api.reset stmt)) fun _ => ?_
        exact native.withLayer (native.raise serves.childs)
    | row columns => exact rows stmt (.row columns)
    | error code => exact rows stmt (.error code)
  simp only [TagQuery.execute, family.shared]
  refine native.bind (family.databasePointer_uniform native serves (by decide))
    fun connection => ?_
  refine native.bind (serves.parameter native "statement") fun statement => ?_
  refine native.bind (native.io (api.prepare _ _)) fun prepared => ?_
  cases prepared with
  | none => exact native.throw _
  | some stmt =>
      have finalize := native.change (api.finalize stmt)
      exact native.bind (native.onError (run connection stmt) finalize)
        fun _ => finalize

end Sqlite

section Odbc

open Odbc

variable (api : family.outside.odbc.Permitted Allowed)

omit serves in
theorem odbcValues_uniform {names : List Str}
    (apart : ∀ name ∈ names, Apart seen name) :
    ∀ passed, Holds fun _ => (TagQuery.values names passed : M W _) := by
  induction names with
  | nil => exact fun _ => native.pure _
  | cons name names induction =>
      intro passed
      obtain ⟨here, later⟩ := List.forall_mem_cons.mp apart
      apply Uniform.ite
      · exact native.bind (induction later _) fun _ => native.pure _
      · refine native.bind (native.getValue _ here) fun value => ?_
        exact native.bind (induction later _) fun _ => native.pure _

include api

theorem odbcDatabase_uniform : Holds fun member =>
    TagDatabase.execute (family.interp member) (family.self member)
      (family.callers member) := by
  have inner := serves.inside native
  have ask := fun {α : Type} {operation : Io W α}
    (allowed : Allowed operation) => native.raise (native.io allowed)
  simp only [TagDatabase.execute, family.shared]
  refine native.bind (serves.parameter native "dsn") fun dsn => ?_
  refine native.bind (serves.parameter native "user") fun user => ?_
  refine native.bind (serves.parameter native "password") fun password => ?_
  refine native.bind (serves.parameter native "id") fun database => ?_
  refine native.bind (native.when (native.throw _)) fun _ => ?_
  refine native.bind (native.getValue _ (.stem (by decide) _)) fun pointer => ?_
  apply Uniform.ite serves.childs
  refine native.bind (native.io (api.acquire _)) fun connection => ?_
  apply native.enter
  refine native.guarded ?_ ?_ fun _ => native.leave
  · refine native.inside.bind (ask (api.isOpen connection)) fun isOpen => ?_
    refine native.inside.bind
      (native.inside.when (ask (api.openConnection _ _ _ _))) fun _ => ?_
    refine native.inside.bind (inner.getParameter native.inside "id")
      fun id => ?_
    exact native.inside.bind (native.addValue _ _) fun _ => inner.childs
  · exact native.guarded (ask (api.close connection)) (native.leak _)
      fun _ => native.leave

theorem odbcTransaction_uniform : Holds fun member =>
    TagTransaction.execute (family.interp member) (family.self member)
      (family.callers member) := by
  simp only [TagTransaction.execute, family.shared]
  refine native.bind (family.databasePointer_uniform native serves (by decide))
    fun connection => ?_
  refine native.bind (native.io (api.beginTransaction _)) fun _ => ?_
  apply native.onError _ (native.io (api.rollback _))
  exact native.bind serves.childs fun _ => native.io (api.commit _)

theorem odbcQuery_uniform (apart : family.outside.odbc.NamesApart seen) :
    Holds fun member =>
    TagQuery.execute (family.interp member) (family.self member)
      (family.callers member) := by
  simp only [TagQuery.execute, family.shared]
  refine native.bind (family.databasePointer_uniform native serves (by decide))
    fun connection => ?_
  refine native.bind (serves.parameter native "statement") fun statement => ?_
  refine native.ask (api.prepare _ _) fun world prepared found => ?_
  refine native.bind (serves.parameter native "parameters") fun passed => ?_
  refine native.bind (odbcValues_uniform native (apart found) _)
    fun bound => ?_
  refine native.bind (native.io (api.execute _ _)) fun _ => ?_
  exact native.whileSome (native.io (api.next _))
    (fun row => family.executeRow_uniform native serves row) _

end Odbc

section Redis

open Redis

variable (api : family.outside.redis.Permitted Allowed)

theorem withValue_uniform {value : M W Str}
    (computed : Inside fun _ => value) : Inside fun member =>
      withValue (family.interp member) (family.self member)
        (family.callers member) value := by
  simp only [withValue, family.shared]
  refine native.inside.bind computed fun text => ?_
  exact native.inside.bind (native.addValue _ _) fun _ =>
    native.raise serves.childs

include api

theorem redisConnection_uniform : Holds fun member =>
    TagConnection.execute (family.interp member) (family.self member)
      (family.callers member) := by
  have ask := fun {α : Type} {operation : Io W α}
    (allowed : Allowed operation) => native.raise (native.io allowed)
  simp only [TagConnection.execute, family.shared]
  refine native.bind (serves.parameter native "server") fun _ => ?_
  refine native.bind (serves.parameter native "password") fun _ => ?_
  refine native.bind (serves.parameter native "id") fun id => ?_
  refine native.bind (native.getValue _ (.stem (by decide) _)) fun pointer => ?_
  apply Uniform.ite serves.childs
  refine native.bind (native.io (api.acquire _)) fun connection => ?_
  apply native.withLayer
  apply native.inside.onError _
    (native.raise (native.change (api.reset connection)))
  refine native.inside.bind (ask (api.isConfigured _)) fun configured => ?_
  refine native.inside.bind (native.inside.when ?_) fun _ => ?_
  · refine native.inside.bind (ask (api.configure _ _)) fun _ => ?_
    refine native.inside.bind (native.inside.when (ask (api.login _ _)))
      fun _ => ?_
    exact native.inside.when (ask (api.selectDatabase _ _))
  · exact native.inside.bind (native.addValue _ _) fun _ =>
      native.raise serves.childs

omit api in
theorem reply_uniform (reply : RedisReply) :
    Inside fun member =>
      TagQuery.process (family.interp member) (family.self member)
        (family.callers member) reply := by
  have text : ∀ reply, Inside fun _ => (textOf reply : M W Str) :=
    fun reply => native.inside.orThrow _ _
  have given := fun {value : M W Str} (computed : Inside fun _ => value) =>
    family.withValue_uniform native serves computed
  cases reply with
  | status str => exact given (text _)
  | error str => exact native.inside.throw _
  | integer value =>
      simp only [TagQuery.process, family.shared]
      exact given (native.inside.pure _)
  | string str => exact given (text _)
  | nil => exact native.inside.pure _
  | array elements =>
      simp only [TagQuery.process, family.shared]
      refine native.inside.bind (native.addValue _ _) fun _ => ?_
      apply native.raise
      exact native.forEach fun element _ => native.withLayer (given (text _))
  | unknown => exact native.inside.throw _

theorem redisQuery_uniform : Holds fun member =>
    TagQuery.execute (family.interp member) (family.self member)
      (family.callers member) := by
  have inner := serves.inside native
  simp only [TagQuery.execute, family.shared]
  refine native.bind (family.databasePointer_uniform native serves (by decide))
    fun connection => ?_
  apply native.withLayer
  apply rewrap_uniform native.inside _ (native.inside.pure _)
  refine native.inside.bind (inner.getParameter native.inside "command")
    fun statement => ?_
  refine native.inside.bind (inner.getParameter native.inside "args")
    fun args => ?_
  refine native.inside.bind (native.raise (native.io (api.command _ _)))
    fun answer => ?_
  cases answer with
  | error message => exact native.inside.throw _
  | ok reply => exact family.reply_uniform native serves reply

end Redis

section Bdb

open Bdb

variable (api : family.outside.bdb.Permitted Allowed)

theorem keyAndStorage_uniform : Holds fun member =>
    keyAndStorage (family.interp member) (family.self member) := by
  simp only [keyAndStorage, family.shared]
  refine native.bind (serves.parameter native "name") fun name => ?_
  refine native.bind (native.when (native.throw _)) fun _ => ?_
  refine native.bind (serves.parameter native "storage") fun storage => ?_
  refine native.bind (native.getValue _ (.stem (by decide) _)) fun pointer => ?_
  apply Uniform.ite
  · exact native.bind (serves.parameter native "storage") fun _ =>
      native.throw _
  · exact native.bind (native.pointer _) fun _ => native.pure _

include api

theorem bdbStorage_uniform : Holds fun member =>
    TagStorage.execute (family.interp member) (family.self member)
      (family.callers member) := by
  simp only [TagStorage.execute, family.shared]
  refine native.bind (serves.parameter native "href") fun href => ?_
  refine native.bind (serves.parameter native "id") fun id => ?_
  refine native.bind (native.when (native.throw _)) fun _ => ?_
  refine native.bind (native.io (api.openStorage href)) fun db => ?_
  apply native.withLayer
  exact native.inside.bind (native.addValue _ _) fun _ =>
    native.raise serves.childs

theorem bdbGet_uniform : Holds fun member =>
    TagGet.execute (family.interp member) (family.self member)
      (family.callers member) := by
  refine native.bind (family.keyAndStorage_uniform native serves)
    fun ⟨name, db⟩ => ?_
  refine native.bind (native.io (api.get db name)) fun value => ?_
  exact native.bind (native.emit value) fun _ => serves.childs

theorem bdbSet_uniform : Holds fun member =>
    Bdb.TagSet.execute (family.interp member) (family.self member)
      (family.callers member) := by
  refine native.bind (family.keyAndStorage_uniform native serves)
    fun ⟨name, db⟩ => ?_
  exact native.bind (native.capture serves.childs) fun value =>
    native.io (api.set db name value)

theorem bdbDelete_uniform : Holds fun member =>
    Bdb.TagDelete.execute (family.interp member) (family.self member)
      (family.callers member) := by
  refine native.bind (family.keyAndStorage_uniform native serves)
    fun ⟨name, db⟩ => ?_
  exact native.bind (native.io (api.del db name)) fun _ => serves.childs

theorem bdbFind_uniform : Holds fun member =>
    TagFind.execute (family.interp member) (family.self member)
      (family.callers member) := by
  refine native.bind (family.keyAndStorage_uniform native serves)
    fun ⟨name, db⟩ => ?_
  refine native.bind (native.io (api.find db name)) fun cursor => ?_
  exact native.whileSome (native.io (api.next cursor))
    (fun record => family.executeRow_uniform native serves _) _

end Bdb

section Mongo

open Mongo

variable (api : family.outside.mongo.Permitted Allowed)

theorem onCollection_uniform {body : ι → Nat → Str → M W Unit}
    (runs : ∀ db collection, Inside fun member => body member db collection) :
    Holds fun member =>
      onCollection (family.interp member) (family.self member)
        (body member) := by
  simp only [onCollection, family.shared]
  refine native.bind (serves.parameter native "collection")
    fun collection => ?_
  refine native.bind (native.when (native.throw _)) fun _ => ?_
  refine native.bind (family.fixedPointer_uniform native
    (.of_ne (by decide)) _) fun db => ?_
  exact native.withLayer (runs db collection)

theorem mongoUpdate_uniform : Holds fun member =>
    TagUpdate.execute (family.interp member) (family.self member) :=
  family.onCollection_uniform native serves fun _ _ => native.inside.pure _

include api

theorem mongoDatabase_uniform : Holds fun member =>
    Mongo.TagDatabase.execute (family.interp member) (family.self member)
      (family.callers member) := by
  simp only [Mongo.TagDatabase.execute, family.shared]
  refine native.bind (serves.parameter native "host") fun host => ?_
  refine native.bind (native.when (native.throw _)) fun _ => ?_
  refine native.bind (native.io (api.connect host)) fun db => ?_
  apply native.withLayer
  exact native.inside.bind (native.addValue _ _) fun _ =>
    native.raise serves.childs

theorem buildQuery_uniform : Inside fun member =>
    buildQuery (family.interp member) (family.self member)
      (family.callers member) := by
  simp only [buildQuery, family.shared]
  refine native.inside.bind (native.raise (native.io api.builder))
    fun builder => ?_
  refine native.inside.bind (native.addValue _ _) fun _ => native.raise ?_
  exact native.bind serves.childs fun _ => native.pure builder

theorem mongoDelete_uniform : Holds fun member =>
    Mongo.TagDelete.execute (family.interp member) (family.self member)
      (family.callers member) := by
  apply family.onCollection_uniform native serves
  intro db collection
  exact native.inside.bind (family.buildQuery_uniform native serves api)
    fun builder => native.raise (native.io (api.remove _ _ _))

theorem mongoInsert_uniform : Holds fun member =>
    TagInsert.execute (family.interp member) (family.self member)
      (family.callers member) := by
  apply family.onCollection_uniform native serves
  intro db collection
  exact native.inside.bind (family.buildQuery_uniform native serves api)
    fun builder => native.raise (native.io (api.insert _ _ _))

theorem mongoQuery_uniform : Holds fun member =>
    Mongo.TagQuery.execute (family.interp member) (family.self member)
      (family.callers member) := by
  apply family.onCollection_uniform native serves
  intro db collection
  refine native.inside.bind (family.buildQuery_uniform native serves api)
    fun builder => native.raise ?_
  exact native.bind (native.io (api.query _ _ _)) fun documents =>
    native.emit _

theorem mongoParam_uniform : Holds fun member =>
    TagParam.execute (family.interp member) (family.self member) := by
  simp only [TagParam.execute, family.shared]
  refine native.bind (family.fixedPointer_uniform native
    (.of_ne (by decide)) _)
    fun builder => ?_
  refine native.bind (serves.parameter native "value") fun value => ?_
  refine native.bind (serves.parameter native "name") fun name => ?_
  exact Uniform.ite (native.throw _) (native.io (api.append _ _ _))

end Mongo

section Ldap

open Ldap

variable (api : family.outside.ldap.Permitted Allowed)
include api

theorem ldapConnection_uniform : Holds fun member =>
    Ldap.TagConnection.execute (family.interp member) (family.self member)
      (family.callers member) := by
  simp only [Ldap.TagConnection.execute, family.shared]
  refine native.bind (serves.parameter native "href") fun href => ?_
  refine native.bind (native.when (native.throw _)) fun _ => ?_
  apply native.enter
  refine native.guarded (native.raise (native.io (api.connect href)))
    (native.leak _) fun connection => ?_
  refine native.guarded ?_ native.leave fun _ => native.leave
  exact native.inside.bind (native.addValue _ _) fun _ =>
    native.raise serves.childs

/-- The tag, with anything for what it does when it is refused after its
layer has been left. -/
theorem ldapBindWith_uniform {refused : ι → M W Unit}
    (ends : Holds refused) : Holds fun member => (do
      let dn ← (family.interp member).getParameter (family.self member) "dn"
      let password ←
        (family.interp member).getParameter (family.self member) "password"
      let connection ← Ldap.pointer (family.interp member)
      M.withLayer do
        M.addValue (family.interp member).dcl bindDn dn
        M.addValue (family.interp member).dcl bindPw password
        M.io (family.outside.ldap.bind connection dn password)
        (family.interp member).executeChilds (family.self member)
          (family.callers member)
      (TagBind.rebind (family.interp member) connection).onError
        (refused member) : M W Unit) := by
  simp only [TagBind.rebind, Ldap.pointer, family.shared]
  refine native.bind (serves.parameter native "dn") fun dn => ?_
  refine native.bind (serves.parameter native "password") fun password => ?_
  refine native.bind (family.fixedPointer_uniform native
    (.of_ne (by decide)) _) fun connection => ?_
  refine native.bind (native.withLayer ?_) fun _ => ?_
  · refine native.inside.bind (native.addValue _ _) fun _ => ?_
    refine native.inside.bind (native.addValue _ _) fun _ => native.raise ?_
    exact native.bind (native.io (api.bind _ _ _)) fun _ => serves.childs
  · apply native.onError _ ends
    refine native.bind (native.getValue _ (.of_ne (by decide))) fun oldDn => ?_
    refine native.bind (native.getValue _ (.of_ne (by decide))) fun oldPw => ?_
    exact native.when (native.io (api.bind _ _ _))

theorem ldapBind_uniform (sees : seen) : Holds fun member =>
    TagBind.execute (family.interp member) (family.self member)
      (family.callers member) :=
  family.ldapBindWith_uniform native serves api (native.leaveTwice _ sees)

theorem ldapSearch_uniform : Holds fun member =>
    TagSearch.execute (family.interp member) (family.self member)
      (family.callers member) := by
  simp only [TagSearch.execute, Ldap.pointer, family.shared]
  refine native.bind (serves.parameter native "base") fun basedn => ?_
  refine native.bind (native.when (native.throw _)) fun _ => ?_
  refine native.bind (serves.parameter native "filter") fun filter => ?_
  refine native.bind (native.when (native.throw _)) fun _ => ?_
  refine native.bind (family.fixedPointer_uniform native
    (.of_ne (by decide)) _)
    fun connection => ?_
  refine native.bind (native.io (api.search _ _ _)) fun rows => ?_
  exact native.forEach fun row _ => family.executeRow_uniform native serves row

end Ldap

section Mqtt

open Mqtt

variable (api : family.outside.mqtt.Permitted Allowed)
include api

theorem mqttConnection_uniform : Holds fun member =>
    Mqtt.TagConnection.execute (family.interp member) (family.self member)
      (family.callers member) := by
  simp only [Mqtt.TagConnection.execute, family.shared]
  refine native.bind (native.getValue _ (.of_ne (by decide))) fun pointer => ?_
  apply Uniform.ite serves.childs
  refine native.bind (native.io api.connection) fun connection => ?_
  refine native.bind (native.withLayer ?_) fun _ =>
    native.change (api.disconnect connection)
  refine native.inside.bind (native.inside.when (native.raise ?_))
    fun _ => ?_
  · exact native.bind (native.io (api.authenticate _ _ _)) fun _ =>
      native.when (native.throw _)
  · refine native.inside.bind (native.raise (native.int _)) fun port => ?_
    refine native.inside.bind (native.raise (native.io (api.connect _ _ _)))
      fun connected => ?_
    refine native.inside.bind (native.inside.when (native.inside.throw _))
      fun _ => ?_
    exact native.inside.bind (native.addValue _ _) fun _ =>
      native.raise serves.childs

theorem mqttPub_uniform : Holds fun member =>
    TagPub.execute (family.interp member) (family.self member)
      (family.callers member) := by
  simp only [TagPub.execute, Mqtt.pointer, family.shared]
  refine native.bind (serves.parameter native "topic") fun topic => ?_
  refine native.bind (serves.parameter native "qos") fun qos => ?_
  refine native.bind (serves.parameter native "retain") fun retain => ?_
  refine native.bind (native.capture serves.childs) fun payload => ?_
  refine native.bind (family.fixedPointer_uniform native
    (.of_ne (by decide)) _)
    fun connection => ?_
  refine native.bind (native.int _) fun level => ?_
  refine native.bind (native.orThrow _ _) fun kept => ?_
  exact native.bind (native.io (api.publish _ _ _ _ _)) fun _ =>
    native.when (native.throw _)

theorem mqttSub_uniform : Holds fun member =>
    TagSub.execute (family.interp member) (family.self member) := by
  simp only [TagSub.execute, Mqtt.pointer, family.shared]
  refine native.bind (serves.parameter native "topic") fun topic => ?_
  refine native.bind (serves.parameter native "qos") fun qos => ?_
  refine native.bind (family.fixedPointer_uniform native
    (.of_ne (by decide)) _)
    fun connection => ?_
  refine native.bind (native.int _) fun level => ?_
  exact native.bind (native.io (api.subscribe _ _ _)) fun _ =>
    native.when (native.throw _)

end Mqtt

section Xslt

open Xslt

variable (api : family.outside.xslt.Permitted Allowed)

theorem stylesheetParams_uniform (params : List (Str × Str)) :
    Holds fun member =>
      stylesheetParams (family.interp member) (family.self member)
        params := by
  induction params with
  | nil => exact native.pure _
  | cons param params induction =>
      apply Uniform.ite induction
      refine native.bind (serves.param param.2) fun value => ?_
      exact native.bind induction fun _ => native.pure _

include api

theorem transform_uniform {document : Str → M W Nat}
    (read : ∀ source, Holds fun _ => document source) (failure : String) :
    Holds fun member =>
      transform (family.interp member) (family.self member)
        (family.callers member) document failure := by
  simp only [transform, family.shared]
  refine native.bind (serves.parameter native "href") fun href => ?_
  refine native.bind (native.io (api.parseStylesheet _)) fun found => ?_
  cases found with
  | none => exact native.throw _
  | some stylesheet =>
      refine native.bind (native.capture serves.childs) fun source => ?_
      refine native.bind (read source) fun doc => ?_
      refine native.bind (family.stylesheetParams_uniform native serves _)
        fun params => ?_
      refine native.bind (native.io (api.apply _ _ _)) fun result => ?_
      cases result with
      | some result => exact native.emit result
      | none => exact native.throw _

theorem xsltTransform_uniform : Holds fun member =>
    TagTransform.execute (family.interp member) (family.self member)
      (family.callers member) := by
  simp only [TagTransform.execute, family.shared]
  refine family.transform_uniform native serves api (fun source => ?_) _
  refine native.bind (native.io (api.parseXml source)) fun parsed => ?_
  cases parsed with
  | some doc => exact native.pure doc
  | none => exact native.throw _

theorem xsltTransformJson_uniform : Holds fun member =>
    TagTransformJson.execute (family.interp member) (family.self member)
      (family.callers member) :=
  family.transform_uniform native serves api
    (fun source => native.io (api.ofJson source)) _

theorem javascript_uniform (system : family.outside.system.Permitted Allowed) :
    Holds fun member =>
      TagJavascript.execute (family.interp member) (family.self member)
        (family.callers member) := by
  simp only [TagJavascript.execute, family.shared]
  refine native.bind (serves.parameter native "src") fun src => ?_
  apply Uniform.ite
  · exact native.bind (native.capture serves.childs) fun script =>
      native.io (api.compile _)
  · refine native.bind (native.io (system.readFile _)) fun found => ?_
    cases found with
    | some content => exact native.io (api.compile _)
    | none => exact native.throw _

end Xslt

end Family

end Modules

/-- The class of the tag has nothing to do with the stack of calls, with the
identity of the caller, or with threads. -/
def Kind.Ordinary : Kind → Prop
  | .usr _ _ | .userFunction _ | .tag _ | .call | .execute | .async => False
  | _ => True

/-- The tag belongs to the module for PostgreSQL. -/
def Kind.isPgsql : Kind → Bool
  | .pgsqlDatabase | .pgsqlTransaction | .pgsqlQuery => true
  | _ => false

/-- The tag belongs to the module for directories. -/
def Kind.isLdap : Kind → Bool
  | .ldapConnection | .ldapBind | .ldapSearch => true
  | _ => false

/-- The tags that may look at the variable of the renderer: markup, tags that
are told the names of variables to assign, and the one that may leave a layer
too many. -/
def Kind.sees : Kind → Bool
  | .cdata | .unknown _ | .set | .split | .ldapBind => true
  | _ => false

namespace Family

variable (native : Native family.outside.dcl Allowed seen Holds Inside Closes)
  (serves : family.Serves Holds) {pgsql ldap : Prop}
  (permitted : family.outside.Permitted pgsql ldap Allowed)

include native serves permitted

theorem function_uniform (builtin : Builtin) : Holds fun member =>
    Function.execute (family.interp member) (family.self member) builtin := by
  have functions : Function.Uniform family.outside.functions Holds :=
    { pure := native.pure
      bind := native.bind
      throw := native.throw
      fault := native.halt .fault
      emit := native.emit
      uuid := native.io permitted.functions.uuid
      rand := native.io permitted.functions.rand
      time := native.io permitted.functions.time
      getenv := fun name => native.io (permitted.functions.getenv name)
      locale := native.getValue _ (.of_ne (by decide))
      domain := native.getValue _ (.of_ne (by decide)) }
  exact functions.execute (fun param _ => serves.param param.2) builtin

/-- One step of the interpreter, for all ordinary tags. -/
theorem dispatch_uniform
    (served : (family.tag.kind.isPgsql = true → pgsql) ∧
      (family.tag.kind.isLdap = true → ldap))
    (sees : family.tag.kind.sees = true → seen)
    (names : family.outside.sqlite.NamesApart seen ∧
      family.outside.odbc.NamesApart seen)
    (ordinary : family.tag.kind.Ordinary) : Holds fun member =>
    dispatch (family.interp member) (family.self member)
      (family.callers member) := by
  simp only [dispatch, family.shared]
  cases kind : family.tag.kind with
  | expression => exact family.expression_uniform native serves
  | cdata =>
      exact family.cdata_uniform native (sees (congrArg Kind.sees kind))
  | unknown name =>
      exact family.unknown_uniform native serves (sees (congrArg Kind.sees kind))
  | function builtin => exact family.function_uniform native serves permitted builtin
  | module => exact serves.childs
  | «include» => exact serves.childs
  | var => exact family.var_uniform native serves
  | set =>
      exact family.set_uniform native serves (sees (congrArg Kind.sees kind))
  | map => exact family.map_uniform native serves
  | mapSet => exact family.mapSet_uniform native serves
  | mapUnset => exact family.mapUnset_uniform native serves
  | mapElement => exact family.mapElement_uniform native serves
  | mapElements => exact family.mapElements_uniform native serves
  | mapValues => exact family.mapValues_uniform native serves
  | mapFromJson => exact family.mapFromJson_uniform native serves
  | mapToJson => exact family.mapToJson_uniform native serves
  | list => exact family.list_uniform native serves
  | listAdd => exact family.listAdd_uniform native serves
  | listRemove => exact family.listRemove_uniform native serves
  | listElement => exact family.listElement_uniform native serves
  | listElements => exact family.listElements_uniform native serves
  | listFromJson => exact family.listFromJson_uniform native serves
  | «try» => exact family.try_uniform native serves
  | «catch» => exact native.pure ()
  | throw => exact family.throw_uniform native serves
  | case => exact family.case_uniform native serves
  | switch => exact family.switch_uniform native serves
  | «while» => exact family.while_uniform native serves
  | split =>
      exact family.split_uniform native serves (sees (congrArg Kind.sees kind))
  | substr => exact family.substr_uniform native serves
  | regexp => exact family.regexp_uniform native serves
  | read => exact family.read_uniform native serves permitted
  | write => exact family.write_uniform native serves permitted
  | locale => exact family.locale_uniform native serves permitted
  | system => exact family.system_uniform native serves permitted
  | delete => exact family.delete_uniform native serves permitted
  | rename => exact family.rename_uniform native serves permitted
  | log => exact family.log_uniform native serves permitted
  | http => exact family.http_uniform native serves permitted
  | pgsqlDatabase =>
      exact family.pgsqlDatabase_uniform native serves permitted
        (permitted.pgsql (served.1 (congrArg Kind.isPgsql kind)))
  | pgsqlTransaction =>
      exact family.pgsqlTransaction_uniform native serves
        (permitted.pgsql (served.1 (congrArg Kind.isPgsql kind)))
  | pgsqlQuery =>
      exact family.pgsqlQuery_uniform native serves
        (permitted.pgsql (served.1 (congrArg Kind.isPgsql kind)))
  | sqliteDatabase =>
      exact family.sqliteDatabase_uniform native serves permitted.sqlite
  | sqliteTransaction =>
      exact family.sqliteTransaction_uniform native serves permitted.sqlite
  | sqliteQuery =>
      exact family.sqliteQuery_uniform native serves permitted.sqlite names.1
  | odbcDatabase =>
      exact family.odbcDatabase_uniform native serves permitted.odbc
  | odbcTransaction =>
      exact family.odbcTransaction_uniform native serves permitted.odbc
  | odbcQuery =>
      exact family.odbcQuery_uniform native serves permitted.odbc names.2
  | redisConnection =>
      exact family.redisConnection_uniform native serves permitted.redis
  | redisQuery =>
      exact family.redisQuery_uniform native serves permitted.redis
  | bdbStorage =>
      exact family.bdbStorage_uniform native serves permitted.bdb
  | bdbGet =>
      exact family.bdbGet_uniform native serves permitted.bdb
  | bdbSet =>
      exact family.bdbSet_uniform native serves permitted.bdb
  | bdbFind =>
      exact family.bdbFind_uniform native serves permitted.bdb
  | bdbDelete =>
      exact family.bdbDelete_uniform native serves permitted.bdb
  | mongoDatabase =>
      exact family.mongoDatabase_uniform native serves permitted.mongo
  | mongoQuery =>
      exact family.mongoQuery_uniform native serves permitted.mongo
  | mongoInsert =>
      exact family.mongoInsert_uniform native serves permitted.mongo
  | mongoUpdate => exact family.mongoUpdate_uniform native serves
  | mongoDelete =>
      exact family.mongoDelete_uniform native serves permitted.mongo
  | mongoParam =>
      exact family.mongoParam_uniform native serves permitted.mongo
  | ldapConnection =>
      exact family.ldapConnection_uniform native serves
        (permitted.ldap (served.2 (congrArg Kind.isLdap kind)))
  | ldapBind =>
      exact family.ldapBind_uniform native serves
        (permitted.ldap (served.2 (congrArg Kind.isLdap kind)))
        (sees (congrArg Kind.sees kind))
  | ldapSearch =>
      exact family.ldapSearch_uniform native serves
        (permitted.ldap (served.2 (congrArg Kind.isLdap kind)))
  | mqttConnection =>
      exact family.mqttConnection_uniform native serves permitted.mqtt
  | mqttPub =>
      exact family.mqttPub_uniform native serves permitted.mqtt
  | mqttSub =>
      exact family.mqttSub_uniform native serves permitted.mqtt
  | xsltTransform =>
      exact family.xsltTransform_uniform native serves permitted.xslt
  | xsltTransformJson =>
      exact family.xsltTransformJson_uniform native serves permitted.xslt
  | javascript =>
      exact family.javascript_uniform native serves permitted.xslt
        permitted.system
  | usr name userTag => simp [kind, Kind.Ordinary] at ordinary
  | userFunction name => simp [kind, Kind.Ordinary] at ordinary
  | tag name => simp [kind, Kind.Ordinary] at ordinary
  | call => simp [kind, Kind.Ordinary] at ordinary
  | execute => simp [kind, Kind.Ordinary] at ordinary
  | async => simp [kind, Kind.Ordinary] at ordinary

end Family

end DbPager
