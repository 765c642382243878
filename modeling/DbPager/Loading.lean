import DbPager.Factory

/-!
# Loading the configuration

The constructor of `interpreter` creates the objects every request works
with.  They are created one after another under one handler, so an exception
leaves the members as they are at that moment.
-/

namespace DbPager

open Effect

/-- The exceptions the handler of `load` tells apart. -/
inductive LoadFailure where
  | appConfig
  | other
  deriving DecidableEq, Repr

/-- `app_config` after a file has been read. -/
structure AppConfig where
  entry : Str → Str → Option Str
  sectionNamed : Str → Except LoadFailure (List (Str × Str))

def AppConfig.value (options : AppConfig) (name key default : Str) : Str :=
  (options.entry name key).getD default

/-- The library of a plugin, whose objects are created by name. -/
structure Plugin (α : Type) where
  load : Str → Except LoadFailure Unit
  init : Str → AppConfig → Except LoadFailure Unit
  createObject : Str → Str → α

/-- An object a plugin has created; null is `none`. -/
abbrev Created := Except LoadFailure (Option Nat)

/-- What `load` finds outside of the server. -/
structure Host where
  dcl : Dcl
  /-- `load_from_file`: what the object holds afterwards, and the exception
  if there is one. -/
  loadFromFile : Str → AppConfig × Option LoadFailure
  logger : Plugin Created
  session : Plugin Created
  modules : Plugin (Option Kind)

inductive SessionFactory where
  | internal
  | created (object : Nat)
  deriving DecidableEq, Repr

/-- The members of `interpreter` that `load` works on, the registry of
plugins, and the warnings with the logger each of them was given to; the
logger of the constructor is `none`. -/
structure InterpreterMembers where
  options : Option AppConfig
  session : Option SessionFactory
  loadedLogger : Option Nat
  loggerPlugin : Option Str
  sessionPlugin : Option Str
  useCache : Bool
  factory : TagFactory
  warnings : List (Option Nat × Str)

namespace InterpreterMembers

/-- The members before the constructor runs. -/
def initial (factory : TagFactory) : InterpreterMembers where
  options := none
  session := none
  loadedLogger := none
  loggerPlugin := none
  sessionPlugin := none
  useCache := false
  factory := factory
  warnings := []

/-- `get_config` and `get_session` dereference the pointers. -/
def getConfig (members : InterpreterMembers) :
    Outcome LoadFailure AppConfig :=
  members.options.elim (.halt .fault) .value

def getSession (members : InterpreterMembers) :
    Outcome LoadFailure SessionFactory :=
  members.session.elim (.halt .fault) .value

end InterpreterMembers

abbrev Loader := EStateM LoadFailure InterpreterMembers

namespace Loader

def raise {α : Type} : Except LoadFailure α → Loader α
  | .ok result => pure result
  | .error exception => throw exception

/-- The type of a service and the module for it, when the configuration asks
for one that is not internal. -/
def backend (service key : String) (options : AppConfig) :
    Option (Str × Str) :=
  let type :=
    options.value "services".toList service.toList "internal".toList
  if type ≠ "internal".toList then
    let module := options.value "services".toList (key.toList ++ type) []
    if !module.isEmpty then some (type, module) else none
  else none

def loggerBackend : AppConfig → Option (Str × Str) :=
  backend "log" "logger.backend."

def sessionBackend : AppConfig → Option (Str × Str) :=
  backend "session" "session.backend."

variable (host : Host)

def initLogger (options : AppConfig) : Loader Unit := do
  modify fun members => { members with loadedLogger := none }
  match loggerBackend options with
  | some (type, module) =>
      modify fun members => { members with loggerPlugin := some module }
      raise (host.logger.load module)
      raise (host.logger.init module options)
      let object ← raise (host.logger.createObject module type)
      modify fun members => { members with loadedLogger := object }
  | none => pure ()

def initSession (options : AppConfig) : Loader Unit := do
  modify fun members => { members with session := none }
  match sessionBackend options with
  | some (type, module) =>
      modify fun members => { members with sessionPlugin := some module }
      raise (host.session.load module)
      raise (host.session.init module options)
      let object ← raise (host.session.createObject module type)
      modify fun members =>
        { members with session := object.map SessionFactory.created }
  | none => pure ()
  modify fun members =>
    { members with session := some (members.session.getD .internal) }

/-- The loop over the `modules` section. -/
def registerModules (options : AppConfig) : List (Str × Str) → Loader Unit
  | [] => pure ()
  | (uri, module) :: modules => do
      raise (host.modules.load module)
      raise (host.modules.init module options)
      modify fun members =>
        { members with
          factory := members.factory.registerPlugin uri
            (host.modules.createObject module) }
      registerModules options modules

/-- The objects that are created once the file has been read. -/
def initServices (options : AppConfig) : Loader Unit := do
  initLogger host options
  initSession host options
  let plugins ← raise (options.sectionNamed "modules".toList)
  registerModules host options plugins

/-- The part of `load` inside of the handler. -/
def loadAll (filename : Str) : Loader Unit := do
  modify fun members =>
    { members with options := some (host.loadFromFile filename).1 }
  match (host.loadFromFile filename).2 with
  | some exception => throw exception
  | none => pure ()
  let options := (host.loadFromFile filename).1
  if options.value "application".toList "pool".toList "unlimited".toList ≠
      "0".toList then
    modify fun members => { members with useCache := true }
  initServices host options

/-- What the handler announces. -/
def warning (filename : Str) (members : InterpreterMembers) :
    Option Nat × Str :=
  (members.loadedLogger,
    host.dcl.format ("Configuration file \"\x7b0\x7d\" was not found;" ++
      " will use default values instead").toList [filename])

/-- `interpreter::load`. -/
def load (filename : Str) : Loader Unit :=
  tryCatch (loadAll host filename) fun
    | .appConfig =>
        modify fun members =>
          { members with
            warnings := members.warnings ++ [warning host filename members] }
    | .other => throw .other

/-- The constructor of `interpreter`. -/
def construct (filename : Str) (factory : TagFactory) :
    Except LoadFailure InterpreterMembers :=
  match load host filename (InterpreterMembers.initial factory) with
  | .ok _ members => .ok members
  | .error exception _ => .error exception

/-! ## What is raised and when -/

/-- Load a plugin and ask it for an object. -/
def start (plugin : Plugin Created) (options : AppConfig) :
    Option (Str × Str) → Created
  | some (type, module) => do
      plugin.load module
      plugin.init module options
      plugin.createObject module type
  | none => .ok none

def startLogger (options : AppConfig) : Created :=
  start host.logger options (loggerBackend options)

def startSession (options : AppConfig) : Created :=
  start host.session options (sessionBackend options)

def startPlugins (options : AppConfig) :
    List (Str × Str) → Except LoadFailure Unit
  | [] => .ok ()
  | (_, module) :: plugins => do
      host.modules.load module
      host.modules.init module options
      startPlugins options plugins

/-- The plugins of the `modules` section. -/
def startModules (options : AppConfig) : Except LoadFailure Unit := do
  let plugins ← options.sectionNamed "modules".toList
  startPlugins host options plugins

/-- The constructor throws, or the objects are there; and they are the
internal ones when the use of default values has been announced. -/
def Usable (filename : Str) (factory : TagFactory) : Prop :=
  ∀ members, construct host filename factory = .ok members →
    (∃ options, members.getConfig = .value options) ∧
      (∃ session, members.getSession = .value session) ∧
      (members.warnings ≠ [] → members.getSession = .value .internal)

/-- No `app_config_exception` is raised as long as there is no session
factory, and none is raised by the modules when a plugin has created it. -/
def Quiet (filename : Str) : Prop :=
  let options := (host.loadFromFile filename).1
  (host.loadFromFile filename).2 ≠ some .appConfig ∧
    ((host.loadFromFile filename).2 = none →
      startLogger host options ≠ .error .appConfig ∧
        ∀ logger, startLogger host options = .ok logger →
          startSession host options ≠ .error .appConfig ∧
            ∀ object, startSession host options = .ok (some object) →
              startModules host options ≠ .error .appConfig)

/-- A step that ends as `outcome` does, in a state that `Ends` or `Fails`
describes. -/
def Runs {α β : Type} (step : Loader α) (members : InterpreterMembers)
    (outcome : Except LoadFailure β)
    (Ends : β → InterpreterMembers → Prop)
    (Fails : InterpreterMembers → Prop) : Prop :=
  match outcome with
  | .ok result =>
      ∃ value after, step members = .ok value after ∧ Ends result after
  | .error exception =>
      ∃ after, step members = .error exception after ∧ Fails after

theorem Runs.imp {α β : Type} {step : Loader α}
    {members : InterpreterMembers} {outcome : Except LoadFailure β}
    {Ends Ends' : β → InterpreterMembers → Prop}
    {Fails Fails' : InterpreterMembers → Prop}
    (runs : Runs step members outcome Ends Fails)
    (ends : ∀ result after, Ends result after → Ends' result after)
    (fails : ∀ after, Fails after → Fails' after) :
    Runs step members outcome Ends' Fails' := by
  cases outcome with
  | ok result =>
      obtain ⟨value, after, ran, post⟩ := runs
      exact ⟨value, after, ran, ends result after post⟩
  | error exception =>
      obtain ⟨after, ran, post⟩ := runs
      exact ⟨after, ran, fails after post⟩

/-- The options and the warnings stay, and the session factory is the given
one. -/
structure Keeps (before : InterpreterMembers)
    (session : Option SessionFactory) (after : InterpreterMembers) :
    Prop where
  options : after.options = before.options
  warnings : after.warnings = before.warnings
  session : after.session = session

theorem Keeps.trans {before middle after : InterpreterMembers}
    {first second : Option SessionFactory}
    (one : Keeps before first middle) (two : Keeps middle second after) :
    Keeps before second after where
  options := two.options.trans one.options
  warnings := two.warnings.trans one.warnings
  session := two.session

theorem initLogger_runs (options : AppConfig)
    (members : InterpreterMembers) :
    Runs (initLogger host options) members (startLogger host options)
      (fun _ => Keeps members members.session)
      (Keeps members members.session) := by
  unfold Runs startLogger start initLogger
  cases loggerBackend options with
  | none => exact ⟨(), _, rfl, rfl, rfl, rfl⟩
  | some backend =>
      obtain ⟨type, module⟩ := backend
      simp only
      cases loaded : host.logger.load module with
      | error exception => exact ⟨_, rfl, rfl, rfl, rfl⟩
      | ok _ =>
          cases initialised : host.logger.init module options with
          | error exception => exact ⟨_, rfl, rfl, rfl, rfl⟩
          | ok _ =>
              cases created : host.logger.createObject module type with
              | error exception => exact ⟨_, rfl, rfl, rfl, rfl⟩
              | ok object => exact ⟨(), _, rfl, rfl, rfl, rfl⟩

/-- The session factory is null until a plugin has created an object or has
answered that there is none. -/
theorem initSession_runs (options : AppConfig)
    (members : InterpreterMembers) :
    Runs (initSession host options) members (startSession host options)
      (fun object => Keeps members
        (some ((object.map SessionFactory.created).getD .internal)))
      (Keeps members none) := by
  unfold Runs startSession start initSession
  cases sessionBackend options with
  | none => exact ⟨(), _, rfl, rfl, rfl, rfl⟩
  | some backend =>
      obtain ⟨type, module⟩ := backend
      simp only
      cases loaded : host.session.load module with
      | error exception => exact ⟨_, rfl, rfl, rfl, rfl⟩
      | ok _ =>
          cases initialised : host.session.init module options with
          | error exception => exact ⟨_, rfl, rfl, rfl, rfl⟩
          | ok _ =>
              cases created : host.session.createObject module type with
              | error exception => exact ⟨_, rfl, rfl, rfl, rfl⟩
              | ok object => exact ⟨(), _, rfl, rfl, rfl, rfl⟩

theorem registerModules_runs (options : AppConfig)
    (plugins : List (Str × Str)) (members : InterpreterMembers) :
    Runs (registerModules host options plugins) members
      (startPlugins host options plugins)
      (fun _ => Keeps members members.session)
      (Keeps members members.session) := by
  induction plugins generalizing members with
  | nil => exact ⟨(), _, rfl, rfl, rfl, rfl⟩
  | cons plugin plugins induction =>
      obtain ⟨uri, module⟩ := plugin
      cases loaded : host.modules.load module with
      | error exception =>
          simp only [startPlugins, loaded]
          exact ⟨members, by simp only [registerModules, loaded]; rfl, rfl,
            rfl, rfl⟩
      | ok _ =>
          cases initialised : host.modules.init module options with
          | error exception =>
              simp only [startPlugins, loaded, initialised]
              exact ⟨members, by
                simp only [registerModules, loaded, initialised]; rfl, rfl,
                rfl, rfl⟩
          | ok _ =>
              have ends : startPlugins host options
                  ((uri, module) :: plugins) =
                  startPlugins host options plugins := by
                simp only [startPlugins, loaded, initialised]
                rfl
              have step : registerModules host options
                  ((uri, module) :: plugins) members =
                  registerModules host options plugins
                    { members with
                      factory := members.factory.registerPlugin uri
                        (host.modules.createObject module) } := by
                simp only [registerModules, loaded, initialised]
                rfl
              have rest := induction
                { members with
                  factory := members.factory.registerPlugin uri
                    (host.modules.createObject module) }
              unfold Runs
              rw [step, ends]
              exact rest.imp
                (fun _ _ kept => ⟨kept.options, kept.warnings, kept.session⟩)
                (fun _ kept => ⟨kept.options, kept.warnings, kept.session⟩)

/-- The `modules` section is read, and its plugins are registered. -/
theorem modules_runs (options : AppConfig) (members : InterpreterMembers) :
    Runs
      (do
        let plugins ← raise (options.sectionNamed "modules".toList)
        registerModules host options plugins)
      members (startModules host options)
      (fun _ => Keeps members members.session)
      (Keeps members members.session) := by
  unfold startModules
  cases options.sectionNamed "modules".toList with
  | error exception => exact ⟨members, rfl, rfl, rfl, rfl⟩
  | ok plugins => exact registerModules_runs host options plugins members

section Constructor

theorem construct_eq (filename : Str) (factory : TagFactory) :
    construct host filename factory =
      match loadAll host filename (.initial factory) with
      | .ok _ after => .ok after
      | .error .appConfig after =>
          .ok { after with
            warnings := after.warnings ++ [warning host filename after] }
      | .error .other _ => .error .other := by
  unfold construct load
  simp only [tryCatch, tryCatchThe, MonadExceptOf.tryCatch, EStateM.tryCatch]
  rcases loadAll host filename (.initial factory) with
    ⟨value, after⟩ | ⟨exception, after⟩
  · rfl
  · cases exception <;> rfl

variable {host} {filename : Str} {factory : TagFactory}
  {after : InterpreterMembers}

/-- Where nothing is raised, nothing is announced. -/
theorem usable_of_ok {value : Unit} {options : AppConfig}
    {session : SessionFactory}
    (loaded : loadAll host filename (.initial factory) = .ok value after)
    (kept : after.options = some options)
    (created : after.session = some session) (quiet : after.warnings = []) :
    Usable host filename factory := by
  intro members constructed
  rw [construct_eq, loaded] at constructed
  obtain rfl := Except.ok.inj constructed
  refine ⟨⟨options, ?_⟩, ⟨session, ?_⟩, fun announced => ?_⟩
  · rw [InterpreterMembers.getConfig, kept, Option.elim_some]
  · rw [InterpreterMembers.getSession, created, Option.elim_some]
  · exact absurd quiet announced

/-- What an exception has left is only usable when it leaves the constructor,
or when the internal session factory is already there. -/
theorem usable_iff_of_error {exception : LoadFailure} {options : AppConfig}
    (loaded : loadAll host filename (.initial factory) =
      .error exception after)
    (kept : after.options = some options) :
    Usable host filename factory ↔
      (exception = .appConfig → after.session = some .internal) := by
  cases exception with
  | other =>
      refine ⟨fun _ same => (by cases same), fun _ members constructed => ?_⟩
      rw [construct_eq, loaded] at constructed
      cases constructed
  | appConfig =>
      have constructed := construct_eq host filename factory
      rw [loaded] at constructed
      constructor
      · intro usable _
        have session := (usable _ constructed).2.2 (by simp)
        unfold InterpreterMembers.getSession at session
        cases there : after.session with
        | none => simp [there] at session
        | some factory =>
            simp only [there, Option.elim_some, Outcome.value.injEq] at session
            rw [session]
      · intro internal members same
        obtain rfl := Except.ok.inj (constructed.symm.trans same)
        have session := internal rfl
        have answers : InterpreterMembers.getSession
            { after with
              warnings := after.warnings ++
                [warning host filename after] } = .value .internal := by
          rw [InterpreterMembers.getSession, session, Option.elim_some]
        refine ⟨⟨options, ?_⟩, ⟨_, answers⟩, fun _ => answers⟩
        rw [InterpreterMembers.getConfig, kept, Option.elim_some]

end Constructor

/-- What is done once the file has been read. -/
theorem loadAll_eq {filename : Str}
    (read : (host.loadFromFile filename).2 = none) (factory : TagFactory) :
    ∃ opened : InterpreterMembers,
      loadAll host filename (.initial factory) =
        initServices host (host.loadFromFile filename).1 opened ∧
      opened.options = some (host.loadFromFile filename).1 ∧
      opened.session = none ∧ opened.warnings = [] := by
  unfold loadAll
  rw [read]
  by_cases pool : (host.loadFromFile filename).1.value
      "application".toList "pool".toList "unlimited".toList ≠ "0".toList
  · rw [if_pos pool]
    exact ⟨_, rfl, rfl, rfl, rfl⟩
  · rw [if_neg pool]
    exact ⟨_, rfl, rfl, rfl, rfl⟩

theorem bind_ok {α β : Type} {step : Loader α} {next : α → Loader β}
    {members after : InterpreterMembers} {result : α}
    (ran : step members = .ok result after) :
    (step >>= next) members = next result after := by
  change EStateM.bind step next members = _
  rw [EStateM.bind, ran]

theorem bind_error {α β : Type} {step : Loader α} {next : α → Loader β}
    {members after : InterpreterMembers} {exception : LoadFailure}
    (ran : step members = .error exception after) :
    (step >>= next) members = .error exception after := by
  change EStateM.bind step next members = _
  rw [EStateM.bind, ran]

/-- The part of the condition behind the file. -/
theorem usable_iff_of_services {filename : Str} {factory : TagFactory}
    {options : AppConfig} {opened : InterpreterMembers}
    (loaded : loadAll host filename (.initial factory) =
      initServices host options opened)
    (kept : opened.options = some options) (empty : opened.session = none)
    (quiet : opened.warnings = []) :
    Usable host filename factory ↔
      startLogger host options ≠ .error .appConfig ∧
        ∀ logger, startLogger host options = .ok logger →
          startSession host options ≠ .error .appConfig ∧
            ∀ object, startSession host options = .ok (some object) →
              startModules host options ≠ .error .appConfig := by
  have logger := initLogger_runs host options opened
  cases starts : startLogger host options with
  | error exception =>
      rw [starts] at logger
      obtain ⟨after, ran, keeps⟩ := logger
      rw [initServices, bind_error ran] at loaded
      rw [usable_iff_of_error loaded (keeps.options.trans kept),
        keeps.session, empty]
      simp
  | ok object =>
      rw [starts] at logger
      obtain ⟨value, logging, ran, keeps⟩ := logger
      rw [initServices, bind_ok ran] at loaded
      have session := initSession_runs host options logging
      cases begins : startSession host options with
      | error exception =>
          rw [begins] at session
          obtain ⟨after, ran, left⟩ := session
          rw [bind_error ran] at loaded
          rw [usable_iff_of_error loaded
            ((keeps.trans left).options.trans kept), left.session]
          simp
      | ok object =>
          rw [begins] at session
          obtain ⟨value, ready, ran, left⟩ := session
          rw [bind_ok ran] at loaded
          have both := keeps.trans left
          have modules := modules_runs host options ready
          cases registers : startModules host options with
          | error exception =>
              rw [registers] at modules
              obtain ⟨after, ran, stays⟩ := modules
              rw [ran] at loaded
              rw [usable_iff_of_error loaded
                ((both.trans stays).options.trans kept), stays.session,
                both.session]
              cases object <;> simp
          | ok value =>
              rw [registers] at modules
              obtain ⟨value, after, ran, stays⟩ := modules
              rw [ran] at loaded
              have usable := usable_of_ok loaded
                ((both.trans stays).options.trans kept)
                (stays.session.trans both.session)
                ((both.trans stays).warnings.trans quiet)
              simp [usable]

/-- The interpreter is usable after the constructor exactly when no
`app_config_exception` is raised before there is a session factory, nor by a
module when a plugin has created the session factory. -/
theorem usable_iff (filename : Str) (factory : TagFactory) :
    Usable host filename factory ↔ Quiet host filename := by
  unfold Quiet
  cases read : (host.loadFromFile filename).2 with
  | some exception =>
      have loaded : loadAll host filename (.initial factory) =
          .error exception { InterpreterMembers.initial factory with
            options := some (host.loadFromFile filename).1 } := by
        unfold loadAll
        rw [read]
        rfl
      rw [usable_iff_of_error loaded rfl]
      simp [InterpreterMembers.initial]
  | none =>
      obtain ⟨opened, loaded, options, session, warnings⟩ :=
        loadAll_eq host read factory
      simp only [ne_eq, reduceCtorEq, not_false_eq_true, true_and,
        forall_const]
      rw [usable_iff_of_services host loaded options session warnings]

/-- A machine without a configuration file; `log` and `session` are never
asked for. -/
def missingFile : Host where
  dcl := .plain
  loadFromFile _ :=
    ({ entry _ _ := none, sectionNamed _ := .ok [] }, some .appConfig)
  logger := ⟨fun _ => .ok (), fun _ _ => .ok (), fun _ _ => .ok none⟩
  session := ⟨fun _ => .ok (), fun _ _ => .ok (), fun _ _ => .ok none⟩
  modules := ⟨fun _ => .ok (), fun _ _ => .ok (), fun _ _ => none⟩

/-- The use of default values is announced, and the session factory is a null
pointer. -/
theorem missing_file_unusable :
    ¬ Usable missingFile "/etc/dbpager.conf".toList .new ∧
      ∃ members,
        construct missingFile "/etc/dbpager.conf".toList .new = .ok members ∧
          members.warnings ≠ [] ∧ members.getSession = .halt .fault := by
  refine ⟨fun usable => ?_, _, construct_eq .., by simp, rfl⟩
  obtain ⟨-, ⟨session, there⟩, -⟩ := usable _ (construct_eq ..)
  cases there

end Loader

end DbPager
