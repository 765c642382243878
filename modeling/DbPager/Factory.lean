import DbPager.Parser
import DbPager.Plain

/-!
# The tag factory

`tag_factory` keeps two registries: the classes registered for a namespace
by the server itself, and the plugins registered for a namespace by the
configuration.  A name is looked up in one of them.
-/

namespace DbPager

open Effect

/-- A plugin creates tags by their names, or gives a null pointer. -/
abbrev TagPlugin := Str → Option Kind

structure TagFactory where
  /-- The classes registered for a namespace. -/
  factories : Str → Option TagPlugin
  /-- The plugins registered for a namespace, in order. -/
  plugins : Str → Option (List TagPlugin)

namespace TagFactory

/-- The classes the constructor registers: the tags, and the functions under
names that start with `@`. -/
def builtinClasses : List Kind :=
  builtinTags ++ Builtin.all.map Kind.function

/-- The constructor. -/
def new : TagFactory where
  factories uri :=
    if uri = dbpagerUri then
      some fun object => builtinClasses.find? fun kind => kind.getName == object
    else none
  plugins _ := none

def registerPlugin (uri : Str) (plugin : TagPlugin) (factory : TagFactory) :
    TagFactory :=
  { factory with
    plugins := Function.update factory.plugins uri
      (some ((factory.plugins uri).getD [] ++ [plugin])) }

/-- The loop over the plugins of a namespace: the first tag one of them
creates. -/
def createFrom (object : Str) : List TagPlugin → Option Kind
  | [] => none
  | plugin :: plugins =>
      match plugin object with
      | some kind => some kind
      | none => createFrom object plugins

/-- The pointer `create` has found before it uses it; null is `none`. -/
def find (dcl : Dcl) (factory : TagFactory) (uri object : Str) :
    Except Exc (Option Kind) :=
  match factory.factories uri with
  | some registered =>
      match registered object with
      | some kind => .ok (some kind)
      | none =>
          .error (dcl.exception "unknown tag found (\x7b0\x7d)" [object])
  | none =>
      match factory.plugins uri with
      | some plugins =>
          match createFrom object plugins with
          | some kind => .ok (some kind)
          | none =>
              .error (dcl.exception "unknown tag found (\x7b0\x7d)" [object])
      | none => .ok none

/-- `tag_factory::create`: `t->set_name(object)` is called on whatever has
been found. -/
def create (dcl : Dcl) (factory : TagFactory) (uri object : Str) :
    Outcome Exc Kind :=
  match find dcl factory uri object with
  | .ok (some kind) => .value kind
  | .ok none => .halt .fault
  | .error exception => .error exception

/-- Classes or plugins have been registered for the namespace. -/
def Registered (factory : TagFactory) (uri : Str) : Prop :=
  (factory.factories uri).isSome ∨ (factory.plugins uri).isSome

instance (factory : TagFactory) (uri : Str) :
    Decidable (factory.Registered uri) :=
  inferInstanceAs (Decidable (_ ∨ _))

/-- The element is resolved or rejected. -/
def Resolves (dcl : Dcl) (factory : TagFactory) (uri object : Str) : Prop :=
  (∃ kind, create dcl factory uri object = .value kind) ∨
    create dcl factory uri object =
      .error (dcl.exception "unknown tag found (\x7b0\x7d)" [object])

theorem registered_of_registerPlugin (uri : Str) (plugin : TagPlugin)
    (factory : TagFactory) : (factory.registerPlugin uri plugin).Registered
      uri := by
  right
  simp [registerPlugin]

/-- A registration does not take another one away. -/
theorem Registered.registerPlugin {factory : TagFactory} {uri : Str}
    (registered : factory.Registered uri) (other : Str)
    (plugin : TagPlugin) :
    (factory.registerPlugin other plugin).Registered uri := by
  by_cases same : uri = other
  · rw [same]
    exact registered_of_registerPlugin other plugin factory
  · rcases registered with builtin | plugins
    · exact .inl builtin
    · right
      simpa [TagFactory.registerPlugin, Function.update_of_ne same] using
        plugins

theorem create_unregistered (dcl : Dcl) {factory : TagFactory} {uri : Str}
    (object : Str) (unregistered : ¬ factory.Registered uri) :
    create dcl factory uri object = .halt .fault := by
  rw [Registered, not_or, Option.not_isSome_iff_eq_none,
    Option.not_isSome_iff_eq_none] at unregistered
  rw [create, find, unregistered.1, unregistered.2]

/-- In a namespace that has been registered every name is resolved or
rejected. -/
theorem resolves_of_registered (dcl : Dcl) {factory : TagFactory} {uri : Str}
    (object : Str) (registered : factory.Registered uri) :
    Resolves dcl factory uri object := by
  unfold Resolves create find
  unfold Registered at registered
  cases builtin : factory.factories uri with
  | some classes =>
      cases created : classes object with
      | some kind => simp [created]
      | none => simp [created]
  | none =>
      cases listed : factory.plugins uri with
      | some plugins =>
          cases created : createFrom object plugins with
          | some kind => simp [created]
          | none => simp [created]
      | none => simp [builtin, listed] at registered

/-- The factory a parser works with: the classes of the server, and one
plugin for every namespace the parser's interface names. -/
def ofApi (api : ParserApi) : TagFactory :=
  { new with plugins := fun uri => (api.plugin uri).map fun create => [create] }

/-- No element has the name of a function. -/
theorem getName_function_ne (builtin : Builtin) (object : XmlName) :
    (Kind.function builtin).getName ≠ object.text := by
  intro same
  apply object.plain
  rw [← same]
  exact List.head?_cons

theorem find?_builtinClasses (object : XmlName) :
    builtinClasses.find? (fun kind => kind.getName == object.text) =
      builtinTags.find? fun kind => kind.getName == object.text := by
  have functions : (Builtin.all.map Kind.function).find?
      (fun kind => kind.getName == object.text) = none := by
    rw [List.find?_eq_none]
    intro kind member
    obtain ⟨builtin, -, named⟩ := List.mem_map.mp member
    rw [← named, beq_iff_eq]
    exact getName_function_ne builtin object
  rw [builtinClasses, List.find?_append, functions, Option.or_none]

/-- The parser creates the tags of its elements with this factory. -/
theorem create_ofApi (api : ParserApi) (uri : Str) (object : XmlName) :
    create api.dcl (ofApi api) uri object.text =
      DbpxParser.create api uri object.text := by
  unfold create find ofApi new DbpxParser.create DbpxParser.unknownTag
  by_cases builtin : uri = dbpagerUri
  · simp only [builtin, if_true, find?_builtinClasses]
    cases builtinTags.find? fun kind => kind.getName == object.text with
    | some kind => rfl
    | none => rfl
  · simp only [builtin, if_false]
    cases api.plugin uri with
    | none => rfl
    | some plugin =>
        simp only [Option.map_some, createFrom]
        cases plugin object.text with
        | some kind => rfl
        | none => rfl

/-- Every element is resolved or rejected exactly when its namespace has been
registered; otherwise a null pointer is used.  So it is for the elements of the
documents a parser reads, with the classes and plugins it works with. -/
theorem create_resolves_iff (dcl : Dcl) (factory : TagFactory)
    (uri object : Str) :
    (Resolves dcl factory uri object ↔ factory.Registered uri) ∧
      (¬ factory.Registered uri →
        create dcl factory uri object = .halt .fault) ∧
      ∀ (api : ParserApi) (element : XmlName),
        ((∃ kind, DbpxParser.create api uri element.text = .value kind) ∨
            DbpxParser.create api uri element.text =
              .error (api.dcl.exception "unknown tag found (\x7b0\x7d)"
                [element.text])) ↔
          (ofApi api).Registered uri := by
  have resolves_iff (dcl : Dcl) (factory : TagFactory) (object : Str) :
      Resolves dcl factory uri object ↔ factory.Registered uri := by
    refine ⟨fun resolved => ?_, resolves_of_registered dcl object⟩
    by_contra unregistered
    rw [Resolves, create_unregistered dcl object unregistered] at resolved
    rcases resolved with ⟨kind, same⟩ | same <;> cases same
  refine ⟨resolves_iff dcl factory object, create_unregistered dcl object, ?_⟩
  intro api element
  rw [← create_ofApi]
  exact resolves_iff api.dcl (ofApi api) element.text

/-- An element of a dbPager namespace without a module. -/
theorem unregistered_namespace_faults :
    dbpagerUri <+: "http://dbpager.org.ru/schemas/dbp/3.0/pgsqll".toList ∧
    ¬ Resolves .plain .new
        "http://dbpager.org.ru/schemas/dbp/3.0/pgsqll".toList
        "query".toList ∧
    create .plain .new "http://dbpager.org.ru/schemas/dbp/3.0/pgsqll".toList
        "query".toList = .halt .fault := by
  have unregistered : ¬ new.Registered
      "http://dbpager.org.ru/schemas/dbp/3.0/pgsqll".toList := by decide
  have faults := create_unregistered .plain "query".toList unregistered
  refine ⟨⟨"/pgsqll".toList, by decide⟩, ?_, faults⟩
  rw [Resolves, faults]
  rintro (⟨kind, same⟩ | same) <;> cases same

end TagFactory

end DbPager
