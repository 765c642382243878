import DbPager.Dcl
import DbPager.Tag

/-!
# Variable contexts

A context keeps a stack of variable layers, the stack of active custom tag
calls, and the services provider.  A chain of contexts is listed from the
context at hand to the outermost one; layers and calls are listed from the
innermost one.
-/

namespace DbPager

open Effect

structure Context where
  type : Str
  stack : List Vars
  exec : List Loc
  /-- A services provider has been set. -/
  services : Bool

namespace Context

def localType : Str := "local".toList

/-- A context as its constructor leaves it: one empty layer. -/
def new (type : Str) : Context :=
  { type, stack := [∅], exec := [], services := false }

def newLocal : Context := new localType

def userType : Str := "user".toList

def newUser : Context := new userType

/-- A user context with the given variables. -/
def ofUser (vars : Vars) : Context :=
  { newUser with stack := [vars] }

def enter (context : Context) : Context :=
  { context with stack := ∅ :: context.stack }

/-- The context without its innermost layer. -/
def dropLayer (context : Context) : Context :=
  { context with stack := context.stack.tail }

def push (loc : Loc) (context : Context) : Context :=
  { context with exec := loc :: context.exec }

def popCall (context : Context) : Context :=
  { context with exec := context.exec.tail }

/-- `context::add_value` without a type: the binding goes to the innermost
layer. -/
def addValue (name value : Str) (context : Context) : Context :=
  { context with
    stack := context.stack.modifyHead (·.insert (upName name) value) }

/-- Add bindings one after the other. -/
def addValues (bindings : List (Str × Str)) (context : Context) : Context :=
  bindings.foldl (fun context binding =>
    context.addValue binding.1 binding.2) context

/-- `context::empty`: only the innermost layer is looked at. -/
def empty (context : Context) : Bool :=
  match context.stack with
  | [] => true
  | layer :: _ => layer.entries.isEmpty

/-- `context::get_values`: inner layers override outer ones. -/
def getValues (context : Context) : Vars :=
  context.stack.foldr (fun layer rest =>
    layer.entries.foldr (fun entry vars => vars.insert entry.1 entry.2) rest) ∅

end Context

/-- The innermost binding of a name in a stack of layers. -/
def findVar (name : Str) : List Vars → Option Str
  | [] => none
  | layer :: layers =>
      match layer.lookup name with
      | some value => some value
      | none => findVar name layers

/-- Change the innermost binding of a name. -/
def assignVar (name value : Str) : List Vars → Option (List Vars)
  | [] => none
  | layer :: layers =>
      match layer.lookup name with
      | some _ => some (layer.replace name value :: layers)
      | none => (assignVar name value layers).map (layer :: ·)

namespace Context

theorem findVar_addValue (key name value : Str) {context : Context}
    (layered : context.stack ≠ []) :
    findVar key (context.addValue name value).stack =
      if upName name = key then some value
      else findVar key context.stack := by
  cases stack : context.stack with
  | nil => exact absurd stack layered
  | cons layer layers =>
      simp only [addValue, stack, List.modifyHead_cons, findVar]
      by_cases same : upName name = key
      · subst same
        simp [AList.lookup_insert]
      · rw [AList.lookup_insert_ne (Ne.symm same), if_neg same]

theorem addValue_layered (name value : Str) {context : Context}
    (layered : context.stack ≠ []) :
    (context.addValue name value).stack ≠ [] := by
  cases stack : context.stack with
  | nil => exact absurd stack layered
  | cons layer layers => simp [addValue, stack]

theorem addValues_layered (bindings : List (Str × Str)) {context : Context}
    (layered : context.stack ≠ []) :
    (context.addValues bindings).stack ≠ [] := by
  induction bindings generalizing context with
  | nil => exact layered
  | cons binding bindings induction =>
      exact induction (addValue_layered _ _ layered)

theorem addValues_append (first second : List (Str × Str))
    (context : Context) :
    context.addValues (first ++ second) =
      (context.addValues first).addValues second := by
  simp [addValues]

end Context

/-- The last binding of a name in a list of bindings. -/
def lastBinding (key : Str) : List (Str × Str) → Option Str
  | [] => none
  | binding :: bindings =>
      (lastBinding key bindings).or
        (if upName binding.1 = key then some binding.2 else none)

theorem findVar_addValues (key : Str) (bindings : List (Str × Str))
    {context : Context} (layered : context.stack ≠ []) :
    findVar key (context.addValues bindings).stack =
      (lastBinding key bindings).or (findVar key context.stack) := by
  induction bindings generalizing context with
  | nil => rfl
  | cons binding bindings induction =>
      have tail := induction
        (Context.addValue_layered binding.1 binding.2 layered)
      rw [Context.findVar_addValue key _ _ layered] at tail
      rw [lastBinding, Option.or_assoc]
      apply tail.trans
      by_cases same : upName binding.1 = key <;> simp [same]

/-- The variables of a new context after a sequence of bindings. -/
theorem findVar_new (type key : Str) (bindings : List (Str × Str)) :
    findVar key ((Context.new type).addValues bindings).stack =
      lastBinding key bindings := by
  rw [findVar_addValues key bindings (by simp [Context.new])]
  simp [Context.new, findVar]

theorem lastBinding_append (key : Str) (first second : List (Str × Str)) :
    lastBinding key (first ++ second) =
      (lastBinding key second).or (lastBinding key first) := by
  induction first with
  | nil => simp [lastBinding]
  | cons binding first induction =>
      rw [List.cons_append, lastBinding, induction, Option.or_assoc,
        lastBinding]

/-- A name is bound exactly when one of the bindings has it. -/
theorem lastBinding_eq_none {key : Str} {bindings : List (Str × Str)} :
    lastBinding key bindings = none ↔
      ∀ binding ∈ bindings, upName binding.1 ≠ key := by
  induction bindings with
  | nil => simp [lastBinding]
  | cons binding bindings induction =>
      simp only [lastBinding, Option.or_eq_none_iff, induction,
        List.forall_mem_cons]
      by_cases same : upName binding.1 = key <;> simp [same]

theorem mem_of_lastBinding {key value : Str}
    {bindings : List (Str × Str)}
    (found : lastBinding key bindings = some value) :
    ∃ name, (name, value) ∈ bindings ∧ upName name = key := by
  induction bindings with
  | nil => simp [lastBinding] at found
  | cons binding bindings induction =>
      rw [lastBinding, Option.or_eq_some_iff] at found
      rcases found with found | ⟨_, found⟩
      · obtain ⟨name, member, same⟩ := induction found
        exact ⟨name, List.mem_cons_of_mem _ member, same⟩
      · by_cases same : upName binding.1 = key
        · simp only [if_pos same, Option.some.injEq] at found
          subst found
          exact ⟨binding.1, List.mem_cons_self, same⟩
        · simp [if_neg same] at found

namespace Chain

/-- The value bound to a name, if there is one. -/
def lookup (name : Str) : List Context → Option Str
  | [] => none
  | context :: parents =>
      match findVar (upName name) context.stack with
      | some value => some value
      | none => lookup name parents

/-- `context::get_value`. -/
def getValue (name : Str) (contexts : List Context) : Str :=
  (lookup name contexts).getD []

/-- `context::set_value`; no result when the name is not bound. -/
def setValue (name value : Str) : List Context → Option (List Context)
  | [] => none
  | context :: parents =>
      match assignVar (upName name) value context.stack with
      | some stack => some ({ context with stack } :: parents)
      | none => (setValue name value parents).map (context :: ·)

/-- `context::add_value`: the binding goes to the first context of the
requested type. -/
def addValue (dcl : Dcl) (name value : Str) :
    Str → List Context → Outcome Exc (List Context)
  | type, [] =>
      .error (dcl.exception "unknown variable type \x7b0\x7d" [type])
  | type, context :: parents =>
      let vtype := if type.isEmpty then context.type else type
      if dcl.compare vtype context.type then
        match context.stack with
        | [] => .halt .fault
        | layer :: layers =>
            .value ({ context with
              stack := layer.insert (upName name) value :: layers } :: parents)
      else
        match addValue dcl name value vtype parents with
        | .value changed => .value (context :: changed)
        | .error exception => .error exception
        | .halt reason => .halt reason

/-- A binding goes to the innermost layer of the context at hand, or, when
the type is another one, to a parent. -/
theorem addValue_cases {dcl : Dcl} {name value type : Str}
    {context : Context} {parents contexts : List Context}
    (result : addValue dcl name value type (context :: parents) =
      .value contexts) :
    ((type ≠ [] → dcl.compare type context.type = true) ∧
      ∃ layer layers, context.stack = layer :: layers ∧
        contexts = { context with
          stack := layer.insert (upName name) value :: layers } :: parents) ∨
    (type ≠ [] ∧ dcl.compare type context.type = false ∧
      ∃ changed, addValue dcl name value type parents = .value changed ∧
        contexts = context :: changed) := by
  rw [addValue] at result
  by_cases same :
      dcl.compare (if type.isEmpty then context.type else type) context.type
  · left
    rw [if_pos same] at result
    rcases top : context.stack with _ | ⟨layer, layers⟩
    · simp [top] at result
    · simp only [top, Outcome.value.injEq] at result
      refine ⟨fun named => ?_, layer, layers, rfl, result.symm⟩
      simpa [named] using same
  · right
    rw [if_neg same] at result
    have named : type ≠ [] := by
      rintro rfl
      exact same (dcl.compare_self _)
    have plain : type.isEmpty = false := by
      simpa using named
    simp only [plain, Bool.false_eq_true, if_false] at same result
    cases added : addValue dcl name value type parents with
    | error exception => simp [added] at result
    | halt reason => simp [added] at result
    | value changed =>
        simp only [added, Outcome.value.injEq] at result
        exact ⟨named, by simpa using same, changed, rfl, result.symm⟩

/-- Without a type the binding goes to the context at hand. -/
theorem addValue_untyped (dcl : Dcl) (name value : Str) (context : Context)
    (parents : List Context) (layered : context.stack ≠ []) :
    addValue dcl name value [] (context :: parents) =
      .value (context.addValue name value :: parents) := by
  cases stack : context.stack with
  | nil => exact absurd stack layered
  | cons layer layers =>
      simp [addValue, Context.addValue, dcl.compare_self, stack]

/-- The chain of contexts with one more layer in the context at hand. -/
def withLayer (layer : Vars) (contexts : List Context) : List Context :=
  contexts.modifyHead fun context =>
    { context with stack := layer :: context.stack }

theorem lookup_withLayer (name : Str) (layer : Vars)
    {contexts : List Context} (chain : contexts ≠ []) :
    lookup name (withLayer layer contexts) =
      (layer.lookup (upName name)).or (lookup name contexts) := by
  cases contexts with
  | nil => exact absurd rfl chain
  | cons context parents =>
      simp only [withLayer, List.modifyHead_cons, lookup, findVar]
      cases layer.lookup (upName name) <;> rfl

theorem lookup_congr {first second : Str}
    (same : upName first = upName second) (contexts : List Context) :
    lookup first contexts = lookup second contexts := by
  induction contexts with
  | nil => rfl
  | cons context parents induction =>
      simp only [lookup, same, induction]

theorem getValue_congr {first second : Str}
    (same : upName first = upName second) (contexts : List Context) :
    getValue first contexts = getValue second contexts := by
  rw [getValue, lookup_congr same, getValue]

theorem getValue_withLayer (name : Str) (layer : Vars)
    {contexts : List Context} (chain : contexts ≠ []) :
    getValue name (withLayer layer contexts) =
      (layer.lookup (upName name)).getD (getValue name contexts) := by
  rw [getValue, lookup_withLayer name layer chain]
  cases layer.lookup (upName name) <;> rfl

theorem withLayer_injective {first second : Vars}
    {contexts : List Context} (chain : contexts ≠ [])
    (same : withLayer first contexts =
      withLayer second contexts) : first = second := by
  cases contexts with
  | nil => exact absurd rfl chain
  | cons context parents =>
      simp only [withLayer, List.modifyHead_cons, List.cons.injEq,
        Context.mk.injEq] at same
      exact same.1.2.1.1

end Chain

end DbPager
