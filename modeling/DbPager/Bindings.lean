import DbPager.Machine

/-!
# Bindings of a name

What a program can find out about a name are its bindings in the layers of all
contexts.  A program that hands a value to its children in a variable relies on
everything in between to leave the bindings of that variable alone.
-/

namespace DbPager

variable {W : Type} {name : Str}

/-- The bindings of a name, layer by layer. -/
def bindings (name : Str) (contexts : List Context) : List (List (Option Str)) :=
  contexts.map fun context =>
    context.stack.map fun layer => layer.lookup (upName name)

theorem findVar_eq (key : Str) (stack : List Vars) :
    findVar key stack =
      (stack.map fun layer => layer.lookup key).findSome? id := by
  induction stack with
  | nil => rfl
  | cons layer layers induction =>
      unfold findVar
      rw [List.map_cons, List.findSome?_cons, induction]
      cases layer.lookup key <;> rfl

/-- A lookup reads the first binding. -/
theorem lookup_eq (contexts : List Context) :
    Chain.lookup name contexts =
      (bindings name contexts).flatten.findSome? id := by
  induction contexts with
  | nil => rfl
  | cons context parents induction =>
      have split : bindings name (context :: parents) =
          (context.stack.map fun layer => layer.lookup (upName name)) ::
            bindings name parents := rfl
      unfold Chain.lookup
      rw [findVar_eq, induction, split, List.flatten_cons,
        List.findSome?_append]
      cases (context.stack.map fun layer =>
        layer.lookup (upName name)).findSome? id <;> rfl

theorem getValue_of_bindings {first second : List Context}
    (same : bindings name first = bindings name second) :
    Chain.getValue name first = Chain.getValue name second := by
  rw [Chain.getValue, Chain.getValue, lookup_eq, lookup_eq, same]

theorem chain_of_bindings {first second : List Context}
    (same : bindings name first = bindings name second)
    (chain : second ≠ []) : first ≠ [] := by
  rintro rfl
  exact chain (List.map_eq_nil_iff.mp same.symm)

theorem bindings_withLayer (layer : Vars) (contexts : List Context) :
    bindings name (Chain.withLayer layer contexts) =
      (bindings name contexts).modifyHead (layer.lookup (upName name) :: ·) := by
  cases contexts <;> rfl

theorem bindings_dropLayer (state : St W) :
    bindings name state.dropLayer.contexts =
      (bindings name state.contexts).modifyHead List.tail := by
  rcases state with ⟨contexts, vectors, maps, nextAddr, world, trace⟩
  cases contexts with
  | nil => rfl
  | cons context parents =>
      simp [bindings, St.dropLayer, St.mapHead, Context.dropLayer]

/-- A layer that is left again. -/
theorem bindings_left {layer : Vars} {contexts : List Context} {after : St W}
    (same : bindings name after.contexts =
      bindings name (Chain.withLayer layer contexts)) :
    bindings name after.dropLayer.contexts = bindings name contexts := by
  have tail (row : List (List (Option Str))) (value : Option Str) :
      (row.modifyHead (value :: ·)).modifyHead List.tail = row := by
    cases row <;> rfl
  rw [bindings_dropLayer, same, bindings_withLayer, tail]

/-- The bindings in a new layer. -/
theorem lookup_of_bindings {first second : Vars}
    {before after : List Context} (chain : before ≠ [])
    (same : bindings name (Chain.withLayer second after) =
      bindings name (Chain.withLayer first before)) :
    second.lookup (upName name) = first.lookup (upName name) := by
  obtain ⟨context, parents, rfl⟩ := List.exists_cons_of_ne_nil chain
  cases after with
  | nil => cases same
  | cons other others =>
      have head := List.head_eq_of_cons_eq same
      exact List.head_eq_of_cons_eq head

theorem layered_of_bindings {first second : St W}
    (same : bindings name first.contexts = bindings name second.contexts)
    (layered : second.Layered) : first.Layered := by
  obtain ⟨context, parents, chain, layers⟩ := layered
  rw [chain] at same
  obtain ⟨other, others, split⟩ :=
    List.exists_cons_of_ne_nil (chain_of_bindings same (List.cons_ne_nil _ _))
  rw [split] at same
  refine ⟨other, others, split, ?_⟩
  intro empty
  have head : (other.stack.map fun layer => layer.lookup (upName name)) =
      context.stack.map fun layer => layer.lookup (upName name) :=
    List.head_eq_of_cons_eq same
  rw [empty] at head
  exact layers (List.map_eq_nil_iff.mp head.symm)

/-- The layer at hand on top of the others. -/
theorem exists_layer {state : St W} (layered : state.Layered) :
    ∃ layer, state.contexts = Chain.withLayer layer state.dropLayer.contexts := by
  obtain ⟨context, parents, chain, layers⟩ := layered
  obtain ⟨layer, rest, stack⟩ := List.exists_cons_of_ne_nil layers
  have whole : { context.dropLayer with
      stack := layer :: context.dropLayer.stack } = context := by
    rw [Context.dropLayer, stack]
    change { context with stack := layer :: rest } = context
    rw [← stack]
  refine ⟨layer, ?_⟩
  rw [St.dropLayer, St.mapHead, chain]
  exact congrArg (· :: parents) whole.symm

end DbPager
