import DbPager.Adequacy
import DbPager.Plain

/-!
# Scripts of the core language

A script belongs to the core language when all its tags do: their classes have
a meaning, their expressions have a value whatever the variables are, and they
do nothing of what the meaning leaves out.  Such a script never gets stuck, so
the interpreter and the language say the same about it.
-/

namespace DbPager

open Effect Language

variable {W : Type}

/-- Every tag of the tree. -/
inductive Tag.Every (holds : Tag → Prop) : Tag → Prop
  | mk {tag : Tag} : holds tag → (∀ child ∈ tag.childs, Every holds child) →
      Every holds tag

theorem Tag.Every.here {holds : Tag → Prop} {tag : Tag}
    (every : tag.Every holds) : holds tag := by
  cases every with
  | mk here _ => exact here

theorem Tag.Every.child {holds : Tag → Prop} {tag : Tag}
    (every : tag.Every holds) {child : Tag} (member : child ∈ tag.childs) :
    child.Every holds := by
  cases every with
  | mk _ childs => exact childs child member

/-- Every tag that can be found from a place: those below it, and those below
the tags above it. -/
structure Loc.Every (holds : Tag → Prop) (loc : Loc) : Prop where
  below : loc.tag.Every holds
  above : ∀ tag ∈ loc.up, tag.Every holds

namespace Loc.Every

variable {holds : Tag → Prop} {loc found : Loc}

theorem child (every : loc.Every holds) {tag : Tag}
    (member : tag ∈ loc.tag.childs) : (loc.child tag).Every holds where
  below := every.below.child member
  above := List.forall_mem_cons.mpr ⟨every.below, every.above⟩

theorem getChild (every : loc.Every holds) {name : Str}
    (search : loc.getChild name = some found) : found.Every holds := by
  obtain ⟨member, above, _⟩ := Loc.getChild_spec search
  refine ⟨every.below.child member, ?_⟩
  rw [above]
  exact List.forall_mem_cons.mpr ⟨every.below, every.above⟩

theorem ofAncestor {up : List Tag} (every : ∀ tag ∈ up, tag.Every holds)
    (child : ChildOfAncestor found up) : found.Every holds := by
  induction child with
  | here member above =>
      refine ⟨(every _ List.mem_cons_self).child member, ?_⟩
      rw [above]
      exact every
  | above _ induction =>
      exact induction fun tag member => every tag (List.mem_cons_of_mem _ member)

theorem findTag (every : loc.Every holds) {name : Str}
    (search : DbPager.findTag name loc.up = some found) : found.Every holds :=
  ofAncestor every.above (findTag_spec search).1

theorem target (every : loc.Every holds)
    (search : TagUsr.target loc = some found) : found.Every holds := by
  unfold TagUsr.target at search
  split at search
  · split at search
    next address =>
        cases search
        exact ofAncestor every.above (findAddr_spec address)
    next => exact every.findTag search
  · exact every.findTag search
  · exact every.findTag search
  · cases search

end Loc.Every

namespace Semantics

section Core

variable {outside : Outside W} (expressions : Expressions outside)

/-- The expression has a value, or raises an exception, whatever the variables
are. -/
def Meant (expr : Expr Str Char Exc) : Prop :=
  ∀ vars, (expr vars).isSome = true

/-- The tag belongs to the core language. -/
def Core (tag : Tag) : Prop :=
  (∀ param ∈ tag.params, Meant (expressions.value param.2)) ∧
    match tag.kind with
    | .cdata | .unknown _ | .usr _ _ | .userFunction _ | .module | .include
    | .set | .catch | .throw | .case | .switch | .while | .tag _ | .call
    | .execute => True
    | .expression => Meant (expressions.value tag.text)
    | .var => ∀ vars type,
        param expressions ⟨tag, []⟩ "type" vars = some (.ok type) →
          (type.isEmpty || outside.dcl.compare type Context.localType) = true
    | .try => ∀ handler,
        tag.childs.find? (fun child => child.getName == "catch".toList) =
          some handler → handler.kind = .catch
    | .split =>
        Meant (quiet (param expressions ⟨tag, []⟩ "separator")) ∧
          Meant (quiet (param expressions ⟨tag, []⟩ "value"))
    | _ => False

/-- Only tags of the core language can be found from here. -/
abbrev Spoken (loc : Loc) : Prop :=
  loc.Every (Core expressions)

/-- A tag that is executed on behalf of another one, both in the language. -/
def Reached (procedure : Procedure) : Prop :=
  Spoken expressions procedure.1 ∧
    ∀ caller, procedure.2 = some caller → Spoken expressions caller

/-- The statement does not get stuck and stays in the language. -/
abbrev Fine (stmt : Statement) : Prop :=
  stmt.Safe (Reached expressions) (Spoken expressions)

variable {expressions} {self : Loc} {caller : Option Loc}

theorem Spoken.param (spoken : Spoken expressions self) (name : String) :
    Meant (param expressions self name) := by
  unfold Semantics.param Loc.findParam
  cases search : self.tag.params.find? (fun param => param.1 == name.toList) with
  | none => exact fun _ => rfl
  | some param =>
      exact spoken.below.here.1 param (List.mem_of_find?_eq_some search)

theorem fine_compute {expr : Expr Str Char Exc} {next : Str → Statement}
    (meant : Meant expr) (fine : ∀ value, Fine expressions (next value)) :
    Fine expressions (.compute expr next) :=
  ⟨meant, fun _ value _ => fine value⟩

theorem fine_childs (reached : Reached expressions (self, caller)) :
    Fine expressions (childs self caller) :=
  each_safe (fun _ member => ⟨reached.1.child member, reached.2⟩) trivial

theorem fine_var (reached : Reached expressions (self, caller))
    (isLocal : ∀ vars type,
      param expressions self "type" vars = some (.ok type) →
        (type.isEmpty || outside.dcl.compare type Context.localType) = true)
    (names : List Str) :
    Fine expressions (tagVar expressions self caller names) := by
  induction names with
  | nil => exact fine_childs reached
  | cons name names induction =>
      refine ⟨reached.1.param "type", fun vars type same => ?_⟩
      apply fine_compute (reached.1.param "value")
      intro value
      rw [if_pos (isLocal vars type same)]
      exact induction

theorem fine_set (reached : Reached expressions (self, caller)) :
    Fine expressions (tagSet expressions self caller) := by
  refine ⟨fine_childs reached, fun value => ?_⟩
  apply fine_compute (reached.1.param "name")
  exact fun names => each_safe (fun _ _ => trivial) trivial

theorem fine_handle {handler : Loc}
    (reached : Reached expressions (handler, caller)) (exception : Exc) :
    Fine expressions (handle outside.dcl handler caller exception) := by
  unfold handle
  split
  · exact fine_childs reached
  · exact fine_childs reached

theorem fine_try (reached : Reached expressions (self, caller))
    (catches : ∀ handler,
      self.tag.childs.find? (fun child => child.getName == "catch".toList) =
        some handler → handler.kind = .catch) :
    Fine expressions (tagTry outside.dcl self caller) := by
  refine ⟨⟨fine_childs reached, fun _ => trivial⟩, fun exception => ?_⟩
  cases found : self.getChild "catch".toList with
  | none => exact trivial
  | some handler =>
      have spoken := reached.1.getChild found
      obtain ⟨tag, search, rfl⟩ := Option.map_eq_some_iff.mp found
      have isCatch : (self.child tag).tag.kind = .catch := catches tag search
      simp only [isCatch]
      exact fine_handle ⟨spoken, reached.2⟩ exception

theorem fine_throwWith (spoken : Spoken expressions self) (message : Str) :
    Fine expressions (throwWith expressions self message) := by
  apply fine_compute (spoken.param "code")
  intro code
  split
  · exact trivial
  · split
    · exact trivial
    · exact trivial

theorem fine_throw (reached : Reached expressions (self, caller)) :
    Fine expressions (tagThrow expressions self caller) := by
  apply fine_compute (reached.1.param "message")
  intro parameter
  split
  · exact ⟨fine_childs reached, fine_throwWith reached.1⟩
  · exact fine_throwWith reached.1 parameter

theorem fine_case (reached : Reached expressions (self, caller)) :
    Fine expressions (tagCase expressions self caller) := by
  apply fine_compute (reached.1.param "match")
  intro pattern
  apply fine_compute fun _ => rfl
  intro tested
  split
  · exact ⟨fine_childs reached, trivial⟩
  · exact trivial

theorem fine_arguments {body : Statement} (fine : Fine expressions body)
    {params : List (Str × Str)}
    (meant : ∀ param ∈ params, Meant (expressions.value param.2)) :
    Fine expressions (arguments expressions body params) := by
  induction params with
  | nil => exact fine
  | cons param params induction =>
      apply fine_compute (meant param List.mem_cons_self)
      exact fun _ => induction fun param member =>
        meant param (List.mem_cons_of_mem _ member)

theorem fine_invokeFound (spoken : Spoken expressions self) (name : Str)
    {found : Option Loc}
    (search : ∀ definition, found = some definition →
      Spoken expressions definition) :
    Fine expressions (invokeFound outside.dcl self name found) := by
  cases found with
  | none => exact trivial
  | some definition =>
      refine ⟨spoken, search definition rfl, ?_⟩
      intro caller same
      cases same
      exact spoken

theorem fine_usr (spoken : Spoken expressions self) :
    Fine expressions (tagUsr expressions self) := by
  apply fine_arguments
  · exact fine_invokeFound spoken _ fun _ => spoken.target
  · exact spoken.below.here.1

theorem fine_call (spoken : Spoken expressions self) :
    Fine expressions (tagCall expressions self) := by
  apply fine_compute (spoken.param "name")
  intro name
  apply fine_arguments
  · exact fine_invokeFound spoken name fun _ => spoken.findTag
  · exact fun param member =>
      spoken.below.here.1 param (List.mem_of_mem_filter member)

theorem fine_execute (spoken : Spoken expressions self) :
    Fine expressions (tagExecute expressions self) := by
  intro call active
  apply fine_compute (spoken.param "name")
  intro name
  split
  · apply fine_childs
    refine ⟨active, fun caller same => ?_⟩
    cases same
    exact spoken
  · cases found : call.getChild ('@' :: name) with
    | none => exact trivial
    | some slot =>
        refine ⟨active.getChild found, fun caller same => ?_⟩
        cases same
        exact active

theorem fine_tag (reached : Reached expressions (self, caller)) :
    Fine expressions (tagTag self caller) := by
  unfold tagTag
  split
  · split
    · exact fine_childs reached
    · exact trivial
  · exact trivial

theorem fine_attr {param : Str × Str} (meant : Meant (expressions.value param.2)) :
    Fine expressions (attr expressions self param) := by
  unfold attr
  split
  · exact trivial
  · split
    · apply fine_compute meant
      intro value
      split
      · exact trivial
      · exact trivial
    · split
      · exact trivial
      · apply fine_compute meant
        intro value
        split
        · exact trivial
        · exact trivial

theorem fine_unknown (reached : Reached expressions (self, caller)) :
    Fine expressions (tagUnknown expressions self caller) := by
  have fine : Fine expressions (element expressions self caller) := by
    refine ⟨trivial, each_safe ?_ ⟨fine_childs reached, fun _ => trivial⟩⟩
    exact fun param member => fine_attr (reached.1.below.here.1 param member)
  apply fine_compute fun _ => rfl
  intro root
  split
  · exact ⟨fine, fun _ => trivial⟩
  · exact fine

theorem fine_spread {rest : Str → List Str → Statement}
    (fine : ∀ last fragments, Fine expressions (rest last fragments))
    (last : Str) (names fragments : List Str) :
    Fine expressions (spread rest last names fragments) := by
  induction names generalizing last fragments with
  | nil => exact fine last fragments
  | cons name names induction =>
      cases fragments with
      | nil => exact fine last []
      | cons fragment fragments => exact induction name fragments

theorem fine_cycle (reached : Reached expressions (self, caller)) (name : Str)
    (fragments : List Str) :
    Fine expressions (cycle outside.dcl self caller name fragments) :=
  each_safe (fun _ _ => ⟨trivial, fine_childs reached⟩) trivial

theorem fine_append (reached : Reached expressions (self, caller))
    (sep last : Str) (rest : List Str) :
    Fine expressions (append outside.dcl self caller sep last rest) := by
  unfold append
  split
  · exact fine_childs reached
  · apply fine_compute fun _ => rfl
    exact fun value => ⟨trivial, fine_childs reached⟩

theorem fine_splitBody (reached : Reached expressions (self, caller))
    (sep : Str) (fragments : List Str) :
    Fine expressions (splitBody expressions self caller sep fragments) := by
  apply fine_compute (reached.1.param "name")
  intro text
  split
  · exact trivial
  · apply fine_compute (reached.1.param "order")
    intro order
    split
    · exact fine_cycle reached _ fragments
    · split
      · exact fine_cycle reached _ fragments.reverse
      · exact trivial
  · exact fine_spread (fine_append reached sep) _ _ _

theorem fine_split (reached : Reached expressions (self, caller))
    (separator : Meant (quiet (param expressions self "separator")))
    (source : Meant (quiet (param expressions self "value"))) :
    Fine expressions (tagSplit expressions self caller) := by
  apply fine_compute separator
  intro parameter
  apply fine_compute source
  intro value
  obtain ⟨pieces, _, cut⟩ := splitFrom_eq outside.dcl
    (TagSplit.separatorOf_filled parameter) (Nat.zero_le value.length)
    (Nat.lt_succ_self value.length)
  unfold TagSplit.separatorOf at cut
  simp only [cut]
  exact fine_splitBody reached _ _

/-- A tag of the core language does not get stuck. -/
theorem fine_meaning {procedure : Procedure}
    (reached : Reached expressions procedure) :
    Fine expressions (meaning expressions procedure) := by
  obtain ⟨self, caller⟩ := procedure
  have core := reached.1.below.here.2
  unfold meaning
  simp only
  generalize known : self.tag.kind = kind at core
  cases kind with
  | expression => exact fine_compute core fun _ => trivial
  | cdata =>
      apply fine_compute fun _ => rfl
      intro root
      split
      · exact trivial
      · exact trivial
  | unknown name => exact fine_unknown reached
  | usr name userTag => exact fine_usr reached.1
  | userFunction name => exact fine_usr reached.1
  | module => exact fine_childs reached
  | «include» => exact fine_childs reached
  | var =>
      apply fine_compute (reached.1.param "name")
      exact fun names => fine_var reached core _
  | set => exact fine_set reached
  | «try» => exact fine_try reached core
  | «catch» => exact trivial
  | throw => exact fine_throw reached
  | case => exact fine_case reached
  | switch =>
      refine ⟨fine_compute (reached.1.param "test") ?_, fun _ => trivial⟩
      exact fun _ => fine_childs reached
  | «while» => exact ⟨reached.1.param "test", fine_childs reached⟩
  | split => exact fine_split reached core.1 core.2
  | tag name => exact fine_tag reached
  | call => exact fine_call reached.1
  | execute => exact fine_execute reached.1
  | _ => exact core.elim

/-! ## The scene of a state -/

/-- The bindings of a chain of contexts, without its layers. -/
def bindings : List Context → Variables
  | [] => ∅
  | context :: parents =>
      context.stack.foldr (fun layer vars => layer.toFinmap ∪ vars)
        (bindings parents)

theorem lookup_layers (key : Str) (layers : List Vars) (vars : Variables) :
    (layers.foldr (fun layer vars => layer.toFinmap ∪ vars) vars).lookup key =
      (findVar key layers).or (vars.lookup key) := by
  induction layers with
  | nil => rfl
  | cons layer layers induction =>
      rw [List.foldr_cons, findVar]
      cases bound : layer.lookup key with
      | some value =>
          have member : key ∈ layer.toFinmap := by
            rw [Finmap.mem_toFinmap, ← AList.lookup_isSome, bound]
            rfl
          rw [Finmap.lookup_union_left member, Finmap.lookup_toFinmap, bound]
          rfl
      | none =>
          have absent : key ∉ layer.toFinmap := by
            rw [Finmap.mem_toFinmap, ← AList.lookup_eq_none]
            exact bound
          rw [Finmap.lookup_union_right absent, induction]

theorem shows_bindings (contexts : List Context) :
    Shows contexts (bindings contexts) := by
  intro name
  induction contexts with
  | nil => rfl
  | cons context parents induction =>
      rw [bindings, lookup_layers, Chain.lookup, induction]
      cases findVar (upName name) context.stack with
      | none => rfl
      | some value => rfl

/-- Every state whose context at hand is a local one shows a scene. -/
theorem presents_bindings {state : St W} (headed : Headed state.contexts) :
    Presents ⟨bindings state.contexts, state.exec⟩ state :=
  ⟨shows_bindings state.contexts, rfl, headed⟩

/-! ## The interpreter and the language -/

/-- A call of a tag of the core language runs out of depth, or it ends the way
the language says. -/
theorem execute_ends (reached : Reached expressions (self, caller))
    {scene : Scene} {state : St W} (shown : Presents scene state)
    (active : ∀ loc ∈ scene.frames, Spoken expressions loc) (depth : Nat) :
    (Language.run (meaning expressions) depth (self, caller) scene =
        .error .timeout ∧
      (DbPager.execute outside depth self caller state).outcome =
        .halt .timeout) ∨
    ∃ ending final,
      Language.run (meaning expressions) depth (self, caller) scene =
        .ok ending ∧
      DbPager.execute outside depth self caller state =
        ⟨final, ending.out, outcome ending.raised⟩ ∧
      Presents ending.config final ∧ After state final := by
  have safe := run_safe (fun _ => fine_meaning) depth reached active
  have agrees := does_execute expressions depth self caller state scene shown
  rw [eval] at agrees
  generalize Language.run (meaning expressions) depth (self, caller) scene =
    answer at safe agrees
  cases ran : DbPager.execute outside depth self caller state with
  | mk final out ended =>
      rw [ran] at agrees
      cases agrees with
      | stuck => exact safe.elim
      | timeout => exact .inl ⟨rfl, rfl⟩
      | @ended config _ _ raised kept =>
          exact .inr ⟨⟨config, out, raised⟩, final, rfl, rfl, kept⟩

/-- What the language says about a tag, the interpreter does, at every depth
from some bound on, whatever the state is that presents the scene. -/
theorem executes_of_exec {scene : Scene} {ending : Ending Str Char Exc Loc}
    (exec : Exec (meaning expressions) (meaning expressions (self, caller))
      scene ending) :
    ∃ bound, ∀ depth, bound ≤ depth → ∀ state : St W, Presents scene state →
      ∃ final, DbPager.execute outside depth self caller state =
          ⟨final, ending.out, outcome ending.raised⟩ ∧
        Presents ending.config final ∧ After state final := by
  obtain ⟨bound, ran⟩ := exec.within
  refine ⟨bound + 1, fun depth enough state shown => ?_⟩
  have answered : Language.run (meaning expressions) depth (self, caller)
      scene = .ok ending := run_below _ enough _ _ _ ran
  have agrees := does_execute expressions depth self caller state scene shown
  rw [eval, answered] at agrees
  generalize known : DbPager.execute outside depth self caller state = run
    at agrees
  cases agrees with
  | ended kept => exact ⟨_, rfl, kept⟩

theorem execute_of_exec {scene : Scene} {state : St W}
    (shown : Presents scene state) {ending : Ending Str Char Exc Loc}
    (exec : Exec (meaning expressions) (meaning expressions (self, caller))
      scene ending) :
    ∃ bound, ∀ depth, bound ≤ depth →
      ∃ final, DbPager.execute outside depth self caller state =
          ⟨final, ending.out, outcome ending.raised⟩ ∧
        Presents ending.config final ∧ After state final := by
  obtain ⟨bound, runs⟩ := executes_of_exec exec
  exact ⟨bound, fun depth enough => runs depth enough state shown⟩

/-- Every assignment of values to the variables is shown by some state. -/
theorem exists_presents (vars : Variables) (world : W) :
    ∃ state : St W, Presents ⟨vars, []⟩ state := by
  induction vars using Finmap.induction_on with
  | H layer =>
      let context : Context := { Context.newLocal with stack := [layer] }
      refine ⟨{ contexts := [context], vectors := ∅, maps := ∅, nextAddr := 1,
                world, trace := [] }, ?_, rfl, context, [], rfl, rfl,
        List.cons_ne_nil _ _⟩
      intro name
      change (AList.toFinmap layer).lookup (upName name) = _
      rw [Finmap.lookup_toFinmap]
      simp only [Chain.lookup, context, findVar]
      cases layer.lookup (upName name) <;> rfl

/-- Whatever meanings the expressions have: if a tag has an ending in two of
them, the endings cannot be told apart. -/
theorem same_ending {first second : Expressions outside} {scene : Scene}
    {ending other : Ending Str Char Exc Loc} {state : St W}
    (shown : Presents scene state)
    (one : Exec (meaning first) (meaning first (self, caller)) scene ending)
    (two : Exec (meaning second) (meaning second (self, caller)) scene other) :
    ending.out = other.out ∧ ending.raised = other.raised ∧
      ∀ name, ending.config.store.lookup (upName name) =
        other.config.store.lookup (upName name) := by
  obtain ⟨enough, runs⟩ := executes_of_exec one
  obtain ⟨needed, repeats⟩ := executes_of_exec two
  obtain ⟨final, ran, here, -⟩ :=
    runs (max enough needed) (le_max_left _ _) state shown
  obtain ⟨last, again, there, -⟩ :=
    repeats (max enough needed) (le_max_right _ _) state shown
  rw [ran] at again
  injection again with same out raised
  subst same
  exact ⟨out, outcome_injective raised,
    fun name => (here.shown name).trans (there.shown name).symm⟩

/-- The interpreter and the language agree about every tag of the core
language.  When the language gives it an ending, the interpreter reaches it,
with any depth from some bound on: the same text, the same exception, and a
chain of contexts that shows the final variables.  What the interpreter ends
with is an ending of the language.  And where it does not end it has run out of
depth: it never does anything undefined. -/
theorem interpreter_adequate (reached : Reached expressions (self, caller))
    {scene : Scene} {state : St W} (shown : Presents scene state)
    (active : ∀ loc ∈ scene.frames, Spoken expressions loc) :
    (∀ ending, Exec (meaning expressions) (meaning expressions (self, caller))
        scene ending →
      ∃ bound, ∀ depth, bound ≤ depth →
        ∃ final, DbPager.execute outside depth self caller state =
            ⟨final, ending.out, outcome ending.raised⟩ ∧
          Presents ending.config final ∧ After state final) ∧
    ∀ depth,
      (DbPager.execute outside depth self caller state).outcome =
        .halt .timeout ∨
      ∃ ending final,
        Exec (meaning expressions) (meaning expressions (self, caller)) scene
          ending ∧
        DbPager.execute outside depth self caller state =
          ⟨final, ending.out, outcome ending.raised⟩ ∧
        Presents ending.config final ∧ After state final := by
  refine ⟨fun _ => execute_of_exec shown, fun depth => ?_⟩
  rcases execute_ends reached shown active depth with
    ⟨_, halted⟩ | ⟨ending, final, answered, ran⟩
  · exact .inl halted
  · exact .inr ⟨ending, final, exec_run answered, ran⟩

/-- Say `again` as long as the variable is `1`, and make it `0`. -/
def onceTag : Tag :=
  .mk 1 .while [("test".toList, "\x7b$go\x7d".toList)]
    [.mk 2 .set [("name".toList, "go".toList)] [] "0".toList,
      .mk 3 .expression [] [] "again".toList] []

def once : Loc :=
  ⟨onceTag, []⟩

/-- A local context with one variable in its layer. -/
def going : Context :=
  { Context.newLocal with
    stack := [AList.insert "GO".toList "1".toList ∅] }

abbrev plainTexts : Expressions Outside.plain :=
  .templates Outside.plain

theorem once_reached : Reached plainTexts (once, none) := by
  refine ⟨⟨.mk ⟨?_, trivial⟩ ?_, by simp [once]⟩, by simp⟩
  · intro param member vars
    obtain rfl := List.mem_singleton.mp member
    rfl
  · intro child member
    rcases List.mem_pair.mp member with rfl | rfl
    · refine .mk ⟨?_, trivial⟩ (by simp [Tag.childs])
      intro param member vars
      obtain rfl := List.mem_singleton.mp member
      rfl
    · exact .mk ⟨by simp [Tag.params], fun _ => rfl⟩ (by simp [Tag.childs])

theorem going_headed : Headed (St.fresh [going]).contexts :=
  ⟨going, [], rfl, rfl, by simp [going]⟩

/-- The script has an ending, and the interpreter reaches it. -/
theorem once_adequate : ∃ ending,
    Exec (meaning plainTexts) (meaning plainTexts (once, none))
      ⟨bindings [going], []⟩ ending ∧
    ending.out = "again".toList ∧ ending.raised = none ∧
    ∃ bound, ∀ depth, bound ≤ depth → ∃ final,
      DbPager.execute Outside.plain depth once none (St.fresh [going]) =
          ⟨final, ending.out, outcome ending.raised⟩ ∧
        Presents ending.config final ∧
        After (St.fresh [going]) final := by
  have ran : (DbPager.execute Outside.plain 4 once none
      (St.fresh [going])).outcome = .value () := by decide +kernel
  have wrote : (DbPager.execute Outside.plain 4 once none
      (St.fresh [going])).out = "again".toList := by decide +kernel
  have adequate := interpreter_adequate once_reached
    (presents_bindings going_headed)
    fun _ member => absurd member List.not_mem_nil
  rcases adequate.2 4 with halted | ⟨ending, final, exec, same, _⟩
  · rw [ran] at halted
    cases halted
  · rw [same] at ran wrote
    have fine : ending.raised = none := by
      cases raised : ending.raised with
      | none => rfl
      | some exception =>
          rw [raised] at ran
          cases ran
    exact ⟨ending, exec, wrote, fine, adequate.1 ending exec⟩

/-! ## Layers are not seen -/

/-- A script of the core language does the same in two states that give every
name the same value and have the same active calls, however the bindings are
spread over layers and contexts, and whatever else is different: it writes the
same text and ends the same way, every name has the same value again, and the
active calls are the same. -/
theorem layering_unseen (reached : Reached expressions (self, caller))
    {first second : St W} (oneHeaded : Headed first.contexts)
    (twoHeaded : Headed second.contexts)
    (same : ∀ name, Chain.lookup name second.contexts =
      Chain.lookup name first.contexts)
    (calls : second.exec = first.exec)
    (active : ∀ loc ∈ first.exec, Spoken expressions loc) (depth : Nat) :
    let one := DbPager.execute outside depth self caller first
    let two := DbPager.execute outside depth self caller second
    two.outcome = one.outcome ∧ (one.outcome.Finished →
      two.out = one.out ∧ two.state.exec = one.state.exec ∧
      ∀ name, Chain.lookup name two.state.contexts =
        Chain.lookup name one.state.contexts) := by
  intro one two
  have shown := presents_bindings oneHeaded
  have shownToo : Presents ⟨bindings first.contexts, first.exec⟩ second :=
    ⟨fun name => (shown.shown name).trans (same name).symm, calls, twoHeaded⟩
  rcases execute_ends reached shown active depth with
    ⟨answered, halted⟩ | ⟨ending, final, answered, ran, left, _⟩
  · rcases execute_ends reached shownToo active depth with
      ⟨_, haltedToo⟩ | ⟨ending, _, answeredToo, _⟩
    · refine ⟨haltedToo.trans halted.symm, fun finished => ?_⟩
      rw [halted] at finished
      exact finished.elim
    · rw [answered] at answeredToo
      cases answeredToo
  · rcases execute_ends reached shownToo active depth with
      ⟨answeredToo, _⟩ | ⟨other, last, answeredToo, ranToo, leftToo, _⟩
    · rw [answered] at answeredToo
      cases answeredToo
    · rw [answered] at answeredToo
      cases answeredToo
      have one_eq : one = ⟨final, ending.out, outcome ending.raised⟩ := ran
      have two_eq : two = ⟨last, ending.out, outcome ending.raised⟩ := ranToo
      rw [one_eq, two_eq]
      refine ⟨rfl, fun _ => ⟨rfl, leftToo.calls.trans left.calls.symm, ?_⟩⟩
      exact fun name => (leftToo.shown name).symm.trans (left.shown name)

/-- The variable in a layer of its own, or in the user's context. -/
def goingAbove : List Context :=
  [Context.newLocal, { going with type := Context.userType }]

theorem once_unseen :
    (∀ name, Chain.lookup name goingAbove = Chain.lookup name [going]) ∧
    (DbPager.execute Outside.plain 4 once none (St.fresh goingAbove)).out =
      (DbPager.execute Outside.plain 4 once none (St.fresh [going])).out := by
  have same : ∀ name,
      Chain.lookup name goingAbove = Chain.lookup name [going] := by
    intro name
    simp [goingAbove, Chain.lookup, going, Context.newLocal, Context.new,
      findVar]
  have headed : Headed (St.fresh goingAbove).contexts :=
    ⟨Context.newLocal, _, rfl, rfl, by simp [Context.newLocal, Context.new]⟩
  have unseen := layering_unseen once_reached going_headed headed same rfl
    (fun _ member => absurd member List.not_mem_nil) 4
  exact ⟨same, (unseen.2 (by decide +kernel)).1⟩

/-! ## Loops -/

/-- A `dbp:while` whose test always has a value, and whose rounds end normally,
keep an invariant of what has been written and of the variables, and make a
measure smaller: with enough depth the interpreter leaves the loop normally,
the invariant holds for everything the loop has written, and the test is no
longer `1`. -/
theorem while_total (isWhile : self.tag.kind = .while)
    {invariant : Str → Scene → Prop} (measure : Scene → Nat)
    (tested : ∀ out scene, invariant out scene →
      ∃ value, param expressions self "test" scene.store = some (.ok value))
    (round : ∀ out scene, invariant out scene →
      param expressions self "test" scene.store = some (.ok "1".toList) →
        ∃ after text,
          Exec (meaning expressions) (childs self caller) scene
            ⟨after, text, none⟩ ∧
          invariant (out ++ text) after ∧ measure after < measure scene)
    {scene : Scene} {state : St W} (shown : Presents scene state)
    (begins : invariant [] scene) :
    ∃ after text value, invariant text after ∧
      param expressions self "test" after.store = some (.ok value) ∧
      value ≠ "1".toList ∧
      ∃ bound, ∀ depth, bound ≤ depth → ∃ final,
        DbPager.execute outside depth self caller state =
          ⟨final, text, .value ()⟩ ∧
        Presents after final ∧ After state final := by
  have ended : ∃ after text value,
      Exec (meaning expressions) (tagWhile expressions self caller) scene
        ⟨after, text, none⟩ ∧ invariant ([] ++ text) after ∧
      param expressions self "test" after.store = some (.ok value) ∧
      (value == "1".toList) = false := by
    apply Exec.loop_total measure tested _ begins
    intro out scene value kept known again
    have same : value = "1".toList := by simpa using again
    rw [same] at known
    exact round out scene kept known
  obtain ⟨after, text, value, exec, kept, known, ends⟩ := ended
  have loop : Exec (meaning expressions) (meaning expressions (self, caller))
      scene ⟨after, text, none⟩ := by
    unfold meaning
    simp only [isWhile]
    exact exec
  obtain ⟨bound, runs⟩ := execute_of_exec shown loop
  refine ⟨after, text, value, kept, known, by simpa using ends, bound, ?_⟩
  exact runs

/-- The variable is `1` before the first round and `0` after it. -/
def Once (out : Str) (scene : Scene) : Prop :=
  (scene.store.lookup "GO".toList = some "1".toList ∧ out = []) ∨
    (scene.store.lookup "GO".toList = some "0".toList ∧
      out = "again".toList)

/-- One round is left, or none. -/
def rounds (scene : Scene) : Nat :=
  if scene.store.lookup "GO".toList = some "1".toList then 1 else 0

theorem once_total :
    ∃ after text value, Once text after ∧
      param plainTexts once "test" after.store = some (.ok value) ∧
      value ≠ "1".toList ∧
      ∃ bound, ∀ depth, bound ≤ depth → ∃ final,
        DbPager.execute Outside.plain depth once none (St.fresh [going]) =
          ⟨final, text, .value ()⟩ ∧
        Presents after final ∧ After (St.fresh [going]) final := by
  have read (scene : Scene) : param plainTexts once "test" scene.store =
      some (.ok ((scene.store.lookup "GO".toList).getD [] ++ [])) := rfl
  refine while_total rfl rounds (fun _ scene _ => ⟨_, read scene⟩) ?_
    (presents_bindings going_headed) (.inl ⟨rfl, rfl⟩)
  intro out scene kept tested
  rw [read scene] at tested
  rcases kept with ⟨bound, rfl⟩ | ⟨bound, _⟩
  · refine ⟨scene.declare "GO".toList "0".toList, "again".toList, ?_, ?_, ?_⟩
    · have isBound : (scene.store.lookup "GO".toList).isSome = true := by
        rw [bound]
        rfl
      have set : Exec (meaning plainTexts)
          (meaning plainTexts (once.child onceTag.childs[0], none)) scene
          ⟨scene.declare "GO".toList "0".toList, [], none⟩ :=
        .captureThen .write (.computeThen rfl
          (.seqThen (.assignBound isBound) .write))
      have told : Exec (meaning plainTexts)
          (meaning plainTexts (once.child onceTag.childs[1], none))
          (scene.declare "GO".toList "0".toList)
          ⟨scene.declare "GO".toList "0".toList, "again".toList, none⟩ :=
        .computeThen rfl .write
      exact .seqThen (.invoke set) (.seqThen (.invoke told) .write)
    · exact .inr ⟨Finmap.lookup_insert _, rfl⟩
    · have after : (scene.declare "GO".toList "0".toList).store.lookup
          "GO".toList = some "0".toList := Finmap.lookup_insert _
      unfold rounds
      rw [after, bound]
      decide
  · rw [bound] at tested
    exact absurd tested (by decide)

end Core

end Semantics

end DbPager
