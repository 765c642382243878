import DbPager.Watched

/-!
# Data in the middle of markup

Some tags take what their body writes as data: a JSON text, the content of a
file, a message.  Inside of an HTML element a variable of the renderer is set,
and a CDATA section writes stand-ins for its delimiters whoever is going to
read them.  Texts cannot name the variable, but the functions they call may run
tags that see it.
-/

namespace DbPager

open Effect

open Effect.Prog (Silent Writes Guards Related)

variable {W : Type}

namespace Captured

/-- Two contexts with the same variables, but for that of the renderer. -/
structure Alike (first second : Context) : Prop where
  type : first.type = second.type
  exec : first.exec = second.exec
  services : first.services = second.services
  layers : SameBut first.stack second.stack

/-- Two states that differ in the variable of the renderer only: the first is
outside of HTML, the second inside. -/
structure Beside (first second : St W) : Prop where
  vectors : first.vectors = second.vectors
  maps : first.maps = second.maps
  nextAddr : first.nextAddr = second.nextAddr
  world : first.world = second.world
  trace : first.trace = second.trace
  contexts : List.Forall₂ Alike first.contexts second.contexts
  outside : Chain.getValue htmlFirst first.contexts = []
  inside : Chain.getValue htmlFirst second.contexts ≠ []

theorem Beside.framed {first second : St W} (beside : Beside first second) :
    ∃ view : Nat × List Nat, Framed (view.1 :: view.2) first second := by
  have chains : ∀ {firsts seconds : List Context},
      List.Forall₂ Alike firsts seconds →
      ∃ depths, Chains depths firsts seconds := by
    intro firsts seconds alike
    induction alike with
    | nil => exact ⟨[], .nil⟩
    | cons alike _ induction =>
        obtain ⟨depths, chains⟩ := induction
        exact ⟨0 :: depths, .cons (.of_same alike.type alike.exec
          alike.services alike.layers) chains⟩
  obtain ⟨depths, chained⟩ := chains beside.contexts
  have framed : Framed depths first second :=
    ⟨beside.vectors, beside.maps, beside.nextAddr, beside.world, beside.trace,
      chained⟩
  cases depths with
  | cons depth depths => exact ⟨(depth, depths), framed⟩
  | nil =>
      have inside := beside.inside
      generalize first.contexts = firsts, second.contexts = seconds
        at chained inside
      cases chained
      exact absurd rfl inside

variable (outside : Outside W)

/-- No prepared statement has a parameter with the name of the variable. -/
def Unnamed : Prop :=
  outside.sqlite.NamesApart False ∧ outside.odbc.NamesApart False

/-- What a tag obtains by executing its body. -/
def data (depth : Nat) (self : Loc) (caller : Option Loc) : M W Str :=
  ((Interp.ofRun outside depth (execute outside depth)).executeChilds self
    caller).capture

/-- What it obtains as long as nothing that is executed sees the markup
around. -/
def unseen (depth : Nat) (self : Loc) (caller : Option Loc) : M W Str :=
  ((Interp.ofRun outside depth (Watched.run outside depth)).executeChilds self
    caller).capture

section Unseen

variable {outside}

theorem evaluate_blind (named : Unnamed outside) (depth : Nat)
    (scope : List Tag) (text : Str) : Watched.Blind 0 fun member =>
      (Interp.ofRun outside depth (Watched.both outside depth member)).evaluate
        scope text :=
  Watched.evaluate_blind (Watched.run_blind named depth) depth scope text

theorem data_blind (named : Unnamed outside) (depth : Nat) (self : Loc)
    (caller : Option Loc) : Watched.Blind 0 (Watched.pairOf
      (unseen outside depth self caller) (data outside depth self caller)) := by
  have captured := (Watched.Blind.uniform 0).capture
    (Watched.childs_blind outside depth (Watched.run_blind named depth) self
      caller)
  exact ⟨captured.1, captured.2⟩

/-- What does not see the markup is the same inside and outside. -/
theorem data_same (named : Unnamed outside) {depth : Nat} {self : Loc}
    {caller : Option Loc} {plain marked : St W}
    (framed : ∃ view : Nat × List Nat,
      Framed (view.1 :: view.2) plain marked)
    (clear : (unseen outside depth self caller plain).outcome ≠
      .halt .fault) :
    (data outside depth self caller marked).outcome =
      (data outside depth self caller plain).outcome := by
  obtain ⟨view, framed⟩ := framed
  obtain ⟨guards, related⟩ := data_blind named depth self caller
  obtain ⟨-, same, -⟩ := related view plain marked framed
  have real : ∀ state, (unseen outside depth self caller state).outcome ≠
      .halt .fault → data outside depth self caller state =
        unseen outside depth self caller state := by
    intro state finished
    rcases guards state with ⟨reason, rfl, halted⟩ | ⟨enough, whole⟩
    · exact absurd halted finished
    · exact whole enough (Nat.le_refl enough)
  rw [real plain clear, real marked (same ▸ clear)]
  exact same.symm

end Unseen

/-- The program takes what the body returns, unless it has ended before. -/
inductive Consumes (body : M W Str) : M W Unit → Prop where
  | here (use : Str → M W Unit) : Consumes body (body >>= use)
  | after {α : Type} (first : M W α) {next : α → M W Unit} :
      (∀ result, Consumes body (next result)) → Consumes body (first >>= next)

/-- The tags that take the output of their body as data. -/
def isConsumer : Kind → Bool
  | .mapFromJson | .listFromJson | .write | .log | .http => true
  | _ => false

theorem consumes_data (depth : Nat) {self : Loc} {caller : Option Loc}
    (consumer : isConsumer self.tag.kind = true) :
    Consumes (data outside depth self caller)
      (execute outside (depth + 1) self caller) := by
  have json (use : Option Json → M W Unit) :
      Consumes (data outside depth self caller)
        (childJson (Interp.ofRun outside depth (execute outside depth)) self
          caller >>= use) := by
    unfold childJson
    rw [Prog.bind_assoc]
    exact .here _
  unfold execute dispatch
  cases kind : self.tag.kind <;> rw [kind] at consumer <;> try cases consumer
  case mapFromJson =>
    apply Consumes.after
    intro name
    apply Consumes.after
    intro pointer
    exact json _
  case listFromJson =>
    apply Consumes.after
    intro name
    apply Consumes.after
    intro pointer
    exact json _
  case write => exact .here _
  case log => exact .here _
  case http =>
    iterate 12
      apply Consumes.after
      intro _
    exact .here _

/-- The value of a text, as long as its functions do not see the markup
around. -/
def evaluateText (depth : Nat) (self : Loc) : M W Str :=
  (Interp.ofRun outside depth (Watched.run outside depth)).evaluate
    (self.tag :: self.up) self.tag.text

/-- The text, or the data, of one leaf of a body.  `check` looks at the mark
of the renderer before a CDATA section. -/
def leaf (check : Str → Bool) (depth : Nat) (self : Loc) : M W Html :=
  match self.tag.kind with
  | .expression => do
      let value ← evaluateText outside depth self
      pure (.text value)
  | .cdata => do
      let root ← M.getValue htmlFirst
      if check root then pure (.cdata self.tag.text) else Prog.halt .fault
  | _ => Prog.halt .fault

/-- The leaves of a body of texts and CDATA sections. -/
def leaves (check : Str → Bool) (depth : Nat) (self : Loc) :
    M W (List Html) :=
  Prog.traverse (fun tag => leaf outside check depth (self.child tag))
    self.tag.childs

/-- What a leaf writes outside of HTML. -/
def plainText : Html → Str
  | .text value => value
  | .cdata data => data
  | .element _ _ _ _ => []

/-- A leaf writes its text, or its data as the mark of the renderer says. -/
theorem leaf_writes (named : Unnamed outside) {check : Str → Bool}
    {text : Html → Str}
    (value : ∀ value, text (.text value) = value)
    (data : ∀ root data, check root = true →
      text (.cdata data) = if root.isEmpty then data else stub data)
    (depth : Nat) (self : Loc) (caller : Option Loc) :
    Writes (execute outside (depth + 1) self caller)
      (leaf outside check depth self) text := by
  unfold leaf execute dispatch
  cases self.tag.kind
  case expression =>
    have guards := (evaluate_blind named depth
      (self.tag :: self.up) self.tag.text).1
    have silent := Interp.evaluate_silent outside depth
      (execute outside depth) (self.tag :: self.up) self.tag.text
    unfold Writes
    rw [Prog.bind_assoc]
    change Guards _ (Prog.capture (_ >>= Prog.emit))
    rw [Prog.capture_bind silent]
    apply guards.bind
    intro result
    change Guards (pure (text (.text result))) (pure result)
    rw [value]
    exact Guards.refl _
  case cdata =>
    apply Writes.of_silent (Silent.read _)
    intro root
    by_cases passes : check root = true
    · have written := data root self.tag.text passes
      rw [if_pos passes]
      cases root with
      | nil =>
          change Guards (pure (text (.cdata self.tag.text)))
            (pure self.tag.text)
          rw [written]
          exact Guards.refl _
      | cons c root =>
          change Guards (pure (text (.cdata self.tag.text)))
            (pure (stub self.tag.text))
          rw [written]
          exact Guards.refl _
    · rw [if_neg passes]
      exact Writes.fault _
  all_goals exact Writes.fault _

section Body

variable {depth : Nat} {self : Loc} {caller : Option Loc}

theorem data_outcome (named : Unnamed outside) {check : Str → Bool}
    {text : Html → Str}
    (value : ∀ value, text (.text value) = value)
    (sections : ∀ root data, check root = true →
      text (.cdata data) = if root.isEmpty then data else stub data)
    {state final : St W} {found : List Html}
    (ran : leaves outside check depth self state =
      ⟨final, [], .value found⟩) :
    (data outside (depth + 1) self caller state).outcome =
      .value (found.flatMap text ++ self.tag.text) := by
  have writes := (Writes.forEach self.tag.childs fun tag =>
    leaf_writes outside named value sections depth (self.child tag)
      caller).after self.tag.text
  have whole := writes.resolve ran
  exact congrArg Run.outcome (Prog.capture_eq whole)

/-- What a leaf of a body stands for. -/
def IsLeaf (tag : Tag) : Html → Prop
  | .text _ => tag.kind = .expression
  | .cdata data => tag.kind = .cdata ∧ data = tag.text
  | .element _ _ _ _ => False

theorem leaf_isLeaf {check : Str → Bool} {state final : St W} {out : Str}
    {html : Html}
    (ran : leaf outside check depth self state = ⟨final, out, .value html⟩) :
    IsLeaf self.tag html := by
  unfold leaf at ran
  cases kind : self.tag.kind <;> rw [kind] at ran
  case expression =>
    obtain ⟨_, _, _, _, -, returned, -⟩ := Prog.of_bind_value ran
    cases returned
    exact kind
  case cdata =>
    obtain ⟨_, root, _, _, -, returned, -⟩ := Prog.of_bind_value ran
    by_cases passes : check root = true
    · rw [if_pos passes] at returned
      cases returned
      exact ⟨kind, rfl⟩
    · rw [if_neg passes] at returned
      cases returned
  all_goals cases ran

theorem leaves_forall {check : Str → Bool} {state final : St W}
    {found : List Html}
    (ran : leaves outside check depth self state =
      ⟨final, [], .value found⟩) :
    List.Forall₂ IsLeaf self.tag.childs found := by
  apply Prog.of_traverse_value _ ran
  intro tag state final out html leafRan
  exact leaf_isLeaf outside leafRan

/-- A leaf stands for the same inside and outside. -/
theorem leaf_agrees (named : Unnamed outside) {check other : Str → Bool}
    {view : Nat × List Nat} {left right first second : St W}
    {out written : Str} {html found : Html}
    (framed : Framed (view.1 :: view.2) left right)
    (ran : leaf outside check depth self left = ⟨first, out, .value html⟩)
    (beyond : leaf outside other depth self right =
      ⟨second, written, .value found⟩) :
    html = found ∧ Framed (view.1 :: view.2) first second := by
  unfold leaf at ran beyond
  cases kind : self.tag.kind <;> rw [kind] at ran beyond
  case expression =>
    have related : Related (Framed (view.1 :: view.2))
        (evaluateText outside depth self) (evaluateText outside depth self) :=
      (evaluate_blind named depth _ _).2 view
    obtain ⟨_, value, _, _, evaluated, returned, -⟩ := Prog.of_bind_value ran
    obtain ⟨_, value', _, _, evaluated', returned', -⟩ :=
      Prog.of_bind_value beyond
    cases returned
    cases returned'
    obtain ⟨rfl, states⟩ := related.values framed evaluated evaluated'
    exact ⟨rfl, states⟩
  case cdata =>
    obtain ⟨_, root, _, _, read, returned, -⟩ := Prog.of_bind_value ran
    obtain ⟨_, root', _, _, read', returned', -⟩ := Prog.of_bind_value beyond
    cases read
    cases read'
    split at returned <;> split at returned' <;> cases returned <;>
      cases returned'
    exact ⟨rfl, framed⟩
  all_goals cases ran

theorem leaves_agree (named : Unnamed outside) {check other : Str → Bool}
    {view : Nat × List Nat} {childs : List Tag} :
    ∀ {left right first second : St W} {out written : Str}
      {htmls found : List Html},
    Framed (view.1 :: view.2) left right →
    Prog.traverse (fun tag => leaf outside check depth (self.child tag)) childs
      left = ⟨first, out, .value htmls⟩ →
    Prog.traverse (fun tag => leaf outside other depth (self.child tag)) childs
      right = ⟨second, written, .value found⟩ →
    htmls = found := by
  induction childs with
  | nil =>
      intro left right first second out written htmls found framed ran beyond
      cases ran
      cases beyond
      rfl
  | cons tag childs induction =>
      intro left right first second out written htmls found framed ran beyond
      obtain ⟨_, html, _, _, here, ran, -⟩ := Prog.of_bind_value ran
      obtain ⟨_, html', _, _, here', beyond, -⟩ := Prog.of_bind_value beyond
      obtain ⟨_, rest, _, _, later, ran, -⟩ := Prog.of_bind_value ran
      obtain ⟨_, rest', _, _, later', beyond, -⟩ := Prog.of_bind_value beyond
      cases ran
      cases beyond
      obtain ⟨same, framed⟩ := leaf_agrees outside named framed here here'
      rw [same, induction framed later later']

/-- The leaves write the same in both ways when no CDATA section has a
delimiter. -/
theorem same_iff {childs : List Tag} {found : List Html}
    (parts : List.Forall₂ IsLeaf childs found) :
    found.flatMap Html.standing = found.flatMap plainText ↔
      ∀ child ∈ childs, child.kind = .cdata →
        Watched.NoDelimiters child.text := by
  induction parts with
  | nil => simp
  | @cons tag html childs found leaf parts induction =>
      have long : html.standing.length = (plainText html).length := by
        cases html with
        | text value => rfl
        | cdata data => exact List.length_map _
        | element name asis attributes inner => exact leaf.elim
      have here : html.standing = plainText html ↔
          (tag.kind = .cdata → Watched.NoDelimiters tag.text) := by
        cases html with
        | text value =>
            apply iff_of_true rfl
            intro kind
            rw [show tag.kind = .expression from leaf] at kind
            cases kind
        | cdata data =>
            obtain ⟨kind, rfl⟩ := leaf
            rw [← Watched.stub_eq_iff]
            constructor
            · intro same _
              exact same
            · intro same
              exact same kind
        | element name asis attributes inner => exact leaf.elim
      rw [List.flatMap_cons, List.flatMap_cons, List.forall_mem_cons, ← here,
        ← induction]
      constructor
      · intro same
        exact List.append_inj same long
      · rintro ⟨head, tail⟩
        exact congrArg₂ (· ++ ·) head tail

end Body

end Captured

/-- What a tag obtains from its body is the same inside and outside of HTML if
nothing that is executed sees the markup around.  Of a body whose texts do not
see it, that is exactly when no CDATA section has one of the delimiters. -/
theorem captured_data_same (outside : Outside W)
    (named : Captured.Unnamed outside) {depth : Nat} {self : Loc}
    {caller : Option Loc}
    (consumer : Captured.isConsumer self.tag.kind = true)
    {plain marked : St W} (beside : Captured.Beside plain marked) :
    Captured.Consumes (Captured.data outside (depth + 1) self caller)
        (execute outside (depth + 2) self caller) ∧
      ((Captured.unseen outside (depth + 1) self caller plain).outcome ≠
          .halt .fault →
        (Captured.data outside (depth + 1) self caller marked).outcome =
          (Captured.data outside (depth + 1) self caller plain).outcome) ∧
      ∀ {final last : St W} {found other : List Html},
        Captured.leaves outside (fun root => root.isEmpty) depth self plain =
          ⟨final, [], .value found⟩ →
        Captured.leaves outside (fun root => !root.isEmpty) depth self marked =
          ⟨last, [], .value other⟩ →
        ((Captured.data outside (depth + 1) self caller marked).outcome =
            (Captured.data outside (depth + 1) self caller plain).outcome ↔
          ∀ child ∈ self.tag.childs, child.kind = .cdata →
            Watched.NoDelimiters child.text) := by
  obtain ⟨view, framed⟩ := beside.framed
  refine ⟨Captured.consumes_data outside (depth + 1) consumer,
    Captured.data_same named ⟨view, framed⟩, ?_⟩
  intro final last found other evaluated marks
  have same := Captured.leaves_agree outside named framed evaluated marks
  subst same
  have inside : (Captured.data outside (depth + 1) self caller
      marked).outcome = .value (found.flatMap Html.standing ++
        self.tag.text) := by
    apply Captured.data_outcome outside named _ _ marks
    · intro value
      rfl
    · intro root data filled
      cases root with
      | nil => cases filled
      | cons c root => rfl
  have beyond : (Captured.data outside (depth + 1) self caller
      plain).outcome = .value (found.flatMap Captured.plainText ++
        self.tag.text) := by
    apply Captured.data_outcome outside named _ _ evaluated
    · intro value
      rfl
    · intro root data empty
      rw [if_pos empty]
      rfl
  rw [inside, beyond,
    ← Captured.same_iff (Captured.leaves_forall outside evaluated)]
  constructor
  · intro same
    exact List.append_cancel_right (Outcome.value.inj same)
  · intro same
    rw [same]

/-- A definition around a CDATA section, and `<dbp:write>` around a text that
calls it and another section. -/
def writeTag (inner data : String) : Loc :=
  ⟨.mk 0 .write [] [.mk 0 .expression [] [] "{@f()}".toList,
      .mk 0 .cdata [] [] data.toList] [],
    [.mk 0 .module [] [.mk 0 (.tag "f".toList) []
      [.mk 0 .cdata [] [] inner.toList] []] []]⟩

/-- A script outside of HTML, and the same script inside of an element. -/
def plainPage : St Unit :=
  St.fresh [Context.newLocal]

def markedPage : St Unit :=
  St.fresh [{ Context.newLocal with
    stack := [AList.insert htmlFirst "1".toList ∅, ∅] }]

theorem plainPage_beside : Captured.Beside plainPage markedPage where
  vectors := rfl
  maps := rfl
  nextAddr := rfl
  world := rfl
  trace := rfl
  contexts := by
    refine .cons ⟨rfl, rfl, rfl, ?_, ?_⟩ .nil
    · exact iff_of_false (List.cons_ne_nil _ _) (List.cons_ne_nil _ _)
    · intro key other
      simp only [Context.newLocal, Context.new, findVar,
        AList.lookup_insert_ne other, AList.lookup_empty]
  outside := by decide
  inside := by decide

theorem plain_unnamed : Captured.Unnamed Outside.plain := by
  constructor
  · intro stmt world names found name member
    cases found
  · intro connection statement world prepared found name member
    cases found

theorem captured_data_same_write :
    (Captured.data Outside.plain 4 (writeTag "1" "[1]") none
        markedPage).outcome =
      (Captured.data Outside.plain 4 (writeTag "1" "[1]") none
        plainPage).outcome := by
  have clear : (Captured.unseen Outside.plain 4 (writeTag "1" "[1]") none
      plainPage).outcome = .value "1[1]".toList := by
    decide +kernel
  apply (captured_data_same Outside.plain plain_unnamed rfl
    plainPage_beside).2.1
  rw [clear]
  intro same
  cases same

/-- The data of a JSON text depends on the markup around the tag that takes it,
and so does a text whose function writes such data. -/
theorem captured_json_changed :
    Captured.Beside plainPage markedPage ∧
      (Captured.data Outside.plain 4 (writeTag "1" "[\"a\"]") none
        plainPage).outcome = .value "1[\"a\"]".toList ∧
      (Captured.data Outside.plain 4 (writeTag "1" "[\"a\"]") none
        markedPage).outcome = .value "1[\x02a\x02]".toList ∧
      (Captured.data Outside.plain 4 (writeTag "\"" "1") none
        plainPage).outcome = .value "\"1".toList ∧
      (Captured.data Outside.plain 4 (writeTag "\"" "1") none
        markedPage).outcome = .value "\x021".toList := by
  refine ⟨plainPage_beside, ?_, ?_, ?_, ?_⟩
  · decide +kernel
  · decide +kernel
  · decide +kernel
  · decide +kernel

end DbPager
