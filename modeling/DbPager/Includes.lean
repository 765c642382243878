import DbPager.Library.Cycles
import DbPager.Library.Guard
import DbPager.Splice

/-!
# Includes

An include is parsed when the parser meets it, without a look at the files
that are being parsed already.  So the parser comes to an end exactly when no
file it gets to includes itself, directly or through others, at a place it
reaches.
-/

namespace DbPager.DbpxParser

open Effect Relation

variable (api : ParserApi)

/-- What an include loads. -/
abbrev Load := Str → Outcome Exc (Option Node × Nat)

/-- The location an event asks for: an include with an `href`. -/
def target (url : Str) : ReaderEvent → Option Str
  | .element element _ =>
      match elementKind api element with
      | .value (some kind) =>
          if kind.getName == "include".toList then
            match href api element with
            | .value file =>
                if file.isEmpty then none else some (api.resolve url file)
            | _ => none
          else none
      | _ => none
  | _ => none

/-- The events of a file. -/
def process (load : Load) (url : Str) (events : List ReaderEvent) : P Unit :=
  Prog.forEach (processNode api load url) events

/-- `parse` of one file, with the given includes. -/
def parseFile (load : Load) (url : Str) : Outcome Exc (Option Node × Nat) :=
  match api.fetch url with
  | none =>
      .error (api.dcl.exception "unable to open file '\x7b0\x7d'. \x7b1\x7d"
        [url, []])
  | some source =>
      finish api url source (process api load url source.events ⟨none, 0⟩)

theorem parse_succ (depth : Nat) (url : Str) :
    parse api (depth + 1) url = parseFile api (parse api depth) url := by
  unfold parseFile
  rw [parse]
  rfl

/-- The parser gets to an event of a file: everything before it in the
document has been processed. -/
def Reaches (load : Load) (url : Str) (event : ReaderEvent)
    (state : Parsing) : Prop :=
  ∃ source before after out, api.fetch url = some source ∧
    source.events = before ++ event :: after ∧
    process api load url before ⟨none, 0⟩ = ⟨state, out, .value ()⟩

section Nodes

variable {api}

/-- Loads that are complete from some bound on. -/
def LoadTends (family : Nat → Load) (limit : Load) : Prop :=
  ∀ file, limit file = .halt .timeout ∨
    ∃ enough, ∀ bound, enough ≤ bound → family bound file = limit file

theorem ofOutcome_tends {α : Type} {family : Nat → Outcome Exc α}
    {limit : Outcome Exc α} (tends : limit = .halt .timeout ∨
      ∃ enough, ∀ bound, enough ≤ bound → family bound = limit) :
    Prog.Tends (fun reason => reason = .timeout)
      (fun bound => ofOutcome (family bound)) (ofOutcome limit) := by
  intro state
  rcases tends with stopped | ⟨enough, same⟩
  · exact .inl ⟨.timeout, rfl, stopped⟩
  · refine .inr ⟨enough, fun bound large => ?_⟩
    exact congrArg (fun outcome => ofOutcome outcome state) (same bound large)

/-- Only the loads of includes depend on the bound. -/
theorem processNode_tends {family : Nat → Load} {limit : Load}
    (tends : LoadTends family limit) (url : Str) (event : ReaderEvent) :
    Prog.Tends (fun reason => reason = .timeout)
      (fun bound => processNode api (family bound) url event)
      (processNode api limit url event) := by
  cases event with
  | endElement => exact .refl _
  | text value depth => exact .refl _
  | cdata value depth => exact .refl _
  | other => exact .refl _
  | element element depth =>
      apply Prog.Tends.bind (.refl _)
      intro found
      cases found with
      | none => exact .refl _
      | some kind =>
          refine Prog.Tends.ite ?_ (.refl _)
          apply Prog.Tends.bind (.refl _)
          intro file
          apply Prog.Tends.ite (.refl _)
          apply Prog.Tends.bind (ofOutcome_tends (tends _))
          intro loaded
          exact .refl _

theorem process_tends {family : Nat → Load} {limit : Load}
    (tends : LoadTends family limit) (url : Str)
    (events : List ReaderEvent) :
    Prog.Tends (fun reason => reason = .timeout)
      (fun bound => process api (family bound) url events)
      (process api limit url events) :=
  Prog.Tends.forEach fun event _ => processNode_tends tends url event

/-- A tag that is less deep than the current one, which has no parent. -/
def Outermost (current : Rose.Cursor Head) (depth : Nat) : Prop :=
  depth < current.tree.label.depth ∧ current.up = none

theorem makeRelationship_halts (dcl : Dcl) (name : Str) (depth : Nat)
    (current : Rose.Cursor Head) :
    (∃ reason, makeRelationship dcl name depth current = .halt reason) ↔
      Outermost current depth := by
  unfold makeRelationship Outermost
  by_cases level : depth = current.tree.label.depth
  · cases above : current.up <;> simp [level]
  · by_cases deeper : depth > current.tree.label.depth
    · simp only [level, deeper, if_true, if_false]
      constructor
      · rintro ⟨reason, halted⟩
        cases halted
      · rintro ⟨lower, _⟩
        omega
    · have lower : depth < current.tree.label.depth := by omega
      simp only [level, deeper, lower, if_false, true_and]
      cases above : current.up with
      | none => exact ⟨fun _ => rfl, fun _ => ⟨.fault, rfl⟩⟩
      | some parent =>
          cases higher : parent.ancestor (current.tree.label.depth - depth)
          all_goals simp [higher]

/-- `make_relationship` only steps up to tags that are there. -/
theorem ancestor_of_makeRelationship {dcl : Dcl} {name : Str} {depth : Nat}
    {current : Rose.Cursor Head} {level : Nat}
    (related : makeRelationship dcl name depth current = .value level) :
    ∃ parent, current.ancestor level = some parent := by
  unfold makeRelationship at related
  simp only at related
  split at related
  · cases above : current.up with
    | none =>
        rw [above] at related
        cases related
    | some parent =>
        rw [above] at related
        cases related
        exact ⟨parent, by simp [Rose.Cursor.ancestor, above]⟩
  · split at related
    · cases related
      exact ⟨current, rfl⟩
    · cases above : current.up with
      | none =>
          rw [above] at related
          cases related
      | some parent =>
          rw [above] at related
          simp only at related
          cases higher : parent.ancestor
              (current.tree.label.depth - depth) with
          | none =>
              rw [higher] at related
              cases related
          | some found =>
              rw [higher] at related
              cases related
              refine ⟨found, ?_⟩
              rw [Nat.add_comm]
              simp [Rose.Cursor.ancestor, above, higher]

theorem attach_halts
    {add : Rose.Cursor Head → Nat → Head → Option (Rose.Cursor Head)}
    (adds : ∀ current level head parent,
      current.ancestor level = some parent →
      ∃ cursor, add current level head = some cursor)
    (name : Str) (head : Head) (current : Rose.Cursor Head)
    (state : Parsing) :
    (∃ reason, (attach api add name head current state).outcome =
      .halt reason) ↔ Outermost current head.depth := by
  rw [← makeRelationship_halts api.dcl name]
  cases related : makeRelationship api.dcl name head.depth current with
  | error exception =>
      have ran : ofOutcome (makeRelationship api.dcl name head.depth current)
          state = ⟨state, [], .error exception⟩ := by
        rw [related]
        rfl
      unfold attach
      rw [Prog.bind_error ran]
      simp
  | halt reason =>
      have ran : ofOutcome (makeRelationship api.dcl name head.depth current)
          state = ⟨state, [], .halt reason⟩ := by
        rw [related]
        rfl
      unfold attach
      rw [Prog.bind_halt ran]
      exact ⟨fun _ => ⟨reason, rfl⟩, fun _ => ⟨reason, rfl⟩⟩
  | value level =>
      obtain ⟨parent, reached⟩ := ancestor_of_makeRelationship related
      obtain ⟨cursor, added⟩ := adds current level head parent reached
      have ran : ofOutcome (makeRelationship api.dcl name head.depth current)
          state = ⟨state, [], .value level⟩ := by
        rw [related]
        rfl
      unfold attach
      rw [Prog.bind_silent ran, added]
      simp [Prog.modify]

theorem addLeaf_some (current : Rose.Cursor Head) (level : Nat) (head : Head)
    (parent : Rose.Cursor Head)
    (reached : current.ancestor level = some parent) :
    ∃ cursor, addLeaf current level head = some cursor := by
  unfold addLeaf
  rw [reached]
  exact ⟨_, rfl⟩

theorem addElement_some (current : Rose.Cursor Head) (level : Nat)
    (head : Head) (parent : Rose.Cursor Head)
    (reached : current.ancestor level = some parent) :
    ∃ cursor, addElement current level head = some cursor := by
  unfold addElement
  rw [reached]
  exact ⟨_, rfl⟩

end Nodes

/-- An include whose file is loaded, but has no root, or whose tags have no
place to go to. -/
def Unplaced (state : Parsing) : Option Node → Prop
  | none => True
  | some root => state.cursor = none ∧ root.childs.isEmpty = false

/-- The step follows a null pointer or evaluates an attribute that has no
value, whatever is included. -/
def Strays (load : Load) (url : Str) (state : Parsing) : ReaderEvent → Prop
  | .element element depth =>
      match elementKind api element with
      | .halt _ => True
      | .error _ => False
      | .value none => False
      | .value (some kind) =>
          if kind.getName == "include".toList then
            match href api element with
            | .halt _ => True
            | .error _ => False
            | .value file => file.isEmpty = false ∧
                ∃ root count, load (api.resolve url file) =
                  .value (root, count) ∧ Unplaced state root
          else ∃ current, state.cursor = some current ∧
            Outermost current depth
  | .endElement => state.cursor = none
  | .text _ depth => ∃ current, state.cursor = some current ∧
      Outermost current depth
  | .cdata _ depth => ∃ current, state.cursor = some current ∧
      Outermost current depth
  | .other => False

section Steps

variable {api}

theorem processText_halts (kind : Kind) (name value : Str) (depth : Nat)
    (state : Parsing) :
    (∃ reason, (processText api kind name value depth state).outcome =
      .halt reason) ↔
    ∃ current, state.cursor = some current ∧ Outermost current depth := by
  cases placed : state.cursor with
  | none =>
      have ran : processText api kind name value depth state =
          ⟨state, [], .value ()⟩ := by
        unfold processText
        rw [Prog.bind_silent (rfl : Prog.read id state = _)]
        simp only [id, placed]
        rfl
      simp [ran]
  | some current =>
      have ran : processText api kind name value depth state =
          attach api addLeaf name
            ⟨state.next, depth, kind, [], setText value⟩ current state := by
        unfold processText
        rw [Prog.bind_silent (rfl : Prog.read id state = _)]
        simp only [id, placed]
      rw [ran]
      rw [attach_halts addLeaf_some]
      constructor
      · intro outermost
        exact ⟨current, rfl, outermost⟩
      · rintro ⟨_, same, outermost⟩
        cases same
        exact outermost

theorem processEnd_halts (state : Parsing) :
    (∃ reason, (processEnd state).outcome = .halt reason) ↔
      state.cursor = none := by
  cases placed : state.cursor with
  | none =>
      have ran : processEnd state = ⟨state, [], .halt .fault⟩ := by
        unfold processEnd Prog.act
        simp only [placed]
      simp [ran]
  | some current =>
      have returns : ∃ final, processEnd state = ⟨final, [], .value ()⟩ := by
        unfold processEnd Prog.act
        simp only [placed]
        split
        · exact ⟨_, rfl⟩
        · split <;> exact ⟨_, rfl⟩
      obtain ⟨final, ran⟩ := returns
      simp [ran]

theorem ofOutcome_bind_value {α : Type} {outcome : Outcome Exc α}
    {result : α} (computed : outcome = .value result) (next : α → P Unit)
    (state : Parsing) :
    (ofOutcome outcome >>= next) state = next result state := by
  have ran : ofOutcome outcome state = ⟨state, [], .value result⟩ :=
    congrArg (Run.mk state []) computed
  exact Prog.bind_silent ran next

theorem ofOutcome_bind_halt {α : Type} {outcome : Outcome Exc α}
    {reason : Halt} (computed : outcome = .halt reason) (next : α → P Unit)
    (state : Parsing) :
    (ofOutcome outcome >>= next) state = ⟨state, [], .halt reason⟩ := by
  have ran : ofOutcome outcome state = ⟨state, [], .halt reason⟩ :=
    congrArg (Run.mk state []) computed
  exact Prog.bind_halt ran next

theorem ofOutcome_bind_error {α : Type} {outcome : Outcome Exc α}
    {exception : Exc} (computed : outcome = .error exception)
    (next : α → P Unit) (state : Parsing) :
    (ofOutcome outcome >>= next) state = ⟨state, [], .error exception⟩ := by
  have ran : ofOutcome outcome state = ⟨state, [], .error exception⟩ :=
    congrArg (Run.mk state []) computed
  exact Prog.bind_error ran next

/-- The tags of an included file are put below the current one. -/
theorem processInclude_loaded {load : Load} {url file : Str}
    {element : Element} {root : Option Node} {count : Nat}
    (asked : href api element = .value file) (given : file.isEmpty = false)
    (loads : load (api.resolve url file) = .value (root, count))
    (state : Parsing) :
    (∃ reason, (processInclude api load url element state).outcome =
      .halt reason) ↔ Unplaced state root := by
  unfold processInclude
  rw [ofOutcome_bind_value asked]
  simp only [given, Bool.false_eq_true, if_false]
  rw [ofOutcome_bind_value loads]
  cases root with
  | none => exact ⟨fun _ => trivial, fun _ => ⟨.fault, rfl⟩⟩
  | some root =>
      simp only
      rw [Prog.bind_silent (rfl : Prog.read id state = _)]
      unfold Unplaced
      cases placed : state.cursor with
      | some current => simp [placed, Prog.modify]
      | none =>
          simp only [id, placed, true_and]
          cases empty : root.childs.isEmpty with
          | true =>
              simp only [if_true]
              constructor
              · rintro ⟨reason, halted⟩
                cases halted
              · intro same
                cases same
          | false => exact ⟨fun _ => rfl, fun _ => ⟨.fault, rfl⟩⟩

theorem processInclude_halts (load : Load) (url : Str) (element : Element)
    (state : Parsing) :
    (∃ reason, (processInclude api load url element state).outcome =
      .halt reason) ↔
    (∃ file reason, href api element = .value file ∧ file.isEmpty = false ∧
      load (api.resolve url file) = .halt reason) ∨
    (match href api element with
      | .halt _ => True
      | .error _ => False
      | .value file => file.isEmpty = false ∧
          ∃ root count, load (api.resolve url file) =
            .value (root, count) ∧ Unplaced state root) := by
  cases asked : href api element with
  | halt reason =>
      unfold processInclude
      rw [ofOutcome_bind_halt asked]
      simp
  | error exception =>
      unfold processInclude
      rw [ofOutcome_bind_error asked]
      simp
  | value file =>
      cases given : file.isEmpty with
      | true =>
          unfold processInclude
          rw [ofOutcome_bind_value asked]
          simp only [given, if_true, Prog.throw]
          simp [List.isEmpty_iff.mp given]
      | false =>
          have filled : file ≠ [] := List.isEmpty_eq_false_iff.mp given
          cases loads : load (api.resolve url file) with
          | value result =>
              obtain ⟨root, count⟩ := result
              rw [processInclude_loaded asked given loads]
              simp [filled, loads]
          | error exception =>
              unfold processInclude
              rw [ofOutcome_bind_value asked]
              simp only [given, Bool.false_eq_true, if_false]
              rw [ofOutcome_bind_error loads]
              simp [loads]
          | halt reason =>
              unfold processInclude
              rw [ofOutcome_bind_value asked]
              simp only [given, Bool.false_eq_true, if_false]
              rw [ofOutcome_bind_halt loads]
              simp [filled, loads]

theorem processElement_halts {load : Load} {url : Str} {element : Element}
    {depth : Nat} {kind : Kind}
    (created : elementKind api element = .value (some kind))
    (ordinary : ¬ kind.getName == "include".toList) (state : Parsing) :
    (∃ reason, (processElement api load url element depth state).outcome =
      .halt reason) ↔
    ∃ current, state.cursor = some current ∧ Outermost current depth := by
  unfold processElement
  rw [ofOutcome_bind_value created]
  simp only [ordinary, Bool.false_eq_true, if_false]
  rw [Prog.bind_silent (rfl : Prog.read id state = _)]
  cases placed : state.cursor with
  | none => simp [placed, Prog.modify]
  | some current =>
      simp only [id, placed]
      rw [attach_halts addElement_some]
      simp

theorem processElement_include {load : Load} {url : Str} {element : Element}
    {depth : Nat} {kind : Kind}
    (created : elementKind api element = .value (some kind))
    (including : kind.getName == "include".toList) :
    processElement api load url element depth =
      processInclude api load url element := by
  funext state
  unfold processElement
  rw [ofOutcome_bind_value created]
  simp only [including, if_true]

theorem processNode_halts (load : Load) (url : Str) (event : ReaderEvent)
    (state : Parsing) :
    (∃ reason, (processNode api load url event state).outcome =
      .halt reason) ↔
    (∃ file reason, target api url event = some file ∧
      load file = .halt reason) ∨ Strays api load url state event := by
  unfold target Strays processNode
  cases event with
  | endElement =>
      simp only [processEnd_halts, reduceCtorEq, false_and, exists_false,
        false_or]
  | text value depth =>
      simp only [processText_halts, reduceCtorEq, false_and, exists_false,
        false_or]
  | cdata value depth =>
      simp only [processText_halts, reduceCtorEq, false_and, exists_false,
        false_or]
  | other =>
      simp only [reduceCtorEq, false_and, exists_false, or_false, iff_false]
      rintro ⟨reason, halted⟩
      cases halted
  | element element depth =>
      dsimp only
      cases created : elementKind api element with
      | halt reason =>
          unfold processElement
          rw [ofOutcome_bind_halt created]
          simp
      | error exception =>
          unfold processElement
          rw [ofOutcome_bind_error created]
          simp
      | value found =>
          cases found with
          | none =>
              unfold processElement
              rw [ofOutcome_bind_value created]
              simp only [reduceCtorEq, false_and, exists_false, or_false,
                iff_false]
              rintro ⟨reason, halted⟩
              cases halted
          | some kind =>
              by_cases including : kind.getName == "include".toList
              · rw [processElement_include created including,
                  processInclude_halts]
                simp only [including, if_true]
                cases href api element with
                | halt reason => simp
                | error exception => simp
                | value file => by_cases empty : file = [] <;> simp [empty]
              · rw [processElement_halts created including]
                simp only [including, Bool.false_eq_true, if_false,
                  reduceCtorEq, false_and, exists_false, false_or]

theorem target_element {url file : Str} {element : Element} {depth : Nat}
    (asked : target api url (.element element depth) = some file) :
    ∃ kind name, elementKind api element = .value (some kind) ∧
      kind.getName == "include".toList ∧
      href api element = .value name ∧ name.isEmpty = false ∧
      api.resolve url name = file := by
  unfold target at asked
  cases created : elementKind api element with
  | halt stopped => simp [created] at asked
  | error exception => simp [created] at asked
  | value found =>
      cases found with
      | none => simp [created] at asked
      | some kind =>
          simp only [created] at asked
          by_cases including : kind.getName == "include".toList
          · simp only [including, if_true] at asked
            cases linked : href api element with
            | halt stopped => simp [linked] at asked
            | error exception => simp [linked] at asked
            | value name =>
                simp only [linked] at asked
                cases empty : name.isEmpty with
                | true => simp [empty] at asked
                | false =>
                    simp only [empty, Bool.false_eq_true, if_false,
                      Option.some.injEq] at asked
                    exact ⟨kind, name, rfl, including, rfl, empty, asked⟩
          · simp only [including, Bool.false_eq_true, if_false,
              reduceCtorEq] at asked

theorem processNode_target {load : Load} {url file : Str}
    {event : ReaderEvent} {reason : Halt}
    (asked : target api url event = some file)
    (halted : load file = .halt reason) (state : Parsing) :
    processNode api load url event state = ⟨state, [], .halt reason⟩ := by
  cases event with
  | element element depth =>
      obtain ⟨kind, name, created, including, linked, given, rfl⟩ :=
        target_element asked
      simp only [processNode]
      rw [processElement_include created including]
      unfold processInclude
      rw [ofOutcome_bind_value linked]
      simp only [given, Bool.false_eq_true, if_false]
      exact ofOutcome_bind_halt halted _ state
  | _ => cases asked

theorem finish_halts (url : Str) (source : Source)
    (run : Run Parsing Exc Char Unit) (reason : Halt) :
    finish api url source run = .halt reason ↔
      run.outcome = .halt reason := by
  unfold finish
  cases run.outcome with
  | halt stopped => simp
  | error exception => simp
  | value result =>
      cases source.failure <;> simp

theorem parseFile_halts (load : Load) (url : Str) (reason : Halt) :
    parseFile api load url = .halt reason ↔
      ∃ event state, Reaches api load url event state ∧
        (processNode api load url event state).outcome = .halt reason := by
  unfold parseFile Reaches
  cases fetched : api.fetch url with
  | none => simp
  | some source =>
      simp only [finish_halts, process, Prog.forEach_halts_iff]
      constructor
      · rintro ⟨before, event, after, state, out, whole, passed, halted⟩
        exact ⟨event, state,
          ⟨source, before, after, out, rfl, whole, passed⟩, halted⟩
      · rintro ⟨event, state,
          ⟨_, before, after, out, same, whole, passed⟩, halted⟩
        cases same
        exact ⟨before, event, after, state, out, whole, passed, halted⟩

/-- Where the parser has no result: it gets to an include without a result,
or it strays. -/
theorem parseFile_halts_iff (load : Load) (url : Str) :
    (∃ reason, parseFile api load url = .halt reason) ↔
      ∃ event state, Reaches api load url event state ∧
        ((∃ file reason, target api url event = some file ∧
          load file = .halt reason) ∨ Strays api load url state event) := by
  simp only [parseFile_halts, ← processNode_halts]
  constructor
  · rintro ⟨reason, event, state, reached, halted⟩
    exact ⟨event, state, reached, reason, halted⟩
  · rintro ⟨event, state, reached, reason, halted⟩
    exact ⟨reason, event, state, reached, halted⟩

theorem parseFile_tends {family : Nat → Load} {limit : Load}
    (tends : LoadTends family limit) (url : Str) :
    parseFile api limit url = .halt .timeout ∨
      ∃ enough, ∀ bound, enough ≤ bound →
        parseFile api (family bound) url = parseFile api limit url := by
  unfold parseFile
  cases api.fetch url with
  | none => exact .inr ⟨0, fun _ _ => rfl⟩
  | some source =>
      rcases process_tends tends url source.events ⟨none, 0⟩ with
        ⟨reason, rfl, halted⟩ | ⟨enough, same⟩
      · left
        exact (finish_halts url source _ .timeout).mpr halted
      · right
        refine ⟨enough, fun bound large => ?_⟩
        exact congrArg (finish api url source) (same bound large)

/-- Loads that are complete can be replaced by better ones. -/
theorem parseFile_mono {load better : Load}
    (improves : ∀ file, load file = .halt .timeout ∨ better file = load file)
    (url : Str) :
    parseFile api load url = .halt .timeout ∨
      parseFile api better url = parseFile api load url := by
  have tends : LoadTends (fun _ => better) load := by
    intro file
    rcases improves file with stopped | same
    · exact .inl stopped
    · exact .inr ⟨0, fun _ _ => same⟩
  rcases parseFile_tends tends url with stopped | ⟨enough, same⟩
  · exact .inl stopped
  · exact .inr (same enough (Nat.le_refl enough))

theorem parse_step (depth : Nat) (url : Str) :
    parse api depth url = .halt .timeout ∨
      parse api (depth + 1) url = parse api depth url := by
  induction depth generalizing url with
  | zero => exact .inl rfl
  | succ depth induction =>
      rw [parse_succ, parse_succ]
      exact parseFile_mono induction url

theorem parse_mono {depth : Nat} {url : Str}
    (complete : parse api depth url ≠ .halt .timeout) {deeper : Nat}
    (more : depth ≤ deeper) :
    parse api deeper url = parse api depth url := by
  induction deeper, more using Nat.le_induction with
  | base => rfl
  | succ deeper _ induction =>
      rcases @parse_step api deeper url with stopped | same
      · rw [induction] at stopped
        exact absurd stopped complete
      · rw [same, induction]

end Steps

/-- What the parser makes of a file, without a bound on the depth of
includes; it has no result if it does not come to an end. -/
noncomputable def result : Load := fun url =>
  open Classical in
  if complete : ∃ depth, parse api depth url ≠ .halt .timeout then
    parse api (Classical.choose complete) url
  else .halt .timeout

section Limit

variable {api}

theorem result_eq {depth : Nat} {url : Str}
    (complete : parse api depth url ≠ .halt .timeout) :
    result api url = parse api depth url := by
  have exists_depth : ∃ depth, parse api depth url ≠ .halt .timeout :=
    ⟨depth, complete⟩
  unfold result
  rw [dif_pos exists_depth]
  have chosen := Classical.choose_spec exists_depth
  rw [← parse_mono chosen (Nat.le_max_left _ depth)]
  exact parse_mono complete (Nat.le_max_right _ depth)

theorem result_improves (depth : Nat) (url : Str) :
    parse api depth url = .halt .timeout ∨
      result api url = parse api depth url := by
  by_cases stopped : parse api depth url = .halt .timeout
  · exact .inl stopped
  · exact .inr (result_eq stopped)

theorem exists_parse (url : Str) :
    result api url = .halt .timeout ∨
      ∃ depth, parse api depth url ≠ .halt .timeout ∧
        parse api depth url = result api url := by
  by_cases complete : ∃ depth, parse api depth url ≠ .halt .timeout
  · obtain ⟨depth, ends⟩ := complete
    exact .inr ⟨depth, ends, (result_eq ends).symm⟩
  · left
    unfold result
    exact dif_neg complete

theorem result_tends : LoadTends (parse api) (result api) := by
  intro url
  rcases exists_parse url with stopped | ⟨depth, ends, same⟩
  · exact .inl stopped
  · right
    refine ⟨depth, fun bound large => ?_⟩
    rw [parse_mono ends large, same]

/-- The results of the files are computed from each other. -/
theorem result_fixed (url : Str) :
    result api url = parseFile api (result api) url := by
  rcases exists_parse url with stopped | ⟨depth, ends, same⟩
  · rw [stopped]
    rcases parseFile_tends (@result_tends api) url with
      timeout | ⟨enough, equal⟩
    · exact timeout.symm
    · rw [← equal enough (Nat.le_refl enough), ← parse_succ]
      by_contra complete
      have computed := result_eq (Ne.symm complete)
      rw [stopped] at computed
      exact complete computed
  · cases depth with
    | zero => exact absurd rfl ends
    | succ depth =>
        rw [parse_succ] at ends same
        rcases parseFile_mono (result_improves depth) url with
          stopped | better
        · exact absurd stopped ends
        · rw [← same, better]

end Limit

/-- The parser gets to an include of the file. -/
def Includes (url file : Str) : Prop :=
  ∃ event state, Reaches api (result api) url event state ∧
    target api url event = some file

/-- The parser strays in the file itself. -/
def Breaks (url : Str) : Prop :=
  ∃ event state, Reaches api (result api) url event state ∧
    Strays api (result api) url state event

section Graph

variable {api}

theorem result_halts (url : Str) :
    (∃ reason, result api url = .halt reason) ↔
      (∃ file, Includes api url file ∧
        ∃ reason, result api file = .halt reason) ∨ Breaks api url := by
  rw [result_fixed url, parseFile_halts_iff]
  constructor
  · rintro ⟨event, state, reached, ⟨file, reason, asked, halted⟩ | strays⟩
    · exact .inl ⟨file, ⟨event, state, reached, asked⟩, reason, halted⟩
    · exact .inr ⟨event, state, reached, strays⟩
  · rintro (⟨file, ⟨event, state, reached, asked⟩, reason, halted⟩ |
      ⟨event, state, reached, strays⟩)
    · exact ⟨event, state, reached, .inl ⟨file, reason, asked, halted⟩⟩
    · exact ⟨event, state, reached, .inr strays⟩

/-- An include is parsed with a smaller bound. -/
theorem parse_included {depth : Nat} {url file : Str}
    (complete : parse api (depth + 1) url ≠ .halt .timeout)
    (included : Includes api url file) :
    parse api depth file ≠ .halt .timeout := by
  obtain ⟨event, state, ⟨source, before, after, out, fetched, whole, passed⟩,
    asked⟩ := included
  intro stopped
  apply complete
  rw [parse_succ, parseFile_halts]
  have tends : LoadTends (fun _ => result api) (parse api depth) := by
    intro other
    rcases result_improves depth other with timeout | same
    · exact .inl timeout
    · exact .inr ⟨0, fun _ _ => same⟩
  rcases process_tends tends url before ⟨none, 0⟩ with
    ⟨reason, rfl, halted⟩ | ⟨enough, same⟩
  -- the bound is used up before the include
  · obtain ⟨first, earlier, between, middle, written, rfl, ran, halts⟩ :=
      Prog.forEach_halts_iff.mp halted
    refine ⟨earlier, middle, ⟨source, first, between ++ event :: after,
      written, fetched, ?_, ran⟩, halts⟩
    rw [whole, List.append_assoc]
    rfl
  · have ran := (same enough (Nat.le_refl enough)).symm.trans passed
    refine ⟨event, state, ⟨source, before, after, out, fetched, whole, ran⟩,
      ?_⟩
    rw [processNode_target asked stopped]

theorem acc_of_complete {depth : Nat} {url : Str}
    (complete : parse api depth url ≠ .halt .timeout) :
    Acc (fun file url => Includes api url file) url := by
  induction depth generalizing url with
  | zero => exact absurd rfl complete
  | succ depth induction =>
      constructor
      intro file included
      exact induction (parse_included complete included)

theorem includes_finite (finite : {url | api.fetch url ≠ none}.Finite) :
    {url | ∃ file, Includes api url file}.Finite := by
  apply finite.subset
  rintro url ⟨file, event, state, ⟨source, before, after, out, fetched, _⟩, _⟩
  simp only [Set.mem_ofPred_eq, fetched]
  exact Option.some_ne_none source

/-- There is no result exactly when the parser gets to a file that includes
itself or in which it strays. -/
theorem result_halts_iff (finite : {url | api.fetch url ≠ none}.Finite)
    (url : Str) :
    (∃ reason, result api url = .halt reason) ↔
      ∃ file, ReflTransGen (Includes api) url file ∧
        (TransGen (Includes api) file file ∨ Breaks api file) := by
  constructor
  · intro halted
    by_contra free
    have ends : Acc (fun file url => Includes api url file) url := by
      apply Cycles.acc_of_no_cycle (includes_finite finite)
      intro file reached cycle
      exact free ⟨file, reached, .inl cycle⟩
    induction ends with
    | intro url _ induction =>
        rcases (result_halts url).mp halted with
          ⟨file, included, halts⟩ | breaks
        · apply induction file included halts
          rintro ⟨last, reached, bad⟩
          exact free ⟨last, .head included reached, bad⟩
        · exact free ⟨url, .refl, .inr breaks⟩
  · rintro ⟨file, reached, bad⟩
    have last : ∃ reason, result api file = .halt reason := by
      rcases bad with cycle | breaks
      · rcases @exists_parse api file with stopped | ⟨depth, ends, _⟩
        · exact ⟨.timeout, stopped⟩
        · exact absurd cycle
            (Cycles.not_cycle_of_acc (acc_of_complete ends))
      · exact (result_halts file).mpr (.inr breaks)
    induction reached using ReflTransGen.head_induction_on with
    | refl => exact last
    | head included _ induction =>
        exact (result_halts _).mpr (.inl ⟨_, included, induction⟩)

end Graph

/-- An event that leaves a document without a root as it is. -/
def Bare (load : Load) (url : Str) (event : ReaderEvent) : Prop :=
  match event with
  | .element element _ => elementKind api element = .value none ∨
      ∃ file root count, target api url event = some file ∧
        load file = .value (some root, count) ∧ root.childs.isEmpty
  | .endElement => False
  | _ => True

/-- A document from which no tag is made. -/
def Rootless (url : Str) : Prop :=
  ∃ source, api.fetch url = some source ∧ source.failure = none ∧
    ∀ event, event ∈ source.events → Bare api (result api) url event

section Roots

variable {api}

theorem processNode_bare {load : Load} {url : Str} {event : ReaderEvent}
    (bare : Bare api load url event) {state : Parsing}
    (rootless : state.cursor = none) :
    processNode api load url event state = ⟨state, [], .value ()⟩ := by
  cases event with
  | endElement => exact bare.elim
  | other => rfl
  | text value depth =>
      simp only [processNode, processText]
      rw [Prog.bind_silent (rfl : Prog.read id state = _)]
      simp only [id, rootless]
      rfl
  | cdata value depth =>
      simp only [processNode, processText]
      rw [Prog.bind_silent (rfl : Prog.read id state = _)]
      simp only [id, rootless]
      rfl
  | element element depth =>
      simp only [processNode]
      rcases bare with ignored | ⟨file, root, count, asked, loads, empty⟩
      · unfold processElement
        rw [ofOutcome_bind_value ignored]
        rfl
      · obtain ⟨kind, name, created, including, linked, given, rfl⟩ :=
          target_element asked
        rw [processElement_include created including]
        unfold processInclude
        rw [ofOutcome_bind_value linked]
        simp only [given, Bool.false_eq_true, if_false]
        rw [ofOutcome_bind_value loads]
        simp only
        rw [Prog.bind_silent (rfl : Prog.read id state = _)]
        simp only [id, rootless, empty, if_true]
        rfl

theorem attach_cursor
    {add : Rose.Cursor Head → Nat → Head → Option (Rose.Cursor Head)}
    {name : Str} {head : Head} {current : Rose.Cursor Head}
    {state final : Parsing} {out : Str}
    (ran : attach api add name head current state = ⟨final, out, .value ()⟩) :
    final.cursor ≠ none := by
  unfold attach at ran
  obtain ⟨middle, level, _, _, _, added, _⟩ := Prog.of_bind_value ran
  cases placed : add current level head with
  | none =>
      rw [placed] at added
      cases added
  | some cursor =>
      rw [placed] at added
      cases added
      exact Option.some_ne_none cursor

theorem processText_cursor {kind : Kind} {name value : Str} {depth : Nat}
    {state final : Parsing} {out : Str}
    (ran : processText api kind name value depth state =
      ⟨final, out, .value ()⟩) (rootless : final.cursor = none) :
    state.cursor = none := by
  unfold processText at ran
  rw [Prog.bind_silent (rfl : Prog.read id state = _)] at ran
  cases placed : state.cursor with
  | none => rfl
  | some current =>
      simp only [id, placed] at ran
      exact absurd rootless (attach_cursor ran)

theorem processEnd_cursor {state final : Parsing} {out : Str}
    (ran : processEnd state = ⟨final, out, .value ()⟩) :
    final.cursor ≠ none := by
  unfold processEnd Prog.act at ran
  cases placed : state.cursor with
  | none =>
      simp only [placed] at ran
      cases ran
  | some current =>
      simp only [placed] at ran
      split at ran
      · cases ran
        rw [placed]
        exact Option.some_ne_none current
      · split at ran
        · rename_i parent _
          cases ran
          exact Option.some_ne_none parent
        · cases ran
          rw [placed]
          exact Option.some_ne_none current

theorem processInclude_cursor {load : Load} {url : Str} {element : Element}
    {depth : Nat} {kind : Kind}
    (created : elementKind api element = .value (some kind))
    (including : kind.getName == "include".toList)
    {state final : Parsing} {out : Str}
    (ran : processInclude api load url element state =
      ⟨final, out, .value ()⟩) (rootless : final.cursor = none) :
    state.cursor = none ∧ Bare api load url (.element element depth) := by
  unfold processInclude at ran
  cases linked : href api element with
  | halt reason =>
      rw [ofOutcome_bind_halt linked] at ran
      cases ran
  | error exception =>
      rw [ofOutcome_bind_error linked] at ran
      cases ran
  | value name =>
      rw [ofOutcome_bind_value linked] at ran
      cases given : name.isEmpty with
      | true =>
          simp only [given, if_true] at ran
          cases ran
      | false =>
          simp only [given, Bool.false_eq_true, if_false] at ran
          have asked : target api url (.element element depth) =
              some (api.resolve url name) := by
            unfold target
            simp only [created, including, linked, given, if_true,
              Bool.false_eq_true, if_false]
          cases loads : load (api.resolve url name) with
          | halt reason =>
              rw [ofOutcome_bind_halt loads] at ran
              cases ran
          | error exception =>
              rw [ofOutcome_bind_error loads] at ran
              cases ran
          | value loaded =>
              obtain ⟨root, count⟩ := loaded
              rw [ofOutcome_bind_value loads] at ran
              cases root with
              | none => cases ran
              | some root =>
                  simp only at ran
                  rw [Prog.bind_silent (rfl : Prog.read id state = _)] at ran
                  cases placed : state.cursor with
                  | some current =>
                      simp only [id, placed] at ran
                      cases ran
                      cases rootless
                  | none =>
                      simp only [id, placed] at ran
                      cases empty : root.childs.isEmpty with
                      | true =>
                          exact ⟨rfl, .inr ⟨_, root, count, asked, loads,
                            empty⟩⟩
                      | false =>
                          simp only [empty, Bool.false_eq_true,
                            if_false] at ran
                          cases ran

theorem processNode_cursor {load : Load} {url : Str} {event : ReaderEvent}
    {state final : Parsing} {out : Str}
    (ran : processNode api load url event state = ⟨final, out, .value ()⟩)
    (rootless : final.cursor = none) :
    state.cursor = none ∧ Bare api load url event := by
  cases event with
  | endElement => exact absurd rootless (processEnd_cursor ran)
  | text value depth => exact ⟨processText_cursor ran rootless, trivial⟩
  | cdata value depth => exact ⟨processText_cursor ran rootless, trivial⟩
  | other =>
      cases ran
      exact ⟨rootless, trivial⟩
  | element element depth =>
      simp only [processNode] at ran
      cases created : elementKind api element with
      | halt reason =>
          unfold processElement at ran
          rw [ofOutcome_bind_halt created] at ran
          cases ran
      | error exception =>
          unfold processElement at ran
          rw [ofOutcome_bind_error created] at ran
          cases ran
      | value found =>
          cases found with
          | none =>
              unfold processElement at ran
              rw [ofOutcome_bind_value created] at ran
              cases ran
              exact ⟨rootless, .inl created⟩
          | some kind =>
              by_cases including : kind.getName == "include".toList
              · rw [processElement_include created including] at ran
                exact processInclude_cursor created including ran rootless
              · unfold processElement at ran
                rw [ofOutcome_bind_value created] at ran
                simp only [including, Bool.false_eq_true, if_false] at ran
                rw [Prog.bind_silent (rfl : Prog.read id state = _)] at ran
                cases placed : state.cursor with
                | none =>
                    simp only [id, placed] at ran
                    cases ran
                    cases rootless
                | some current =>
                    simp only [id, placed] at ran
                    exact absurd rootless (attach_cursor ran)

theorem process_rootless (load : Load) (url : Str)
    (events : List ReaderEvent) (state : Parsing) :
    (∃ final out, process api load url events state =
      ⟨final, out, .value ()⟩ ∧ final.cursor = none) ↔
    state.cursor = none ∧
      ∀ event, event ∈ events → Bare api load url event := by
  induction events generalizing state with
  | nil =>
      constructor
      · rintro ⟨final, out, ran, rootless⟩
        cases ran
        exact ⟨rootless, fun _ member => nomatch member⟩
      · rintro ⟨rootless, _⟩
        exact ⟨state, [], rfl, rootless⟩
  | cons event events induction =>
      constructor
      · rintro ⟨final, out, ran, rootless⟩
        obtain ⟨middle, _, written, rest, first, later, _⟩ :=
          Prog.of_bind_value ran
        obtain ⟨still, others⟩ :=
          (induction middle).mp ⟨final, rest, later, rootless⟩
        obtain ⟨before, bare⟩ := processNode_cursor first still
        refine ⟨before, ?_⟩
        intro another member
        rcases List.mem_cons.mp member with rfl | member
        · exact bare
        · exact others another member
      · rintro ⟨rootless, bare⟩
        have first := processNode_bare (bare event List.mem_cons_self)
          rootless
        obtain ⟨final, out, later, still⟩ := (induction state).mpr
          ⟨rootless, fun another member =>
            bare another (List.mem_cons_of_mem event member)⟩
        refine ⟨final, out, ?_, still⟩
        unfold process Prog.forEach
        rw [Prog.bind_silent first]
        exact later

theorem result_rootless (url : Str) :
    (∃ count, result api url = .value (none, count)) ↔ Rootless api url := by
  rw [result_fixed url]
  unfold parseFile Rootless
  cases fetched : api.fetch url with
  | none => simp
  | some source =>
      have bare := @process_rootless api (result api) url
        source.events ⟨none, 0⟩
      simp only [true_and] at bare
      simp only [Option.some.injEq, exists_eq_left', ← bare]
      cases ran : process api (result api) url source.events ⟨none, 0⟩ with
      | mk final out outcome =>
          unfold finish
          constructor
          · rintro ⟨count, finished⟩
            obtain ⟨_, ended, rest⟩ := Outcome.bind_eq_value.mp finished
            simp only at ended
            cases failed : source.failure with
            | some message =>
                rw [failed] at rest
                cases rest
            | none =>
                rw [failed] at rest
                simp only [Outcome.value.injEq, Prod.mk.injEq,
                  Option.map_eq_none_iff] at rest
                exact ⟨rfl, final, out, by rw [ended], rest.1⟩
          · rintro ⟨complete, last, written, same, rootless⟩
            cases same
            rw [complete]
            exact ⟨final.next, by simp [rootless]⟩

end Roots

/-- The parser with the exceptions of the evaluator told apart.  They are no
`parser_exception`s; here they count as no result. -/
def parserOnly : ParserApi :=
  { api with
    evaluate := fun text =>
      match api.evaluate text with
      | .value value => .value value
      | .error _ => .halt .fault
      | .halt reason => .halt reason }

section Exceptions

variable {api}

theorem evaluate_parserOnly (text : Str) :
    (parserOnly api).evaluate text = .halt .fault ∨
      (parserOnly api).evaluate text = api.evaluate text := by
  unfold parserOnly
  cases computed : api.evaluate text with
  | error exception => exact .inl (by simp only [computed])
  | value value => exact .inr (by simp only [computed])
  | halt reason => exact .inr (by simp only [computed])

theorem nameTag_parserOnly (element : Element) (kind : Kind) :
    nameTag (parserOnly api) element kind = .halt .fault ∨
      nameTag (parserOnly api) element kind = nameTag api element kind := by
  cases kind with
  | tag name =>
      unfold nameTag
      simp only
      split
      · rename_i param _
        rcases @evaluate_parserOnly api param.2 with halted | same
        · left
          rw [halted]
          rfl
        · right
          rw [same]
      · exact .inr rfl
  | _ => exact .inr rfl

theorem elementKind_parserOnly (element : Element) :
    elementKind (parserOnly api) element = .halt .fault ∨
      elementKind (parserOnly api) element = elementKind api element := by
  unfold elementKind
  split
  · exact .inr rfl
  · split
    · have same : create (parserOnly api) = create api := rfl
      rw [same]
      cases create api element.uri element.object.text with
      | halt reason => exact .inr rfl
      | error exception => exact .inr rfl
      | value kind =>
          rcases @nameTag_parserOnly api element kind with
            halted | equal
          · left
            simp only [Outcome.value_bind, halted, Outcome.halt_bind]
          · right
            simp only [Outcome.value_bind, equal]
    · exact .inr rfl

theorem href_parserOnly (element : Element) :
    href (parserOnly api) element = .halt .fault ∨
      href (parserOnly api) element = href api element := by
  have same : processAttributes (parserOnly api) = processAttributes api := rfl
  unfold href
  rw [same]
  split
  · exact evaluate_parserOnly _
  · exact .inr rfl

theorem ofOutcome_guards {α : Type} {guarded outcome : Outcome Exc α}
    (guards : guarded = .halt .fault ∨ guarded = outcome) :
    Prog.Guards (ofOutcome guarded) (ofOutcome outcome) := by
  apply Prog.Guards.of_eq
  intro state
  rcases guards with halted | same
  · exact .inl halted
  · right
    rw [same]

theorem processNode_parserOnly {guarded load : Load}
    (guards : ∀ file, guarded file = .halt .fault ∨ guarded file = load file)
    (url : Str) (event : ReaderEvent) :
    Prog.Guards (processNode (parserOnly api) guarded url event)
      (processNode api load url event) := by
  cases event with
  | endElement => exact .refl _
  | text value depth => exact .refl _
  | cdata value depth => exact .refl _
  | other => exact .refl _
  | element element depth =>
      apply Prog.Guards.bind (ofOutcome_guards (elementKind_parserOnly element))
      intro found
      cases found with
      | none => exact .refl _
      | some kind =>
          refine Prog.Tends.ite ?_ (.refl _)
          apply Prog.Guards.bind (ofOutcome_guards (href_parserOnly element))
          intro file
          apply Prog.Tends.ite (.refl _)
          apply Prog.Guards.bind (ofOutcome_guards (guards _))
          intro loaded
          exact .refl _

/-- A result that is not a null pointer followed, nor an exception of the
evaluator, is the result of the parser. -/
theorem parse_parserOnly (depth : Nat) (url : Str) :
    parse (parserOnly api) depth url = .halt .fault ∨
      parse (parserOnly api) depth url = parse api depth url := by
  induction depth generalizing url with
  | zero => exact .inr rfl
  | succ depth induction =>
      rw [parse_succ, parse_succ]
      unfold parseFile
      have same : (parserOnly api).fetch url = api.fetch url := rfl
      rw [same]
      cases api.fetch url with
      | none => exact .inr rfl
      | some source =>
          have guards : Prog.Guards
              (process (parserOnly api) (parse (parserOnly api) depth) url
                source.events)
              (process api (parse api depth) url source.events) :=
            Prog.Tends.forEach fun event _ =>
              processNode_parserOnly induction url event
          by_cases halted : (process (parserOnly api)
              (parse (parserOnly api) depth) url source.events
                ⟨none, 0⟩).outcome = .halt .fault
          · left
            exact (finish_halts url source _ .fault).mpr halted
          · right
            simp only
            rw [guards.resolve halted]
            rfl

end Exceptions

/-- A tree or an exception. -/
def Delivered (outcome : Outcome Exc (Option Node × Nat)) : Prop :=
  (∃ root count, outcome = .value (some root, count)) ∨
    ∃ exception, outcome = .error exception

/-- `parse` comes to an end with a tree or an exception of its own. -/
def Terminates (url : Str) : Prop :=
  ∃ depth, Delivered (parse api depth url) ∧
    parse (parserOnly api) depth url = parse api depth url

section Termination

variable {api}

theorem delivered_iff (outcome : Outcome Exc (Option Node × Nat)) :
    Delivered outcome ↔ (¬ ∃ reason, outcome = .halt reason) ∧
      ¬ ∃ count, outcome = .value (none, count) := by
  unfold Delivered
  cases outcome with
  | halt reason => simp
  | error exception => simp
  | value result =>
      obtain ⟨root, count⟩ := result
      cases root <;> simp

theorem terminates_iff_result (url : Str) :
    Terminates api url ↔ Delivered (result (parserOnly api) url) := by
  constructor
  · rintro ⟨depth, delivered, same⟩
    rw [← same] at delivered
    have complete : parse (parserOnly api) depth url ≠ .halt .timeout := by
      intro stopped
      rw [stopped] at delivered
      exact ((delivered_iff _).mp delivered).1 ⟨.timeout, rfl⟩
    rw [result_eq complete]
    exact delivered
  · intro delivered
    have halts := ((delivered_iff _).mp delivered).1
    rcases @exists_parse (parserOnly api) url with
      stopped | ⟨depth, _, computed⟩
    · exact absurd ⟨.timeout, stopped⟩ halts
    · rw [← computed] at delivered halts
      rcases @parse_parserOnly api depth url with faulty | same
      · exact absurd ⟨.fault, faulty⟩ halts
      · rw [same] at delivered
        exact ⟨depth, delivered, same⟩

/-- Among finitely many files, `parse` comes to an end exactly when no file
it gets to includes itself, directly or through others, and it strays in
none of them, and the document has a root. -/
theorem parse_terminates_iff
    (finite : {url | api.fetch url ≠ none}.Finite) (url : Str) :
    Terminates api url ↔
      (¬ ∃ file, ReflTransGen (Includes (parserOnly api)) url file ∧
        (TransGen (Includes (parserOnly api)) file file ∨
          Breaks (parserOnly api) file)) ∧
      ¬ Rootless (parserOnly api) url := by
  have files : {url | (parserOnly api).fetch url ≠ none}.Finite := finite
  rw [terminates_iff_result, delivered_iff, result_halts_iff files,
    result_rootless]

end Termination

def scriptName : Str := "page.dbpx".toList

/-- `<dbp:include href="page.dbpx"/>`. -/
def includePage : Element :=
  ⟨includeName, dbpagerUri, includeName,
    [⟨"href".toList, "href".toList, false, [], scriptName⟩]⟩

/-- One file, with the given elements below its `dbp:module`. -/
def oneFile (content : List ReaderEvent) (url : Str) : Option Source :=
  if url = scriptName then
    some ⟨.element (dbpElement moduleName) 0 :: content ++ [.endElement],
      none⟩
  else none

theorem oneFile_finite (content : List ReaderEvent) :
    {url | (plainParser (oneFile content)).fetch url ≠ none}.Finite := by
  apply (Set.finite_singleton scriptName).subset
  intro url fetched
  by_contra foreign
  exact fetched (if_neg foreign)

def mainName : Str := "main.dbpx".toList

/-- A file that includes another one, with an empty element below its root. -/
def twoFiles (url : Str) : Option Source :=
  if url = mainName then
    some ⟨[.element (dbpElement moduleName) 0, .element includePage 1,
      .endElement], none⟩
  else oneFile [.element (htmlElement ruleName) 1] url

theorem twoFiles_finite :
    {url | (plainParser twoFiles).fetch url ≠ none}.Finite := by
  apply ((Set.finite_singleton scriptName).insert mainName).subset
  intro url fetched
  by_contra foreign
  rw [Set.mem_insert_iff, not_or] at foreign
  exact fetched ((if_neg foreign.1).trans (if_neg foreign.2))

/-- The first file includes the second one. -/
theorem parse_terminates_including :
    Terminates (plainParser twoFiles) mainName ∧
      ¬ Rootless (parserOnly (plainParser twoFiles)) mainName := by
  have ends : Terminates (plainParser twoFiles) mainName :=
    ⟨2, .inl ⟨_, _, rfl⟩, rfl⟩
  exact ⟨ends, ((parse_terminates_iff twoFiles_finite mainName).mp ends).2⟩

/-- A file that includes itself below its root. -/
theorem parse_never_ends :
    {url | (plainParser (oneFile [.element includePage 1])).fetch url ≠
      none}.Finite ∧
    ¬ Terminates (plainParser (oneFile [.element includePage 1]))
      scriptName := by
  refine ⟨oneFile_finite _, ?_⟩
  have stops (depth : Nat) :
      parse (plainParser (oneFile [.element includePage 1])) depth scriptName =
        .halt .timeout := by
    induction depth with
    | zero => rfl
    | succ depth induction =>
        rw [parse_succ, parseFile_halts]
        refine ⟨.element includePage 1, _, ⟨_, [_], [.endElement], _, rfl, rfl,
          rfl⟩, ?_⟩
        rw [processNode_target (rfl : target _ _ _ = some scriptName) induction]
  rintro ⟨depth, delivered, _⟩
  rw [stops depth] at delivered
  exact ((delivered_iff _).mp delivered).1 ⟨.timeout, rfl⟩

end DbPager.DbpxParser
