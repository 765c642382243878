import DbPager.Library.Powers
import DbPager.Prolog

/-!
# A loop in `lib:prolog`

The first round of the loop executes the blocks, and the later ones find
their variables assigned.  The variables are written in the order of their
names, but each block has assigned the variable of the other one.
-/

namespace DbPager

open Effect

variable {W : Type}

namespace Prolog

open Operators

/-- The variables in which the blocks keep their output, and the one for the
output of the loop. -/
structure Holding (texts : Block → Str) (state : St W) : Prop where
  held : ∀ block : Block,
    Chain.lookup block.var state.contexts = some (texts block)
  result : Bound state.contexts "rslt".toList

theorem Block.upName_var_ne {other block : Block} (different : other ≠ block) :
    upName other.var ≠ upName block.var := by
  cases other <;> cases block
  · exact absurd rfl different
  · decide
  · decide
  · exact absurd rfl different

section Holding

variable {texts : Block → Str} {state after : St W}

theorem Holding.keeps (holding : Holding texts state)
    (keeps : Keeps state after) : Holding texts after where
  held block := (keeps _ block.var_mem).trans (holding.held block)
  result := by
    rw [Bound, keeps _ (by decide)]
    exact holding.result

theorem Holding.of_contexts (holding : Holding texts state)
    (same : after.contexts = state.contexts) : Holding texts after :=
  holding.keeps fun _ _ => by rw [same]

theorem Holding.getValue (holding : Holding texts state) (block : Block) :
    Chain.getValue block.var state.contexts = texts block := by
  rw [Chain.getValue, holding.held]
  rfl

theorem Holding.assigned (holding : Holding texts state) {block : Block}
    {text : Str}
    (assigned : ∀ name ∈ outputs, Chain.lookup name after.contexts =
      if upName name = upName block.var then some text
      else Chain.lookup name state.contexts) :
    Holding (Function.update texts block text) after where
  held other := by
    rw [assigned _ other.var_mem]
    by_cases same : other = block
    · rw [same, if_pos rfl, Function.update_self]
    · rw [if_neg (Block.upName_var_ne same), Function.update_of_ne same]
      exact holding.held other
  result := by
    have different : upName "rslt".toList ≠ upName block.var := by
      cases block <;> decide
    rw [Bound, assigned _ (by decide), if_neg different]
    exact holding.result

end Holding

/-! ## Rounds -/

/-- One round of the loop: what runs up to the block `lib:before` and between
the blocks, and the states between. -/
structure Round (W : Type) where
  first : M W Unit
  middle : M W Unit
  depth : Nat
  caller : Option Loc
  reached : St W
  passed : St W
  came : St W
  ended : St W
  left : Str
  right : Str

/-- A program that leaves the variables of `lib:prolog` and their layers
alone. -/
structure Aside (program : M W Unit) (before after : St W) (out : Str) :
    Prop where
  ran : program before = ⟨after, out, .value ()⟩
  keeps : Keeps before after
  deep : Deep 2 after

/-- The program runs the round and then the rest. -/
structure Round.Runs (outside : Outside W) (call : Block → Loc)
    (round : Round W) (program rest : M W Unit) (state : St W) : Prop where
  split : program state = (do
    round.first
    execute outside (round.depth + 9) (call .before) round.caller
    round.middle
    execute outside (round.depth + 9) (call .after) round.caller
    rest) state
  first : Aside round.first state round.reached round.left
  before : ∃ out, execute outside (round.depth + 9) (call .before)
    round.caller round.reached = ⟨round.passed, out, .value ()⟩
  middle : Aside round.middle round.passed round.came round.right
  after : ∃ out, execute outside (round.depth + 9) (call .after)
    round.caller round.came = ⟨round.ended, out, .value ()⟩

/-- The program runs so many rounds, one after the other; what it writes
besides the blocks, and the state at its end. -/
inductive Rounds (outside : Outside W) (call : Block → Loc) :
    Nat → M W Unit → St W → Str → St W → Prop
  | last {program : M W Unit} {state final : St W} {out : Str}
      (aside : Aside program state final out) :
      Rounds outside call 0 program state out final
  | next {number : Nat} {program rest : M W Unit} {round : Round W}
      {state final : St W} {out : Str}
      (runs : round.Runs outside call program rest state)
      (later : Rounds outside call number rest round.ended out final) :
      Rounds outside call (number + 1) program state
        (round.left ++ (round.right ++ out)) final

section Loop

variable {outside : Outside W} {n m : Nat} {up : List Tag}
  {call : Block → Loc} {round : Round W} {program rest : M W Unit}
  {state final : St W} {texts : Block → Str} {out : Str}

/-- What a round writes, when its blocks write nothing themselves. -/
theorem Round.Runs.run_eq (runs : round.Runs outside call program rest state)
    (before : execute outside (round.depth + 9) (call .before) round.caller
      round.reached = ⟨round.passed, [], .value ()⟩)
    (after : execute outside (round.depth + 9) (call .after) round.caller
      round.came = ⟨round.ended, [], .value ()⟩)
    (later : rest round.ended = ⟨final, out, .value ()⟩) :
    program state =
      ⟨final, round.left ++ (round.right ++ out), .value ()⟩ := by
  rw [runs.split, Prog.bind_eq runs.first.ran, Prog.bind_silent before,
    Prog.bind_eq runs.middle.ran, Prog.bind_silent after, later]

/-- A text that the blocks do not take for empty. -/
structure Full (outside : Outside W) (text : Str) : Prop where
  unread : outside.dcl.fromStringDouble text = none
  full : saysEmpty outside text = false

/-- A block that is full is skipped. -/
theorem Holding.skips (library : Library n m up) {block : Block} {depth : Nat}
    {caller : Option Loc} (calls : Call (call block) (block.loc n m up))
    (holding : Holding texts state) (full : Full outside (texts block))
    {after : St W} {written : Str}
    (ran : execute outside (depth + 9) (call block) caller state =
      ⟨after, written, .value ()⟩) :
    written = [] ∧ after.contexts = state.contexts := by
  have chain : state.contexts ≠ [] := by
    intro none
    have held := holding.held block
    rw [none] at held
    cases held
  obtain ⟨last, skipped, same⟩ := @Call.skips W outside (depth + 3) n m up
    block (call block) caller state _ library calls chain
    (holding.getValue block) full.unread full.full
  have equal := ran.symm.trans skipped
  cases equal
  exact ⟨rfl, same⟩

/-- A round in which both blocks are full. -/
theorem Round.Runs.skips (library : Library n m up)
    (calls : ∀ block : Block, Call (call block) (block.loc n m up))
    (runs : round.Runs outside call program rest state)
    (holding : Holding texts state)
    (full : ∀ block, Full outside (texts block)) :
    Holding texts round.ended ∧
      ∀ final out, rest round.ended = ⟨final, out, .value ()⟩ →
        program state =
          ⟨final, round.left ++ (round.right ++ out), .value ()⟩ := by
  obtain ⟨one, before⟩ := runs.before
  obtain ⟨two, after⟩ := runs.after
  have reached := holding.keeps runs.first.keeps
  obtain ⟨rfl, passed⟩ := reached.skips library (calls .before) (full .before)
    before
  have came := (reached.of_contexts passed).keeps runs.middle.keeps
  obtain ⟨rfl, ended⟩ := came.skips library (calls .after) (full .after) after
  exact ⟨came.of_contexts ended, fun _ _ later =>
    runs.run_eq before after later⟩

/-- Rounds in which both blocks are full. -/
theorem Rounds.skip (library : Library n m up)
    (calls : ∀ block : Block, Call (call block) (block.loc n m up))
    (full : ∀ block, Full outside (texts block)) {number : Nat}
    (rounds : Rounds outside call number program state out final)
    (holding : Holding texts state) :
    program state = ⟨final, out, .value ()⟩ ∧ Holding texts final ∧
      Deep 2 final := by
  induction rounds with
  | last aside => exact ⟨aside.ran, holding.keeps aside.keeps, aside.deep⟩
  | next runs later induction =>
      obtain ⟨ended, whole⟩ := runs.skips library calls holding full
      obtain ⟨ran, kept, deep⟩ := induction ended
      exact ⟨whole _ _ ran, kept, deep⟩

/-- A block that is empty assigns what its content writes. -/
theorem Holding.writes (library : Library n m up) {block : Block} {depth : Nat}
    {caller : Option Loc} (calls : Call (call block) (block.loc n m up))
    (holding : Holding texts state) (deep : Deep 2 state)
    (empty : texts block = [])
    (unread : outside.dcl.fromStringDouble [] = none)
    (first : saysEmpty outside [] = true)
    (single : outside.dcl.tokens block.var = [block.var]) {text : Str}
    (writes : Writes outside depth n m up block (call block) state text)
    {after : St W} {written : Str}
    (ran : execute outside (depth + 9) (call block) caller state =
      ⟨after, written, .value ()⟩) :
    written = [] ∧ Holding (Function.update texts block text) after := by
  obtain ⟨names, before, -⟩ := deep_iff.mp deep
  have held := holding.held block
  rw [empty] at held
  obtain ⟨last, wrote, assigned, -⟩ := @Call.writes W outside depth n m up
    block (call block) caller state text library calls names before held unread
    first single writes
  have equal := ran.symm.trans wrote
  cases equal
  exact ⟨rfl, holding.assigned assigned⟩

/-- The first round, when C++ computes the left operand of a comparison
first. -/
theorem Round.Runs.writes (library : Library n m up)
    (calls : ∀ block : Block, Call (call block) (block.loc n m up))
    (runs : round.Runs outside call program rest state)
    (holding : Holding (fun _ => []) state)
    (unread : outside.dcl.fromStringDouble [] = none)
    (first : saysEmpty outside [] = true)
    (single : ∀ block : Block, outside.dcl.tokens block.var = [block.var])
    (before : Writes outside round.depth n m up .before (call .before)
      round.reached (texts .before))
    (after : Writes outside round.depth n m up .after (call .after) round.came
      (texts .after)) :
    Holding texts round.ended ∧
      ∀ final out, rest round.ended = ⟨final, out, .value ()⟩ →
        program state =
          ⟨final, round.left ++ (round.right ++ out), .value ()⟩ := by
  obtain ⟨one, wroteBefore⟩ := runs.before
  obtain ⟨two, wroteAfter⟩ := runs.after
  have reached := holding.keeps runs.first.keeps
  obtain ⟨rfl, passed⟩ := reached.writes library (calls .before)
    runs.first.deep rfl unread first (single .before) before wroteBefore
  have came := passed.keeps runs.middle.keeps
  obtain ⟨rfl, ended⟩ := came.writes library (calls .after) runs.middle.deep
    rfl unread first (single .after) after wroteAfter
  have both : Function.update (Function.update (fun _ => []) .before
      (texts .before)) .after (texts .after) = texts := by
    funext block
    cases block <;> rfl
  rw [both] at ended
  exact ⟨ended, fun _ _ later => runs.run_eq wroteBefore wroteAfter later⟩

end Loop

/-! ## The output of `lib:prolog` -/

section Output

variable (m : Nat) (up : List Tag)

def prologLoc : Loc :=
  ⟨prologTag m, up⟩

def varLoc : Loc :=
  (prologLoc m up).child (prologVar m)

def setLoc : Loc :=
  (varLoc m up).child (prologSet m)

/-- Where the definition executes the content of a call. -/
def prologContent : Loc :=
  (setLoc m up).child (executeTag (m + 4))

/-- The layer with the three variables. -/
def outputLayer : Vars :=
  outputs.foldl (fun layer name => layer.insert (upName name) []) ∅

/-- The state in which the loop is executed into a variable. -/
def declared (call : Loc) (state : St W) : St W :=
  (called call (prologLoc m up) (state.withLayer ∅)).withLayer outputLayer

/-- The state in which the content of the call is executed. -/
def opened (call : Loc) (state : St W) : St W :=
  taken (prologContent m up) call (declared m up call state)

variable {m up} {outside : Outside W} {depth : Nat} {call : Loc}
  {caller : Option Loc} {state final : St W} {out : Str}
  {texts : Block → Str}

/-- The tokenizer splits the names of the variables at the commas. -/
structure NamesRead (dcl : Dcl) : Prop where
  all : dcl.tokens "before,after,rslt".toList = outputs
  single : ∀ name ∈ outputs, dcl.tokens name = [name]

theorem opened_holding (chain : state.contexts ≠ []) :
    Holding (fun _ => []) (opened m up call state) := by
  have inside : (called call (prologLoc m up)
      (state.withLayer ∅)).contexts ≠ [] :=
    called_chain (withLayer_chain ∅ chain)
  have bound (name : Str) (member : name ∈ outputs) :
      Chain.lookup name (opened m up call state).contexts = some [] := by
    have found : outputLayer.lookup (upName name) = some [] := by
      revert name
      decide
    rw [opened, lookup_taken, declared, St.withLayer,
      Chain.lookup_withLayer name outputLayer inside, found]
    rfl
  refine ⟨fun block => bound _ block.var_mem, ?_⟩
  rw [Bound, bound _ (by decide)]
  rfl

/-- The loop of `tag_var` over the names. -/
theorem declare_outputs {interp : Interp W} {self : Loc} {state : St W}
    (here : Layers.HeadLocal state)
    (typed : ∀ state : St W, interp.getParameter self "type" state =
      ⟨state, [], .value []⟩)
    (valued : ∀ state : St W, interp.getParameter self "value" state =
      ⟨state, [], .value []⟩) (names : List Str) (layer : Vars) :
    Prog.forEach (fun name => do
        let type ← interp.getParameter self "type"
        let value ← interp.getParameter self "value"
        M.addTyped interp.dcl name value
          (if type.isEmpty then Context.localType else type)) names
      (state.withLayer layer) =
      ⟨state.withLayer (names.foldl (fun layer name =>
        layer.insert (upName name) []) layer), [], .value ()⟩ := by
  induction names generalizing layer with
  | nil => rfl
  | cons name names induction =>
      have added := addTyped_withLayer interp.dcl name [] layer here
      have turn : (do
          let type ← interp.getParameter self "type"
          let value ← interp.getParameter self "value"
          M.addTyped interp.dcl name value
            (if type.isEmpty then Context.localType else type))
          (state.withLayer layer) =
          ⟨state.withLayer (layer.insert (upName name) []), [],
            .value ()⟩ := by
        rw [Prog.bind_silent (typed _), Prog.bind_silent (valued _)]
        exact added
      unfold Prog.forEach
      rw [Prog.bind_silent turn, induction]
      rfl

/-- The text of the definition as a template. -/
def outputTemplate : Template :=
  [.literal " ".toList rfl, .var "before".toList rfl, .var "rslt".toList rfl,
    .var "after".toList rfl, .literal " ".toList rfl]

/-- A text is executed as the template it is. -/
theorem template_writes (outside : Outside W) (depth addr : Nat)
    (template : Template) (caller : Option Loc) (up : List Tag)
    (state : St W) :
    execute outside (depth + 1) ⟨.mk addr .expression [] [] template.text, up⟩
        caller state =
      ⟨state, template.value state.contexts, .value ()⟩ := by
  have ran := Evaluator.evaluate_template outside
    (Evaluator.executeFunction outside (execute outside depth)
      (.mk addr .expression [] [] template.text :: up)) template state
  refine (Prog.bind_silent ran _).trans ?_
  rfl

theorem prologText_writes (caller : Option Loc) (up : List Tag)
    (state : St W) :
    execute outside (depth + 1) ⟨prologText m, up⟩ caller state =
      ⟨state, outputTemplate.value state.contexts, .value ()⟩ := by
  have text : " \x7b$before\x7d\x7b$rslt\x7d\x7b$after\x7d ".toList =
      outputTemplate.text := by decide
  have ran := template_writes outside depth (m + 5) outputTemplate caller up
    state
  rw [← text] at ran
  exact ran

/-- The loop is executed into the variable `rslt`. -/
theorem prologSet_returns (single : outside.dcl.tokens "rslt".toList =
      ["rslt".toList]) (top : (declared m up call state).exec = call :: state.exec)
    (content : (Interp.ofRun outside depth (execute outside depth)).executeChilds
      call (some (prologContent m up)) (opened m up call state) =
        ⟨final, out, .value ()⟩) (holding : Holding texts final) :
    ∃ changed, Chain.setValue "rslt".toList out (givenBack call final).contexts =
        some changed ∧
      execute outside (depth + 2) (setLoc m up) caller
          (declared m up call state) =
        ⟨{ givenBack call final with contexts := changed }, [], .value ()⟩ := by
  let interp := Interp.ofRun outside (depth + 1) (execute outside (depth + 1))
  have executed : execute outside (depth + 1) (prologContent m up) caller
      (declared m up call state) = ⟨givenBack call final, out, .value ()⟩ :=
    execute_returns top content
  have childs : interp.executeChilds (setLoc m up) caller
      (declared m up call state) = ⟨givenBack call final, out, .value ()⟩ := by
    rw [executeChilds_single interp caller
      (show (setLoc m up).tag.childs = _ from rfl) rfl]
    exact executed
  have named : interp.getParameter (setLoc m up) "name"
      (givenBack call final) =
      ⟨givenBack call final, [], .value "rslt".toList⟩ :=
    evaluates_plain outside _ _ rfl _
  have bound : Bound (givenBack call final).contexts "rslt".toList := by
    rw [Bound, lookup_givenBack]
    exact holding.result
  obtain ⟨changed, assigned⟩ := Chain.setValue_of_bound bound out
  exact ⟨changed, assigned, set_returns childs named single assigned⟩

/-- What the definition writes: the variable `before`, the output of the loop
and the variable `after`. -/
def prologOutput (texts : Block → Str) (out : Str) : Str :=
  " ".toList ++ (texts .after ++ (out ++ (texts .before ++ " ".toList)))

theorem outputTemplate_value {contexts changed : List Context}
    (held : ∀ block : Block,
      Chain.lookup block.var contexts = some (texts block))
    (assigned : Chain.setValue "rslt".toList out contexts = some changed) :
    outputTemplate.value changed = prologOutput texts out := by
  have set := Chain.lookup_setValue assigned
  have kept (block : Block) : Chain.getValue block.var changed =
      texts block := by
    have other : upName block.var ≠ upName "rslt".toList := by
      cases block <;> decide
    rw [Chain.getValue, set, if_neg (by simpa using other), held]
    rfl
  have result : Chain.getValue "rslt".toList changed = out := by
    rw [Chain.getValue, set, if_pos ⟨_, List.mem_singleton_self _, rfl⟩]
    rfl
  have front : Chain.getValue "before".toList changed = texts .after :=
    kept .after
  have back : Chain.getValue "after".toList changed = texts .before :=
    kept .before
  simp only [Template.value, outputTemplate, List.flatMap_cons,
    List.flatMap_nil, Piece.value, front, result, back, List.append_nil,
    prologOutput]

/-- The tags below `dbp:var` are executed with the three variables. -/
theorem prologVar_returns (here : Layers.HeadLocal state)
    (chain : state.contexts ≠ []) (names : NamesRead outside.dcl)
    (content : (Interp.ofRun outside depth (execute outside depth)).executeChilds
      call (some (prologContent m up)) (opened m up call state) =
        ⟨final, out, .value ()⟩)
    (holding : Holding texts final) (deep : Deep 2 final) :
    ∃ last, execute outside (depth + 3) (varLoc m up) caller
        (called call (prologLoc m up) (state.withLayer ∅)) =
      ⟨last, prologOutput texts out, .value ()⟩ ∧ Deep 1 last := by
  let interp := Interp.ofRun outside (depth + 2) (execute outside (depth + 2))
  let self := varLoc m up
  let inside := called call (prologLoc m up) (state.withLayer ∅)
  have local_ : Layers.HeadLocal inside :=
    headLocal_called (headLocal_mapHead (fun _ => rfl) here)
  have top : (declared m up call state).exec = call :: state.exec := by
    have pushed := @exec_push W ((state.withLayer ∅).record
      (.call call (prologLoc m up))) call (withLayer_chain ∅ chain)
    exact (exec_withLayer _ _).trans
      (pushed.trans (congrArg _ (exec_withLayer _ _)))
  obtain ⟨changed, assigned, set⟩ := @prologSet_returns W m up outside depth
    call caller state final out texts (names.single _ (by decide)) top content
    holding
  let last : St W := { givenBack call final with contexts := changed }
  have value : outputTemplate.value changed = prologOutput texts out :=
    outputTemplate_value (fun block =>
      (lookup_givenBack _).trans (holding.held block)) assigned
  have written : execute outside (depth + 2) (self.child (prologText m)) caller
      last = ⟨last, outputTemplate.value changed, .value ()⟩ :=
    prologText_writes _ _ _
  rw [value] at written
  have childs : interp.executeChilds self caller (declared m up call state) =
      ⟨last, [] ++ prologOutput texts out, .value ()⟩ :=
    childs_return rfl rfl set written
  have named : interp.getParameter self "name" (inside.withLayer ∅) =
      ⟨inside.withLayer ∅, [], .value "before,after,rslt".toList⟩ := by
    have plain : "before,after,rslt".toList.all isPlainChar = true := by decide
    exact evaluates_plain outside _ _ plain _
  have bound := @declare_outputs W interp self inside local_ (fun _ => rfl)
    (fun _ => rfl) outputs ∅
  have body : (do
      let names ← interp.getParameter self "name"
      Prog.forEach (fun name => do
          let type ← interp.getParameter self "type"
          let value ← interp.getParameter self "value"
          M.addTyped outside.dcl name value
            (if type.isEmpty then Context.localType else type))
        (outside.dcl.tokens names)
      interp.executeChilds self caller) (inside.withLayer ∅) =
      ⟨last, prologOutput texts out, .value ()⟩ := by
    rw [Prog.bind_silent named, names.all]
    exact (Prog.bind_silent bound _).trans childs
  have layers : Deep 2 last := by
    obtain ⟨keys, shape, enough⟩ := deep_iff.mp deep
    refine deep_iff.mpr ⟨keys, ?_, enough⟩
    rw [layerNames_setValue assigned, layerNames_givenBack, shape]
  exact ⟨last.dropLayer, M.withLayer_left body (M.leave_eq layers.layered),
    layers.dropLayer⟩

/-- The variable `before` is written in front of the loop, and `after` behind
it. -/
theorem prolog_writes (calls : Call call (prologLoc m up))
    (here : Layers.HeadLocal state) (names : NamesRead outside.dcl)
    (content : (Interp.ofRun outside depth (execute outside depth)).executeChilds
      call (some (prologContent m up)) (opened m up call state) =
        ⟨final, out, .value ()⟩)
    (holding : Holding texts final) (deep : Deep 2 final) :
    ∃ last, execute outside (depth + 5) call caller state =
      ⟨last, prologOutput texts out, .value ()⟩ := by
  obtain ⟨name, link, kind⟩ := calls.usr
  have chain : state.contexts ≠ [] := by
    intro none
    rw [Layers.HeadLocal, none] at here
    cases here
  have bound : bindArguments (Interp.ofRun outside (depth + 4)
      (execute outside (depth + 4))) call call.tag.params
      (state.withLayer ∅) = ⟨state.withLayer ∅, [], .value ()⟩ := by
    rw [calls.params]
    rfl
  obtain ⟨last, ran, left⟩ := @prologVar_returns W m up outside depth call
    (some call) state final out texts here chain names content holding deep
  have defined : execute outside (depth + 4) (prologLoc m up) (some call) =
      execute outside (depth + 3) (varLoc m up) (some call) :=
    definition_eq rfl rfl rfl calls.isUsr
  rw [← defined] at ran
  have whole : execute outside (depth + 5) call caller state = _ :=
    call_settle kind calls.target bound (calm_of_eq ran left)
  exact ⟨_, whole.trans (settle_eq ran)⟩

end Output

section Order

variable {outside : Outside W} {depth n m number : Nat} {up : List Tag}
  {call : Loc} {caller : Option Loc} {blockCall : Block → Loc}
  {texts : Block → Str} {round : Round W} {rest : M W Unit}
  {state final : St W} {out : Str}

/-- The content of the call is a loop with at least one round, and these are
the outputs of its blocks. -/
structure Looping (outside : Outside W) (depth n m : Nat) (up : List Tag)
    (call : Loc) (blockCall : Block → Loc) (texts : Block → Str)
    (round : Round W) (rest : M W Unit) (number : Nat) (state : St W)
    (out : Str) (final : St W) : Prop where
  runs : round.Runs outside blockCall
    ((Interp.ofRun outside depth (execute outside depth)).executeChilds call
      (some (prologContent m up))) rest (opened m up call state)
  before : Writes outside round.depth n m up .before (blockCall .before)
    round.reached (texts .before)
  after : Writes outside round.depth n m up .after (blockCall .after)
    round.came (texts .after)
  later : Rounds outside blockCall number rest round.ended out final

/-- The loop is executed to its end. -/
theorem Looping.content (library : Library n m up)
    (blocks : ∀ block : Block, Call (blockCall block) (block.loc n m up))
    (names : NamesRead outside.dcl)
    (unread : outside.dcl.fromStringDouble [] = none)
    (nonempty : ∀ block, texts block ≠ [])
    (words : ∀ block, outside.dcl.fromStringDouble (texts block) = none)
    (chain : state.contexts ≠ [])
    (loop : Looping outside depth n m up call blockCall texts round rest number
      state out final) :
    (Interp.ofRun outside depth (execute outside depth)).executeChilds call
        (some (prologContent m up)) (opened m up call state) =
      ⟨final, round.left ++ (round.right ++ out), .value ()⟩ ∧
      Holding (if outside.leftFirst then texts else fun _ => []) final ∧
      Deep 2 final := by
  have opening : Holding (fun _ => []) (opened m up call state) :=
    opened_holding chain
  cases first : outside.leftFirst with
  | true =>
      have full (block : Block) : Full outside (texts block) :=
        ⟨words block, by simp [saysEmpty, first, nonempty block]⟩
      obtain ⟨ended, whole⟩ := loop.runs.writes library blocks opening unread
        (by simp [saysEmpty, first])
        (fun block => names.single _ block.var_mem) loop.before loop.after
      obtain ⟨ran, kept, deep⟩ := loop.later.skip library blocks full ended
      exact ⟨whole _ _ ran, kept, deep⟩
  | false =>
      have full (_ : Block) : Full outside [] :=
        ⟨unread, by simp [saysEmpty, first]⟩
      exact (Rounds.next loop.runs loop.later).skip library blocks full opening

/-- A text up to blanks. -/
def visible (text : Str) : Str :=
  text.filter fun c => !isSpace c

theorem visible_append (front back : Str) :
    visible (front ++ back) = visible front ++ visible back :=
  List.filter_append ..

theorem visible_prologOutput (texts : Block → Str) (out : Str) :
    visible (prologOutput texts out) =
      visible (texts .after) ++ (visible out ++ visible (texts .before)) := by
  have blank : visible " ".toList = [] := by decide
  simp only [prologOutput, visible_append, blank, List.nil_append,
    List.append_nil]

/-- The texts of the blocks and of the rounds for which it does not matter
where the library writes the blocks. -/
def Placed (outside : Outside W) (before rounds after : Str) : Prop :=
  if outside.leftFirst then
    Powers.SameWord (after ++ rounds) (before ++ rounds)
  else before = [] ∧ after = []

theorem placed_iff (outside : Outside W) (before rounds after : Str) :
    (if outside.leftFirst then after ++ (rounds ++ before) else rounds) =
        before ++ (rounds ++ after) ↔
      Placed outside before rounds after := by
  unfold Placed
  cases outside.leftFirst with
  | true =>
      rw [if_pos rfl, if_pos rfl]
      exact Powers.exchange_iff
  | false =>
      rw [if_neg Bool.false_ne_true, if_neg Bool.false_ne_true]
      constructor
      · intro same
        have sizes := congrArg List.length same
        simp only [List.length_append] at sizes
        exact ⟨List.length_eq_zero_iff.mp (by omega),
          List.length_eq_zero_iff.mp (by omega)⟩
      · rintro ⟨rfl, rfl⟩
        rw [List.nil_append, List.append_nil]

/-- Up to blanks `lib:prolog` writes the block `lib:before`, then the rounds
and then the block `lib:after` exactly when the blocks, which it writes the
other way round, may be exchanged. -/
theorem prolog_order_iff (library : Library n m up)
    (calls : Call call (prologLoc m up))
    (blocks : ∀ block : Block, Call (blockCall block) (block.loc n m up))
    (here : Layers.HeadLocal state) (names : NamesRead outside.dcl)
    (unread : outside.dcl.fromStringDouble [] = none)
    (nonempty : ∀ block, texts block ≠ [])
    (words : ∀ block, outside.dcl.fromStringDouble (texts block) = none)
    (loop : Looping outside depth n m up call blockCall texts round rest number
      state out final) :
    (∃ last written, execute outside (depth + 5) call caller state =
        ⟨last, written, .value ()⟩ ∧
      visible written = visible (texts .before ++
        ((round.left ++ (round.right ++ out)) ++ texts .after))) ↔
      Placed outside (visible (texts .before))
        (visible (round.left ++ (round.right ++ out)))
        (visible (texts .after)) := by
  have chain : state.contexts ≠ [] := by
    intro none
    rw [Layers.HeadLocal, none] at here
    cases here
  obtain ⟨content, holding, deep⟩ := loop.content library blocks names unread
    nonempty words chain
  obtain ⟨last, ran⟩ := @prolog_writes W m up outside depth call caller state
    final _ _ calls here names content holding deep
  have shown : visible (prologOutput
      (if outside.leftFirst then texts else fun _ => [])
      (round.left ++ (round.right ++ out))) =
      if outside.leftFirst then visible (texts .after) ++
        (visible (round.left ++ (round.right ++ out)) ++
          visible (texts .before))
      else visible (round.left ++ (round.right ++ out)) := by
    rw [visible_prologOutput]
    cases outside.leftFirst with
    | true => rfl
    | false => exact List.append_nil _
  rw [← placed_iff, ← shown, visible_append, visible_append]
  constructor
  · rintro ⟨_, _, again, same⟩
    rw [ran] at again
    cases again
    exact same
  · exact fun same => ⟨last, _, ran, same⟩

end Order

/-! ## A page -/

/-- A page that includes the library and holds the call. -/
def prologPage (call : Tag) : Tag :=
  .mk 0 .module []
    [Operators.ifTag 0, prologTag 20, beforeTag 0 20, afterTag 0 20, call] []

/-- `<lib:before>` or `<lib:after>` around a text. -/
def blockTag (texts : Block → Str) (block : Block) : Tag :=
  .mk (block.start 36) (.usr block.xmlName (some (block.start 20 + 1))) []
    [.mk (block.start 36 + 1) .expression [] [] (texts block)] []

def roundText : Tag :=
  .mk 43 .expression [] [] "r".toList

/-- `<dbp:split name="x" value="x">` with one round. -/
def loopTag (texts : Block → Str) : Tag :=
  .mk 40 .split [("name".toList, "x".toList), ("value".toList, "x".toList)]
    [blockTag texts .before, roundText, blockTag texts .after] []

/-- `<lib:prolog>` around the loop. -/
def prologCall (texts : Block → Str) : Tag :=
  .mk 39 (.usr prologName (some 21)) [] [loopTag texts] []

section Page

variable (texts : Block → Str)

def pageUp : List Tag :=
  [prologPage (prologCall texts)]

def callLoc : Loc :=
  ⟨prologCall texts, pageUp texts⟩

def loopLoc : Loc :=
  (callLoc texts).child (loopTag texts)

def blockLoc (block : Block) : Loc :=
  (loopLoc texts).child (blockTag texts block)

def pageCaller : Option Loc :=
  some (prologContent 20 (pageUp texts))

/-- The state in which the loop starts. -/
def pageStart : St Unit :=
  opened 20 (pageUp texts) (callLoc texts) (St.fresh [Context.newLocal])

/-- The state in which its only round starts. -/
def roundStart : St Unit :=
  (pageStart texts).withLayer
    (((∅ : Vars).insert "X".toList []).insert "X".toList "x".toList)

def pageInterp : Interp Unit :=
  .ofRun Outside.plain 20 (execute Outside.plain 20)

/-- What the loop does before its first block. -/
def roundFirst : M Unit Unit := do
  M.enter
  M.addValue Dcl.plain "x".toList []
  M.setValue Dcl.plain "x".toList "x".toList

/-- What the round does between the blocks. -/
def roundMiddle : M Unit Unit :=
  pageInterp.run ((loopLoc texts).child roundText) (pageCaller texts)

variable {texts}

theorem roundFirst_eq :
    roundFirst (pageStart texts) = ⟨roundStart texts, [], .value ()⟩ := rfl

/-- The loop executes its children once, in a layer of its own. -/
theorem loop_once {last : St Unit} {out : Str}
    (ran : pageInterp.executeChilds (loopLoc texts) (pageCaller texts)
      (roundStart texts) = ⟨last, out, .value ()⟩) (deep : Deep 1 last) :
    (Interp.ofRun Outside.plain 21 (execute Outside.plain 21)).executeChilds
        (callLoc texts) (pageCaller texts) (pageStart texts) =
      ⟨last.dropLayer, out, .value ()⟩ := by
  let self := loopLoc texts
  let inside := (pageStart texts).withLayer ∅
  let bound := (pageStart texts).withLayer ((∅ : Vars).insert "X".toList [])
  have entry : M.enter (pageStart texts) = ⟨inside, [], .value ()⟩ := rfl
  have source : TagSplit.source pageInterp self inside =
      ⟨inside, [], .value (",".toList, ["x".toList])⟩ := rfl
  have named : pageInterp.getParameter self "name" inside =
      ⟨inside, [], .value "x".toList⟩ := rfl
  have added : M.addValue pageInterp.dcl "x".toList [] inside =
      ⟨bound, [], .value ()⟩ := rfl
  have ordered : pageInterp.getParameter self "order" bound =
      ⟨bound, [], .value []⟩ := rfl
  have set : M.setValue pageInterp.dcl "x".toList "x".toList bound =
      ⟨roundStart texts, [], .value ()⟩ := rfl
  have round : TagSplit.cycle pageInterp self (pageCaller texts) "x".toList
      ["x".toList] bound = ⟨last, out, .value ()⟩ := by
    rw [TagSplit.cycle, Prog.forEach_singleton]
    exact (Prog.bind_silent set _).trans ran
  have body : TagSplit.body pageInterp self (pageCaller texts) ",".toList
      ["x".toList] inside = ⟨last, out, .value ()⟩ := by
    unfold TagSplit.body
    rw [Prog.bind_silent named]
    refine (Prog.bind_silent added _).trans ?_
    exact (Prog.bind_silent ordered _).trans round
  rw [executeChilds_single _ _
    (show (callLoc texts).tag.childs = _ from rfl) rfl]
  change TagSplit.execute pageInterp self (pageCaller texts)
    (pageStart texts) = _
  unfold TagSplit.execute
  rw [Prog.bind_silent entry]
  refine (Prog.bind_silent source _).trans ?_
  refine (Prog.bind_eq (Prog.onError_eq body M.leave) _).trans ?_
  rw [M.leave_eq deep.layered]
  simp

end Page

/-- A text without braces is written as it is. -/
theorem expression_writes (outside : Outside W) (depth addr : Nat) {text : Str}
    (plain : text.all isPlainChar = true) (caller : Option Loc)
    (up : List Tag) (state : St W) :
    execute outside (depth + 1) ⟨.mk addr .expression [] [] text, up⟩ caller
      state = ⟨state, text, .value ()⟩ := by
  let template : Template := [.literal text plain]
  have ran := template_writes outside depth addr template caller up state
  have written : template.text = text := List.append_nil text
  have value : template.value state.contexts = text := List.append_nil text
  rw [written, value] at ran
  exact ran

section Sample

variable {texts : Block → Str}

theorem blockLoc_writes
    (plain : ∀ block, (texts block).all isPlainChar = true) (block : Block)
    (state : St Unit) :
    Writes Outside.plain 11 0 20 (pageUp texts) block (blockLoc texts block)
      state (texts block) := by
  refine ⟨_, ?_, fun _ _ => rfl, rfl⟩
  rw [executeChilds_single _ _
    (show (blockLoc texts block).tag.childs = _ from rfl) rfl]
  exact expression_writes Outside.plain 10 _ (plain block)
    (some (block.content 0 20 (pageUp texts))) _ _

theorem pageLibrary : Library 0 20 (pageUp texts) :=
  ⟨Nat.zero_le 20, rfl⟩

theorem callLoc_calls : Call (callLoc texts) (prologLoc 20 (pageUp texts)) :=
  ⟨⟨_, _, rfl⟩, rfl, rfl⟩

theorem blockLoc_calls (block : Block) :
    Call (blockLoc texts block) (block.loc 0 20 (pageUp texts)) := by
  cases block <;> exact ⟨⟨_, _, rfl⟩, rfl, rfl⟩

theorem pageNames : NamesRead Outside.plain.dcl := by
  refine ⟨rfl, ?_⟩
  intro name member
  revert name
  decide

/-- The page has a loop with one round, whose blocks write the texts. -/
theorem page_loops (plain : ∀ block, (texts block).all isPlainChar = true) :
    ∃ (round : Round Unit) (rest : M Unit Unit) (final : St Unit),
      Looping Outside.plain 21 0 20 (pageUp texts) (callLoc texts)
        (blockLoc texts) texts round rest 0 (St.fresh [Context.newLocal]) []
        final ∧
      round.left = [] ∧ round.right = "r".toList := by
  have single (block : Block) :
      Outside.plain.dcl.tokens block.var = [block.var] :=
    pageNames.single _ block.var_mem
  obtain ⟨below, start, enough⟩ : ∃ below,
      layerNames (roundStart texts) = some (["X".toList] :: below) ∧
        2 ≤ below.length := ⟨_, rfl, Nat.le_add_left 2 _⟩
  obtain ⟨passed, one, held, names⟩ := @Call.writes Unit Outside.plain 11 0 20
    (pageUp texts) .before (blockLoc texts .before) (pageCaller texts)
    (roundStart texts) _ pageLibrary (blockLoc_calls .before) _ start rfl rfl
    rfl (single .before) (blockLoc_writes plain .before _)
  have empty : Chain.lookup (Block.var .after) passed.contexts = some [] :=
    held _ (Block.var_mem .after)
  obtain ⟨ended, two, -, shape⟩ := @Call.writes Unit Outside.plain 11 0 20
    (pageUp texts) .after (blockLoc texts .after) (pageCaller texts)
    passed _ pageLibrary (blockLoc_calls .after) _ names empty rfl rfl
    (single .after) (blockLoc_writes plain .after _)
  have deep : Deep 3 ended := deep_iff.mpr ⟨_, shape, Nat.succ_le_succ enough⟩
  have wrote : roundMiddle texts passed = ⟨passed, "r".toList, .value ()⟩ :=
    expression_writes Outside.plain 19 _ rfl (pageCaller texts) _ _
  have layered : Deep 1 ended := deep.less (by decide)
  have left : M.leave ended = ⟨ended.dropLayer, [], .value ()⟩ :=
    M.leave_eq layered.layered
  have childs : pageInterp.executeChilds (loopLoc texts) (pageCaller texts)
      (roundStart texts) = ⟨ended, [] ++ ("r".toList ++ []), .value ()⟩ :=
    childs_around rfl rfl one wrote two
  have program := loop_once childs layered
  let round : Round Unit :=
    { first := roundFirst, middle := roundMiddle texts, depth := 11,
      caller := pageCaller texts, reached := roundStart texts, passed,
      came := passed, ended, left := [], right := "r".toList }
  have runs : round.Runs Outside.plain (blockLoc texts)
      ((Interp.ofRun Outside.plain 21 (execute Outside.plain 21)).executeChilds
        (callLoc texts) (pageCaller texts)) M.leave (pageStart texts) := by
    refine ⟨program.trans ?_, ⟨rfl, ?_, ?_⟩, ⟨_, one⟩,
      ⟨wrote, fun _ _ => rfl, ?_⟩, ⟨_, two⟩⟩
    · rw [Prog.bind_silent roundFirst_eq, Prog.bind_silent one,
        Prog.bind_eq wrote, Prog.bind_silent two, left]
      rfl
    · intro name member
      rcases List.mem_cons.mp member with rfl | later
      · rfl
      · rcases List.mem_pair.mp later with rfl | rfl <;> rfl
    · exact deep_iff.mpr ⟨_, start, Nat.succ_le_succ (Nat.le_of_succ_le enough)⟩
    · exact deep_iff.mpr ⟨_, names, Nat.succ_le_succ (Nat.le_of_succ_le enough)⟩
  have last : Aside M.leave ended ended.dropLayer [] := by
    refine ⟨left, fun name member => lookup_dropLayer shape ?_,
      deep.dropLayer⟩
    revert name
    decide
  exact ⟨round, M.leave, ended.dropLayer,
    ⟨runs, blockLoc_writes plain .before _, blockLoc_writes plain .after _,
      .last last⟩, rfl, rfl⟩

/-- The two blocks write different texts. -/
def apart : Block → Str
  | .before => "b".toList
  | .after => "a".toList

theorem apart_plain (block : Block) : (apart block).all isPlainChar = true := by
  cases block <;> rfl

/-- The two blocks write the same text. -/
def alike : Block → Str :=
  fun _ => "b".toList

/-- Blocks with the same output are written where they should be. -/
theorem prolog_same_blocks :
    ∃ last written, execute Outside.plain 26 (callLoc alike) none
        (St.fresh [Context.newLocal]) = ⟨last, written, .value ()⟩ ∧
      visible written = "brb".toList := by
  obtain ⟨round, rest, final, loop, left, right⟩ :=
    @page_loops alike fun _ => rfl
  have placed : Placed Outside.plain (visible (alike .before))
      (visible (round.left ++ (round.right ++ []))) (visible (alike .after)) :=
    ⟨"br".toList, 1, 1, by rw [left, right]; decide,
      by rw [left, right]; decide⟩
  obtain ⟨last, written, ran, same⟩ :=
    (@prolog_order_iff Unit Outside.plain 21 0 20 0 (pageUp alike)
      (callLoc alike) none (blockLoc alike) alike round rest
      (St.fresh [Context.newLocal]) final [] pageLibrary callLoc_calls
      blockLoc_calls rfl pageNames rfl (fun _ => List.cons_ne_nil _ _)
      (fun _ => rfl) loop).mpr placed
  refine ⟨last, written, ran, same.trans ?_⟩
  rw [left, right]
  decide

/-- The block `lib:after` is written in front of the loop and `lib:before`
behind it. -/
theorem prolog_swaps_blocks :
    (∃ (round : Round Unit) (rest : M Unit Unit) (final : St Unit),
      Looping Outside.plain 21 0 20 (pageUp apart) (callLoc apart)
        (blockLoc apart) apart round rest 0 (St.fresh [Context.newLocal]) []
        final ∧ round.left = [] ∧ round.right = "r".toList) ∧
      (∀ block, apart block ≠ [] ∧
        Outside.plain.dcl.fromStringDouble (apart block) = none) ∧
      (execute Outside.plain 26 (callLoc apart) none
        (St.fresh [Context.newLocal])).outcome = .value () ∧
      (execute Outside.plain 26 (callLoc apart) none
        (St.fresh [Context.newLocal])).out = " arb ".toList ∧
      visible " arb ".toList ≠ visible "bra".toList := by
  refine ⟨page_loops apart_plain, ?_, by decide +kernel, by decide +kernel,
    by decide⟩
  intro block
  cases block <;> exact ⟨List.cons_ne_nil _ _, rfl⟩

end Sample

end Prolog

end DbPager
