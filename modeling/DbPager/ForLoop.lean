import DbPager.Fragments
import DbPager.Operators

/-!
# The loop that counts

`lib:for` keeps its counter in a variable and hands the test to `lib:while`
as a parameter.  The parameter is evaluated once, and `dbp:set` does not look
at the `value` it is given, so a loop that starts never ends.
-/

namespace DbPager

open Effect

variable {W : Type}

namespace Operators

/-- The integers the numbers of the support library represent exactly. -/
structure Integers (dcl : Dcl) where
  number : Int → dcl.Double
  exact : Int → Prop
  le_iff : ∀ first second, exact first → exact second →
    (dcl.le (number first) (number second) = true ↔ first ≤ second)

/-- The text is read as the integer. -/
def Integers.Reads {dcl : Dcl} (integers : Integers dcl) (text : Str)
    (value : Int) : Prop :=
  dcl.fromStringDouble text = some (integers.number value)

section Test

open Evaluator

variable (outside : Outside W) (function : Str → Str → M W Str)

/-- The test of `lib:for` compares two numbers. -/
theorem calculate_atLeast {state : St W} {x y : outside.dcl.Double}
    (left : outside.dcl.fromStringDouble
      (Chain.getValue "to".toList state.contexts) = some x)
    (right : outside.dcl.fromStringDouble
      (Chain.getValue "count".toList state.contexts) = some y) :
    calculate outside function "$to >= $count".toList state =
      ⟨state, [], .value (truth (outside.dcl.le y x))⟩ := by
  have first : getToken outside
      (state, ⟨"$to >= $count".toList, outside.rawToken, [], []⟩) =
      ⟨(state, ⟨" >= $count".toList, .name, "to".toList, []⟩), [],
        .value ()⟩ := rfl
  have leftRan : operand outside function 15
      (state, ⟨" >= $count".toList, .name, "to".toList, []⟩) =
      ⟨(state, ⟨" $count".toList, .gtEq, [], []⟩), [],
        .value (Chain.getValue "to".toList state.contexts)⟩ := rfl
  have second : getToken outside
      (state, ⟨" $count".toList, .gtEq, [], []⟩) =
      ⟨(state, ⟨[], .name, "count".toList, []⟩), [], .value ()⟩ := rfl
  have rightRan : operand outside function 15
      (state, ⟨[], .name, "count".toList, []⟩) =
      ⟨(state, ⟨[], .end, [], []⟩), [],
        .value (Chain.getValue "count".toList state.contexts)⟩ := rfl
  have compared : compareWith outside (operand outside function 15)
      (Chain.getValue "to".toList state.contexts)
      (fun l r => outside.dcl.le r l) (fun l r => !decide (l < r))
      (state, ⟨" $count".toList, .gtEq, [], []⟩) =
      ⟨(state, ⟨[], .end, [], []⟩), [],
        .value (truth (outside.dcl.le y x))⟩ :=
    compareWith_returns second (operands_numbers rightRan left right)
  have whole : lexpr outside (operand outside function 15)
      (state, ⟨" >= $count".toList, .name, "to".toList, []⟩) =
      ⟨(state, ⟨[], .end, [], []⟩), [],
        .value (truth (outside.dcl.le y x))⟩ := by
    rw [lexpr_eq, Prog.bind_silent leftRan]
    exact compared
  have budget : "$to >= $count".toList.length + 2 = 15 := rfl
  unfold calculate
  simp only [budget]
  refine Prog.within_eq ⟨[], .end, [], []⟩ ?_
  rw [Prog.bind_silent first]
  exact whole

end Test

/-! ## The tags of `lib:for` -/

section Levels

variable {outside : Outside W} {depth n : Nat} {up : List Tag}
  {caller : Option Loc} {state : St W}

def forVarLoc (n : Nat) (up : List Tag) : Loc :=
  ⟨forVar n, forTag n :: up⟩

def forWhileLoc (n : Nat) (up : List Tag) : Loc :=
  (forVarLoc n up).child (forWhile n)

/-- The tokenizer leaves a single name alone. -/
def CountIsName (dcl : Dcl) : Prop :=
  dcl.tokens "count".toList = ["count".toList]

/-- The state in which the counter has its first value. -/
def counting (value : Str) (state : St W) : St W :=
  state.withLayer (oneVar "count".toList value)

theorem forVar_settle {value : Str} (single : CountIsName outside.dcl)
    (here : Layers.HeadLocal state) (chain : state.contexts ≠ [])
    (start : Chain.getValue "from".toList state.contexts = value)
    (calm : Calm 1 (execute outside depth (forWhileLoc n up) caller
      (counting value state))) :
    execute outside (depth + 1) (forVarLoc n up) caller state =
      settle St.dropLayer (execute outside depth (forWhileLoc n up) caller
        (counting value state)) := by
  let self := forVarLoc n up
  let interp := Interp.ofRun outside depth (execute outside depth)
  have named : interp.getParameter self "name" (state.withLayer ∅) =
      ⟨state.withLayer ∅, [], .value "count".toList⟩ :=
    evaluates_plain outside depth _ rfl _
  have typed : interp.getParameter self "type" (state.withLayer ∅) =
      ⟨state.withLayer ∅, [], .value []⟩ := rfl
  have valued : interp.getParameter self "value" (state.withLayer ∅) =
      ⟨state.withLayer ∅, [], .value value⟩ :=
    evaluates_outer outside depth chain start rfl _
  have added := addTyped_withLayer outside.dcl "count".toList value ∅ here
  have content := executeChilds_single interp caller
    (show self.tag.childs = [forWhile n] from rfl) rfl
  have declared : (do
      let type ← interp.getParameter self "type"
      let value ← interp.getParameter self "value"
      M.addTyped outside.dcl "count".toList value
        (if type.isEmpty then Context.localType else type))
      (state.withLayer ∅) =
      ⟨counting value state, [], .value ()⟩ := by
    rw [Prog.bind_silent typed, Prog.bind_silent valued]
    exact added
  have body : (do
      let names ← interp.getParameter self "name"
      Prog.forEach (fun name => do
          let type ← interp.getParameter self "type"
          let value ← interp.getParameter self "value"
          M.addTyped outside.dcl name value
            (if type.isEmpty then Context.localType else type))
        (outside.dcl.tokens names)
      interp.executeChilds self caller) (state.withLayer ∅) =
      execute outside depth (forWhileLoc n up) caller
        (counting value state) := by
    rw [Prog.bind_silent named, single, Prog.forEach_singleton,
      Prog.bind_silent declared, content]
    rfl
  rw [← body] at calm ⊢
  exact withLayer_settle calm

/-- `tag_set` assigns its content, which is empty here. -/
theorem forSet_returns {self : Loc} (tag : self.tag = forSet n)
    (single : CountIsName outside.dcl)
    (bound : Bound state.contexts "count".toList) :
    ∃ changed, Chain.setValue "count".toList [] state.contexts =
        some changed ∧
      execute outside (depth + 1) self caller state =
        ⟨{ state with contexts := changed }, [], .value ()⟩ := by
  obtain ⟨changed, assigned⟩ := Chain.setValue_of_bound bound []
  obtain ⟨_, up⟩ := self
  subst tag
  exact ⟨changed, assigned, set_returns rfl
    (evaluates_plain outside depth _ rfl _) single assigned⟩

theorem Library.for_while (library : Library n up) :
    TestCall (forWhileLoc n up) ⟨whileTag n, up⟩
      "\x7b$to >= $count\x7d".toList := by
  have found : findAddr (n + 5) (forVar n :: forTag n :: up) =
      some ⟨whileTag n, up⟩ := by
    rw [findAddr_above, findAddr_above, library.loop]
    · simp [forTag, forVar, Tag.childs, Tag.addr]
    · simp [forVar, forWhile, Tag.childs, Tag.addr]
  exact ⟨⟨whileName, some (n + 5), rfl⟩, target_linked rfl found, rfl⟩

/-- The variables a call of `lib:for` has bound when its counter gets its
first value. -/
structure Started (integers : Integers outside.dcl) (start stop : Int)
    (state : St W) : Prop where
  chain : state.contexts ≠ []
  count : integers.Reads (Chain.getValue "count".toList state.contexts) start
  stop : integers.Reads (Chain.getValue "to".toList state.contexts) stop

theorem Started.test {integers : Integers outside.dcl} {start stop : Int}
    (started : Started integers start stop state)
    (exactStart : integers.exact start) (exactStop : integers.exact stop)
    (depth : Nat) :
    Function.Evaluates outside depth (state.withLayer ∅)
      "\x7b$to >= $count\x7d".toList
      (Evaluator.truth (decide (start ≤ stop))) := by
  intro scope
  have seen (name : Str) : Chain.getValue name (state.withLayer ∅).contexts =
      Chain.getValue name state.contexts :=
    Chain.getValue_withLayer name ∅ started.chain
  have compared := calculate_atLeast outside
    (Evaluator.executeFunction outside (execute outside depth) scope)
    ((congrArg _ (seen _)).trans started.stop)
    ((congrArg _ (seen _)).trans started.count)
  have same : outside.dcl.le (integers.number start) (integers.number stop) =
      decide (start ≤ stop) := by
    rw [Bool.eq_iff_iff, decide_eq_true_iff]
    exact integers.le_iff start stop exactStart exactStop
  have text : '\x7b' :: "$to >= $count".toList ++ ['\x7d'] =
      "\x7b$to >= $count\x7d".toList := by decide
  have ran := evaluate_group outside _ (by decide) compared
  rw [same, text] at ran
  exact ran

/-- Where the definition executes the content of a call. -/
def forContent (n : Nat) (up : List Tag) : Loc :=
  (forWhileLoc n up).child (executeTag (n + 12))

/-- The first round with a call that has no content: the counter is set to
nothing. -/
theorem forWhile_childs {call : Loc} {calls : List Loc}
    (single : CountIsName outside.dcl) (top : state.exec = call :: calls)
    (childs : call.tag.childs = []) (text : call.tag.text = [])
    (bound : Bound state.contexts "count".toList) (depth : Nat) :
    Halts ((Interp.ofRun outside depth (execute outside depth)).executeChilds
      (forWhileLoc n up) caller state) ∨
    ∃ middle, (Interp.ofRun outside depth
        (execute outside depth)).executeChilds (forWhileLoc n up) caller state =
        ⟨middle, [], .value ()⟩ ∧
      SetTo [] ["count".toList] state.contexts middle.contexts := by
  cases depth with
  | zero => exact .inl (childs_halt rfl (.inl rfl))
  | succ less =>
      right
      have nothing (state : St W) : (Interp.ofRun outside less
          (execute outside less)).executeChilds call
          (some (forContent n up)) state = ⟨state, [], .value ()⟩ := by
        unfold Interp.executeChilds
        rw [childs, text]
        rfl
      have executed : execute outside (less + 1) (forContent n up) caller
          state = _ := execute_returns top (nothing _)
      have same : Chain.lookup "count".toList
          (givenBack call (taken (forContent n up) call state)).contexts =
          Chain.lookup "count".toList state.contexts :=
        (lookup_givenBack _).trans (lookup_taken _ _)
      have still : Bound (givenBack call
          (taken (forContent n up) call state)).contexts "count".toList := by
        rw [Bound, same]
        exact bound
      obtain ⟨changed, assigned, ran⟩ := @forSet_returns W outside less n caller
        _ ((forWhileLoc n up).child (forSet n)) rfl single still
      have whole : (Interp.ofRun outside (less + 1)
          (execute outside (less + 1))).executeChilds (forWhileLoc n up) caller
          state = ⟨_, [] ++ [], .value ()⟩ :=
        childs_return rfl rfl executed ran
      refine ⟨_, whole, ?_⟩
      intro other
      rw [Chain.lookup_setValue assigned other, lookup_givenBack, lookup_taken]

/-- The first round of a call without content returns, and the test is still
`1`. -/
theorem for_round {call : Loc} {calls : List Loc}
    (single : CountIsName outside.dcl) (chain : state.contexts ≠ [])
    (top : state.exec = call :: calls) (childs : call.tag.childs = [])
    (text : call.tag.text = []) (bound : Bound state.contexts "count".toList) :
    RoundReturns outside n up (forWhileLoc n up) state := by
  intro depth caller
  have entered := @looping_whileEntered W (forWhileLoc n up) state n up chain
  have outer := @exec_whileEntered W (forWhileLoc n up) state n up chain
  cases depth with
  | zero => exact .inl rfl
  | succ less =>
      let content := (whileIfLoc n up).child (executeTag (n + 7))
      let inside := taken content (forWhileLoc n up)
        (whileEntered n up (forWhileLoc n up) state)
      have stands : inside.exec = call :: calls :=
        (exec_taken outer).trans top
      have counts : Bound inside.contexts "count".toList := by
        rw [Bound, lookup_taken, lookup_whileEntered chain (by decide)
          (by decide)]
        exact bound
      rcases @forWhile_childs W outside n up (some content) inside call calls
        single stands childs text counts less with halts | ⟨middle, ran, set⟩
      · exact .inl (execute_halts outer fun _ same => by
          cases same
          exact halts)
      · refine .inr ⟨_, _, execute_returns outer ran, Looping.givenBack ?_⟩
        have looping : Looping inside := entered.taken
        apply Looping.of_test
        rw [Chain.getValue, set, if_neg (by decide)]
        exact looping.test

end Levels

/-! ## Calls of `lib:for` -/

/-- A place in a script for calls of `lib:for`: their address, their
parameters, and the tags above them, which hold the call. -/
structure Site (n : Nat) where
  addr : Nat
  params : List (Str × Str)
  up : Tag → List Tag
  /-- The tags above the definitions. -/
  home : Tag → List Tag
  found : ∀ tag, findAddr (n + 9) (up tag) = some ⟨forTag n, home tag⟩
  library : ∀ tag, Library n (home tag)

namespace Site

variable {n : Nat} (site : Site n)

def tag (body : List Tag) (text : Str) : Tag :=
  .mk site.addr (.usr forName (some (n + 9))) site.params body text

/-- The call with the given content. -/
def call (body : List Tag) (text : Str) : Loc :=
  ⟨site.tag body text, site.up (site.tag body text)⟩

/-- The definition the call executes. -/
def definition (body : List Tag) (text : Str) : Loc :=
  ⟨forTag n, site.home (site.tag body text)⟩

theorem target (body : List Tag) (text : Str) :
    TagUsr.target (site.call body text) = some (site.definition body text) :=
  target_linked rfl (site.found _)

end Site

/-- With enough depth the content of the call ends like this. -/
def Returns (outside : Outside W) (call : Loc) (caller : Option Loc)
    (state final : St W) (out : Str) : Prop :=
  ∃ enough, ∀ depth, enough ≤ depth →
    (Interp.ofRun outside depth (execute outside depth)).executeChilds call
      caller state = ⟨final, out, .value ()⟩

/-- Wherever there is a counter, the content of the call returns and does not
assign it. -/
def KeepsCount (outside : Outside W) (call : Loc) : Prop :=
  ∀ caller state, Bound state.contexts "count".toList →
    ∃ final out, Returns outside call caller state final out ∧
      Chain.lookup "count".toList final.contexts =
        Chain.lookup "count".toList state.contexts

/-- The event that starts an execution of the call's content. -/
def startsContent (call : Loc) : Event → Bool
  | .render _ caller [] => caller.tag.addr == call.tag.addr
  | _ => false

/-- What a script has besides its variables and calls. -/
def store (state : St W) : St W :=
  { state with contexts := [], trace := [] }

/-- Nothing happens but changes of variables and of the stack of calls, and
the content is started so many times. -/
def Between (call : Loc) (times : Nat) (before after : St W) : Prop :=
  store after = store before ∧ ∃ events, after.trace = events ++ before.trace ∧
    events.countP (startsContent call) = times

/-- The content is executed once for every count, in this order. -/
inductive Iterated (outside : Outside W) (integers : Integers outside.dcl)
    (call : Loc) : List Int → St W → St W → Str → Prop
  | done {before final : St W} (rest : Between call 0 before final) :
      Iterated outside integers call [] before final []
  | round {count : Int} {counts : List Int} {caller : Option Loc}
      {before entered middle final : St W} {out more : Str}
      (starts : Between call 1 before entered)
      (counted : integers.Reads
        (Chain.getValue "count".toList entered.contexts) count)
      (returns : Returns outside call caller entered middle out)
      (later : Iterated outside integers call counts middle final more) :
      Iterated outside integers call (count :: counts) before final
        (out ++ more)

/-- The counts that are asked for. -/
def counts (start stop step : Int) : List Int :=
  (List.range ((stop - start) / step + 1).toNat).map fun (turn : Nat) =>
    start + turn * step

/-- The call terminates, and its content is executed for the counts that are
asked for. -/
def CountsThrough (outside : Outside W) (integers : Integers outside.dcl) (call : Loc)
    (caller : Option Loc) (state entered : St W) (start stop step : Int) :
    Prop :=
  ∃ enough, ∀ depth, enough ≤ depth → ∃ final out,
    execute outside depth call caller state = ⟨final, out, .value ()⟩ ∧
      Iterated outside integers call (counts start stop step) entered final out

/-- The parameters of the call are evaluated and bound to integers. -/
structure Asked (outside : Outside W) (integers : Integers outside.dcl)
    (call : Loc) (state entered : St W) (start stop step : Int) : Prop where
  binds : ∃ enough, ∀ depth, enough ≤ depth →
    bindArguments (Interp.ofRun outside depth (execute outside depth)) call
      call.tag.params (state.withLayer ∅) = ⟨entered, [], .value ()⟩
  here : Layers.HeadLocal entered
  deep : Deep 1 entered
  start : integers.Reads (Chain.getValue "from".toList entered.contexts) start
  stop : integers.Reads (Chain.getValue "to".toList entered.contexts) stop
  step : integers.Reads (Chain.getValue "step".toList entered.contexts) step

section Runs

variable {outside : Outside W} {integers : Integers outside.dcl} {n : Nat}
  {site : Site n} {body : List Tag} {text : Str} {caller : Option Loc}
  {state entered : St W} {start stop step : Int} {depth : Nat}

/-- The state in which the call asks for its first test. -/
def forStarted (site : Site n) (body : List Tag) (text : Str)
    (entered : St W) : St W :=
  counting (Chain.getValue "from".toList entered.contexts)
    (called (site.call body text) (site.definition body text) entered)

theorem Asked.chain {call : Loc}
    (asked : Asked outside integers call state entered start stop step) :
    entered.contexts ≠ [] := by
  obtain ⟨context, parents, whole, -⟩ := asked.deep
  rw [whole]
  exact List.cons_ne_nil _ _

theorem Asked.started
    (asked : Asked outside integers (site.call body text) state entered start
      stop step) :
    Started integers start stop (forStarted site body text entered) := by
  have chain := @called_chain W entered (site.call body text)
    (site.definition body text) asked.chain
  refine ⟨withLayer_chain _ chain, ?_, ?_⟩
  · rw [forStarted, counting, St.withLayer, getValue_oneVar chain]
    exact asked.start
  · have other : upName "to".toList ≠ upName "count".toList := by decide
    rw [forStarted, counting, St.withLayer, Chain.getValue,
      lookup_oneVar chain, if_neg other, lookup_called]
    exact asked.stop

/-- The call runs the loop of its definition. -/
theorem call_runs_loop (single : CountIsName outside.dcl)
    (asked : Asked outside integers (site.call body text) state entered start
      stop step)
    (binds : bindArguments (Interp.ofRun outside (depth + 2)
      (execute outside (depth + 2))) (site.call body text)
      (site.call body text).tag.params (state.withLayer ∅) =
        ⟨entered, [], .value ()⟩)
    (calm : Calm 2 (execute outside depth
      (forWhileLoc n (site.home (site.tag body text)))
      (some (site.call body text)) (forStarted site body text entered))) :
    execute outside (depth + 3) (site.call body text) caller state =
      settle (fun state => settled state.dropLayer)
        (execute outside depth
          (forWhileLoc n (site.home (site.tag body text)))
          (some (site.call body text)) (forStarted site body text entered)) := by
  let call := site.call body text
  let definition := site.definition body text
  let inside := called call definition entered
  have chain : inside.contexts ≠ [] := called_chain asked.chain
  have here : Layers.HeadLocal inside := headLocal_called asked.here
  have first : Chain.getValue "from".toList inside.contexts =
      Chain.getValue "from".toList entered.contexts :=
    congrArg (fun found => found.getD []) (lookup_called call definition _ _)
  have declared : execute outside (depth + 1)
      (forVarLoc n (site.home (site.tag body text))) (some call) inside = _ :=
    forVar_settle single here chain first (calm.less (Nat.le_succ 1))
  have defined : execute outside (depth + 2) definition (some call) =
      execute outside (depth + 1)
        (forVarLoc n (site.home (site.tag body text))) (some call) :=
    definition_eq rfl rfl rfl rfl
  have inner : Calm 1 (execute outside (depth + 2) definition (some call)
      inside) := by
    rw [defined, declared]
    exact calm.settle fun _ deep => deep.dropLayer
  have run := @call_settle W outside (depth + 2) call definition caller state
    entered forName (some (n + 9)) rfl (site.target body text) binds inner
  rw [run, defined, declared, settle_settle]
  rfl

theorem counts_of_lt (positive : 1 ≤ step) (less : stop < start) :
    counts start stop step = [] := by
  have negative : (stop - start) / step < 0 :=
    Int.ediv_neg_of_neg_of_pos (by omega) (by omega)
  have none : ((stop - start) / step + 1).toNat = 0 := by omega
  rw [counts, none]
  rfl

/-- A loop that asks for no execution returns at once. -/
theorem Asked.counts_nothing (single : CountIsName outside.dcl)
    (exactStart : integers.exact start) (exactStop : integers.exact stop)
    (positive : 1 ≤ step) (less : stop < start)
    (asked : Asked outside integers (site.call body text) state entered start
      stop step) :
    CountsThrough outside integers (site.call body text) caller state entered start
      stop step := by
  obtain ⟨enough, binds⟩ := asked.binds
  let call := site.call body text
  let up := site.home (site.tag body text)
  let before := forStarted site body text entered
  refine ⟨enough + 9, fun depth deep => ?_⟩
  obtain ⟨rest, rfl⟩ : ∃ rest, depth = rest + 9 := ⟨depth - 9, by omega⟩
  have test := asked.started.test exactStart exactStop (rest + 5)
  have skips : execute outside (rest + 6) (forWhileLoc n up) (some call)
      before = ⟨passed n up (forWhileLoc n up) before, [], .value ()⟩ :=
    while_skips (site.library _) (site.library _).for_while asked.started.chain
      test (by simp [Evaluator.truth, Int.not_le.mpr less])
  have layers : Deep 2 before :=
    Deep.withLayer (Deep.mapHead (fun _ => rfl) asked.deep)
  have run := @call_runs_loop W outside integers n site body text caller state
    entered start stop step (rest + 6) single asked
    (binds (rest + 8) (by omega)) (calm_of_eq skips layers)
  refine ⟨_, _, run.trans (settle_eq skips), ?_⟩
  rw [counts_of_lt positive less]
  refine .done ⟨rfl, ?_⟩
  exact ⟨[.ret, .ret, .ret, .call (whileIfLoc n up) ⟨ifTag n, up⟩,
    .call (forWhileLoc n up) ⟨whileTag n, up⟩,
    .call call (site.definition body text)], rfl, rfl⟩

/-- A loop that starts does not end. -/
theorem Asked.never_ends (single : CountIsName outside.dcl)
    (exactStart : integers.exact start) (exactStop : integers.exact stop)
    (more : start ≤ stop)
    (asked : Asked outside integers (site.call [] []) state entered start stop
      step) :
    ∃ enough, ∀ depth, enough ≤ depth →
      Halts (execute outside depth (site.call [] []) caller state) := by
  obtain ⟨enough, binds⟩ := asked.binds
  let call := site.call [] []
  let up := site.home (site.tag [] [])
  let before := forStarted site [] [] entered
  refine ⟨enough + 3, fun depth deep => ?_⟩
  obtain ⟨rest, rfl⟩ : ∃ rest, depth = rest + 3 := ⟨depth - 3, by omega⟩
  have library := site.library (site.tag [] [])
  have bound : Bound (forStarted site [] [] entered).contexts
      "count".toList := by
    have chain := @called_chain W entered call (site.definition [] [])
      asked.chain
    rw [Bound, forStarted, counting, St.withLayer, lookup_oneVar chain]
    rfl
  have top : before.exec = call :: entered.exec :=
    (exec_withLayer _ _).trans (exec_push call asked.chain)
  have test (depth : Nat) : Function.Evaluates outside depth
      (before.withLayer ∅) "\x7b$to >= $count\x7d".toList "1".toList := by
    have test := asked.started.test exactStart exactStop depth
    rwa [decide_eq_true more] at test
  have loops : Halts (execute outside rest (forWhileLoc n up) (some call)
      before) :=
    while_round library (while_never_ends library rest) library.for_while
      asked.started.chain test
      (for_round single asked.started.chain top rfl rfl bound) rest
      (Nat.lt_succ_self rest)
  have run := @call_runs_loop W outside integers n site [] [] caller state
    entered start stop step rest single asked (binds (rest + 2) (by omega))
    loops.calm
  rw [run]
  exact loops.settle

/-- A call without content. -/
theorem keepsCount_empty : KeepsCount outside (site.call [] []) := by
  intro caller state _
  exact ⟨state, [], ⟨0, fun _ _ => rfl⟩, rfl⟩

/-- `lib:for` terminates and executes every content that does not assign the
counter for the counts that are asked for exactly when none is asked for:
the start is greater than the stop. -/
theorem counts_through_iff (integers : Integers outside.dcl) (site : Site n)
    (caller : Option Loc) (state : St W) (entered : Loc → St W)
    (start stop step : Int) (positive : 1 ≤ step)
    (single : CountIsName outside.dcl) (exactStart : integers.exact start)
    (exactStop : integers.exact stop)
    (asked : ∀ body text, Asked outside integers (site.call body text) state
      (entered (site.call body text)) start stop step) :
    (∀ body text, KeepsCount outside (site.call body text) →
      CountsThrough outside integers (site.call body text) caller state
        (entered (site.call body text)) start stop step) ↔ stop < start := by
  constructor
  · intro counts
    by_contra more
    obtain ⟨enough, returns⟩ := counts [] [] keepsCount_empty
    have endless : ∃ least, ∀ depth, least ≤ depth →
        Halts (execute outside depth (site.call [] []) caller state) :=
      (asked [] []).never_ends single exactStart exactStop
        (Int.not_lt.mp more)
    obtain ⟨least, halts⟩ := endless
    obtain ⟨final, out, ran, -⟩ := returns (enough + least) (by omega)
    have stuck := halts (enough + least) (by omega)
    rw [Halts, ran] at stuck
    cases stuck
  · intro less body text _
    exact (asked body text).counts_nothing single exactStart exactStop positive
      less

end Runs

/-! ## A page -/

/-- A page that includes the library and holds the call. -/
def countingPage (call : Tag) : Tag :=
  .mk 0 .module [] [ifTag 0, whileTag 0, forTag 0, call] []

/-- `<lib:for from="..." to="1" step="1">`. -/
def countingSite (start : String) : Site 0 where
  addr := 20
  params := [("from".toList, start.toList), ("to".toList, "1".toList),
    ("step".toList, "1".toList)]
  up tag := [countingPage tag]
  home tag := [countingPage tag]
  found _ := rfl
  library _ := ⟨rfl, rfl⟩

/-- Parameters without braces are bound as they are written. -/
theorem bindArguments_plain (outside : Outside W) (depth : Nat) (self : Loc)
    {state : St W} (chain : state.contexts ≠ []) {params : List (Str × Str)}
    (plain : ∀ param ∈ params, param.2.all isPlainChar = true) (layer : Vars) :
    bindArguments (Interp.ofRun outside depth (execute outside depth)) self
        params (state.withLayer layer) =
      ⟨state.withLayer (TagSplit.bindAll layer params), [], .value ()⟩ := by
  induction params generalizing layer with
  | nil => rfl
  | cons param params induction =>
      obtain ⟨name, text⟩ := param
      have ran : (Interp.ofRun outside depth
          (execute outside depth)).executeParam self text
          (state.withLayer layer) =
          ⟨state.withLayer layer, [], .value text⟩ :=
        evaluates_plain outside depth _
          (plain (name, text) List.mem_cons_self) _
      have added := M.addValue_withLayer outside.dcl name text layer chain
        (show (state.withLayer layer).contexts = _ from rfl)
      have turn := (Prog.bind_silent ran (M.addValue outside.dcl name)).trans
        added
      have rest := induction (fun param member =>
        plain param (List.mem_cons_of_mem _ member))
        (layer.insert (upName name) text)
      unfold bindArguments Prog.forEach
      exact (Prog.bind_silent turn _).trans rest

/-- The state with the parameters in the layer of the call. -/
def countingState (start : String) : St Unit :=
  (St.fresh [Context.newLocal]).withLayer
    (TagSplit.bindAll ∅ (countingSite start).params)

def plainIntegers : Integers Outside.plain.dcl where
  number value := value
  exact _ := True
  le_iff first second _ _ := @decide_eq_true_iff (first ≤ second) _

theorem countingSite_asked (start : String) (value : Int)
    (plain : start.toList.all isPlainChar = true)
    (reads : plainIntegers.Reads start.toList value) (body : List Tag)
    (text : Str) :
    Asked Outside.plain plainIntegers ((countingSite start).call body text)
      (St.fresh [Context.newLocal]) (countingState start) value 1 1 where
  binds := by
    refine ⟨0, fun depth _ => bindArguments_plain _ depth _ ?_ ?_ ∅⟩
    · exact List.cons_ne_nil _ _
    · intro param member
      rcases List.mem_cons.mp member with rfl | later
      · exact plain
      · rcases List.mem_pair.mp later with rfl | rfl <;> rfl
  here := rfl
  deep := ⟨_, _, rfl, Nat.le_add_left 1 _⟩
  start := reads
  stop := rfl
  step := rfl

/-- From two to one nothing is executed, and the call returns. -/
theorem counts_backwards :
    CountsThrough Outside.plain plainIntegers ((countingSite "2").call [] []) none
      (St.fresh [Context.newLocal]) (countingState "2") 2 1 1 :=
  (counts_through_iff plainIntegers (countingSite "2") none
    (St.fresh [Context.newLocal]) (fun _ => countingState "2") 2 1 1
    (by decide) rfl trivial trivial
    (countingSite_asked "2" 2 rfl rfl)).mpr (by decide) [] []
      keepsCount_empty

/-- From one to one the content is asked for once, and the call does not
return. -/
theorem counting_never_ends :
    counts 1 1 1 = [1] ∧
      KeepsCount Outside.plain ((countingSite "1").call [] []) ∧
      ¬ CountsThrough Outside.plain plainIntegers ((countingSite "1").call [] []) none
        (St.fresh [Context.newLocal]) (countingState "1") 1 1 1 := by
  refine ⟨rfl, keepsCount_empty, ?_⟩
  rintro ⟨enough, returns⟩
  have endless : ∃ least, ∀ depth, least ≤ depth →
      Halts (execute Outside.plain depth ((countingSite "1").call [] []) none
        (St.fresh [Context.newLocal])) :=
    (countingSite_asked "1" 1 rfl rfl [] []).never_ends rfl trivial trivial
      (by decide)
  obtain ⟨least, halts⟩ := endless
  obtain ⟨final, out, ran, -⟩ := returns (enough + least) (by omega)
  have stuck := halts (enough + least) (by omega)
  rw [Halts, ran] at stuck
  cases stuck

end Operators

end DbPager
