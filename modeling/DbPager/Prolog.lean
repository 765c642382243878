import DbPager.Operators

/-!
# The tags around a loop

`prolog.dbpx` defines `lib:prolog`, which writes what the blocks `lib:before`
and `lib:after` in a loop have written, around the output of the loop.  The
blocks keep their output in two variables, and the loop is executed into a
third one.
-/

namespace DbPager

open Effect

variable {W : Type}

namespace Prolog

open Operators

/-- The two blocks. -/
inductive Block where
  | before
  | after
  deriving DecidableEq

namespace Block

def tagName : Block → Str
  | before => "before".toList
  | after => "after".toList

/-- The variable that keeps the output of the block. -/
def var : Block → Str
  | before => "after".toList
  | after => "before".toList

def xmlName : Block → XmlName
  | before => @Operators.xmlName 'b' "efore".toList (Char.ne_of_val_ne nofun)
  | after => @Operators.xmlName 'a' "fter".toList (Char.ne_of_val_ne nofun)

/-- The expression that asks whether the variable is still empty. -/
def expression : Block → String
  | before => "$after = ''"
  | after => "$before = ''"

def test : Block → String
  | before => "\x7b$after = ''\x7d"
  | after => "\x7b$before = ''\x7d"

end Block

def prologName : XmlName :=
  @xmlName 'p' "rolog".toList (Char.ne_of_val_ne nofun)

section Tags

-- The numbers of tags that were read before those of `operators.dbpx` and
-- before those of `prolog.dbpx`.
variable (n m : Nat)

def prologSet : Tag :=
  .mk (m + 3) .set [("name".toList, "rslt".toList)] [executeTag (m + 4)] []

def prologText : Tag :=
  .mk (m + 5) .expression [] [] " \x7b$before\x7d\x7b$rslt\x7d\x7b$after\x7d ".toList

def prologVar : Tag :=
  .mk (m + 2) .var
    [("name".toList, "before,after,rslt".toList), ("value".toList, [])]
    [prologSet m, prologText m] []

/-- `@prolog`. -/
def prologTag : Tag :=
  .mk (m + 1) (.tag (some "prolog".toList))
    [("name".toList, "prolog".toList)] [prologVar m] []

namespace Block

/-- The number of tags that were read before the definition of the block. -/
def start : Block → Nat
  | before => m + 5
  | after => m + 9

variable (block : Block)

def setTag : Tag :=
  .mk (block.start m + 3) .set [("name".toList, block.var)]
    [executeTag (block.start m + 4)] []

def ifTag : Tag :=
  .mk (block.start m + 2) (.usr ifName (some (n + 1)))
    (testParam block.test) [block.setTag m] []

/-- `@before` and `@after`. -/
def definition : Tag :=
  .mk (block.start m + 1) (.tag (some block.tagName))
    [("name".toList, block.tagName)] [block.ifTag n m] []

end Block

/-- `@before`. -/
def beforeTag : Tag :=
  Block.before.definition n m

/-- `@after`. -/
def afterTag : Tag :=
  Block.after.definition n m

end Tags

section Test

open Evaluator

variable (outside : Outside W) (function : Str → Str → M W Str)

/-- The comparison with the empty text.  If C++ computes the right operand
first, it is gone when the strings are compared, and the text is compared
with `1` instead. -/
def saysEmpty (outside : Outside W) (text : Str) : Bool :=
  if outside.leftFirst then text == [] else text == "1".toList

/-- The comparison from its second token on. -/
theorem compare_empty {state : St W} {text : Str} (budget : Nat)
    (unread : outside.dcl.fromStringDouble text = none) :
    compareWith outside (operand outside function (budget + 1)) text
        outside.dcl.eq (fun l r => l == r)
        (state, ⟨" ''".toList, .eq, [], []⟩) =
      ⟨(state, ⟨[], .end, [], []⟩), [],
        .value (truth (saysEmpty outside text))⟩ := by
  have read : getToken outside (state, ⟨" ''".toList, .eq, [], []⟩) =
      ⟨(state, ⟨[], .number, [], []⟩), [], .value ()⟩ := rfl
  have right : operand outside function (budget + 1)
      (state, ⟨[], .number, [], []⟩) =
      ⟨(state, ⟨[], .end, [], []⟩), [], .value []⟩ := rfl
  unfold saysEmpty
  cases first : outside.leftFirst with
  | true =>
      have failed := operands_left (operand outside function (budget + 1))
        first unread (state, ⟨[], .number, [], []⟩)
      rw [compareWith_recomputed read failed, Prog.bind_silent right]
      rfl
  | false =>
      obtain ⟨exception, failed⟩ := operands_late right (.inl unread)
        (fun early => absurd early (by rw [first]; exact Bool.false_ne_true))
      have again := operand_end outside function budget
        (show (state, (⟨[], .end, [], []⟩ : Lexer)).2.type = .end from rfl)
      rw [compareWith_recomputed read failed, Prog.bind_silent again]
      rfl

theorem Block.calculate_test (block : Block) {state : St W} {text : Str}
    (held : Chain.getValue block.var state.contexts = text)
    (unread : outside.dcl.fromStringDouble text = none) :
    calculate outside function block.expression.toList state =
      ⟨state, [], .value (truth (saysEmpty outside text))⟩ := by
  obtain ⟨budget, enough⟩ : ∃ budget,
      block.expression.toList.length + 2 = budget + 1 := ⟨_, rfl⟩
  have first : getToken outside
      (state, ⟨block.expression.toList, outside.rawToken, [], []⟩) =
      ⟨(state, ⟨" = ''".toList, .name, block.var, []⟩), [], .value ()⟩ := by
    cases block <;> rfl
  have left : operand outside function (budget + 1)
      (state, ⟨" = ''".toList, .name, block.var, []⟩) =
      ⟨(state, ⟨" ''".toList, .eq, [], []⟩), [], .value text⟩ := by
    rw [← held]
    rfl
  have compared : lexpr outside (operand outside function (budget + 1))
      (state, ⟨" = ''".toList, .name, block.var, []⟩) =
      ⟨(state, ⟨[], .end, [], []⟩), [],
        .value (truth (saysEmpty outside text))⟩ := by
    rw [lexpr_eq, Prog.bind_silent left]
    exact compare_empty outside function budget unread
  unfold calculate
  simp only [enough]
  refine Prog.within_eq ⟨[], .end, [], []⟩ ?_
  rw [Prog.bind_silent first]
  exact compared

end Test

section Layers

variable {state : St W}

/-- The names bound in the layers of the context at hand. -/
def layerNames (state : St W) : Option (List (List Str)) :=
  state.contexts.head?.map fun context => context.stack.map AList.keys

theorem layerNames_mapHead {change : Context → Context}
    (same : ∀ context, (change context).stack = context.stack)
    (state : St W) : layerNames (state.mapHead change) = layerNames state := by
  rcases state with ⟨contexts, vectors, maps, nextAddr, world, trace⟩
  cases contexts with
  | nil => rfl
  | cons context parents => simp [layerNames, St.mapHead, same]

theorem layerNames_withLayer (layer : Vars) (state : St W) :
    layerNames (state.withLayer layer) =
      (layerNames state).map fun names => layer.keys :: names := by
  rcases state with ⟨contexts, vectors, maps, nextAddr, world, trace⟩
  cases contexts <;> rfl

theorem layerNames_dropLayer (state : St W) :
    layerNames state.dropLayer = (layerNames state).map List.tail := by
  rcases state with ⟨contexts, vectors, maps, nextAddr, world, trace⟩
  cases contexts with
  | nil => rfl
  | cons context parents =>
      simp [layerNames, St.dropLayer, St.mapHead, Context.dropLayer]

theorem layerNames_setValue {name value : Str} {changed : List Context}
    (assigned : Chain.setValue name value state.contexts = some changed) :
    layerNames { state with contexts := changed } = layerNames state := by
  have same := Layers.setValue_names assigned
  rcases state with ⟨contexts, vectors, maps, nextAddr, world, trace⟩
  cases same with
  | nil => rfl
  | cons here below => exact congrArg some here.names

theorem deep_iff {count : Nat} :
    Deep count state ↔
      ∃ names, layerNames state = some names ∧ count ≤ names.length := by
  rcases state with ⟨contexts, vectors, maps, nextAddr, world, trace⟩
  cases contexts with
  | nil => simp [Deep, layerNames]
  | cons context parents => simp [Deep, layerNames]

/-- A layer that does not bind the name does not matter to it. -/
theorem lookup_dropLayer {keys : List Str} {rest : List (List Str)} {name : Str}
    (names : layerNames state = some (keys :: rest))
    (absent : upName name ∉ keys) :
    Chain.lookup name state.dropLayer.contexts =
      Chain.lookup name state.contexts := by
  rcases state with ⟨contexts, vectors, maps, nextAddr, world, trace⟩
  cases contexts with
  | nil => rfl
  | cons context parents =>
      rcases context with ⟨type, stack, exec, services⟩
      cases stack with
      | nil => cases names
      | cons layer layers =>
          have same : layer.keys = keys :=
            (List.cons.inj (Option.some.inj names)).1
          have missing : layer.lookup (upName name) = none := by
            rw [AList.lookup_eq_none, AList.mem_keys, same]
            exact absent
          simp [St.dropLayer, St.mapHead, Context.dropLayer, Chain.lookup,
            findVar, missing]

end Layers

/-! ## The blocks -/

/-- A call without parameters. -/
structure Call (call definition : Loc) : Prop where
  usr : ∃ name link, call.tag.kind = .usr name link
  target : TagUsr.target call = some definition
  params : call.tag.params = []

theorem Call.isUsr {call definition : Loc} (calls : Call call definition) :
    call.tag.kind.isUsr = true := by
  obtain ⟨name, link, kind⟩ := calls.usr
  rw [kind]
  rfl

/-- The variables of `lib:prolog`. -/
def outputs : List Str :=
  ["before".toList, "after".toList, "rslt".toList]

theorem Block.var_mem (block : Block) : block.var ∈ outputs := by
  cases block <;> decide

namespace Block

variable (n m : Nat) (up : List Tag) (block : Block)

def loc : Loc :=
  ⟨block.definition n m, up⟩

def ifLoc : Loc :=
  (block.loc n m up).child (block.ifTag n m)

def setLoc : Loc :=
  (block.ifLoc n m up).child (block.setTag m)

/-- Where the definition executes the content of a call. -/
def content : Loc :=
  (block.setLoc n m up).child (executeTag (block.start m + 4))

/-- The state in which the test of the block is asked. -/
def entered (call : Loc) (state : St W) : St W :=
  called call (block.loc n m up) (state.withLayer ∅)

/-- The state in which the content of the block is executed. -/
def started (call : Loc) (state : St W) : St W :=
  taken (block.content n m up) call
    (ifEntered n up (block.ifLoc n m up) (block.entered n m up call state))

end Block

section Runs

variable {outside : Outside W} {depth n m : Nat} {up : List Tag}
  {block : Block} {call : Loc} {caller : Option Loc} {state : St W}
  {text : Str}

/-- The programs between the blocks leave the variables of `lib:prolog`
alone. -/
def Keeps (before after : St W) : Prop :=
  ∀ name ∈ outputs, Chain.lookup name after.contexts =
    Chain.lookup name before.contexts

/-- The content of the block returns with this text, when the block is called
in this state. -/
def Writes (outside : Outside W) (depth n m : Nat) (up : List Tag)
    (block : Block) (call : Loc) (state : St W) (text : Str) : Prop :=
  ∃ final, (Interp.ofRun outside depth (execute outside depth)).executeChilds
      call (some (block.content n m up)) (block.started n m up call state) =
      ⟨final, text, .value ()⟩ ∧
    Keeps (block.started n m up call state) final ∧
    layerNames final = layerNames (block.started n m up call state)

theorem entered_chain (chain : state.contexts ≠ []) :
    (block.entered n m up call state).contexts ≠ [] :=
  called_chain (withLayer_chain _ chain)

theorem lookup_entered (chain : state.contexts ≠ []) (name : Str) :
    Chain.lookup name (block.entered n m up call state).contexts =
      Chain.lookup name state.contexts := by
  rw [Block.entered, lookup_called, St.withLayer,
    Chain.lookup_withLayer name ∅ chain]
  rfl

theorem exec_entered (chain : state.contexts ≠ []) :
    (block.entered n m up call state).exec = call :: state.exec := by
  have pushed := @exec_push W ((state.withLayer ∅).record
    (.call call (block.loc n m up))) call (withLayer_chain ∅ chain)
  exact pushed.trans (congrArg _ (exec_withLayer _ _))

theorem keeps_started (chain : state.contexts ≠ []) :
    Keeps state (block.started n m up call state) := by
  intro name member
  have other : upName name ≠ upName "test".toList ∧
      upName name ≠ upName switchVar := by
    revert name
    decide
  have inside : (block.entered n m up call state).contexts ≠ [] :=
    entered_chain chain
  rw [Block.started, lookup_taken, lookup_ifEntered inside other.1 other.2,
    lookup_entered chain]

theorem keys_oneVar (name value : Str) :
    (oneVar name value).keys = [upName name] := by
  simp [oneVar]

theorem layerNames_taken (self : Loc) (state : St W) :
    layerNames (taken self call state) = layerNames state :=
  @layerNames_mapHead W Context.popCall (fun _ => rfl)
    (state.record (.reached self state.exec))

theorem layerNames_called (definition : Loc) (state : St W) :
    layerNames (called call definition state) = layerNames state :=
  @layerNames_mapHead W (Context.push call) (fun _ => rfl)
    (state.record (.call call definition))

theorem layerNames_givenBack (state : St W) :
    layerNames (givenBack call state) = layerNames state :=
  @layerNames_mapHead W (Context.push call) (fun _ => rfl) state

theorem layerNames_returned (state : St W) :
    layerNames (returned state) = layerNames state :=
  @layerNames_mapHead W Context.popCall (fun _ => rfl) state

theorem lookup_returned (name : Str) (state : St W) :
    Chain.lookup name (returned state).contexts =
      Chain.lookup name state.contexts :=
  @lookup_mapHead W Context.popCall (fun _ => rfl) name state

/-- The layers the content of a block sees on top of those of the loop. -/
def blockNames : List (List Str) :=
  [[upName switchVar], [upName "test".toList], []]

theorem layerNames_started {names : List (List Str)}
    (before : layerNames state = some names) :
    layerNames (block.started n m up call state) =
      some (blockNames ++ names) := by
  rw [Block.started, layerNames_taken, ifEntered, layerNames_taken, switched,
    layerNames_withLayer, tested, layerNames_called, layerNames_withLayer,
    Block.entered, layerNames_called, layerNames_withLayer, before,
    keys_oneVar, keys_oneVar]
  rfl

/-- The state at the end of a block: its layers are left one by one. -/
def blockLeft (ifLoc : Loc) (state : St W) : St W :=
  settled (ifLeft ifLoc state)

theorem layerNames_blockLeft {ifLoc : Loc} {names : List (List Str)}
    (before : layerNames state = some (blockNames ++ names)) :
    layerNames (blockLeft ifLoc state) = some names := by
  rw [blockLeft, ifLeft, settled, settled, layerNames_dropLayer,
    layerNames_returned, layerNames_dropLayer, layerNames_returned,
    layerNames_dropLayer, layerNames_givenBack, before]
  rfl

theorem keeps_blockLeft {ifLoc : Loc} {names : List (List Str)}
    (before : layerNames state = some (blockNames ++ names)) :
    Keeps state (blockLeft ifLoc state) := by
  intro name member
  have absent : ∀ keys ∈ blockNames, upName name ∉ keys := by
    revert name
    decide
  let first := givenBack ifLoc state
  let second := returned first.dropLayer
  let third := returned second.dropLayer
  have one : layerNames first = some (blockNames ++ names) :=
    (layerNames_givenBack state).trans before
  have two : layerNames second = some (blockNames.tail ++ names) := by
    rw [layerNames_returned, layerNames_dropLayer, one]
    rfl
  have three : layerNames third = some (blockNames.tail.tail ++ names) := by
    rw [layerNames_returned, layerNames_dropLayer, two]
    rfl
  calc
    Chain.lookup name third.dropLayer.contexts =
        Chain.lookup name third.contexts :=
      lookup_dropLayer three (absent _ (by decide))
    _ = Chain.lookup name second.dropLayer.contexts := lookup_returned _ _
    _ = Chain.lookup name second.contexts :=
      lookup_dropLayer two (absent _ (by decide))
    _ = Chain.lookup name first.dropLayer.contexts := lookup_returned _ _
    _ = Chain.lookup name first.contexts :=
      lookup_dropLayer one (absent _ (by decide))
    _ = Chain.lookup name state.contexts := lookup_givenBack name

/-- The tags of `prolog.dbpx` were read after those of `operators.dbpx`, and
the definition of `lib:if` is found from their parent on. -/
structure Library (n m : Nat) (up : List Tag) : Prop where
  order : n ≤ m
  conditional : findAddr (n + 1) up = some ⟨Operators.ifTag n, up⟩

theorem Library.if_call (library : Library n m up) (block : Block) :
    TestCall (block.ifLoc n m up) ⟨Operators.ifTag n, up⟩
      block.test.toList := by
  have found : findAddr (n + 1) (block.definition n m :: up) =
      some ⟨Operators.ifTag n, up⟩ := by
    rw [findAddr_above, library.conditional]
    intro child member
    rw [List.mem_singleton.mp member]
    have order := library.order
    change block.start m + 2 ≠ n + 1
    cases block <;> simp only [Block.start] <;> omega
  exact ⟨⟨ifName, some (n + 1), rfl⟩, target_linked rfl found, rfl⟩

theorem Block.evaluates_test (block : Block) (depth : Nat)
    (chain : state.contexts ≠ [])
    (held : Chain.getValue block.var state.contexts = text)
    (unread : outside.dcl.fromStringDouble text = none) :
    Function.Evaluates outside depth (state.withLayer ∅) block.test.toList
      (Evaluator.truth (saysEmpty outside text)) := by
  intro scope
  have seen : Chain.getValue block.var (state.withLayer ∅).contexts = text := by
    rw [St.withLayer, Chain.getValue_withLayer _ _ chain, held]
    rfl
  have calculated := block.calculate_test outside
    (Evaluator.executeFunction outside (execute outside depth) scope) seen
    unread
  have braces : '\x7b' :: block.expression.toList ++ ['\x7d'] =
      block.test.toList := by
    cases block <;> decide
  have plain : block.expression.toList.all isPlainChar = true := by
    cases block <;> decide
  have ran := evaluate_group outside _ plain calculated
  rw [braces] at ran
  exact ran

theorem definition_block (usr : call.tag.kind.isUsr = true) :
    execute outside (depth + 1) (block.loc n m up) (some call) =
      execute outside depth (block.ifLoc n m up) (some call) :=
  definition_eq rfl rfl rfl usr

/-- The call of a block runs the `lib:if` of its definition. -/
theorem Call.runs_if (calls : Call call (block.loc n m up))
    (calm : Calm 1 (execute outside depth (block.ifLoc n m up) (some call)
      (block.entered n m up call state))) :
    execute outside (depth + 2) call caller state =
      settle settled (execute outside depth (block.ifLoc n m up) (some call)
        (block.entered n m up call state)) := by
  obtain ⟨name, link, kind⟩ := calls.usr
  have defined : execute outside (depth + 1) (block.loc n m up) (some call) =
      _ := definition_block calls.isUsr
  have bound : bindArguments (Interp.ofRun outside (depth + 1)
      (execute outside (depth + 1))) call call.tag.params
      (state.withLayer ∅) = ⟨state.withLayer ∅, [], .value ()⟩ := by
    rw [calls.params]
    rfl
  rw [← defined] at calm ⊢
  exact call_settle kind calls.target bound calm

/-- A block that does not find its variable empty does nothing. -/
theorem Call.skips (library : Library n m up)
    (calls : Call call (block.loc n m up)) (chain : state.contexts ≠ [])
    (held : Chain.getValue block.var state.contexts = text)
    (unread : outside.dcl.fromStringDouble text = none)
    (full : saysEmpty outside text = false) :
    ∃ final, execute outside (depth + 6) call caller state =
        ⟨final, [], .value ()⟩ ∧ final.contexts = state.contexts := by
  have inside : (block.entered n m up call state).contexts ≠ [] :=
    entered_chain chain
  have still : Chain.getValue block.var
      (block.entered n m up call state).contexts = text := by
    rw [Chain.getValue, lookup_entered chain]
    exact held
  have test := block.evaluates_test (depth + 3) inside still unread
  rw [full] at test
  have skips : execute outside (depth + 4) (block.ifLoc n m up) (some call)
      (block.entered n m up call state) = _ :=
    if_skips (library.if_call block) inside test (by decide)
  have deep : Deep 1 (skipped (block.ifLoc n m up) ⟨Operators.ifTag n, up⟩
      (block.entered n m up call state)) :=
    (Deep.of_chain chain).withLayer.mapHead fun _ => rfl
  have ran : execute outside (depth + 6) call caller state = _ :=
    calls.runs_if (calm_of_eq skips deep)
  refine ⟨_, ran.trans (settle_eq skips), ?_⟩
  rcases state with ⟨contexts, vectors, maps, nextAddr, world, trace⟩
  cases contexts with
  | nil => exact absurd rfl chain
  | cons context parents => rfl

theorem Block.var_plain (block : Block) :
    block.var.all isPlainChar = true := by
  cases block <;> decide

/-- The `dbp:set` of a block keeps what the content writes. -/
theorem block_set (chain : state.contexts ≠ [])
    (single : outside.dcl.tokens block.var = [block.var])
    (bound : Bound state.contexts block.var)
    (writes : Writes outside depth n m up block call state text) :
    ∃ middle changed,
      execute outside (depth + 2) (block.setLoc n m up) caller
          (ifEntered n up (block.ifLoc n m up)
            (block.entered n m up call state)) =
        ⟨{ givenBack call middle with contexts := changed }, [], .value ()⟩ ∧
      Chain.setValue block.var text (givenBack call middle).contexts =
        some changed ∧
      Keeps state middle ∧
      layerNames middle = layerNames (block.started n m up call state) := by
  obtain ⟨middle, ran, kept, names⟩ := writes
  let interp := Interp.ofRun outside (depth + 1) (execute outside (depth + 1))
  have inside : (block.entered n m up call state).contexts ≠ [] :=
    entered_chain chain
  have whole : Keeps state middle := by
    intro name member
    rw [kept name member]
    exact keeps_started chain name member
  have top : (ifEntered n up (block.ifLoc n m up)
      (block.entered n m up call state)).exec = call :: state.exec :=
    (exec_ifEntered inside).trans (exec_entered chain)
  have content : execute outside (depth + 1) (block.content n m up) caller
      (ifEntered n up (block.ifLoc n m up)
        (block.entered n m up call state)) =
      ⟨givenBack call middle, text, .value ()⟩ := execute_returns top ran
  have childs : interp.executeChilds (block.setLoc n m up) caller
      (ifEntered n up (block.ifLoc n m up)
        (block.entered n m up call state)) =
      ⟨givenBack call middle, text, .value ()⟩ := by
    rw [executeChilds_single interp caller
      (show (block.setLoc n m up).tag.childs = _ from rfl) rfl]
    exact content
  have still : Bound (givenBack call middle).contexts block.var := by
    rw [Bound, lookup_givenBack, whole _ block.var_mem]
    exact bound
  obtain ⟨changed, assigned⟩ := Chain.setValue_of_bound still text
  exact ⟨middle, changed, set_returns childs
    (evaluates_plain outside _ _ block.var_plain _) single assigned, assigned,
    whole, names⟩

/-- A block that finds its variable empty assigns what its content writes. -/
theorem Call.writes (library : Library n m up)
    (calls : Call call (block.loc n m up)) {names : List (List Str)}
    (before : layerNames state = some names)
    (held : Chain.lookup block.var state.contexts = some [])
    (unread : outside.dcl.fromStringDouble [] = none)
    (first : saysEmpty outside [] = true)
    (single : outside.dcl.tokens block.var = [block.var])
    (writes : Writes outside depth n m up block call state text) :
    ∃ final, execute outside (depth + 9) call caller state =
        ⟨final, [], .value ()⟩ ∧
      (∀ name ∈ outputs, Chain.lookup name final.contexts =
        if upName name = upName block.var then some text
        else Chain.lookup name state.contexts) ∧
      layerNames final = some names := by
  have chain : state.contexts ≠ [] := by
    intro none
    rw [none] at held
    cases held
  have inside : (block.entered n m up call state).contexts ≠ [] :=
    entered_chain chain
  have bound : Bound state.contexts block.var := by
    rw [Bound, held]
    rfl
  obtain ⟨middle, changed, set, assigned, kept, shape⟩ :=
    @block_set W outside depth n m up block call
      (some (ifContent n (Operators.ifTag n :: up))) state text chain single
      bound writes
  let last : St W := { givenBack call middle with contexts := changed }
  have layers : layerNames last = some (blockNames ++ names) := by
    rw [layerNames_setValue assigned, layerNames_givenBack, shape,
      layerNames_started before]
  have deep : Deep 3 last :=
    deep_iff.mpr ⟨_, layers, by simp [blockNames]⟩
  have content : (Interp.ofRun outside (depth + 2)
      (execute outside (depth + 2))).executeChilds (block.ifLoc n m up)
      (some (ifContent n (Operators.ifTag n :: up)))
      (ifEntered n up (block.ifLoc n m up)
        (block.entered n m up call state)) = ⟨last, [], .value ()⟩ := by
    rw [executeChilds_single _ _
      (show (block.ifLoc n m up).tag.childs = _ from rfl) rfl]
    exact set
  have test := block.evaluates_test (depth + 6) inside
    (show Chain.getValue block.var
      (block.entered n m up call state).contexts = [] by
        rw [Chain.getValue, lookup_entered chain, held]
        rfl) unread
  rw [first] at test
  have ran : execute outside (depth + 7) (block.ifLoc n m up) (some call)
      (block.entered n m up call state) =
      ⟨ifLeft (block.ifLoc n m up) last, [], .value ()⟩ :=
    (if_settle (library.if_call block) inside test
      (calm_of_eq content (deep.less (by decide)))).trans (settle_eq content)
  have pushed : Deep 3 (givenBack (block.ifLoc n m up) last) :=
    deep.mapHead fun _ => rfl
  have left : Deep 1 (ifLeft (block.ifLoc n m up) last) :=
    pushed.dropLayer.returned.dropLayer
  have whole : execute outside (depth + 9) call caller state = _ :=
    calls.runs_if (calm_of_eq ran left)
  refine ⟨_, whole.trans (settle_eq ran), ?_, layerNames_blockLeft layers⟩
  intro name member
  have set := Chain.lookup_setValue assigned name
  rw [lookup_givenBack, kept name member] at set
  have dropped : Chain.lookup name
      (settled (ifLeft (block.ifLoc n m up) last)).contexts =
      Chain.lookup name changed := keeps_blockLeft layers name member
  rw [dropped, set]
  simp only [List.mem_singleton, exists_eq_left]

end Runs

end Prolog

end DbPager
