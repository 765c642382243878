import DbPager.Exceptions
import DbPager.Switch

/-!
# The way out of a case

A `dbp:case` that matches leaves the switch by an exception, which passes all
the tags between the two.  Those that write into a stream of their own drop
what has been written there, and a `dbp:try` takes the exception for an error.
-/

namespace DbPager

open Effect

open TagSwitch (interpAt)

variable {W : Type}

/-- The children are executed up to one that raises an exception. -/
theorem Interp.executeChilds_raises {interp : Interp W} {loc : Loc}
    {caller : Option Loc} {earlier later : List Tag} {child : Tag}
    {state middle last : St W} {out text : Str} {exception : Exc}
    (childs : loc.tag.childs = earlier ++ child :: later)
    (before : Prog.forEach (fun tag => interp.run (loc.child tag) caller)
      earlier state = ⟨middle, out, .value ()⟩)
    (raised : interp.run (loc.child child) caller middle =
      ⟨last, text, .error exception⟩) :
    interp.executeChilds loc caller state =
      ⟨last, out ++ text, .error exception⟩ := by
  have whole : Prog.forEach (fun tag => interp.run (loc.child tag) caller)
      loc.tag.childs state = ⟨last, out ++ text, .error exception⟩ := by
    rw [childs, Prog.forEach_append_eq _ before, Prog.forEach,
      Prog.bind_error raised]
  exact Prog.bind_error whole _

namespace TagUnknown

/-- The start of an element: its name and its attributes. -/
def opening (interp : Interp W) (self : Loc) : M W Unit := do
  Prog.emit (Char.ofNat 3 :: self.tag.getName)
  Prog.forEach (writeParam interp self) self.tag.params

end TagUnknown

namespace TagVar

/-- The declarations of a `dbp:var`. -/
def declare (interp : Interp W) (self : Loc) : M W Unit := do
  let names ← interp.getParameter self "name"
  Prog.forEach (fun name => do
      let type ← interp.getParameter self "type"
      let value ← interp.getParameter self "value"
      M.addTyped interp.dcl name value
        (if type.isEmpty then Context.localType else type))
    (interp.dcl.tokens names)

end TagVar

/-- What can stand between a switch and one of its cases: an HTML element,
outermost or inside another one, a `dbp:var`, the content of a `dbp:try`
without a `dbp:catch`, or a `dbp:catch`. -/
inductive Between where
  | root | element | var | guard | handler

namespace Between

/-- What has been written inside has been written for good. -/
def Transparent : Between → Prop
  | var | handler => True
  | root | element | guard => False

/-- The tag works in a layer of its own. -/
def Layered : Between → Prop
  | root | var | handler => True
  | element | guard => False

/-- The state after an exception has left the tag. -/
def leave (state : St W) : Between → St W
  | root | var | handler => state.dropLayer
  | element | guard => state

/-- What the tag is to write for its head and for what has been written
inside. -/
def shown (loc : Loc) (head data : Str) : Between → Str
  | root =>
      htmlentitiesout (head ++ Char.ofNat 4 :: TagUnknown.convert loc data)
  | element => head ++ Char.ofNat 4 :: TagUnknown.convert loc data
  | var | guard | handler => head ++ data

/-- What it has written when an exception leaves it. -/
def kept (head data : Str) : Between → Str
  | root | guard => []
  | element => head
  | var | handler => head ++ data

end Between

/-- The tag goes to work on children: on those of the given tag, from the
given state on, with its head written. -/
inductive Enters (interp : Interp W) (caller : Option Loc) (loc : Loc)
    (state : St W) : Between → Loc → Str → St W → Prop where
  | root {name : XmlName} {head : Str} {entered : St W} :
      loc.tag.kind = .unknown name →
      (Chain.getValue htmlFirst state.contexts).isEmpty = true →
      (M.addValue interp.dcl htmlFirst "1".toList >>= fun _ =>
        TagUnknown.opening interp loc) (state.withLayer ∅) =
          ⟨entered, head, .value ()⟩ →
      Enters interp caller loc state .root loc head entered
  | element {name : XmlName} {head : Str} {entered : St W} :
      loc.tag.kind = .unknown name →
      (Chain.getValue htmlFirst state.contexts).isEmpty = false →
      TagUnknown.opening interp loc state = ⟨entered, head, .value ()⟩ →
      Enters interp caller loc state .element loc head entered
  | var {head : Str} {entered : St W} :
      loc.tag.kind = .var →
      TagVar.declare interp loc (state.withLayer ∅) =
        ⟨entered, head, .value ()⟩ →
      Enters interp caller loc state .var loc head entered
  | guard :
      loc.tag.kind = .try → loc.getChild TagTry.catchName = none →
      Enters interp caller loc state .guard loc [] state
  | handler {handler : Loc} {exception : Exc} {middle : St W} {out : Str} :
      loc.tag.kind = .try →
      interp.executeChilds loc caller state =
        ⟨middle, out, .error exception⟩ →
      exception.isStd = true → middle.contexts ≠ [] →
      loc.getChild TagTry.catchName = some handler →
      handler.tag.kind = .catch →
      Enters interp caller loc state .handler handler []
        (middle.withLayer (TagTry.errorLayer interp.dcl exception))

/-- From the given tag and state on, a case is reached that matches: through
the given tags, with the given output of the case, with the output that
is kept, and with everything that has been produced on the way. -/
inductive ReachesCase (outside : Outside W) (caller : Option Loc) :
    Nat → Loc → St W → List Between → Str → Str → Str → St W → Prop where
  | case {depth : Nat} {loc : Loc} {state middle last : St W}
      {read pattern written : Str} :
      loc.tag.kind = .case →
      (interpAt outside depth).getParameter loc "match" state =
        ⟨middle, read, .value pattern⟩ →
      caseMatches (Chain.getValue switchVar middle.contexts) pattern = true →
      (interpAt outside depth).executeChilds loc caller middle =
        ⟨last, written, .value ()⟩ →
      ReachesCase outside caller (depth + 1) loc state [] written
        (read ++ written) (read ++ written) last
  | through {depth : Nat} {loc inner : Loc} {between : Between}
      {state entered middle last : St W} {earlier later : List Tag}
      {child : Tag} {path : List Between}
      {head out written kept text : Str} :
      Enters (interpAt outside depth) caller loc state between inner head
        entered →
      inner.tag.childs = earlier ++ child :: later →
      Prog.forEach (fun tag =>
          (interpAt outside depth).run (inner.child tag) caller) earlier
        entered = ⟨middle, out, .value ()⟩ →
      ReachesCase outside caller depth (inner.child child) middle path written
        kept text last →
      (between.Layered → last.Layered) →
      ReachesCase outside caller (depth + 1) loc state (between :: path) written
        (between.kept head (out ++ kept))
        (between.shown loc head (out ++ text)) (between.leave last)

section Leaving

variable {interp : Interp W} {caller : Option Loc} {loc : Loc}
  {state last : St W}

/-- An element whose content raises an exception has written its start. -/
theorem TagUnknown.realExecute_raises {entered : St W} {head data : Str}
    {exception : Exc}
    (opened : opening interp loc state = ⟨entered, head, .value ()⟩)
    (raised : interp.executeChilds loc caller entered =
      ⟨last, data, .error exception⟩) :
    realExecute interp loc caller state = ⟨last, head, .error exception⟩ := by
  have unrolled : realExecute interp loc caller =
      opening interp loc >>= fun _ =>
        (interp.executeChilds loc caller).capture >>= fun data =>
          Prog.emit (content loc.tag.getName (convert loc) data) := by
    unfold realExecute opening
    rw [Prog.bind_assoc]
  rw [unrolled, Prog.bind_eq opened,
    Prog.bind_error (Prog.capture_error raised), List.append_nil]

theorem TagUnknown.execute_raises_root {entered : St W} {head data : Str}
    {exception : Exc}
    (root : (Chain.getValue htmlFirst state.contexts).isEmpty = true)
    (opened : (M.addValue interp.dcl htmlFirst "1".toList >>= fun _ =>
      opening interp loc) (state.withLayer ∅) = ⟨entered, head, .value ()⟩)
    (raised : interp.executeChilds loc caller entered =
      ⟨last, data, .error exception⟩) (layered : last.Layered) :
    execute interp loc caller state =
      ⟨last.dropLayer, [], .error exception⟩ := by
  have read := M.getValue_eq htmlFirst state
  unfold execute
  rw [Prog.bind_silent read, if_pos root]
  have finished : (Outcome.error exception : Outcome Exc Unit).Finished :=
    trivial
  refine M.withLayer_finished ?_ finished layered
  obtain ⟨middle, _, written, rest, added, opened, whole⟩ :=
    Prog.of_bind_value opened
  have captured := Prog.capture_error
    (realExecute_raises opened raised)
  have silent : written = [] := (congrArg Run.out added).symm
  subst silent
  rw [Prog.bind_silent added, Prog.bind_error captured]

/-- The execute method of the tag hands on the exception of its content. -/
theorem Enters.raises {between : Between} {inner : Loc} {entered : St W}
    {head data : Str} {exception : Exc}
    (enters : Enters interp caller loc state between inner head entered)
    (raised : interp.executeChilds inner caller entered =
      ⟨last, data, .error exception⟩) (isStd : exception.isStd = true)
    (layered : between.Layered → last.Layered) :
    dispatch interp loc caller state =
      ⟨between.leave last, between.kept head data, .error exception⟩ := by
  cases enters with
  | root kind outermost opened =>
      unfold dispatch
      rw [kind]
      exact TagUnknown.execute_raises_root outermost opened raised
        (layered trivial)
  | element kind nested opened =>
      have read := M.getValue_eq htmlFirst state
      have inside : TagUnknown.execute interp loc caller state =
          TagUnknown.realExecute interp loc caller state := by
        unfold TagUnknown.execute
        rw [Prog.bind_silent read, nested]
        rfl
      unfold dispatch
      rw [kind]
      exact inside.trans (TagUnknown.realExecute_raises opened raised)
  | var kind declared =>
      have body : (TagVar.declare interp loc >>= fun _ =>
          interp.executeChilds loc caller) (state.withLayer ∅) =
            ⟨last, head ++ data, .error exception⟩ := by
        rw [Prog.bind_eq declared, raised]
      have unrolled : TagVar.execute interp loc caller =
          M.withLayer (TagVar.declare interp loc >>= fun _ =>
            interp.executeChilds loc caller) := by
        unfold TagVar.execute TagVar.declare
        rw [Prog.bind_assoc]
      unfold dispatch
      rw [kind, unrolled]
      exact M.withLayer_finished body trivial (layered trivial)
  | guard kind missing =>
      unfold dispatch
      rw [kind]
      refine (TagTry.execute_raised raised isStd).trans ?_
      rw [missing]
      rfl
  | handler kind first firstStd chain found isCatch =>
      unfold dispatch
      rw [kind]
      refine (TagTry.execute_raised first firstStd).trans ?_
      rw [found]
      simp only [isCatch]
      exact TagTry.processException_finished chain raised trivial
        (layered trivial)

end Leaving

namespace ReachesCase

variable {outside : Outside W} {caller : Option Loc} {depth : Nat} {loc : Loc}
  {state last : St W} {path : List Between} {written kept text : Str}

/-- The jump arrives outside, with the output that is kept. -/
theorem run
    (reaches : ReachesCase outside caller depth loc state path written kept text
      last) :
    execute outside depth loc caller state =
      ⟨last, kept, .error .tagCase⟩ := by
  induction reaches with
  | @case depth loc state middle last read pattern written kind asked matching
      wrote =>
      have tested := M.getValue_eq switchVar middle
      have chosen : (pattern.isEmpty ||
          Chain.getValue switchVar middle.contexts == pattern) = true :=
        matching
      unfold execute dispatch
      rw [kind]
      refine (Prog.bind_eq asked _).trans ?_
      rw [Prog.bind_silent tested, Prog.when, if_pos chosen,
        Prog.bind_eq wrote]
      simp [Prog.throw]
  | through enters childs before _ layered induction =>
      have raised := Interp.executeChilds_raises childs before induction
      exact enters.raises raised rfl layered

theorem htmlentities_long (src : Str) :
    src.length ≤ (htmlentities src).length := by
  induction src with
  | nil => exact Nat.le_refl _
  | cons c src induction =>
      have entity : 1 ≤ (htmlEntity c).length := by
        unfold htmlEntity
        split <;> simp
      have whole : (htmlentities (c :: src)).length =
          (htmlEntity c).length + (htmlentities src).length := by
        simp [htmlentities]
      rw [whole, List.length_cons]
      omega

theorem convert_long (loc : Loc) (data : Str) :
    data.length ≤ (TagUnknown.convert loc data).length := by
  unfold TagUnknown.convert
  split
  · rw [stub, List.length_map]
  · exact htmlentities_long data

/-- Nothing of what has been produced inside is missing in the output. -/
theorem shown_long (between : Between) (loc : Loc) (head data : Str) :
    data.length ≤ (between.shown loc head data).length := by
  have converted := convert_long loc data
  cases between with
  | root =>
      rw [Between.shown, htmlentitiesout, List.length_map, List.length_append,
        List.length_cons]
      omega
  | element =>
      rw [Between.shown, List.length_append, List.length_cons]
      omega
  | var => simp [Between.shown]
  | guard => simp [Between.shown]
  | handler => simp [Between.shown]

theorem written_long
    (reaches : ReachesCase outside caller depth loc state path written kept text
      last) : written.length ≤ text.length := by
  induction reaches with
  | case => simp
  | @through depth loc inner between state entered middle last earlier later
      child path head out written kept text _ _ _ _ _ induction =>
      have shown := shown_long between loc head (out ++ text)
      rw [List.length_append] at shown
      omega

/-- Behind tags that hand on what is written, all of it is kept. -/
theorem kept_eq
    (reaches : ReachesCase outside caller depth loc state path written kept text
      last) (transparent : ∀ between ∈ path, between.Transparent) :
    kept = text := by
  induction reaches with
  | case => rfl
  | @through depth loc inner between state entered middle last earlier later
      child path head out written kept text _ _ _ _ _ induction =>
      have inside : kept = text := induction fun other member =>
        transparent other (List.mem_cons_of_mem _ member)
      have here := transparent between List.mem_cons_self
      subst inside
      cases between with
      | var => rfl
      | handler => rfl
      | root => exact here.elim
      | element => exact here.elim
      | guard => exact here.elim

/-- Behind any other tag, at least the output of the case is missing. -/
theorem kept_short
    (reaches : ReachesCase outside caller depth loc state path written kept text
      last) (lossy : ∃ between ∈ path, ¬ between.Transparent) :
    kept.length + written.length ≤ text.length := by
  induction reaches with
  | case =>
      obtain ⟨between, member, -⟩ := lossy
      exact absurd member List.not_mem_nil
  | @through depth loc inner between state entered middle last earlier later
      child path head out written kept text _ _ _ reaches _ induction =>
      have long := written_long reaches
      have deeper (transparent : between.Transparent) :
          kept.length + written.length ≤ text.length := by
        obtain ⟨other, member, drops⟩ := lossy
        rcases List.mem_cons.mp member with rfl | further
        · exact absurd transparent drops
        · exact induction ⟨other, further, drops⟩
      cases between with
      | root =>
          have shown := shown_long .root loc head (out ++ text)
          rw [List.length_append] at shown
          simp only [Between.kept, List.length_nil]
          omega
      | element =>
          have converted := convert_long loc (out ++ text)
          rw [List.length_append] at converted
          simp only [Between.kept, Between.shown, List.length_append,
            List.length_cons]
          omega
      | guard =>
          simp only [Between.kept, Between.shown, List.length_nil,
            List.length_append]
          omega
      | var =>
          have rest := deeper trivial
          simp only [Between.kept, Between.shown, List.length_append]
          omega
      | handler =>
          have rest := deeper trivial
          simp only [Between.kept, Between.shown, List.length_append]
          omega

end ReachesCase

/-- A switch whose children lead to a case that matches. -/
inductive Arrives (outside : Outside W) (caller : Option Loc) (depth : Nat)
    (loc : Loc) (state : St W) :
    List Between → Str → Str → Str → St W → Prop where
  | intro {middle bound start last : St W} {tested read out : Str}
      {earlier later : List Tag} {child : Tag} {path : List Between}
      {written kept text : Str} :
      loc.tag.kind = .switch →
      (interpAt outside depth).getParameter loc "test" (state.withLayer ∅) =
        ⟨middle, read, .value tested⟩ →
      M.addValue outside.dcl switchVar tested middle =
        ⟨bound, [], .value ()⟩ →
      loc.tag.childs = earlier ++ child :: later →
      Prog.forEach (fun tag =>
          (interpAt outside depth).run (loc.child tag) caller) earlier bound =
        ⟨start, out, .value ()⟩ →
      ReachesCase outside caller depth (loc.child child) start path written kept
        text last →
      last.Layered →
      Arrives outside caller depth loc state path written
        (read ++ (out ++ kept)) (read ++ (out ++ text)) last.dropLayer

/-- The switch ends with the case, with the output that is kept. -/
theorem Arrives.run {outside : Outside W} {caller : Option Loc} {depth : Nat}
    {loc : Loc} {state final : St W} {path : List Between}
    {written kept text : Str}
    (arrives : Arrives outside caller depth loc state path written kept text
      final) :
    execute outside (depth + 1) loc caller state =
      ⟨final, kept, .value ()⟩ := by
  cases arrives with
  | @intro middle bound start last tested read out _ _ _ _ _ kept text kind
      asked added childs before reaches layered =>
      have bind : M.addValue (interpAt outside depth).dcl switchVar tested
          middle = ⟨bound, [], .value ()⟩ := added
      have raised := Interp.executeChilds_raises childs before reaches.run
      have body : TagSwitch.body (interpAt outside depth) loc caller
          (state.withLayer ∅) =
            ⟨last, read ++ (out ++ kept), .error .tagCase⟩ := by
        refine (Prog.bind_eq asked _).trans ?_
        rw [Prog.bind_silent bind, raised]
      have caught : (TagSwitch.body (interpAt outside depth) loc
          caller).tryCatch TagSwitch.caught (state.withLayer ∅) =
            ⟨last, read ++ (out ++ kept), .value ()⟩ := by
        rw [Prog.tryCatch_error body]
        simp [TagSwitch.caught, Exc.tagCase, pure, Prog.pure]
      unfold execute dispatch
      rw [kind]
      exact M.withLayer_finished caught trivial layered

section Output

variable {outside : Outside W} {caller : Option Loc} {depth : Nat} {loc : Loc}
  {state final : St W} {path : List Between} {written kept text : Str}

theorem Arrives.kept_eq
    (arrives : Arrives outside caller depth loc state path written kept text
      final) (transparent : ∀ between ∈ path, between.Transparent) :
    kept = text := by
  obtain ⟨-, -, -, -, -, reaches, -⟩ := arrives
  rw [reaches.kept_eq transparent]

theorem Arrives.transparent
    (arrives : Arrives outside caller depth loc state path written kept text
      final) (wrote : written ≠ []) (same : kept = text) :
    ∀ between ∈ path, between.Transparent := by
  obtain ⟨-, -, -, -, -, reaches, -⟩ := arrives
  by_contra lossy
  have drops : ∃ between ∈ path, ¬ between.Transparent := by
    simpa only [not_forall, exists_prop] using lossy
  have short := reaches.kept_short drops
  have inner := List.append_cancel_left (List.append_cancel_left same)
  have some : 0 < written.length := List.length_pos_of_ne_nil wrote
  rw [inner] at short
  omega

end Output

/-- A switch ends normally with the case its children lead to, and its output
is complete behind `dbp:var` and `dbp:catch`; it is not behind an HTML element
or a `dbp:try`, unless the case writes nothing.  A `dbp:try` with a
`dbp:catch` executes it because the case has matched. -/
theorem case_output_kept (outside : Outside W) (depth : Nat) :
    (∀ self caller state path written kept text final,
      Arrives outside caller depth self state path written kept text final →
      execute outside (depth + 1) self caller state =
          ⟨final, kept, .value ()⟩ ∧
        ((∀ between ∈ path, between.Transparent) →
          (execute outside (depth + 1) self caller state).out = text) ∧
        (written ≠ [] →
          ((execute outside (depth + 1) self caller state).out = text ↔
            ∀ between ∈ path, between.Transparent))) ∧
    ∀ self caller state earlier child later middle out path written kept text
        last handler,
      self.tag.kind = .try →
      self.tag.childs = earlier ++ child :: later →
      Prog.forEach (fun tag =>
          (interpAt outside depth).run (self.child tag) caller) earlier state =
        ⟨middle, out, .value ()⟩ →
      ReachesCase outside caller depth (self.child child) middle path written kept
        text last →
      self.getChild TagTry.catchName = some handler →
      handler.tag.kind = .catch →
      execute outside (depth + 1) self caller state =
        TagCatch.processException (interpAt outside depth) handler .tagCase
          caller last := by
  constructor
  · intro self caller state path written kept text final arrives
    have out : (execute outside (depth + 1) self caller state).out = kept := by
      rw [arrives.run]
    rw [out]
    refine ⟨arrives.run, arrives.kept_eq, ?_⟩
    intro wrote
    exact ⟨arrives.transparent wrote, arrives.kept_eq⟩
  · intro self caller state earlier child later middle out path written kept
      text last handler kind childs before reaches found isCatch
    have raised := Interp.executeChilds_raises childs before reaches.run
    unfold execute dispatch
    rw [kind]
    refine (TagTry.execute_raised raised rfl).trans ?_
    rw [found]
    simp only [isCatch]

/-- A switch for `a` around the given tag. -/
def switchAround (tag : Tag) : Loc :=
  ⟨.mk 1 .switch [("test".toList, "a".toList)] [tag] [], []⟩

/-- A case for `a` that writes a letter. -/
def letterCase : Tag :=
  TagSwitch.caseTag 3 "a".toList "x".toList

def varAround : Tag :=
  .mk 2 .var [("name".toList, "v".toList)] [letterCase] []

/-- A `dbp:try` around the case, with the given other children. -/
def tryAround (others : List Tag) : Tag :=
  .mk 2 .try [] (letterCase :: others) []

theorem letterCase_reaches (up : List Tag) {state : St Unit}
    (tested : Chain.getValue switchVar state.contexts = "a".toList) :
    ReachesCase Outside.plain none 2 ⟨letterCase, up⟩ state [] "x".toList
      "x".toList "x".toList state := by
  refine @ReachesCase.case Unit Outside.plain none 1 ⟨letterCase, up⟩ state state
    state [] "a".toList "x".toList rfl rfl ?_ rfl
  rw [tested]
  rfl

/-- The state in which the switch executes its children. -/
def insideA : St Unit :=
  (St.fresh [Context.newLocal]).withLayer
    ((∅ : Vars).insert switchVar "a".toList)

theorem switchAround_arrives {tag : Tag} {path : List Between}
    {kept text : Str}
    (reaches : ReachesCase Outside.plain none 3
      ((switchAround tag).child tag) insideA path "x".toList kept text
      insideA) :
    Arrives Outside.plain none 3 (switchAround tag) (St.fresh [Context.newLocal])
      path "x".toList kept text (St.fresh [Context.newLocal]) := by
  exact @Arrives.intro Unit Outside.plain none 3 (switchAround tag)
    (St.fresh [Context.newLocal])
    ((St.fresh [Context.newLocal]).withLayer ∅) insideA insideA insideA
    "a".toList [] [] [] [] tag path "x".toList kept text rfl rfl rfl rfl rfl
    reaches ⟨_, _, rfl, List.cons_ne_nil _ _⟩

/-- The layer of `varAround`. -/
def insideVar : St Unit :=
  insideA.withLayer ((∅ : Vars).insert "V".toList [])

theorem varAround_reaches :
    ReachesCase Outside.plain none 3 ((switchAround varAround).child varAround)
      insideA [.var] "x".toList "x".toList "x".toList insideA := by
  let loc := (switchAround varAround).child varAround
  have inner : ReachesCase Outside.plain none 2 (loc.child letterCase) insideVar []
      "x".toList "x".toList "x".toList insideVar := letterCase_reaches _ rfl
  exact @ReachesCase.through Unit Outside.plain none 2 loc loc .var insideA
    insideVar insideVar insideVar [] [] letterCase [] [] [] "x".toList
    "x".toList "x".toList (.var rfl rfl) rfl rfl inner
    fun _ => ⟨_, _, rfl, List.cons_ne_nil _ _⟩

theorem tryAround_reaches :
    ReachesCase Outside.plain none 3
      ((switchAround (tryAround [])).child (tryAround [])) insideA [.guard]
      "x".toList [] "x".toList insideA := by
  let loc := (switchAround (tryAround [])).child (tryAround [])
  have inner : ReachesCase Outside.plain none 2 (loc.child letterCase) insideA []
      "x".toList "x".toList "x".toList insideA := letterCase_reaches _ rfl
  exact @ReachesCase.through Unit Outside.plain none 2 loc loc .guard insideA
    insideA insideA insideA [] [] letterCase [] [] [] "x".toList "x".toList
    "x".toList (.guard rfl rfl) rfl rfl inner fun layered => layered.elim

/-- `<dbp:catch/>`. -/
def emptyCatch : Tag :=
  .mk 6 .catch [] [] []

/-- The `dbp:try` around the case, with a `dbp:catch`, in a switch. -/
def caughtCase : Loc :=
  (switchAround (tryAround [emptyCatch])).child (tryAround [emptyCatch])

theorem case_output_kept_var :
    (execute Outside.plain 4 (switchAround varAround) none
        (St.fresh [Context.newLocal])).out = "x".toList ∧
      execute Outside.plain 3 caughtCase none insideA =
        TagCatch.processException (interpAt Outside.plain 2)
          (caughtCase.child emptyCatch) .tagCase none insideA := by
  constructor
  · obtain ⟨complete, -⟩ := case_output_kept Outside.plain 3
    obtain ⟨-, out, -⟩ := complete _ none _ _ _ _ _ _
      (switchAround_arrives varAround_reaches)
    apply out
    intro between member
    obtain rfl := List.mem_singleton.mp member
    trivial
  · obtain ⟨-, caught⟩ := case_output_kept Outside.plain 2
    exact caught caughtCase none insideA [] letterCase [emptyCatch] insideA []
      [] "x".toList "x".toList "x".toList insideA
      (caughtCase.child emptyCatch) rfl rfl rfl (letterCase_reaches _ rfl) rfl
      rfl

/-- Inside of a `dbp:try` the output of the case is lost. -/
theorem case_output_lost :
    ¬ (execute Outside.plain 4 (switchAround (tryAround [])) none
        (St.fresh [Context.newLocal])).out = "x".toList := by
  intro complete
  have run := (switchAround_arrives tryAround_reaches).run
  rw [run] at complete
  cases complete

end DbPager
