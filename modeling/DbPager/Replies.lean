import DbPager.Library.Output
import DbPager.Tags.Services
import DbPager.Plain

/-!
# Array replies of redis

The query tag dispatches on the type of a reply, but reads every element of an
array through the member `str`, which is null for integers and nil.
-/

namespace DbPager

open Effect

namespace Redis

/-- The elements an array reply may have. -/
inductive Element where
  | status (str : Str)
  | string (str : Str)
  | integer (value : Int)
  | nil

namespace Element

def reply : Element → RedisReply
  | status str => .status str
  | string str => .string str
  | integer value => .integer value
  | nil => .nil

/-- The text an element stands for. -/
def text (dcl : Dcl) : Element → Str
  | status str | string str => str
  | integer value => dcl.toStringInt value
  | nil => []

/-- The element has a text of its own that a C string can hold. -/
def Readable (element : Element) : Prop :=
  ∃ str, element.reply.str = some str ∧ Char.ofNat 0 ∉ str

theorem text_of_str {element : Element} {str : Str}
    (found : element.reply.str = some str) (dcl : Dcl) :
    element.text dcl = str := by
  cases element with
  | status text =>
      cases found
      rfl
  | string text =>
      cases found
      rfl
  | integer value => cases found
  | nil => cases found

end Element

section Elements

variable {W : Type} (interp : Interp W) (self : Loc) (caller : Option Loc)

/-- The children and the text of the tag in a new layer, in which `value` is
bound to the text of the element. -/
def elementBody (element : Element) : M W Unit :=
  M.withLayer do
    M.addValue interp.dcl "value".toList (element.text interp.dcl)
    Prog.forEach (fun tag => interp.run (self.child tag) caller)
      self.tag.childs
    Prog.emit self.tag.text

/-- The number of the elements, and the body once for each of them. -/
def oncePerElement (elements : List Element) : M W Unit := do
  M.addValue interp.dcl "count".toList
    (interp.dcl.toStringInt elements.length)
  Prog.forEach (elementBody interp self caller) elements

theorem elementBody_eq (element : Element) :
    elementBody interp self caller element =
      M.withLayer (withValue interp self caller
        (pure (element.text interp.dcl))) := by
  unfold elementBody withValue
  rw [Prog.pure_bind]
  rfl

theorem textOf_readable {element : Element} (readable : element.Readable) :
    (textOf element.reply : M W Str) = pure (element.text interp.dcl) := by
  obtain ⟨str, found, plain⟩ := readable
  unfold textOf
  rw [found, Element.text_of_str found, Option.map_some, cString_eq_self plain]
  rfl

theorem textOf_none {element : Element} (missing : element.reply.str = none) :
    (textOf element.reply : M W Str) = Prog.throw
      ⟨.std, "basic_string: construction from null is not valid".toList,
        0⟩ := by
  unfold textOf
  rw [missing]
  rfl

theorem process_array (elements : List RedisReply) :
    TagQuery.process interp self caller (.array elements) =
      M.addValue interp.dcl "count".toList
          (interp.dcl.toStringInt elements.length) >>= fun _ =>
        Prog.forEach (fun element =>
          M.withLayer (withValue interp self caller (textOf element)))
          elements :=
  rfl

theorem process_readable {elements : List Element}
    (readable : ∀ element ∈ elements, element.Readable) :
    TagQuery.process interp self caller (.array (elements.map Element.reply)) =
      oncePerElement interp self caller elements := by
  have bodies : Prog.forEach (fun element =>
        M.withLayer (withValue interp self caller (textOf element)))
        (elements.map Element.reply) =
      Prog.forEach (elementBody interp self caller) elements := by
    rw [Prog.forEach_map]
    apply Prog.forEach_congr
    intro element member
    rw [elementBody_eq, textOf_readable interp (readable element member)]
  rw [process_array, bodies, List.length_map]
  rfl

end Elements

/-- Whatever its body is, the tag executes it for the elements in order, with
the text of each of them and their number. -/
def DrivesElements (elements : List Element) : Prop :=
  ∀ (W : Type) (interp : Interp W) (self : Loc) (caller : Option Loc),
    TagQuery.process interp self caller (.array (elements.map Element.reply)) =
      oncePerElement interp self caller elements

/-- A query tag with one child. -/
def showingQuery : Loc :=
  ⟨.mk 0 .redisQuery [] [.mk 1 .sqliteQuery [] [] []] [], []⟩

/-- An interpreter in which a child writes the variable `value`. -/
def showing : Interp Unit :=
  { outside := Outside.plain
    budget := 0
    run := fun _ _ => do Prog.emit (← M.getValue "value".toList)
    evaluate := fun _ _ => pure [] }

/-- What the child writes is the text that was bound. -/
theorem showing_element {state : St Unit} (chain : state.contexts ≠ [])
    (text : Str) :
    M.withLayer (withValue showing showingQuery none (pure text)) state =
      ⟨state, text, .value ()⟩ := by
  have added := M.addValue_withLayer showing.dcl "value".toList text ∅ chain
    (rfl : (state.withLayer ∅).contexts = Chain.withLayer ∅ state.contexts)
  have found : Chain.getValue "value".toList (Chain.withLayer
      ((∅ : Vars).insert (upName "value".toList) text) state.contexts) =
        text := by
    rw [Chain.getValue_withLayer _ _ chain, AList.lookup_insert]
    rfl
  have read := M.getValue_eq "value".toList { state.withLayer ∅ with
    contexts := Chain.withLayer
      ((∅ : Vars).insert (upName "value".toList) text) state.contexts }
  rw [found] at read
  have body : withValue showing showingQuery none (pure text)
      (state.withLayer ∅) =
        ⟨{ state.withLayer ∅ with
          contexts := Chain.withLayer
            ((∅ : Vars).insert (upName "value".toList) text) state.contexts },
          text, .value ()⟩ := by
    change (M.addValue showing.dcl "value".toList text >>= fun _ =>
      showing.executeChilds showingQuery none) (state.withLayer ∅) = _
    rw [Prog.bind_silent added]
    have child : showing.executeChilds showingQuery none =
        (Prog.forEach (fun _ : Tag => M.getValue "value".toList >>= Prog.emit)
          [.mk 1 .sqliteQuery [] [] []] >>= fun _ => Prog.emit []) := rfl
    rw [child, Prog.forEach_singleton, Prog.bind_assoc,
      Prog.bind_silent read]
    simp [Prog.emit, Prog.bind_eq (rfl : Prog.emit text _ = _)]
  have ended := M.withLayer_eq chain body rfl
  rw [ended]
  rfl

theorem showing_texts {state : St Unit} (chain : state.contexts ≠ [])
    (text : Element → Str) (elements : List Element) :
    Prog.forEach (fun element => M.withLayer
        (withValue showing showingQuery none (pure (text element)))) elements
        state =
      ⟨state, (elements.map text).flatten, .value ()⟩ := by
  apply Prog.forEach_eq
  intro element _
  exact showing_element chain (text element)

/-- The state behind the variable `count`. -/
theorem count_added (count : Int) :
    ∃ middle : St Unit, middle.contexts ≠ [] ∧
      M.addValue showing.dcl "count".toList (showing.dcl.toStringInt count)
        (St.fresh [Context.newLocal]) = ⟨middle, [], .value ()⟩ := by
  have added := M.addValue_withLayer showing.dcl "count".toList
    (showing.dcl.toStringInt count) ∅
    (List.cons_ne_nil { Context.newLocal with stack := [] } [])
    (rfl : (St.fresh [Context.newLocal]).contexts = _)
  exact ⟨_, List.cons_ne_nil _ _, added⟩

/-- A body that returns for an element has read a text. -/
theorem str_of_returned {element : Element} {before after : St Unit}
    {out : Str}
    (ran : M.withLayer (withValue showing showingQuery none
      (textOf element.reply)) before = ⟨after, out, .value ()⟩) :
    ∃ str, element.reply.str = some str := by
  cases found : element.reply.str with
  | some str => exact ⟨str, rfl⟩
  | none =>
      have thrown : withValue showing showingQuery none
          (textOf element.reply) = Prog.throw
            ⟨.std, "basic_string: construction from null is not valid".toList,
              0⟩ := by
        unfold withValue
        rw [textOf_none found]
        rfl
      rw [thrown] at ran
      obtain ⟨_, _, _, _, _, guarded, _⟩ := Prog.of_bind_value ran
      obtain ⟨_, _, _, _, raised, _, _⟩ := Prog.of_bind_value guarded
      cases Prog.of_onError_value raised

theorem readable_of_drives {elements : List Element}
    (drives : DrivesElements elements) :
    ∀ element ∈ elements, element.Readable := by
  obtain ⟨middle, chain, added⟩ := count_added elements.length
  have ran := congrFun (drives Unit showing showingQuery none)
    (St.fresh [Context.newLocal])
  have expected : oncePerElement showing showingQuery none elements
      (St.fresh [Context.newLocal]) =
        ⟨middle, (elements.map (Element.text showing.dcl)).flatten,
          .value ()⟩ := by
    unfold oncePerElement
    simp only [funext (elementBody_eq showing showingQuery none),
      Prog.bind_silent added]
    exact showing_texts chain _ elements
  rw [process_array, List.length_map, Prog.bind_silent added, expected,
    Prog.forEach_map] at ran
  have texts : ∀ element ∈ elements, ∃ str,
      element.reply.str = some str := by
    intro element member
    obtain ⟨_, _, _, returned⟩ := Prog.of_forEach_value ran element member
    exact str_of_returned returned
  -- With a text for each element, only what a C string cuts off is missing.
  have cut : Prog.forEach (fun element : Element => M.withLayer
        (withValue showing showingQuery none (textOf element.reply))) elements =
      Prog.forEach (fun element => M.withLayer
        (withValue showing showingQuery none
          (pure (cString (element.text showing.dcl))))) elements := by
    apply Prog.forEach_congr
    intro element member
    obtain ⟨str, found⟩ := texts element member
    unfold textOf
    rw [found, Element.text_of_str found]
    rfl
  rw [cut, showing_texts chain] at ran
  have same : (elements.map fun element =>
        cString (element.text showing.dcl)).flatten =
      (elements.map (Element.text showing.dcl)).flatten := congrArg Run.out ran
  intro element member
  obtain ⟨str, found⟩ := texts element member
  refine ⟨str, found, ?_⟩
  intro inside
  have whole : Char.ofNat 0 ∈
      (elements.map (Element.text showing.dcl)).flatten := by
    apply List.mem_flatten.mpr
    refine ⟨_, List.mem_map_of_mem member, ?_⟩
    rw [Element.text_of_str found]
    exact inside
  rw [← same] at whole
  obtain ⟨text, among, here⟩ := List.mem_flatten.mp whole
  obtain ⟨other, _, rfl⟩ := List.mem_map.mp among
  exact not_mem_cString _ here

/-- The reply to the command of the tag. -/
def replied (interp : Interp W) (self : Loc) (connection : Nat) :
    M W RedisReply := do
  let statement ← interp.getParameter self "command"
  let args ← interp.getParameter self "args"
  match ← M.io (interp.outside.redis.command connection
      (statement :: interp.dcl.tokens args)) with
  | .error message => Prog.throw (.dbp message)
  | .ok reply => pure reply

theorem query_eq (interp : Interp W) (self : Loc) (caller : Option Loc) :
    TagQuery.execute interp self caller =
      databasePointer interp self connectionHandle >>= fun connection =>
        M.withLayer (rewrap (replied interp self connection >>= fun reply =>
          TagQuery.process interp self caller reply) (pure ())) := by
  unfold TagQuery.execute replied
  apply congrArg
  funext connection
  simp only [Prog.bind_assoc]
  apply congrArg
  apply congrArg (rewrap · (pure ()))
  apply congrArg
  funext statement
  apply congrArg
  funext args
  apply congrArg
  funext answer
  cases answer with
  | error message => rfl
  | ok reply => rfl

/-- The query tag works on the reply to its command, and on an array element
by element exactly when each of them is a string or a status that a C string
can hold. -/
theorem elements_driven_iff (elements : List Element) :
    (∀ (W : Type) (interp : Interp W) (self : Loc) (caller : Option Loc),
      TagQuery.execute interp self caller =
        databasePointer interp self connectionHandle >>= fun connection =>
          M.withLayer (rewrap (replied interp self connection >>= fun reply =>
            TagQuery.process interp self caller reply) (pure ()))) ∧
    (DrivesElements elements ↔ ∀ element ∈ elements, element.Readable) := by
  constructor
  · intro W interp self caller
    exact query_eq interp self caller
  · constructor
    · exact readable_of_drives
    · intro readable W interp self caller
      exact process_readable interp self caller readable

/-- A missing key among the elements raises an exception. -/
theorem nil_element_raises :
    ¬ ∀ elements : List Element, DrivesElements elements := by
  intro drives
  obtain ⟨str, found, _⟩ := (elements_driven_iff [.string "a".toList, .nil]).2.mp
    (drives _) .nil (by simp)
  cases found

end Redis

end DbPager
