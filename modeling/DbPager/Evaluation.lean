import DbPager.Families.Machine

/-!
# Properties that expressions inherit

The parsing functions are put together from a few programs: they read tokens,
look up variables, call functions, and raise or catch exceptions.  A property
that these programs have, and that sequences and handlers inherit, is a
property of every expression.  The same goes for the functions that are
built in.
-/

namespace DbPager

open Effect

variable {W ι : Type}

namespace Evaluator

/-- A property of families of the programs that parse, and one of families of
the programs around them, which the evaluator inherits. -/
structure Uniform (outside : Outside W)
    (Inner : ∀ {α : Type}, (ι → P W α) → Prop)
    (Outer : ∀ {α : Type}, (ι → M W α) → Prop) : Prop where
  pure : ∀ {α : Type} (result : α),
    Inner fun _ => (Pure.pure result : P W α)
  bind : ∀ {α β : Type} {first : ι → P W α} {next : ι → α → P W β},
    Inner first → (∀ result, Inner fun member => next member result) →
    Inner fun member => first member >>= next member
  throw : ∀ {α : Type} (exception : Exc),
    Inner fun _ => (Prog.throw exception : P W α)
  timeout : ∀ {α : Type}, Inner fun _ => (Prog.halt .timeout : P W α)
  tryCatch : ∀ {α : Type} {body : ι → P W α} {handler : ι → Exc → P W α},
    Inner body → (∀ exception, Inner fun member => handler member exception) →
    Inner fun member => (body member).tryCatch (handler member)
  getToken : Inner fun _ => getToken outside
  read : ∀ {α : Type} (view : Lexer → α),
    Inner fun _ => Prog.read fun state => view state.2
  dropValue : Inner fun _ =>
    Prog.modify fun state => (state.1, { state.2 with value := [] })
  /-- The name of the token is read and dropped, then it is looked up. -/
  lookup : Inner fun _ => do
    let name ← Prog.read fun state => state.2.name
    Prog.modify fun state => (state.1, { state.2 with name := [] })
    Prog.lift (M.getValue name)
  lift : ∀ {program : ι → M W Str},
    Outer program → Inner fun member => (program member).lift
  within : ∀ {expression : Str} {body : ι → P W Str}, Inner body →
    Outer fun member =>
      (body member).within ⟨expression, outside.rawToken, [], []⟩
  outerPure : ∀ result : Str, Outer fun _ => (Pure.pure result : M W Str)
  outerBind : ∀ {first : ι → M W Str} {next : ι → Str → M W Str},
    Outer first → (∀ result, Outer fun member => next member result) →
    Outer fun member => first member >>= next member
  outerThrow : ∀ exception, Outer fun _ => (Prog.throw exception : M W Str)
  outerTimeout : Outer fun _ => (Prog.halt .timeout : M W Str)

namespace Uniform

variable {outside : Outside W} {Inner : ∀ {α : Type}, (ι → P W α) → Prop}
  {Outer : ∀ {α : Type}, (ι → M W α) → Prop}
  (uniform : Uniform outside Inner Outer)
include uniform

theorem tokenType : Inner fun _ => (tokenType : P W TokenType) :=
  uniform.read Lexer.type

theorem number (text : Str) : Inner fun _ => number outside text := by
  unfold Evaluator.number
  cases outside.dcl.fromStringDouble text with
  | some value => exact uniform.pure value
  | none => exact uniform.throw _

theorem operands {right : ι → P W Str} (left : Str) (holds : Inner right) :
    Inner fun member => operands outside left (right member) := by
  unfold Evaluator.operands
  cases outside.leftFirst with
  | true =>
      apply uniform.bind (uniform.number left)
      intro leftNumber
      apply uniform.bind holds
      intro text
      exact uniform.bind (uniform.number text) fun _ => uniform.pure _
  | false =>
      apply uniform.bind holds
      intro text
      apply uniform.bind (uniform.number text)
      intro rightNumber
      exact uniform.bind (uniform.number left) fun _ => uniform.pure _

theorem convertException {α : Type} (exception : Exc) :
    Inner fun _ => (convertException outside exception : P W α) := by
  unfold Evaluator.convertException
  split
  · exact uniform.throw _
  · exact uniform.throw _

theorem compareWith {right : ι → P W Str} (left : Str)
    (numbers : outside.dcl.Double → outside.dcl.Double → Bool)
    (strings : Str → Str → Bool) (holds : Inner right) :
    Inner fun member =>
      compareWith outside (right member) left numbers strings := by
  apply uniform.bind uniform.getToken
  intro _
  apply uniform.tryCatch
  · exact uniform.bind (uniform.operands left holds) fun _ => uniform.pure _
  · intro exception
    exact uniform.bind holds fun _ => uniform.pure _

theorem lexpr {expr : ι → P W Str} (holds : Inner expr) :
    Inner fun member => lexpr outside (expr member) := by
  have right : Inner fun member => expr member >>= fun text =>
      Pure.pure (truth (text == "1".toList)) :=
    uniform.bind holds fun _ => uniform.pure _
  apply uniform.bind holds
  intro left
  apply uniform.bind uniform.tokenType
  intro type
  cases type with
  | and =>
      apply uniform.bind uniform.getToken
      intro _
      cases left == "1".toList with
      | true => exact right
      | false => exact uniform.pure _
  | or =>
      apply uniform.bind uniform.getToken
      intro _
      cases left == "1".toList with
      | true => exact uniform.pure _
      | false => exact right
  | lt | gt | eq | ltEq | gtEq | notEq =>
      exact uniform.compareWith left _ _ holds
  | _ => exact uniform.pure left

theorem binary {operand : ι → P W Str} (left : Str)
    (operation : outside.dcl.Double → outside.dcl.Double →
      outside.dcl.Double) (holds : Inner operand) :
    Inner fun member => binary outside (operand member) left operation := by
  apply uniform.bind uniform.getToken
  intro _
  exact uniform.bind (uniform.operands left holds) fun _ => uniform.pure _

theorem exprLoop {term : ι → P W Str} (holds : Inner term) (budget : Nat) :
    ∀ left, Inner fun member => exprLoop outside (term member) budget left := by
  induction budget with
  | zero => exact fun _ => uniform.timeout
  | succ budget induction =>
      intro left
      apply uniform.bind uniform.tokenType
      intro type
      cases type with
      | plus | minus =>
          exact uniform.bind (uniform.binary left _ holds) induction
      | _ => exact uniform.pure left

theorem expr {term : ι → P W Str} (holds : Inner term) (budget : Nat) :
    Inner fun member => expr outside (term member) budget := by
  apply uniform.bind holds
  intro left
  exact uniform.tryCatch (uniform.exprLoop holds budget left)
    uniform.convertException

theorem termLoop {prim : ι → P W Str} (holds : Inner prim) (budget : Nat) :
    ∀ left, Inner fun member => termLoop outside (prim member) budget left := by
  induction budget with
  | zero => exact fun _ => uniform.timeout
  | succ budget induction =>
      intro left
      apply uniform.bind uniform.tokenType
      intro type
      cases type with
      | mul | div | mod | pwr =>
          exact uniform.bind (uniform.binary left _ holds) induction
      | _ => exact uniform.pure left

theorem term {prim : ι → P W Str} (holds : Inner prim) (budget : Nat) :
    Inner fun member => term outside (prim member) budget := by
  apply uniform.bind holds
  intro left
  exact uniform.tryCatch (uniform.termLoop holds budget left)
    uniform.convertException

variable {function : ι → Str → Str → M W Str}
  (functions : ∀ name params, Outer fun member => function member name params)
include functions

theorem prim (budget : Nat) :
    Inner fun member => prim outside (function member) budget := by
  induction budget with
  | zero => exact uniform.timeout
  | succ budget induction =>
      apply uniform.bind uniform.tokenType
      intro type
      cases type with
      | func =>
          apply uniform.bind uniform.getToken
          intro _
          apply uniform.bind (uniform.read id)
          intro lexer
          apply uniform.bind (uniform.lift (functions _ _))
          intro result
          exact uniform.bind uniform.dropValue fun _ => uniform.pure result
      | number =>
          apply uniform.bind uniform.getToken
          intro _
          apply uniform.bind (uniform.read Lexer.value)
          intro result
          exact uniform.bind uniform.dropValue fun _ => uniform.pure result
      | name => exact uniform.bind uniform.getToken fun _ => uniform.lookup
      | minus =>
          apply uniform.bind uniform.getToken
          intro _
          apply uniform.tryCatch _ uniform.convertException
          apply uniform.bind induction
          intro text
          exact uniform.bind (uniform.number text) fun _ => uniform.pure _
      | not =>
          apply uniform.bind uniform.getToken
          intro _
          exact uniform.bind induction fun _ => uniform.pure _
      | lp =>
          apply uniform.bind uniform.getToken
          intro _
          apply uniform.bind
            (uniform.lexpr (uniform.expr (uniform.term induction budget) budget))
          intro result
          apply uniform.bind uniform.tokenType
          intro type
          cases type == .rp with
          | true =>
              exact uniform.bind uniform.getToken fun _ => uniform.pure result
          | false => exact uniform.throw _
      | «end» => exact uniform.pure _
      | _ => exact uniform.throw _

theorem calculate (expression : Str) :
    Outer fun member => calculate outside (function member) expression := by
  apply uniform.within
  apply uniform.bind uniform.getToken
  intro _
  apply uniform.bind uniform.tokenType
  intro type
  cases type == .end with
  | true => exact uniform.pure _
  | false =>
      exact uniform.lexpr
        (uniform.expr (uniform.term (uniform.prim functions _) _) _)

theorem evalLoop {inner : ι → Str → M W Str}
    (holds : ∀ text, Outer fun member => inner member text) (text : Str) :
    ∀ prev count group out, Outer fun member =>
      evalLoop outside (function member) (inner member) text prev count group
        out := by
  induction text with
  | nil =>
      intro prev count group out
      unfold Evaluator.evalLoop
      by_cases unbalanced : count ≠ 0
      · simp only [if_pos unbalanced]
        exact uniform.outerThrow _
      · simp only [if_neg unbalanced]
        exact uniform.outerPure _
  | cons c rest induction =>
      intro prev count group out
      simp only [Evaluator.evalLoop]
      cases prev == '\\' with
      | true => exact induction _ _ _ _
      | false =>
          cases c == '\\' with
          | true => exact induction _ _ _ _
          | false =>
              cases c == '\x7b' with
              | true => exact induction _ _ _ _
              | false =>
                  cases c == '\x7d' with
                  | true =>
                      by_cases closing : count - 1 = 0
                      · simp only [if_pos closing]
                        apply uniform.outerBind (holds group)
                        intro expression
                        apply uniform.outerBind
                          (uniform.calculate functions expression)
                        intro value
                        exact induction _ _ _ _
                      · simp only [if_neg closing]
                        exact induction _ _ _ _
                  | false =>
                      by_cases inside : count > 0
                      · simp only [if_pos inside]
                        exact induction _ _ _ _
                      · simp only [if_neg inside]
                        exact induction _ _ _ _

theorem eval (budget : Nat) :
    ∀ text, Outer fun member => eval outside (function member) budget text := by
  induction budget with
  | zero => exact fun _ => uniform.outerTimeout
  | succ budget induction =>
      intro text
      exact uniform.evalLoop functions induction text _ _ _ _

theorem evaluate (text : Str) :
    Outer fun member => evaluate outside (function member) text :=
  uniform.eval functions _ text

end Uniform

/-- A property of the programs that parse, and one of the programs around
them, which the evaluator inherits. -/
structure Closed (outside : Outside W)
    (Inner : ∀ {α : Type}, P W α → Prop)
    (Outer : ∀ {α : Type}, M W α → Prop) : Prop where
  pure : ∀ {α : Type} (result : α), Inner (Pure.pure result : P W α)
  bind : ∀ {α β : Type} {first : P W α} {next : α → P W β},
    Inner first → (∀ result, Inner (next result)) → Inner (first >>= next)
  throw : ∀ {α : Type} (exception : Exc),
    Inner (Prog.throw exception : P W α)
  timeout : ∀ {α : Type}, Inner (Prog.halt .timeout : P W α)
  tryCatch : ∀ {α : Type} {body : P W α} {handler : Exc → P W α},
    Inner body → (∀ exception, Inner (handler exception)) →
    Inner (body.tryCatch handler)
  getToken : Inner (getToken outside)
  read : ∀ {α : Type} (view : Lexer → α),
    Inner (Prog.read fun state => view state.2)
  dropValue : Inner
    (Prog.modify fun state => (state.1, { state.2 with value := [] }))
  /-- The name of the token is read and dropped, then it is looked up. -/
  lookup : Inner (do
    let name ← Prog.read fun state => state.2.name
    Prog.modify fun state => (state.1, { state.2 with name := [] })
    Prog.lift (M.getValue name))
  lift : ∀ {program : M W Str}, Outer program → Inner program.lift
  within : ∀ {expression : Str} {body : P W Str}, Inner body →
    Outer (body.within ⟨expression, outside.rawToken, [], []⟩)
  outerPure : ∀ result : Str, Outer (Pure.pure result : M W Str)
  outerBind : ∀ {first : M W Str} {next : Str → M W Str},
    Outer first → (∀ result, Outer (next result)) → Outer (first >>= next)
  outerThrow : ∀ exception, Outer (Prog.throw exception : M W Str)
  outerTimeout : Outer (Prog.halt .timeout : M W Str)

namespace Closed

/-- A property of programs is one of families of one. -/
theorem uniform {outside : Outside W} {Inner : ∀ {α : Type}, P W α → Prop}
    {Outer : ∀ {α : Type}, M W α → Prop}
    (closed : Closed outside Inner Outer) :
    Uniform outside (fun family : Unit → _ => Inner (family ()))
      (fun family => Outer (family ())) where
  pure := closed.pure
  bind := closed.bind
  throw := closed.throw
  timeout := closed.timeout
  tryCatch := closed.tryCatch
  getToken := closed.getToken
  read := closed.read
  dropValue := closed.dropValue
  lookup := closed.lookup
  lift := closed.lift
  within := closed.within
  outerPure := closed.outerPure
  outerBind := closed.outerBind
  outerThrow := closed.outerThrow
  outerTimeout := closed.outerTimeout

theorem evaluate {outside : Outside W} {Inner : ∀ {α : Type}, P W α → Prop}
    {Outer : ∀ {α : Type}, M W α → Prop}
    (closed : Closed outside Inner Outer) {function : Str → Str → M W Str}
    (functions : ∀ name params, Outer (function name params)) (text : Str) :
    Outer (evaluate outside function text) :=
  @Uniform.evaluate _ _ _ _ _ closed.uniform (fun _ => function) functions text

end Closed

end Evaluator

namespace Function

/-- A property of families of programs that the functions built in inherit
from the evaluation of their arguments. -/
structure Uniform (api : FunctionApi W)
    (Holds : ∀ {α : Type}, (ι → M W α) → Prop) : Prop where
  pure : ∀ {α : Type} (result : α),
    Holds fun _ => (Pure.pure result : M W α)
  bind : ∀ {α β : Type} {first : ι → M W α} {next : ι → α → M W β},
    Holds first → (∀ result, Holds fun member => next member result) →
    Holds fun member => first member >>= next member
  throw : ∀ {α : Type} (exception : Exc),
    Holds fun _ => (Prog.throw exception : M W α)
  fault : ∀ {α : Type}, Holds fun _ => (Prog.halt .fault : M W α)
  emit : ∀ out, Holds fun _ => (Prog.emit out : M W Unit)
  uuid : Holds fun _ => M.io api.uuid
  rand : Holds fun _ => M.io api.rand
  time : Holds fun _ => M.io api.time
  getenv : ∀ name, Holds fun _ => M.io (api.getenv name)
  locale : Holds fun _ => (M.getValue "@LANG_LOCALE@".toList : M W Str)
  domain : Holds fun _ => (M.getValue "@LANG_DOMAIN@".toList : M W Str)

namespace Uniform

variable {family : Family W ι} {Holds : ∀ {α : Type}, (ι → M W α) → Prop}
  (uniform : Uniform family.outside.functions Holds)
include uniform

theorem checkCount (expected : Nat) : Holds fun member =>
    checkCount (family.interp member) (family.self member) expected := by
  simp only [Function.checkCount, family.shared]
  exact Prog.Uniform.ite (uniform.pure _) (uniform.throw _)

theorem ofExcept {α : Type} (result : Except Exc α) :
    Holds fun _ => (ofExcept result : M W α) := by
  cases result with
  | ok result => exact uniform.pure result
  | error exception => exact uniform.throw exception

theorem int (text : Str) :
    Holds fun _ => (M.int family.outside.dcl text : M W Int) := by
  unfold M.int
  cases family.outside.dcl.fromStringInt text with
  | some value => exact uniform.pure value
  | none => exact uniform.throw _

variable (holds : ∀ param ∈ family.tag.params, Holds fun member =>
  (family.interp member).executeParam (family.self member) param.2)
include holds

theorem getParameter (name : String) : Holds fun member =>
    (family.interp member).getParameter (family.self member) name := by
  have search : ∀ member, (family.self member).findParam name.toList =
      (family.tag.params.find? fun param => param.1 == name.toList).map
        Prod.snd := fun _ => rfl
  simp only [Interp.getParameter, search]
  cases found : (family.tag.params.find? fun param =>
      param.1 == name.toList).map Prod.snd with
  | none => exact uniform.pure _
  | some text =>
      obtain ⟨param, there, rfl⟩ := Option.map_eq_some_iff.mp found
      exact holds param (List.mem_of_find?_eq_some there)

theorem first : Holds fun member =>
    first (family.interp member) (family.self member) := by
  simp only [Function.first, family.shared]
  cases params : family.tag.params with
  | nil => exact uniform.fault
  | cons param rest =>
      apply holds param
      rw [params]
      exact List.mem_cons_self

theorem unary {result : Str → M W Str}
    (computes : ∀ text, Holds fun _ => result text) : Holds fun member =>
      unary (family.interp member) (family.self member) result := by
  apply uniform.bind (uniform.checkCount 1)
  intro _
  apply uniform.bind (uniform.first holds)
  intro text
  exact uniform.bind (computes text) fun _ => uniform.emit _

theorem pair (left right : String) : Holds fun member =>
    pair (family.interp member) (family.self member) left right := by
  simp only [Function.pair, family.shared]
  apply Prog.Uniform.ite
  · apply uniform.bind (uniform.getParameter holds left)
    intro leftValue
    exact uniform.bind (uniform.getParameter holds right) fun _ =>
      uniform.pure _
  · apply uniform.bind (uniform.getParameter holds right)
    intro rightValue
    exact uniform.bind (uniform.getParameter holds left) fun _ =>
      uniform.pure _

theorem rnd : Holds fun member =>
    rnd (family.interp member) (family.self member) := by
  simp only [Function.rnd, family.shared]
  apply Prog.Uniform.ite
  · apply uniform.bind (uniform.first holds)
    intro text
    apply uniform.bind (uniform.int text)
    intro base
    apply uniform.bind uniform.rand
    intro random
    exact Prog.Uniform.ite uniform.fault (uniform.emit _)
  · exact uniform.bind uniform.rand fun _ => uniform.emit _

theorem concatenate : Holds fun member =>
    concatenate (family.interp member) (family.self member) := by
  have params (list : List (Str × Str))
      (inside : ∀ param ∈ list, param ∈ family.tag.params) :
      Holds fun member => Prog.forEach (fun param => do
        Prog.emit (← (family.interp member).executeParam (family.self member)
          param.2)) list := by
    induction list with
    | nil => exact uniform.pure ()
    | cons param list induction =>
        have here := holds param (inside param List.mem_cons_self)
        apply uniform.bind (uniform.bind here fun _ => uniform.emit _)
        intro _
        apply induction
        intro other later
        exact inside other (List.mem_cons_of_mem param later)
  exact params family.tag.params fun _ member => member

theorem execute (builtin : Builtin) : Holds fun member =>
    execute (family.interp member) (family.self member) builtin := by
  have parameter := uniform.getParameter holds
  have checked := uniform.checkCount
  have computed (result : Str → Str) : Holds fun member =>
      Function.unary (family.interp member) (family.self member) fun text =>
        Pure.pure (result text) :=
    uniform.unary holds fun text => uniform.pure (result text)
  cases builtin with
  | iif =>
      apply uniform.bind (checked 3)
      intro _
      apply uniform.bind (parameter "arg1")
      intro what
      apply Prog.Uniform.ite
      · exact uniform.bind (parameter "arg3") fun _ => uniform.emit _
      · exact uniform.bind (parameter "arg2") fun _ => uniform.emit _
  | byte =>
      have converted (text : Str) : Holds fun _ : ι => (do
          let code ← M.int family.outside.dcl text
          Pure.pure [Char.ofNat (code % 256).toNat] : M W Str) :=
        uniform.bind (uniform.int text) fun _ => uniform.pure _
      exact uniform.unary holds converted
  | concatenate => exact uniform.concatenate holds
  | pos =>
      apply uniform.bind (checked 2)
      intro _
      apply uniform.bind (parameter "arg1")
      intro what
      apply uniform.bind (parameter "arg2")
      intro place
      cases findFrom place what 0 with
      | some found => exact uniform.emit _
      | none => exact uniform.emit _
  | crypt =>
      apply uniform.bind (checked 2)
      intro _
      apply uniform.bind (uniform.pair holds "arg1" "arg2")
      intro values
      exact uniform.emit
        (family.outside.functions.crypt (cString values.1) (cString values.2))
  | uuid => exact uniform.bind uniform.uuid fun _ => uniform.emit _
  | rnd => exact uniform.rnd holds
  | dateUtc =>
      apply uniform.bind (checked 1)
      intro _
      apply uniform.bind (parameter "arg1")
      intro text
      exact uniform.bind
        (uniform.ofExcept (family.outside.functions.dateAsGmt text))
        fun _ => uniform.emit _
  | dateFrom =>
      apply uniform.bind (checked 2)
      intro _
      apply uniform.bind (uniform.pair holds "arg1" "arg2")
      intro texts
      exact uniform.bind
        (uniform.ofExcept
          (family.outside.functions.date texts.1 texts.2 "%s".toList))
        fun _ => uniform.emit _
  | dateFmt =>
      apply uniform.bind (checked 2)
      intro _
      apply uniform.bind (parameter "arg2")
      intro text
      apply uniform.bind (parameter "arg1")
      intro format
      exact uniform.bind
        (uniform.ofExcept
          (family.outside.functions.date text "%s".toList format))
        fun _ => uniform.emit _
  | now => exact uniform.bind uniform.time fun _ => uniform.emit _
  | env =>
      apply uniform.bind (checked 1)
      intro _
      apply uniform.bind (parameter "arg1")
      intro name
      apply uniform.bind (uniform.getenv (cString name))
      intro value
      cases value with
      | none => exact uniform.pure _
      | some value => exact uniform.emit _
  | translate =>
      have translated (text : Str) : Holds fun _ : ι => (do
          let locale ← M.getValue "@LANG_LOCALE@".toList
          let domain ← M.getValue "@LANG_DOMAIN@".toList
          Pure.pure (family.outside.functions.translate locale domain text) :
          M W Str) := by
        apply uniform.bind uniform.locale
        intro locale
        exact uniform.bind uniform.domain fun _ => uniform.pure _
      exact uniform.unary holds translated
  | trim => exact computed family.outside.dcl.trim
  | length => exact computed fun text => (Nat.repr text.length).toList
  | encodeBase64 => exact computed family.outside.functions.encodeBase64
  | decodeBase64 => exact computed family.outside.functions.decodeBase64
  | md5 => exact computed family.outside.functions.md5
  | sha256 => exact computed family.outside.functions.sha256
  | upper =>
      exact computed fun text =>
        (streamChars text).map family.outside.functions.toUpper
  | lower =>
      exact computed fun text =>
        (streamChars text).map family.outside.functions.toLower
  | urlencode => exact computed family.outside.dcl.urlEncode
  | urldecode => exact computed family.outside.dcl.urlDecode

end Uniform

/-- A property that the functions built in inherit from the evaluation of
their arguments. -/
structure Closed (api : FunctionApi W)
    (Holds : ∀ {α : Type}, M W α → Prop) : Prop where
  pure : ∀ {α : Type} (result : α), Holds (Pure.pure result : M W α)
  bind : ∀ {α β : Type} {first : M W α} {next : α → M W β},
    Holds first → (∀ result, Holds (next result)) → Holds (first >>= next)
  throw : ∀ {α : Type} (exception : Exc),
    Holds (Prog.throw exception : M W α)
  fault : ∀ {α : Type}, Holds (Prog.halt .fault : M W α)
  emit : ∀ out, Holds (Prog.emit out : M W Unit)
  uuid : Holds (M.io api.uuid)
  rand : Holds (M.io api.rand)
  time : Holds (M.io api.time)
  getenv : ∀ name, Holds (M.io (api.getenv name))
  locale : Holds (M.getValue "@LANG_LOCALE@".toList : M W Str)
  domain : Holds (M.getValue "@LANG_DOMAIN@".toList : M W Str)

namespace Closed

/-- A property of programs is one of families of one. -/
theorem uniform {api : FunctionApi W} {Holds : ∀ {α : Type}, M W α → Prop}
    (closed : Closed api Holds) :
    Uniform api fun family : Unit → _ => Holds (family ()) where
  pure := closed.pure
  bind := closed.bind
  throw := closed.throw
  fault := closed.fault
  emit := closed.emit
  uuid := closed.uuid
  rand := closed.rand
  time := closed.time
  getenv := closed.getenv
  locale := closed.locale
  domain := closed.domain

theorem execute {interp : Interp W} {self : Loc}
    {Holds : ∀ {α : Type}, M W α → Prop}
    (closed : Closed interp.outside.functions Holds)
    (holds : ∀ param ∈ self.tag.params,
      Holds (interp.executeParam self param.2)) (builtin : Builtin) :
    Holds (execute interp self builtin) := by
  let family : Family W Unit :=
    ⟨interp.outside, interp.budget, fun _ => interp.run,
      fun _ => interp.evaluate, self.tag, fun _ => self.up, fun _ => none⟩
  have uniform : Uniform family.outside.functions
      fun family : Unit → _ => Holds (family ()) := closed.uniform
  exact uniform.execute holds builtin

end Closed

end Function

end DbPager
