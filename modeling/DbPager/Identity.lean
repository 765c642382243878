import DbPager.Bindings
import DbPager.Plain

/-!
# The identity of an LDAP connection

An `ldap:bind` binds the connection with its own credentials, executes its
children, and then binds again with what the enclosing tag has left in two
variables.  The statements follow a run through nested tags and say when the
connection has the identity of the innermost enclosing `ldap:bind`.
-/

namespace DbPager

open Effect

variable {W : Type}

namespace Ldap

/-- What an `ldap:bind` binds with. -/
structure Login where
  dn : Str
  password : Str

/-- The name under which the directory knows the login: what a C string shows of
the `dn`. -/
def Login.subject (login : Login) : Str :=
  cString login.dn

/-- Where a tag stands: the credentials in the variables of `ldap:bind` and the
identity of the innermost enclosing `ldap:bind` of the connection, which is
empty when there is none.  The two differ when the connection itself is opened
inside an `ldap:bind` of another one. -/
structure Scope extends Login where
  identity : Str

/-- Where the children of an `ldap:bind` stand. -/
def Login.scope (login : Login) : Scope :=
  ⟨login, login.subject⟩

/-- A new connection is anonymous; a successful bind sets the identity of the
connection, where no name means anonymous, a failed one drops it to anonymous,
and a search leaves it alone. -/
structure IdentityLaws (api : LdapApi W) (identity : W → Nat → Str) : Prop where
  connected : ∀ href world connection,
    (api.connect href world).2 = .value connection →
    identity (api.connect href world).1 connection = []
  accepted : ∀ connection name password world,
    (api.saslBind connection name password world).2 = none →
    identity (api.saslBind connection name password world).1 connection =
      name.getD []
  denied : ∀ connection name password world message,
    (api.saslBind connection name password world).2 = some message →
    identity (api.saslBind connection name password world).1 connection = []
  searched : ∀ connection base filter world,
    identity (api.search connection base filter world).1 connection =
      identity world connection

/-- The searches are counted, and nothing else is. -/
structure Counts (api : LdapApi W) (searches : W → Nat) : Prop where
  search : ∀ connection base filter world,
    searches (api.search connection base filter world).1 = searches world + 1
  bind : ∀ connection name password world,
    searches (api.saslBind connection name password world).1 = searches world

section Bind

variable {api : LdapApi W} {identity : W → Nat → Str} {connection : Nat}
  {dn password : Str} {world after : W}

/-- The call of OpenLDAP that a bind makes. -/
theorem bind_cases (api : LdapApi W) (connection : Nat) (dn password : Str)
    (world : W) :
    ∃ name credentials, name.getD [] = cString dn ∧
      api.bind connection dn password world =
        ((api.saslBind connection name credentials world).1,
          match (api.saslBind connection name credentials world).2 with
          | none => .value ()
          | some message => .error (.dbp message)) := by
  cases anonymous : dn.isEmpty && password.isEmpty with
  | true =>
      refine ⟨none, none, ?_, ?_⟩
      · simp only [Bool.and_eq_true, List.isEmpty_iff] at anonymous
        rw [anonymous.1]
        rfl
      · unfold LdapApi.bind
        rw [anonymous]
        rfl
  | false =>
      refine ⟨some (cString dn), some password, rfl, ?_⟩
      unfold LdapApi.bind
      rw [anonymous]
      rfl

theorem IdentityLaws.bound (laws : IdentityLaws api identity)
    (ran : api.bind connection dn password world = (after, .value ())) :
    identity after connection = cString dn := by
  obtain ⟨name, credentials, named, binds⟩ :=
    bind_cases api connection dn password world
  rw [binds] at ran
  cases answer : (api.saslBind connection name credentials world).2 with
  | none =>
      rw [answer] at ran
      cases ran
      rw [laws.accepted _ _ _ _ answer, named]
  | some message =>
      rw [answer] at ran
      cases ran

theorem IdentityLaws.refused (laws : IdentityLaws api identity)
    {exception : Exc}
    (ran : api.bind connection dn password world = (after, .error exception)) :
    identity after connection = [] := by
  obtain ⟨name, credentials, -, binds⟩ :=
    bind_cases api connection dn password world
  rw [binds] at ran
  cases answer : (api.saslBind connection name credentials world).2 with
  | none =>
      rw [answer] at ran
      cases ran
  | some message =>
      rw [answer] at ran
      cases ran
      exact laws.denied _ _ _ _ _ answer

theorem Counts.bound {searches : W → Nat} (counts : Counts api searches)
    {outcome : Outcome Exc Unit}
    (ran : api.bind connection dn password world = (after, outcome)) :
    searches after = searches world := by
  obtain ⟨name, credentials, -, binds⟩ :=
    bind_cases api connection dn password world
  rw [binds] at ran
  cases ran
  exact counts.bind connection name credentials world

end Bind

/-- The variables of `ldap:bind` and the identity of the connection are as they
were. -/
structure Undisturbed (identity : W → Nat → Str) (connection : Nat)
    (before after : St W) : Prop where
  dn : bindings bindDn after.contexts = bindings bindDn before.contexts
  password : bindings bindPw after.contexts = bindings bindPw before.contexts
  same : identity after.world connection = identity before.world connection

/-- The variables of `ldap:bind` and the connection are those of the enclosing
tag. -/
structure Inside (identity : W → Nat → Str) (connection : Nat)
    (enclosing : Scope) (state : St W) : Prop where
  chain : state.contexts ≠ []
  dn : Chain.getValue bindDn state.contexts = enclosing.dn
  password : Chain.getValue bindPw state.contexts = enclosing.password
  same : identity state.world connection = enclosing.identity

section Invariant

variable {identity : W → Nat → Str} {connection : Nat} {enclosing : Scope}
  {before middle after : St W}

theorem Undisturbed.refl (state : St W) :
    Undisturbed identity connection state state :=
  ⟨rfl, rfl, rfl⟩

theorem Undisturbed.trans
    (first : Undisturbed identity connection before middle)
    (second : Undisturbed identity connection middle after) :
    Undisturbed identity connection before after :=
  ⟨second.dn.trans first.dn, second.password.trans first.password,
    second.same.trans first.same⟩

theorem Inside.undisturbed
    (inside : Inside identity connection enclosing before)
    (same : Undisturbed identity connection before after) :
    Inside identity connection enclosing after :=
  ⟨chain_of_bindings same.dn inside.chain,
    (getValue_of_bindings same.dn).trans inside.dn,
    (getValue_of_bindings same.password).trans inside.password,
    same.same.trans inside.same⟩

/-- A layer that is left again is no disturbance. -/
theorem Undisturbed.dropLayer {layer : Vars}
    (same : Undisturbed identity connection (before.withLayer layer) after) :
    Undisturbed identity connection before after.dropLayer :=
  ⟨bindings_left same.dn, bindings_left same.password, same.same⟩

theorem Inside.withLayer
    (inside : Inside identity connection enclosing before) :
    Inside identity connection enclosing (before.withLayer ∅) := by
  have chain := inside.chain
  refine ⟨?_, ?_, ?_, inside.same⟩
  · rcases before with ⟨_ | ⟨context, parents⟩⟩
    · exact absurd rfl chain
    · exact List.cons_ne_nil _ _
  · rw [St.withLayer, Chain.getValue_withLayer _ _ chain, inside.dn]
    rfl
  · rw [St.withLayer, Chain.getValue_withLayer _ _ chain, inside.password]
    rfl

end Invariant

/-! ## What happens in a run -/

/-- How an `ldap:bind` ends: its bind is refused, its children raise an
exception, or they return; then the Boolean says whether the enclosing
credentials are accepted again, if there are any. -/
inductive Ending where
  | refused
  | raised
  | returned (again : Bool)

/-- What happens under an enclosing `ldap:bind`, with the identity of the
connection at that moment. -/
inductive Happening where
  | searched (enclosing : Scope) (identity : Str)
  | ended (enclosing : Scope) (own : Login) (ending : Ending) (identity : Str)

namespace Happening

/-- The connection has the identity of the enclosing `ldap:bind`. -/
def Right : Happening → Prop
  | searched enclosing identity => identity = enclosing.identity
  | ended enclosing _ _ identity => identity = enclosing.identity

/-- The way in which the tag ends restores the identity. -/
def Restores : Happening → Prop
  | searched _ _ => True
  | ended enclosing own ending _ =>
      match ending with
      | .refused => enclosing.identity = []
      | .raised => own.subject = enclosing.identity
      | .returned again =>
          if enclosing.dn ≠ [] ∧ enclosing.password ≠ [] then
            again = true ∧ enclosing.subject = enclosing.identity
          else own.subject = enclosing.identity

/-- The name of the enclosing `ldap:bind` is not cut down to nothing. -/
def Named : Happening → Prop
  | searched _ _ => True
  | ended enclosing _ _ _ => enclosing.dn ≠ [] → enclosing.subject ≠ []

/-- How many searches there are. -/
def searches (happened : List Happening) : Nat :=
  happened.countP fun
    | searched _ _ => true
    | ended .. => false

theorem searches_append (first second : List Happening) :
    searches (first ++ second) = searches first + searches second :=
  List.countP_append

theorem searches_searched (enclosing : Scope) (identity : Str)
    (happened : List Happening) :
    searches (searched enclosing identity :: happened) =
      searches happened + 1 :=
  List.countP_cons_of_pos rfl

theorem searches_ended (enclosing : Scope) (own : Login) (ending : Ending)
    (identity : Str) : searches [ended enclosing own ending identity] = 0 :=
  rfl

end Happening

/-- The layer of an `ldap:bind`. -/
def bindLayer (login : Login) : Vars :=
  ((∅ : Vars).insert (upName bindDn) login.dn).insert (upName bindPw)
    login.password

/-- The state in which the children of an `ldap:bind` are executed. -/
def bound (login : Login) (asked : St W) (world : W) : St W :=
  { asked.withLayer (bindLayer login) with world }

theorem world_bound (login : Login) (asked : St W) (world : W) :
    (bound login asked world).world = world :=
  rfl

/-- The program that computes the parameters of a tag and its connection. -/
def parameters (interp : Interp W) (self : Loc) (names : List String) :
    M W Unit := do
  Prog.forEach (fun name => do let _ ← interp.getParameter self name) names
  let _ ← pointer interp

/-- The parameters of an `ldap:bind` and the connection it finds. -/
def Asks (interp : Interp W) (self : Loc) (connection : Nat) (login : Login)
    (state asked : St W) : Prop :=
  ∃ first second,
    interp.getParameter self "dn" state = ⟨first, [], .value login.dn⟩ ∧
    interp.getParameter self "password" first =
      ⟨second, [], .value login.password⟩ ∧
    pointer interp second = ⟨asked, [], .value connection⟩

/-- How an `ldap:bind` goes on when its children have come to an end. -/
inductive Leaves (api : LdapApi W) (connection : Nat) (last : St W) :
    Outcome Exc Unit → Ending → St W → Outcome Exc Unit → Prop where
  | raised {exception : Exc} :
      Leaves api connection last (.error exception) .raised last.dropLayer
        (.error exception)
  | kept (missing : Chain.getValue bindDn last.dropLayer.contexts = [] ∨
        Chain.getValue bindPw last.dropLayer.contexts = []) :
      Leaves api connection last (.value ()) (.returned true) last.dropLayer
        (.value ())
  | rebound {world : W}
      (dn : Chain.getValue bindDn last.dropLayer.contexts ≠ [])
      (password : Chain.getValue bindPw last.dropLayer.contexts ≠ [])
      (accepted : api.bind connection
        (Chain.getValue bindDn last.dropLayer.contexts)
        (Chain.getValue bindPw last.dropLayer.contexts) last.world =
          (world, .value ())) :
      Leaves api connection last (.value ()) (.returned true)
        { last.dropLayer with world } (.value ())
  | denied {world : W} {exception : Exc}
      (dn : Chain.getValue bindDn last.dropLayer.contexts ≠ [])
      (password : Chain.getValue bindPw last.dropLayer.contexts ≠ [])
      (denied : api.bind connection
        (Chain.getValue bindDn last.dropLayer.contexts)
        (Chain.getValue bindPw last.dropLayer.contexts) last.world =
          (world, .error exception))
      (layered : last.dropLayer.Layered) :
      Leaves api connection last (.value ()) (.returned false)
        (St.record (.leak .ldapRebind)
          { last.dropLayer with world }).dropLayer (.error exception)

/-- The runs inside of one `ldap:connection`, with what happens in them.  The
tags between those of the module compute in any way that leaves the variables
and the connection alone and searches nothing; a parameter may itself run tags
of the module. -/
inductive Runs (api : LdapApi W) (identity : W → Nat → Str)
    (searches : W → Nat) (connection : Nat) :
    Scope → M W Unit → St W → List Happening → St W → Outcome Exc Unit →
      Prop where
  | aside {enclosing : Scope} {program : M W Unit} {state final : St W}
      {out : Str} {outcome : Outcome Exc Unit}
      (ran : program state = ⟨final, out, outcome⟩)
      (undisturbed : Undisturbed identity connection state final)
      (quiet : searches final.world = searches state.world) :
      Runs api identity searches connection enclosing program state [] final
        outcome
  | search {enclosing : Scope} {interp : Interp W} {self : Loc}
      {caller : Option Loc} {state asked final : St W} {base filter : Str}
      {rows : List (List (Str × Str))} {earlier happened : List Happening}
      {outcome : Outcome Exc Unit} (served : interp.outside.ldap = api)
      (asks : TagSearch.execute interp self caller state =
        (M.io (api.search connection base filter) >>= fun rows =>
          Prog.forEach (executeRow interp self caller) rows) asked)
      (asking : Runs api identity searches connection enclosing
        (parameters interp self ["base", "filter"]) state earlier asked
        (.value ()))
      (found : (api.search connection base filter asked.world).2 =
        .value rows)
      (later : Runs api identity searches connection enclosing
        (Prog.forEach (executeRow interp self caller) rows)
        { asked with
          world := (api.search connection base filter asked.world).1 }
        happened final outcome) :
      Runs api identity searches connection enclosing
        (TagSearch.execute interp self caller) state
        (earlier ++ (.searched enclosing (identity asked.world connection) ::
          happened)) final outcome
  | searchFails {enclosing : Scope} {interp : Interp W} {self : Loc}
      {caller : Option Loc} {state asked : St W} {base filter : Str}
      {earlier : List Happening} {exception : Exc}
      (served : interp.outside.ldap = api)
      (asks : TagSearch.execute interp self caller state =
        (M.io (api.search connection base filter) >>= fun rows =>
          Prog.forEach (executeRow interp self caller) rows) asked)
      (asking : Runs api identity searches connection enclosing
        (parameters interp self ["base", "filter"]) state earlier asked
        (.value ()))
      (failed : (api.search connection base filter asked.world).2 =
        .error exception) :
      Runs api identity searches connection enclosing
        (TagSearch.execute interp self caller) state
        (earlier ++ [.searched enclosing (identity asked.world connection)])
        { asked with
          world := (api.search connection base filter asked.world).1 }
        (.error exception)
  | refused {enclosing : Scope} {login : Login} {interp : Interp W} {self : Loc}
      {caller : Option Loc} {state asked : St W} {world : W}
      {earlier : List Happening} {exception : Exc}
      (served : interp.outside.ldap = api)
      (asks : Asks interp self connection login state asked)
      (asking : Runs api identity searches connection enclosing
        (parameters interp self ["dn", "password"]) state earlier asked
        (.value ()))
      (denied : api.bind connection login.dn login.password asked.world =
        (world, .error exception)) (chain : asked.contexts ≠ []) :
      Runs api identity searches connection enclosing
        (TagBind.execute interp self caller) state
        (earlier ++
          [.ended enclosing login .refused (identity world connection)])
        { asked with world } (.error exception)
  | bind {enclosing : Scope} {login : Login} {interp : Interp W} {self : Loc}
      {caller : Option Loc} {state asked last final : St W} {world : W}
      {earlier happened : List Happening} {how outcome : Outcome Exc Unit}
      {ending : Ending} (served : interp.outside.ldap = api)
      (asks : Asks interp self connection login state asked)
      (asking : Runs api identity searches connection enclosing
        (parameters interp self ["dn", "password"]) state earlier asked
        (.value ()))
      (accepted : api.bind connection login.dn login.password asked.world =
        (world, .value ())) (chain : asked.contexts ≠ [])
      (body : Runs api identity searches connection login.scope
        (interp.executeChilds self caller) (bound login asked world) happened
        last how) (layered : last.Layered)
      (leaves : Leaves api connection last how ending final outcome) :
      Runs api identity searches connection enclosing
        (TagBind.execute interp self caller) state
        (earlier ++ (happened ++
          [.ended enclosing login ending (identity final.world connection)]))
        final outcome
  | layer {enclosing : Scope} {program : M W Unit} {state last : St W}
      {happened : List Happening} {outcome : Outcome Exc Unit}
      (body : Runs api identity searches connection enclosing program
        (state.withLayer ∅) happened last outcome)
      (finished : outcome.Finished) (layered : last.Layered) :
      Runs api identity searches connection enclosing (M.withLayer program)
        state happened last.dropLayer outcome
  | next {enclosing : Scope} {program : M W Unit} {rest : Unit → M W Unit}
      {state middle final : St W} {first second : List Happening}
      {outcome : Outcome Exc Unit}
      (before : Runs api identity searches connection enclosing program state
        first middle (.value ()))
      (after : Runs api identity searches connection enclosing (rest ()) middle
        second final outcome) :
      Runs api identity searches connection enclosing (program >>= rest) state
        (first ++ second) final outcome
  | raises {enclosing : Scope} {program : M W Unit} {rest : Unit → M W Unit}
      {state final : St W} {happened : List Happening} {exception : Exc}
      (before : Runs api identity searches connection enclosing program state
        happened final (.error exception)) :
      Runs api identity searches connection enclosing (program >>= rest) state
        happened final (.error exception)
  | caught {enclosing : Scope} {program : M W Unit}
      {handler : Exc → M W Unit} {state middle final : St W}
      {first second : List Happening} {exception : Exc}
      {outcome : Outcome Exc Unit}
      (body : Runs api identity searches connection enclosing program state
        first middle (.error exception))
      (handled : Runs api identity searches connection enclosing
        (handler exception) middle second final outcome) :
      Runs api identity searches connection enclosing
        (Prog.tryCatch program handler) state (first ++ second) final outcome
  | same {enclosing : Scope} {program other : M W Unit} {state final : St W}
      {happened : List Happening} {out : Str} {outcome : Outcome Exc Unit}
      (runs : Runs api identity searches connection enclosing program state
        happened final outcome)
      (ran : other state = ⟨final, out, outcome⟩) :
      Runs api identity searches connection enclosing other state happened final
        outcome

/-! ## The identity in a run -/

section Proofs

variable {api : LdapApi W} {identity : W → Nat → Str} {searches : W → Nat}
  {connection : Nat} {enclosing : Scope} {login : Login} {interp : Interp W}
  {self : Loc}
  {caller : Option Loc} {program : M W Unit}
  {state asked last final : St W} {world : W} {happened : List Happening}
  {how outcome : Outcome Exc Unit} {ending : Ending}

/-- The program of an `ldap:bind` from where its parameters are known. -/
theorem execute_asked
    (asks : Asks interp self connection login state asked) :
    TagBind.execute interp self caller state =
      ((M.withLayer do
          M.addValue interp.dcl bindDn login.dn
          M.addValue interp.dcl bindPw login.password
          M.io (interp.outside.ldap.bind connection login.dn login.password)
          interp.executeChilds self caller) >>= fun _ =>
        (TagBind.rebind interp connection).onError (do
          M.record (.leak .ldapRebind)
          M.leave)) asked := by
  obtain ⟨first, second, dn, password, handle⟩ := asks
  unfold TagBind.execute
  rw [Prog.bind_silent dn, Prog.bind_silent password, Prog.bind_silent handle]

/-- The layer of the tag before the bind. -/
theorem addValues_eq (chain : asked.contexts ≠ []) (rest : M W Unit) :
    (do
      M.addValue interp.dcl bindDn login.dn
      M.addValue interp.dcl bindPw login.password
      rest) (asked.withLayer ∅) = rest (asked.withLayer (bindLayer login)) := by
  have dn : M.addValue interp.dcl bindDn login.dn (asked.withLayer ∅) =
      ⟨asked.withLayer ((∅ : Vars).insert (upName bindDn) login.dn), [],
        .value ()⟩ :=
    M.addValue_withLayer interp.dcl _ _ ∅ chain rfl
  have password : M.addValue interp.dcl bindPw login.password
      (asked.withLayer ((∅ : Vars).insert (upName bindDn) login.dn)) =
      ⟨asked.withLayer (bindLayer login), [], .value ()⟩ :=
    M.addValue_withLayer interp.dcl _ _ _ chain rfl
  rw [Prog.bind_silent dn, Prog.bind_silent password]

theorem refused_eq (asks : Asks interp self connection login state asked)
    {exception : Exc}
    (denied : interp.outside.ldap.bind connection login.dn login.password
      asked.world = (world, .error exception)) (chain : asked.contexts ≠ []) :
    TagBind.execute interp self caller state =
      ⟨{ asked with world }, [], .error exception⟩ := by
  let inside : St W := { asked.withLayer (bindLayer login) with world }
  have tried : M.io (interp.outside.ldap.bind connection login.dn
      login.password) (asked.withLayer (bindLayer login)) =
      ⟨inside, [], .error exception⟩ := M.io_eq denied
  have body : (do
      M.addValue interp.dcl bindDn login.dn
      M.addValue interp.dcl bindPw login.password
      M.io (interp.outside.ldap.bind connection login.dn login.password)
      interp.executeChilds self caller) (asked.withLayer ∅) =
      ⟨inside, [], .error exception⟩ :=
    (addValues_eq chain _).trans (Prog.bind_error tried _)
  obtain ⟨context, parents, split⟩ := List.exists_cons_of_ne_nil chain
  have layered : inside.Layered :=
    ⟨{ context with stack := bindLayer login :: context.stack }, parents,
      by simp [inside, St.withLayer, Chain.withLayer, split],
      List.cons_ne_nil _ _⟩
  have left : inside.dropLayer = { asked with world } := by
    simp [inside, St.dropLayer, St.mapHead, St.withLayer, Chain.withLayer,
      split, Context.dropLayer]
  rw [execute_asked asks, ← left]
  exact Prog.bind_error (M.withLayer_finished body trivial layered) _

/-- What an `ldap:bind` does when its children have returned. -/
def rebindOnce (interp : Interp W) (connection : Nat) : M W Unit :=
  (TagBind.rebind interp connection).onError do
    M.record (.leak .ldapRebind)
    M.leave

theorem rebind_missing
    (missing : Chain.getValue bindDn state.contexts = [] ∨
      Chain.getValue bindPw state.contexts = []) :
    TagBind.rebind interp connection state = ⟨state, [], .value ()⟩ := by
  have unbound : (!(Chain.getValue bindDn state.contexts).isEmpty &&
      !(Chain.getValue bindPw state.contexts).isEmpty) = false := by
    rcases missing with none | none <;> simp [none]
  unfold TagBind.rebind
  rw [Prog.bind_silent (M.getValue_eq bindDn _),
    Prog.bind_silent (M.getValue_eq bindPw _), unbound]
  rfl

theorem rebind_filled (dn : Chain.getValue bindDn state.contexts ≠ [])
    (password : Chain.getValue bindPw state.contexts ≠ []) :
    TagBind.rebind interp connection state =
      M.io (interp.outside.ldap.bind connection
        (Chain.getValue bindDn state.contexts)
        (Chain.getValue bindPw state.contexts)) state := by
  have filled : (!(Chain.getValue bindDn state.contexts).isEmpty &&
      !(Chain.getValue bindPw state.contexts).isEmpty) = true := by
    simp [dn, password]
  unfold TagBind.rebind
  rw [Prog.bind_silent (M.getValue_eq bindDn _),
    Prog.bind_silent (M.getValue_eq bindPw _), filled]
  rfl

theorem Leaves.rebinds (served : interp.outside.ldap = api)
    (leaves : Leaves api connection last (.value ()) ending final outcome) :
    rebindOnce interp connection last.dropLayer = ⟨final, [], outcome⟩ := by
  subst served
  cases leaves with
  | kept missing => exact Prog.onError_eq (rebind_missing missing) _
  | rebound dn password accepted =>
      have again : TagBind.rebind interp connection last.dropLayer = _ :=
        (rebind_filled dn password).trans (M.io_eq accepted)
      exact Prog.onError_eq again _
  | @denied world exception dn password refused layered =>
      have again : TagBind.rebind interp connection last.dropLayer = _ :=
        (rebind_filled dn password).trans (M.io_eq refused)
      let failed : St W := { last.dropLayer with world }
      have cleaned : (do
          M.record (.leak .ldapRebind)
          M.leave : M W Unit) failed =
          ⟨(failed.record (.leak .ldapRebind)).dropLayer, [], .value ()⟩ :=
        @M.leave_eq W (failed.record (.leak .ldapRebind)) layered
      refine (Prog.onError_error again _).trans ?_
      rw [cleaned]
      rfl

theorem Leaves.searches_eq (counts : Counts api searches)
    (leaves : Leaves api connection last how ending final outcome) :
    searches final.world = searches last.world := by
  cases leaves with
  | raised | kept => rfl
  | rebound _ _ accepted => exact counts.bound accepted
  | denied _ _ denied _ => exact counts.bound denied

/-- The children have come to an end in the layer of the tag. -/
theorem Leaves.ran (served : interp.outside.ldap = api)
    (layered : last.Layered) {out : Str} {body : M W Unit}
    (ran : body (asked.withLayer ∅) = ⟨last, out, how⟩)
    (leaves : Leaves api connection last how ending final outcome) :
    (M.withLayer body >>= fun _ => rebindOnce interp connection) asked =
      ⟨final, out, outcome⟩ := by
  cases how with
  | error exception =>
      cases leaves
      exact Prog.bind_error (M.withLayer_finished ran trivial layered) _
  | value result =>
      have left := M.withLayer_finished ran trivial layered
      rw [Prog.bind_eq left, leaves.rebinds served, List.append_nil]
  | halt reason => cases leaves

/-- Every run is the run of its program. -/
theorem Runs.ran
    (runs : Runs api identity searches connection enclosing program state
      happened final outcome) :
    ∃ out, program state = ⟨final, out, outcome⟩ := by
  induction runs with
  | aside ran _ _ => exact ⟨_, ran⟩
  | @search _ _ _ _ _ asked _ base filter _ _ _ _ served asks _ found _ _
      induction =>
      obtain ⟨out, ran⟩ := induction
      have answered : api.search connection base filter asked.world =
          ((api.search connection base filter asked.world).1, .value _) :=
        Prod.ext rfl found
      have searched := M.io_eq answered
      exact ⟨out, asks.trans ((Prog.bind_silent searched _).trans ran)⟩
  | @searchFails _ _ _ _ _ asked base filter _ _ served asks _ failed =>
      have answered : api.search connection base filter asked.world =
          ((api.search connection base filter asked.world).1, .error _) :=
        Prod.ext rfl failed
      have searched := M.io_eq answered
      exact ⟨[], asks.trans (Prog.bind_error searched _)⟩
  | refused served asks _ denied chain =>
      subst served
      exact ⟨[], refused_eq asks denied chain⟩
  | @bind _ login interp _ _ _ asked _ _ world _ _ _ _ _ served asks _ accepted
      chain _ layered leaves _ induction =>
      obtain ⟨out, ran⟩ := induction
      refine ⟨out, (execute_asked asks).trans ?_⟩
      refine leaves.ran served layered ((addValues_eq chain _).trans ?_)
      subst served
      have opened : M.io (interp.outside.ldap.bind connection login.dn
          login.password) (asked.withLayer (bindLayer login)) =
          ⟨bound login asked world, [], .value ()⟩ := M.io_eq accepted
      exact (Prog.bind_silent opened _).trans ran
  | layer _ finished layered induction =>
      obtain ⟨out, ran⟩ := induction
      exact ⟨out, M.withLayer_finished ran finished layered⟩
  | next _ _ first second =>
      obtain ⟨one, before⟩ := first
      obtain ⟨two, after⟩ := second
      refine ⟨one ++ two, ?_⟩
      rw [Prog.bind_eq before, after]
  | raises _ induction =>
      obtain ⟨out, ran⟩ := induction
      exact ⟨out, Prog.bind_error ran _⟩
  | caught _ _ first second =>
      obtain ⟨one, body⟩ := first
      obtain ⟨two, handled⟩ := second
      refine ⟨one ++ two, ?_⟩
      rw [Prog.tryCatch_error body, handled]
  | same _ ran _ => exact ⟨_, ran⟩

/-- When every tag restores the identity, it is the enclosing one at every
moment.  The converse needs a tag that stands under its own credentials. -/
structure Fits (own : Prop) (happened : List Happening) : Prop where
  right : (∀ happening ∈ happened, happening.Restores) →
    ∀ happening ∈ happened, happening.Right
  restores : own →
    (∀ happening ∈ happened, happening.Named ∧ happening.Right) →
    ∀ happening ∈ happened, happening.Restores

/-- What happens fits, and nothing is disturbed when every tag restores the
identity. -/
structure Follows (identity : W → Nat → Str) (connection : Nat) (own : Prop)
    (happened : List Happening) (state final : St W) : Prop
    extends Fits own happened where
  undisturbed : (∀ happening ∈ happened, happening.Restores) →
    Undisturbed identity connection state final

section Follows

variable {own : Prop} {middle : St W} {first second : List Happening}
  {happening : Happening}

theorem Fits.append (before : Fits own first)
    (after : (∀ happening ∈ first, happening.Restores) → Fits own second) :
    Fits own (first ++ second) := by
  have split (holds : Happening → Prop) :
      (∀ happening ∈ first ++ second, holds happening) ↔
        (∀ happening ∈ first, holds happening) ∧
          ∀ happening ∈ second, holds happening := List.forall_mem_append
  constructor
  · rw [split, split]
    rintro ⟨one, two⟩
    exact ⟨before.right one, (after one).right two⟩
  · intro stands
    rw [split, split]
    rintro ⟨one, two⟩
    have restores := before.restores stands one
    exact ⟨restores, (after restores).restores stands two⟩

theorem Follows.append (before : Fits own first)
    (after : (∀ happening ∈ first, happening.Restores) →
      Follows identity connection own second state final) :
    Follows identity connection own (first ++ second) state final := by
  refine ⟨before.append fun restores => (after restores).toFits, ?_⟩
  intro restores
  obtain ⟨one, two⟩ := List.forall_mem_append.mp restores
  exact (after one).undisturbed two

theorem Follows.behind
    (undisturbed : Undisturbed identity connection state middle)
    (follows : Follows identity connection own happened middle final) :
    Follows identity connection own happened state final :=
  ⟨follows.toFits, fun restores =>
    undisturbed.trans (follows.undisturbed restores)⟩

/-- One run behind the other. -/
theorem Follows.next
    (before : Follows identity connection own first state middle)
    (after : Undisturbed identity connection state middle →
      Follows identity connection own second middle final) :
    Follows identity connection own (first ++ second) state final := by
  apply Follows.append before.toFits
  intro restores
  have undisturbed := before.undisturbed restores
  exact (after undisturbed).behind undisturbed

theorem Follows.nothing
    (undisturbed : Undisturbed identity connection state final) :
    Follows identity connection own [] state final :=
  ⟨⟨fun _ => List.forall_mem_nil _, fun _ _ => List.forall_mem_nil _⟩,
    fun _ => undisturbed⟩

theorem Follows.single (right : happening.Restores → happening.Right)
    (restores : own → happening.Named ∧ happening.Right →
      happening.Restores)
    (kept : happening.Restores → Undisturbed identity connection state final) :
    Follows identity connection own [happening] state final := by
  refine ⟨⟨?_, ?_⟩, ?_⟩ <;> simpa only [List.forall_mem_singleton]

end Follows

/-- The children of an `ldap:bind` start with its own credentials. -/
theorem Inside.bound (chain : asked.contexts ≠ [])
    (set : identity world connection = login.subject) :
    Inside identity connection login.scope (bound login asked world) := by
  have other : upName bindDn ≠ upName bindPw := by decide
  obtain ⟨context, parents, split⟩ := List.exists_cons_of_ne_nil chain
  have dn : (bindLayer login).lookup (upName bindDn) = some login.dn := by
    rw [bindLayer, AList.lookup_insert_ne other, AList.lookup_insert]
  have password : (bindLayer login).lookup (upName bindPw) =
      some login.password := AList.lookup_insert _
  refine ⟨?_, ?_, ?_, set⟩
  · simp [Ldap.bound, St.withLayer, Chain.withLayer, split]
  · refine (Chain.getValue_withLayer bindDn (bindLayer login) chain).trans ?_
    rw [dn]
    rfl
  · refine (Chain.getValue_withLayer bindPw (bindLayer login) chain).trans ?_
    rw [password]
    rfl

namespace Happening

variable {again : Bool} {now : Str}

theorem restores_filled
    (filled : enclosing.dn ≠ [] ∧ enclosing.password ≠ []) :
    (ended enclosing login (.returned again) now).Restores ↔
      again = true ∧ enclosing.subject = enclosing.identity := by
  change (if _ then _ else _) ↔ _
  rw [if_pos filled]

theorem restores_missing
    (missing : enclosing.dn = [] ∨ enclosing.password = []) :
    (ended enclosing login (.returned again) now).Restores ↔
      login.subject = enclosing.identity := by
  have empty : ¬(enclosing.dn ≠ [] ∧ enclosing.password ≠ []) := by
    rintro ⟨dn, password⟩
    exact missing.elim dn password
  change (if _ then _ else _) ↔ _
  rw [if_neg empty]

end Happening

/-- The end of an `ldap:bind` whose children have kept its own credentials. -/
theorem Leaves.follows (laws : IdentityLaws api identity)
    (leaves : Leaves api connection last how ending final outcome)
    (inside : Inside identity connection enclosing state)
    (dn : bindings bindDn last.dropLayer.contexts =
      bindings bindDn state.contexts)
    (password : bindings bindPw last.dropLayer.contexts =
      bindings bindPw state.contexts)
    (set : identity last.world connection = login.subject) :
    Follows identity connection (enclosing.subject = enclosing.identity)
      [.ended enclosing login ending (identity final.world connection)]
      state final := by
  have readDn := (getValue_of_bindings dn).trans inside.dn
  have readPassword := (getValue_of_bindings password).trans inside.password
  have undisturbed {world : W}
      (same : identity world connection = enclosing.identity) :
      Undisturbed identity connection state { last.dropLayer with world } :=
    ⟨dn, password, same.trans inside.same.symm⟩
  cases leaves with
  | raised =>
      apply Follows.single
      · exact fun own => set.trans own
      · exact fun _ right => set.symm.trans right.2
      · exact fun own => undisturbed (set.trans own)
  | kept missing =>
      rw [readDn, readPassword] at missing
      apply Follows.single
      · rw [Happening.restores_missing missing]
        exact fun own => set.trans own
      · rw [Happening.restores_missing missing]
        exact fun _ right => set.symm.trans right.2
      · rw [Happening.restores_missing missing]
        exact fun own => undisturbed (set.trans own)
  | @rebound world some full accepted =>
      have again : identity world connection = enclosing.subject := by
        rw [laws.bound accepted, readDn]
        rfl
      rw [readDn] at some
      rw [readPassword] at full
      apply Follows.single
      · rw [Happening.restores_filled ⟨some, full⟩]
        exact fun own => again.trans own.2
      · rw [Happening.restores_filled ⟨some, full⟩]
        exact fun own _ => ⟨rfl, own⟩
      · rw [Happening.restores_filled ⟨some, full⟩]
        exact fun own => undisturbed (again.trans own.2)
  | @denied world exception some full refused _ =>
      have dropped : identity world connection = [] := laws.refused refused
      rw [readDn] at some
      rw [readPassword] at full
      apply Follows.single
      · rw [Happening.restores_filled ⟨some, full⟩]
        exact fun never => absurd never.1 Bool.false_ne_true
      · rintro own ⟨named, right⟩
        exact absurd (own.trans (right.symm.trans dropped)) (named some)
      · rw [Happening.restores_filled ⟨some, full⟩]
        exact fun never => absurd never.1 Bool.false_ne_true

theorem Follows.searched (there : Inside identity connection enclosing asked)
    (kept : identity world connection = identity asked.world connection) :
    Follows identity connection (enclosing.subject = enclosing.identity)
      [.searched enclosing (identity asked.world connection)] asked
      { asked with world } :=
  Follows.single (fun _ => there.same) (fun _ _ => trivial)
    fun _ => ⟨rfl, rfl, kept⟩

/-- The identity in a run. -/
theorem Runs.follows (laws : IdentityLaws api identity)
    (runs : Runs api identity searches connection enclosing program state
      happened final outcome)
    (inside : Inside identity connection enclosing state) :
    Follows identity connection (enclosing.subject = enclosing.identity)
      happened state final := by
  induction runs with
  | aside _ undisturbed _ => exact Follows.nothing undisturbed
  | @search enclosing _ _ _ _ asked _ base filter _ _ _ _ served asks _ found _
      asking induction =>
      refine (asking inside).next fun undisturbed => ?_
      have there := inside.undisturbed undisturbed
      have kept := laws.searched connection base filter asked.world
      refine (Follows.searched there kept).next fun answered => ?_
      exact induction (there.undisturbed answered)
  | @searchFails enclosing _ _ _ _ asked base filter _ _ served asks _ failed
      asking =>
      refine (asking inside).next fun undisturbed => ?_
      have there := inside.undisturbed undisturbed
      exact Follows.searched there
        (laws.searched connection base filter asked.world)
  | @refused enclosing _ _ _ _ _ asked world _ exception served asks _ denied
      chain asking =>
      have dropped : identity world connection = [] := laws.refused denied
      refine (asking inside).next fun undisturbed => ?_
      have there := inside.undisturbed undisturbed
      apply Follows.single
      · exact fun restores => dropped.trans restores.symm
      · exact fun _ right => right.2.symm.trans dropped
      · exact fun restores =>
          ⟨rfl, rfl, (dropped.trans restores.symm).trans there.same.symm⟩
  | @bind enclosing login _ _ _ _ asked _ _ world _ _ _ _ _ served asks _
      accepted chain _ layered leaves asking induction =>
      have set : identity world connection = login.subject :=
        laws.bound accepted
      refine (asking inside).next fun undisturbed => ?_
      have body := induction (Inside.bound chain set)
      have fits : Fits (enclosing.subject = enclosing.identity) _ :=
        ⟨body.right, fun _ => body.restores rfl⟩
      refine Follows.append fits fun restores => ?_
      have kept := body.undisturbed restores
      have left : Undisturbed identity connection { asked with world } _ :=
        Undisturbed.dropLayer kept
      exact leaves.follows laws (inside.undisturbed undisturbed) left.dn
        left.password (kept.same.trans set)
  | layer _ _ _ induction =>
      have body := induction inside.withLayer
      exact ⟨body.toFits, fun restores =>
        (body.undisturbed restores).dropLayer⟩
  | next _ _ first second =>
      exact (first inside).next fun undisturbed =>
        second (inside.undisturbed undisturbed)
  | raises _ induction => exact induction inside
  | caught _ _ first second =>
      exact (first inside).next fun undisturbed =>
        second (inside.undisturbed undisturbed)
  | same _ _ induction => exact induction inside

/-- Every search of a run is recorded. -/
theorem Runs.searches_eq (counts : Counts api searches)
    (runs : Runs api identity searches connection enclosing program state
      happened final outcome) :
    searches final.world =
      searches state.world + Happening.searches happened := by
  induction runs with
  | aside _ _ quiet => exact quiet
  | search _ _ _ _ _ asking later =>
      rw [later, counts.search, asking, Happening.searches_append,
        Happening.searches_searched]
      omega
  | searchFails _ _ _ _ asking =>
      rw [counts.search, asking, Happening.searches_append,
        Happening.searches_searched]
      rfl
  | refused _ _ _ denied _ asking =>
      rw [counts.bound denied, asking, Happening.searches_append,
        Happening.searches_ended]
      rfl
  | bind _ _ _ accepted _ _ _ leaves asking body =>
      have entered := (counts.bound accepted).trans asking
      rw [leaves.searches_eq counts, body, world_bound, entered,
        Happening.searches_append, Happening.searches_append,
        Happening.searches_ended]
      omega
  | layer _ _ _ body => exact body
  | next _ _ before after | caught _ _ before after =>
      rw [after, before, Happening.searches_append]
      omega
  | raises _ before => exact before
  | same _ _ runs => exact runs

/-! ## Runs of an `ldap:connection` -/

/-- Where the children of an `ldap:connection` stand. -/
def outermost (asked : St W) : Scope :=
  ⟨⟨Chain.getValue bindDn asked.contexts, Chain.getValue bindPw asked.contexts⟩,
    []⟩

/-- The state in which the children of an `ldap:connection` are executed. -/
def opened (interp : Interp W) (connection : Nat) (asked : St W) (world : W) :
    St W :=
  { asked.withLayer ((∅ : Vars).insert (upName connectionHandle)
      (interp.dcl.toStringPtr connection)) with world }

/-- How an `ldap:connection` comes to execute its children. -/
structure Opens (interp : Interp W) (self : Loc) (connection : Nat)
    (state asked : St W) (world : W) : Prop where
  href : ∃ href, interp.getParameter self "href" state =
      ⟨asked, [], .value href⟩ ∧ href ≠ [] ∧
    interp.outside.ldap.connect href asked.world = (world, .value connection)
  chain : asked.contexts ≠ []

theorem Opens.ran {out : Str}
    (opens : Opens interp self connection state asked world)
    (ran : interp.executeChilds self caller
      (opened interp connection asked world) = ⟨last, out, outcome⟩)
    (finished : outcome.Finished) (layered : last.Layered) :
    TagConnection.execute interp self caller state =
      ⟨last.dropLayer, out, outcome⟩ := by
  obtain ⟨⟨href, given, named, connected⟩, chain⟩ := opens
  have some : Prog.when href.isEmpty (Prog.throw (interp.dcl.exception
      "LDAP connection URI (href) is not defined" [])) asked =
      (⟨asked, [], .value ()⟩ : Run (St W) Exc Char Unit) := by
    have full : href.isEmpty = false := by simpa using named
    rw [full]
    rfl
  have entered : (M.enter : M W Unit) asked =
      ⟨asked.withLayer ∅, [], .value ()⟩ := rfl
  have connects : M.io (interp.outside.ldap.connect href)
      (asked.withLayer ∅) =
      ⟨{ asked.withLayer ∅ with world }, [], .value connection⟩ :=
    M.io_eq connected
  have added : M.addValue interp.dcl connectionHandle
      (interp.dcl.toStringPtr connection) { asked.withLayer ∅ with world } =
      ⟨opened interp connection asked world, [], .value ()⟩ :=
    M.addValue_withLayer interp.dcl _ _ ∅ chain rfl
  have body := (Prog.bind_silent added fun _ =>
    interp.executeChilds self caller).trans ran
  unfold TagConnection.execute
  rw [Prog.bind_silent given, Prog.bind_silent some, Prog.bind_silent entered,
    Prog.bind_silent (Prog.onError_eq connects _)]
  have left := M.leave_eq layered
  cases outcome with
  | value result =>
      rw [Prog.bind_eq (Prog.onError_eq body _), left, List.append_nil]
  | error exception =>
      have handed := Prog.onError_error body M.leave
      rw [left] at handed
      rw [Prog.bind_error handed, List.append_nil]
  | halt reason => exact finished.elim

theorem Opens.inside (laws : IdentityLaws interp.outside.ldap identity)
    (opens : Opens interp self connection state asked world) :
    Inside identity connection (outermost asked)
      (opened interp connection asked world) := by
  obtain ⟨⟨href, -, -, connected⟩, chain⟩ := opens
  have fresh : identity world connection = [] := by
    have law := laws.connected href asked.world connection
      (congrArg Prod.snd connected)
    rwa [connected] at law
  have apart (name : Str) (other : upName name ≠ upName connectionHandle) :
      Chain.getValue name (opened interp connection asked world).contexts =
        Chain.getValue name asked.contexts := by
    refine (Chain.getValue_withLayer name _ chain).trans ?_
    rw [AList.lookup_insert_ne other]
    rfl
  refine ⟨?_, apart bindDn (by decide), apart bindPw (by decide), fresh⟩
  obtain ⟨context, parents, split⟩ := List.exists_cons_of_ne_nil chain
  simp [opened, St.withLayer, Chain.withLayer, split]

/-- The identity of an LDAP connection follows the tags. -/
theorem identity_follows_nesting (laws : IdentityLaws api identity) :
    (∀ {interp : Interp W} {self : Loc} {caller : Option Loc}
        {state asked : St W} {world : W}, interp.outside.ldap = api →
      Opens interp self connection state asked world →
      Inside identity connection (outermost asked)
          (opened interp connection asked world) ∧
        ∀ {last : St W} {out : Str} {outcome : Outcome Exc Unit},
          interp.executeChilds self caller
            (opened interp connection asked world) = ⟨last, out, outcome⟩ →
          outcome.Finished → last.Layered →
          TagConnection.execute interp self caller state =
            ⟨last.dropLayer, out, outcome⟩) ∧
      ∀ {enclosing : Scope} {program : M W Unit} {state final : St W}
        {happened : List Happening} {outcome : Outcome Exc Unit},
        Inside identity connection enclosing state →
        Runs api identity searches connection enclosing program state happened
          final outcome →
        (∃ out, program state = ⟨final, out, outcome⟩) ∧
          ((∀ happening ∈ happened, happening.Restores) →
            ∀ happening ∈ happened, happening.Right) ∧
          (enclosing.subject = enclosing.identity →
            (∀ happening ∈ happened, happening.Named) →
            (∀ happening ∈ happened, happening.Right) →
            ∀ happening ∈ happened, happening.Restores) ∧
          (Counts api searches → searches final.world =
            searches state.world + Happening.searches happened) := by
  constructor
  · intro interp self caller state asked world served opens
    subst served
    exact ⟨opens.inside laws, fun ran finished layered =>
      opens.ran ran finished layered⟩
  · intro enclosing program state final happened outcome inside runs
    have follows := runs.follows laws inside
    refine ⟨runs.ran, follows.right, fun own named right => ?_,
      fun counts => runs.searches_eq counts⟩
    exact follows.restores own fun happening member =>
      ⟨named happening member, right happening member⟩

end Proofs

/-! ## A directory -/

/-- A directory with one connection: its identity, and the number of
searches. -/
structure Directory where
  identity : Str
  searches : Nat

/-- Bind with a directory that refuses the password `x`. -/
def directoryBind (name password : Option Str) (directory : Directory) :
    Directory × Option Str :=
  if password = some "x".toList then
    ({ directory with identity := [] }, some "refused".toList)
  else ({ directory with identity := name.getD [] }, none)

theorem directoryBind_cases (name password : Option Str)
    (directory : Directory) :
    directoryBind name password directory =
        ({ directory with identity := [] }, some "refused".toList) ∨
      directoryBind name password directory =
        ({ directory with identity := name.getD [] }, none) := by
  unfold directoryBind
  by_cases wrong : password = some "x".toList
  · exact .inl (if_pos wrong)
  · exact .inr (if_neg wrong)

def directory : Outside Directory :=
  { Outside.closed Directory with
    ldap :=
      { connect := fun _ directory =>
          ({ directory with identity := [] }, .value 1)
        saslBind := fun _ name password => directoryBind name password
        search := fun _ _ _ directory =>
          ({ directory with searches := directory.searches + 1 },
            .value []) } }

/-- The identity of the only connection. -/
def directoryIdentity (directory : Directory) (_ : Nat) : Str :=
  directory.identity

theorem directory_laws : IdentityLaws directory.ldap directoryIdentity := by
  constructor
  · intro href world connection _
    rfl
  · intro connection name password world accepted
    change (directoryBind name password world).2 = _ at accepted
    change (directoryBind name password world).1.identity = name.getD []
    rcases directoryBind_cases name password world with bound | bound
    · rw [bound] at accepted
      cases accepted
    · rw [bound]
  · intro connection name password world message refused
    change (directoryBind name password world).2 = _ at refused
    change (directoryBind name password world).1.identity = []
    rcases directoryBind_cases name password world with bound | bound
    · rw [bound]
    · rw [bound] at refused
      cases refused
  · intro connection base filter world
    rfl

section Pages

variable {depth : Nat} {dn password : String} {up : List Tag}

def directoryInterp (depth : Nat) : Interp Directory :=
  .ofRun directory depth (execute directory depth)

/-- An `ldap:bind` without children. -/
def bindTag (dn password : String) : Tag :=
  .mk 2 .ldapBind [("dn".toList, dn.toList),
    ("password".toList, password.toList)] [] []

def searchTag : Tag :=
  .mk 3 .ldapSearch [("base".toList, "o".toList), ("filter".toList, "f".toList)]
    [] []

def loginA : Login :=
  ⟨"a".toList, "p".toList⟩

def loginB : Login :=
  ⟨"b".toList, "q".toList⟩

/-- The runs in this directory. -/
abbrev DirectoryRuns :=
  Runs directory.ldap directoryIdentity Directory.searches 1

/-- A tag whose parameters leave the state alone and whose bind is accepted. -/
theorem bindTag_runs {enclosing : Scope} {state final : St Directory}
    {world : Directory}
    (asks : Asks (directoryInterp depth) ⟨bindTag dn password, up⟩ 1
      ⟨dn.toList, password.toList⟩ state state)
    (asking : parameters (directoryInterp depth) ⟨bindTag dn password, up⟩
      ["dn", "password"] state = ⟨state, [], .value ()⟩)
    (accepted : directory.ldap.bind 1 dn.toList password.toList state.world =
      (world, .value ())) (chain : state.contexts ≠ [])
    (layered : (bound ⟨dn.toList, password.toList⟩ state world).Layered)
    (leaves : Leaves directory.ldap 1
      (bound ⟨dn.toList, password.toList⟩ state world) (.value ())
      (.returned true) final (.value ())) :
    DirectoryRuns enclosing
      (TagBind.execute (directoryInterp depth) ⟨bindTag dn password, up⟩ none)
      state [.ended enclosing ⟨dn.toList, password.toList⟩ (.returned true)
        final.world.identity] final (.value ()) := by
  have body : DirectoryRuns (Login.scope ⟨dn.toList, password.toList⟩)
      ((directoryInterp depth).executeChilds ⟨bindTag dn password, up⟩ none)
      (bound ⟨dn.toList, password.toList⟩ state world) []
      (bound ⟨dn.toList, password.toList⟩ state world) (.value ()) :=
    @Runs.aside _ _ _ _ _ _ _ _ _ [] _ rfl (.refl _) rfl
  exact .bind rfl asks (.aside asking (.refl state) rfl) accepted chain body
    layered leaves

/-- A page about to open a connection. -/
def connectingState : St Directory :=
  { contexts := [Context.newLocal], vectors := ∅, maps := ∅, nextAddr := 1,
    world := ⟨[], 0⟩, trace := [] }

/-- Inside of an `ldap:connection`. -/
def connectedState : St Directory :=
  opened (directoryInterp 3) 1 connectingState ⟨[], 0⟩

/-- Inside of an `ldap:bind` as `a`. -/
def boundState : St Directory :=
  bound loginA connectedState ⟨"a".toList, 0⟩

/-- An `ldap:bind` as `b` inside of one as `a`. -/
theorem identity_follows_nesting_inner :
    Happening.Right
      (.ended loginA.scope loginB (.returned true) "a".toList) := by
  have inside : Inside directoryIdentity 1 loginA.scope boundState :=
    Inside.bound (by decide) (by decide)
  have again : Leaves directory.ldap 1
      (bound loginB boundState ⟨"b".toList, 0⟩) (.value ()) (.returned true)
      boundState (.value ()) :=
    @Leaves.rebound Directory directory.ldap 1
      (bound loginB boundState ⟨"b".toList, 0⟩) ⟨"a".toList, 0⟩ (by decide)
      (by decide) rfl
  have runs : DirectoryRuns loginA.scope
      (TagBind.execute (directoryInterp 2) ⟨bindTag "b" "q", []⟩ none)
      boundState [.ended loginA.scope loginB (.returned true) "a".toList]
      boundState (.value ()) :=
    bindTag_runs ⟨boundState, boundState, rfl, rfl, rfl⟩ rfl rfl (by decide)
      ⟨_, _, rfl, by decide⟩ again
  obtain ⟨-, right, -⟩ :=
    (identity_follows_nesting directory_laws).2 inside runs
  refine right ?_ _ (List.mem_singleton_self _)
  simp [Happening.Restores, Login.scope, loginA]

/-- An `ldap:bind` and a search behind it. -/
def searchingPage : Loc :=
  ⟨.mk 1 .ldapConnection [("href".toList, "h".toList)]
    [bindTag "a" "p", searchTag] [], []⟩

/-- The search is outside of every `ldap:bind` and has the identity of the one
before it. -/
theorem identity_outlives_bind :
    Opens (directoryInterp 3) searchingPage 1 connectingState connectingState
        ⟨[], 0⟩ ∧
      DirectoryRuns (outermost connectingState)
        ((directoryInterp 3).executeChilds searchingPage none) connectedState
        [.ended (outermost connectingState) loginA (.returned true)
            "a".toList,
          .searched (outermost connectingState) "a".toList]
        { connectedState with world := ⟨"a".toList, 1⟩ } (.value ()) ∧
      ¬ (Happening.searched (outermost connectingState) "a".toList).Right := by
  have wrong : "a".toList ≠ ([] : Str) := by decide
  refine ⟨⟨⟨"h".toList, rfl, by decide, rfl⟩, by decide⟩, ?_, wrong⟩
  let enclosing := outermost connectingState
  let left : St Directory := { connectedState with world := ⟨"a".toList, 0⟩ }
  let searched : St Directory :=
    { connectedState with world := ⟨"a".toList, 1⟩ }
  have leaves : Leaves directory.ldap 1
      (bound loginA connectedState ⟨"a".toList, 0⟩) (.value ())
      (.returned true) left (.value ()) := Leaves.kept (.inl rfl)
  have binds : DirectoryRuns enclosing
      (TagBind.execute (directoryInterp 2)
        (searchingPage.child (bindTag "a" "p")) none) connectedState
      [.ended enclosing loginA (.returned true) "a".toList] left (.value ()) :=
    bindTag_runs ⟨connectedState, connectedState, rfl, rfl, rfl⟩ rfl rfl
      (by decide) ⟨_, _, rfl, by decide⟩ leaves
  have asking : DirectoryRuns enclosing
      (parameters (directoryInterp 2) (searchingPage.child searchTag)
        ["base", "filter"]) left [] left (.value ()) :=
    @Runs.aside _ _ _ _ _ _ _ _ _ [] _ rfl (.refl left) rfl
  have rows : DirectoryRuns enclosing
      (Prog.forEach (executeRow (directoryInterp 2)
        (searchingPage.child searchTag) none) []) searched [] searched
      (.value ()) :=
    @Runs.aside _ _ _ _ _ _ _ _ _ [] _ rfl (.refl _) rfl
  have searches : DirectoryRuns enclosing
      (TagSearch.execute (directoryInterp 2) (searchingPage.child searchTag)
        none) left [.searched enclosing "a".toList] searched (.value ()) :=
    @Runs.search _ _ _ _ _ _ _ _ none left left searched "o".toList "f".toList
      [] [] [] _ rfl rfl asking rfl rows
  have runs : DirectoryRuns enclosing
      (TagBind.execute (directoryInterp 2)
          (searchingPage.child (bindTag "a" "p")) none >>= fun _ =>
        TagSearch.execute (directoryInterp 2) (searchingPage.child searchTag)
          none) connectedState
      [.ended enclosing loginA (.returned true) "a".toList,
        .searched enclosing "a".toList] searched (.value ()) :=
    .next binds searches
  exact @Runs.same _ _ _ _ _ _ _ _ _ _ _ [] _ runs rfl

end Pages

end Ldap

end DbPager
