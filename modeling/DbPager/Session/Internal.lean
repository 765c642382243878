import DbPager.Session.Format

/-!
# Runs of the internal session backend

Every request is served with a holder of its own, and the buffer of the
internal holder dies with it.  A run is a sequence of requests of any number
of clients, each of which sends back the session cookie it was given.  The
sessions of a run are shown to be kept exactly when nobody relies on them.
-/

namespace DbPager

namespace Session

/-- The request of a client. -/
structure Visit (Client : Type) where
  client : Client
  isHead : Bool
  isHttps : Bool
  /-- The identifier the server draws if it needs a new one. -/
  uuid : Str
  /-- The other cookies the client sends. -/
  others : List (Str × Str)
  othersNamed : ∀ cookie ∈ others, cookie.1 ≠ "session".toList
  /-- What the script does to the user variables. -/
  script : Vars → Vars

/-- What can be seen of a request that has been served. -/
structure Served where
  id : Str
  /-- The user variables at the start and at the end of the request. -/
  loaded : Vars
  final : Vars
  cookies : List Cookie

variable {Client : Type}

/-- The cookies a client sends. -/
def Visit.sent (visit : Visit Client) : Option Str → List (Str × Str)
  | none => visit.others
  | some id => visit.others ++ [("session".toList, id)]

/-- A request from the constructor of `http_environment` to
`init_response`. -/
def serve (dcl : Dcl) (jar : Option Str) (visit : Visit Client) : Served :=
  let holder := HolderInt.create visit.uuid visit.isHttps (visit.sent jar)
  let loaded := (holder.load dcl Context.newUser).getValues
  let final := visit.script loaded
  { id := holder.id
    loaded
    final
    cookies :=
      if visit.isHead then []
      else (holder.save (Context.ofUser final)).cookies
        (Context.ofUser final) }

/-- The session cookie a client has after a response. -/
def keepCookie : Option Str → List Cookie → Option Str
  | jar, [] => jar
  | jar, cookie :: cookies =>
      if cookie.name = "session".toList then
        keepCookie (if cookie.expires.isSome then none else some cookie.value)
          cookies
      else keepCookie jar cookies

def nextJar (dcl : Dcl) (jar : Option Str) (visit : Visit Client) :
    Option Str :=
  keepCookie jar (serve dcl jar visit).cookies

/-- Serve the requests one after the other. -/
def run [DecidableEq Client] (dcl : Dcl) :
    (Client → Option Str) → List (Visit Client) → List Served
  | _, [] => []
  | jars, visit :: visits =>
      serve dcl (jars visit.client) visit ::
        run dcl (Function.update jars visit.client
          (nextJar dcl (jars visit.client) visit)) visits

/-- A request loads what the one before it in the same session left. -/
def Kept (records : List Served) : Prop :=
  ∀ before first between second after,
    records = before ++ first :: between ++ second :: after →
    first.id = second.id → (∀ served ∈ between, served.id ≠ first.id) →
    ∀ name value, first.final.lookup name = some value →
      second.loaded.lookup name = some value

/-- A request loads nothing that no request of its session left. -/
def Isolated (records : List Served) : Prop :=
  ∀ before served after, records = before ++ served :: after →
    ∀ name value, served.loaded.lookup name = some value →
      ∃ earlier ∈ before, earlier.id = served.id ∧
        earlier.final.lookup name = some value

/-! ## One request -/

theorem readText_nil {dcl : Dcl} (cuts : Cuts dcl) : readText dcl [] = [] := by
  rw [readText_eq cuts]
  rfl

theorem Holder.create_append (uuid : Str) (isHttps : Bool)
    {others : List (Str × Str)} (rest : List (Str × Str))
    (named : ∀ cookie ∈ others, cookie.1 ≠ "session".toList) :
    Holder.create uuid isHttps (others ++ rest) =
      Holder.create uuid isHttps rest := by
  induction others with
  | nil => rfl
  | cons cookie others induction =>
      rw [List.cons_append, Holder.create,
        if_neg (named cookie List.mem_cons_self)]
      apply induction
      intro other member
      exact named other (List.mem_cons_of_mem _ member)

/-- The holder of a request, with the buffer it starts with. -/
theorem create_sent (visit : Visit Client) (jar : Option Str) :
    (HolderInt.create visit.uuid visit.isHttps (visit.sent jar)).toHolder =
      match jar with
      | none => .new visit.uuid visit.isHttps
      | some id => .ofId visit.uuid id visit.isHttps := by
  cases jar with
  | none =>
      have whole := Holder.create_append visit.uuid visit.isHttps []
        visit.othersNamed
      rw [List.append_nil] at whole
      exact whole
  | some id =>
      exact Holder.create_append visit.uuid visit.isHttps _
        visit.othersNamed

theorem HolderInt.save_toHolder (holder : HolderInt) (user : Context) :
    (holder.save user).toHolder = holder.toHolder := by
  rw [HolderInt.save]
  cases savedText user with
  | none => rfl
  | some text => rfl

section Serve

variable {dcl : Dcl} (cuts : Cuts dcl)

include cuts

/-- The buffer of a new holder is empty, so nothing is loaded. -/
theorem serve_loaded (jar : Option Str) (visit : Visit Client) :
    (serve dcl jar visit).loaded = ∅ := by
  simp only [serve, HolderInt.load, HolderInt.getValue, HolderInt.create,
    AList.lookup_empty, Option.getD_none, readText_nil cuts]
  rfl

theorem serve_final (jar : Option Str) (visit : Visit Client) :
    (serve dcl jar visit).final = visit.script ∅ := by
  rw [← serve_loaded cuts jar visit]
  rfl

theorem serve_cookies (jar : Option Str) {visit : Visit Client}
    (noHead : visit.isHead = false) :
    (serve dcl jar visit).cookies =
      (HolderInt.create visit.uuid visit.isHttps
        (visit.sent jar)).toHolder.cookies
          (Context.ofUser (visit.script ∅)) := by
  rw [← serve_final cuts jar visit]
  simp only [serve, noHead, Bool.false_eq_true, if_false,
    HolderInt.save_toHolder]

end Serve

theorem serve_id (dcl : Dcl) (jar : Option Str) (visit : Visit Client) :
    (serve dcl jar visit).id =
      (HolderInt.create visit.uuid visit.isHttps (visit.sent jar)).id := rfl

theorem serve_id_none (dcl : Dcl) (visit : Visit Client) :
    (serve dcl none visit).id = visit.uuid := by
  rw [serve_id, create_sent]
  rfl

theorem serve_id_some (dcl : Dcl) {id : Str} (named : id ≠ [])
    (visit : Visit Client) : (serve dcl (some id) visit).id = id := by
  rw [serve_id, create_sent]
  have full : id.isEmpty = false := by simpa using named
  simp [Holder.ofId, full]

/-- A client that has a session keeps it. -/
theorem nextJar_some {dcl : Dcl} (cuts : Cuts dcl) {id : Str} (named : id ≠ [])
    {visit : Visit Client} (noHead : visit.isHead = false) :
    nextJar dcl (some id) visit = some id := by
  have full : id.isEmpty = false := by simpa using named
  rw [nextJar, serve_cookies cuts _ noHead, create_sent]
  simp [Holder.ofId, Holder.cookies, full, keepCookie]

/-- A client without a session gets one with the first user variable. -/
theorem nextJar_none {dcl : Dcl} (cuts : Cuts dcl) {visit : Visit Client}
    (noHead : visit.isHead = false) (named : visit.uuid ≠ []) :
    nextJar dcl none visit =
      if (visit.script ∅).entries = [] then none else some visit.uuid := by
  have full : visit.uuid.isEmpty = false := by simpa using named
  rw [nextJar, serve_cookies cuts _ noHead, create_sent]
  by_cases empty : (visit.script ∅).entries = []
  · have listed : (Context.ofUser (visit.script ∅)).empty = true := by
      simp [Context.empty, Context.ofUser, empty]
    simp [Holder.new, Holder.cookies, full, listed, empty, keepCookie]
  · have listed : (Context.ofUser (visit.script ∅)).empty = false := by
      simpa [Context.empty, Context.ofUser] using empty
    have given : (Holder.new visit.uuid visit.isHttps).cookies
        (Context.ofUser (visit.script ∅)) =
          [(Holder.new visit.uuid visit.isHttps).cookie visit.uuid none] := by
      simp [Holder.new, Holder.cookies, full, listed]
    rw [if_neg empty]
    simp only [given, keepCookie]
    exact if_pos rfl

/-- A client gets its session with the first user variable it leaves. -/
theorem nextJar_of_left {dcl : Dcl} (cuts : Cuts dcl)
    {jar : Option Str} {visit : Visit Client} (valid : jar ≠ some [])
    (noHead : visit.isHead = false) (named : visit.uuid ≠ [])
    (left : (visit.script ∅).entries ≠ []) :
    nextJar dcl jar visit = some (serve dcl jar visit).id := by
  cases jar with
  | none => rw [nextJar_none cuts noHead named, if_neg left, serve_id_none]
  | some id =>
      have full : id ≠ [] := by simpa using valid
      rw [nextJar_some cuts full noHead, serve_id_some dcl full]

theorem nextJar_valid {dcl : Dcl} (cuts : Cuts dcl)
    {jar : Option Str} {visit : Visit Client} (valid : jar ≠ some [])
    (noHead : visit.isHead = false) (named : visit.uuid ≠ []) : nextJar dcl jar visit ≠ some [] := by
  cases jar with
  | none =>
      rw [nextJar_none cuts noHead named]
      by_cases empty : (visit.script ∅).entries = [] <;> simp [empty, named]
  | some id =>
      rw [nextJar_some cuts (by simpa using valid) noHead]
      exact valid

/-! ## Runs -/

/-- The requests of a run as the claims about sessions need them: no request
is a HEAD request, and the server draws a new identifier each time. -/
structure Regular (visits : List (Visit Client)) : Prop where
  noHead : ∀ visit ∈ visits, visit.isHead = false
  named : ∀ visit ∈ visits, visit.uuid ≠ []
  distinct : (visits.map Visit.uuid).Nodup

theorem Regular.tail {visit : Visit Client} {visits : List (Visit Client)}
    (regular : Regular (visit :: visits)) : Regular visits where
  noHead other member := regular.noHead other (List.mem_cons_of_mem _ member)
  named other member := regular.named other (List.mem_cons_of_mem _ member)
  distinct := (List.nodup_cons.mp regular.distinct).2

/-- A client comes back only if its earlier requests left no user
variables. -/
def NobodyReturns (visits : List (Visit Client)) : Prop :=
  visits.Pairwise fun first second =>
    first.client = second.client → (first.script ∅).entries = []

section Run

variable [DecidableEq Client] {dcl : Dcl} (cuts : Cuts dcl)

include cuts

theorem run_loaded (jars : Client → Option Str)
    (visits : List (Visit Client)) :
    ∀ served ∈ run dcl jars visits, served.loaded = ∅ := by
  induction visits generalizing jars with
  | nil => simp [run]
  | cons visit visits induction =>
      intro served member
      rw [run, List.mem_cons] at member
      rcases member with rfl | member
      · exact serve_loaded cuts _ visit
      · exact induction _ served member

/-- Nothing of another session is loaded, as nothing is loaded at all. -/
theorem run_isolated (jars : Client → Option Str)
    (visits : List (Visit Client)) : Isolated (run dcl jars visits) := by
  intro before served after split name value found
  have member : served ∈ run dcl jars visits := by
    rw [split]
    simp
  rw [run_loaded cuts jars visits served member] at found
  simp at found

/-- If nobody returns to a session, every request has a session of its
own. -/
theorem run_ids {jars : Client → Option Str} {visits : List (Visit Client)}
    (regular : Regular visits) (alone : NobodyReturns visits)
    (none : ∀ visit ∈ visits, jars visit.client = none) :
    (run dcl jars visits).map Served.id = visits.map Visit.uuid := by
  induction visits generalizing jars with
  | nil => rfl
  | cons visit visits induction =>
      have first := none visit List.mem_cons_self
      have later := List.pairwise_cons.mp alone
      have still : ∀ other ∈ visits,
          Function.update jars visit.client
            (nextJar dcl (jars visit.client) visit) other.client = .none := by
        intro other member
        by_cases same : other.client = visit.client
        · rw [same, Function.update_self, first,
            nextJar_none cuts (regular.noHead visit List.mem_cons_self)
              (regular.named visit List.mem_cons_self),
            if_pos (later.1 other member same.symm)]
        · rw [Function.update_of_ne same]
          exact none other (List.mem_cons_of_mem _ member)
      have rest := induction regular.tail later.2 still
      rw [run, List.map_cons, rest, first, serve_id_none, List.map_cons]

end Run

/-- A client that has a session uses it when it comes back. -/
theorem run_returns [DecidableEq Client] (dcl : Dcl)
    {jars : Client → Option Str} {visits : List (Visit Client)}
    {client : Client} {id : Str} (named : id ≠ [])
    (held : jars client = some id)
    (returns : ∃ visit ∈ visits, visit.client = client) :
    ∃ served ∈ run dcl jars visits, served.id = id := by
  induction visits generalizing jars with
  | nil => simp at returns
  | cons visit visits induction =>
      by_cases same : visit.client = client
      · refine ⟨_, List.mem_cons_self, ?_⟩
        rw [same, held]
        exact serve_id_some dcl named visit
      · obtain ⟨other, member, its⟩ := returns
        rw [List.mem_cons] at member
        have inside : other ∈ visits := by
          rcases member with equal | member
          · exact absurd (equal ▸ its) same
          · exact member
        have kept : Function.update jars visit.client
            (nextJar dcl (jars visit.client) visit) client = some id := by
          rw [Function.update_of_ne (Ne.symm same), held]
        obtain ⟨served, member, equal⟩ := induction kept ⟨other, inside, its⟩
        exact ⟨served, List.mem_cons_of_mem _ member, equal⟩

theorem Kept.tail {served : Served} {records : List Served}
    (kept : Kept (served :: records)) : Kept records := by
  intro before first between second after split
  apply kept (served :: before)
  rw [split]
  rfl

/-- If every request has a session of its own there is nothing to keep. -/
theorem kept_of_nodup {records : List Served}
    (distinct : (records.map Served.id).Nodup) : Kept records := by
  intro before first between second after split same
  rw [split] at distinct
  simp only [List.map_append, List.map_cons, List.append_assoc,
    List.cons_append] at distinct
  have inner := (List.nodup_append.mp distinct).2.1
  have apart := (List.nodup_cons.mp inner).1
  exact absurd (by simp [same]) apart

/-- The first request of a session after which it is used again leaves
nothing. -/
theorem left_nothing {records : List Served} {served : Served}
    (kept : Kept (served :: records))
    (unloaded : ∀ later ∈ records, later.loaded = ∅)
    (again : ∃ later ∈ records, later.id = served.id) :
    served.final.entries = [] := by
  obtain ⟨later, member, same⟩ := again
  have found : (records.find? fun later => later.id == served.id).isSome := by
    rw [List.find?_isSome]
    exact ⟨later, member, by simpa using same⟩
  obtain ⟨second, next⟩ := Option.isSome_iff_exists.mp found
  obtain ⟨equal, between, after, split, apart⟩ :=
    List.find?_eq_some_iff_append.mp next
  have empty : second.loaded = ∅ := by
    apply unloaded
    rw [split]
    simp
  apply List.eq_nil_iff_forall_not_mem.mpr
  intro entry inside
  have joined : served.id = second.id := by
    have same : second.id = served.id := by simpa using equal
    exact same.symm
  have others : ∀ other ∈ between, other.id ≠ served.id := by
    intro other member
    simpa using apart other member
  have lost := kept [] served between second after (by rw [split]; rfl)
    joined others entry.1 entry.2 (mem_vars inside)
  rw [empty] at lost
  simp at lost

theorem nobodyReturns_of_kept [DecidableEq Client] {dcl : Dcl}
    (cuts : Cuts dcl) {jars : Client → Option Str}
    {visits : List (Visit Client)} (regular : Regular visits)
    (valid : ∀ client, jars client ≠ some [])
    (kept : Kept (run dcl jars visits)) : NobodyReturns visits := by
  induction visits generalizing jars with
  | nil => exact .nil
  | cons visit visits induction =>
      have noHead := regular.noHead visit List.mem_cons_self
      have named := regular.named visit List.mem_cons_self
      rw [run] at kept
      have stillValid : ∀ client, Function.update jars visit.client
          (nextJar dcl (jars visit.client) visit) client ≠ some [] := by
        intro client
        by_cases same : client = visit.client
        · rw [same, Function.update_self]
          exact nextJar_valid cuts (valid _) noHead named
        · rw [Function.update_of_ne same]
          exact valid client
      apply List.pairwise_cons.mpr
      constructor
      · intro other member same
        by_contra left
        have held : nextJar dcl (jars visit.client) visit =
            some (serve dcl (jars visit.client) visit).id :=
          nextJar_of_left cuts (valid _) noHead named left
        have full : (serve dcl (jars visit.client) visit).id ≠ [] := by
          intro empty
          exact stillValid visit.client
            (by rw [Function.update_self, held, empty])
        have given : Function.update jars visit.client
            (nextJar dcl (jars visit.client) visit) visit.client =
              some (serve dcl (jars visit.client) visit).id := by
          rw [Function.update_self, held]
        have again := run_returns dcl full given ⟨other, member, same.symm⟩
        have nothing := left_nothing kept (run_loaded cuts _ visits) again
        rw [serve_final cuts] at nothing
        exact left nothing
      · exact induction regular.tail stillValid kept.tail

/-- The internal backend keeps the sessions of a run exactly when no client
comes back after a request that left user variables. -/
theorem internal_sessions_kept [DecidableEq Client] {dcl : Dcl}
    (cuts : Cuts dcl) {visits : List (Visit Client)}
    (regular : Regular visits) :
    Kept (run dcl (fun _ => none) visits) ∧
        Isolated (run dcl (fun _ => none) visits) ↔
      NobodyReturns visits := by
  constructor
  · intro both
    exact nobodyReturns_of_kept cuts regular (by simp) both.1
  · intro alone
    constructor
    · apply kept_of_nodup
      rw [run_ids cuts regular alone (by simp)]
      exact regular.distinct
    · exact run_isolated cuts _ visits

/-- A request of client 0 that leaves the given user variables. -/
def visitLeaving (uuid : Str) (vars : Vars) : Visit Nat where
  client := 0
  isHead := false
  isHttps := false
  uuid
  others := []
  othersNamed := by simp
  script _ := vars

theorem internal_sessions_kept_last :
    Kept (run .plain (fun _ => none)
      [visitLeaving "u1".toList ∅, visitLeaving "u2".toList
        (single "A".toList "1".toList)]) := by
  have regular : Regular [visitLeaving "u1".toList ∅,
      visitLeaving "u2".toList (single "A".toList "1".toList)] := by
    constructor
    · intro visit member
      rcases List.mem_pair.mp member with rfl | rfl <;> rfl
    · intro visit member
      rcases List.mem_pair.mp member with rfl | rfl <;> decide
    · decide
  apply ((internal_sessions_kept Cuts.plain regular).mpr ?_).1
  apply List.pairwise_cons.mpr
  constructor
  · intro other member same
    rfl
  · exact List.pairwise_singleton _ _

/-- The client gets a cookie with its first variable and sends it back, but
the variable is gone. -/
theorem second_visit_finds_nothing :
    (run .plain (fun _ => none)
      [visitLeaving "u1".toList (single "A".toList "1".toList),
        visitLeaving "u2".toList (single "A".toList "1".toList)]).map
          (fun served => (served.id, served.loaded.entries)) =
        [("u1".toList, []), ("u1".toList, [])] ∧
    ¬ Kept (run .plain (fun _ => none)
      [visitLeaving "u1".toList (single "A".toList "1".toList),
        visitLeaving "u2".toList (single "A".toList "1".toList)]) := by
  constructor
  · decide
  · intro kept
    have found := kept [] _ [] _ [] rfl rfl (List.forall_mem_nil _)
      "A".toList "1".toList rfl
    revert found
    decide

end Session

end DbPager
