import DbPager.Daemon
import DbPager.Library.Threads

/-!
# The application cache

All worker threads share one interpreter, and with it the applications that
have been loaded; a thread that needs a page asks the interpreter for its
application.  The threads take their steps in any order; every access to the
table of the applications is one step here.
-/

namespace DbPager.Applications

open Threads

/-! ## The procedures -/

/-- `interpreter::get_app`.  The guard gives the lock back wherever the
procedure is left. -/
def getApp (useCache : Bool) (url : Str) : Code Str Tag Dbpagerd.Failure :=
  if useCache then
    .find url (fun app => .result (.ok app)) <|
    .lock <|
    .find url (fun app => .unlock (.result (.ok app))) <|
    .load url (fun app => .insert url app (.unlock (.result (.ok app))))
      fun exception => .unlock (.result (.error exception))
  else
    .load url (fun app => .result (.ok app))
      fun exception => .result (.error exception)

/-- `bdb_environments::environment`, for the directory of a storage.  Unlike
`get_app`, it looks at the table under the lock only. -/
def environment (Env : Type) (path : Str) : Code Str Env Exc :=
  .lock <|
  .find path (fun env => .unlock (.result (.ok env))) <|
  .load path (fun env => .insert path env (.unlock (.result (.ok env))))
    fun exception => .unlock (.result (.error exception))

/-- The directory of a storage file; `tokenize` splits the name of the file
off. -/
def directory (tokenize : Str → Str × Str) (href : Str) : Str :=
  let path := (tokenize href).1
  if path.isEmpty then "./".toList else path

/-- Threads ask for environments by the names of storages. -/
def byHref {τ Env : Type} (tokenize : Str → Str × Str) :
    Threads.Action τ Str Env Exc → Threads.Action τ Str Env Exc
  | .call thread href => .call thread (directory tokenize href)
  | action => action

/-! ## They respect the lock -/

/-- What both procedures do once they have the lock. -/
theorem inside_fits {ν ε : Type} {probes : Bool} {key : Str} :
    Fits true probes (.inside key)
      (.find key (fun made => .unlock (.result (.ok made))) <|
        .load key (fun made => .insert key made (.unlock (.result (.ok made))))
          fun failure => .unlock (.result (.error failure)) :
        Code Str ν ε) := by
  apply Fits.check
  · intro made
    exact .unlock .result
  · apply Fits.load rfl
    · intro made
      exact .insert (.unlock .result)
    · intro failure
      exact .unlock .result

theorem getApp_fits (useCache : Bool) (url : Str) :
    Fits useCache useCache (.asking url) (getApp useCache url) := by
  cases useCache with
  | false =>
      apply Fits.bare rfl
      · intro app
        exact .result
      · intro exception
        exact .result
  | true =>
      apply Fits.probe rfl
      · intro app
        exact .result
      · exact .lock inside_fits

theorem environment_fits (Env : Type) (path : Str) :
    Fits true false (.asking path) (environment Env path) :=
  .lock inside_fits

/-- `get_app` looks twice, takes the lock and gives it back, loads, inserts
and returns. -/
theorem getApp_bounded (useCache : Bool) (url : Str) :
    Bounded 7 (getApp useCache url) := by
  cases useCache with
  | false =>
      apply Bounded.load
      · intro app
        exact .result
      · intro exception
        exact .result
  | true =>
      apply Bounded.find
      · intro app
        exact .result
      · apply Bounded.lock
        apply Bounded.find
        · intro app
          exact .unlock .result
        · apply Bounded.load
          · intro app
            exact .insert (.unlock .result)
          · intro exception
            exact .unlock .result

/-! ## Any number of threads -/

section Workers

variable {τ : Type} [DecidableEq τ] {useCache : Bool}
  {actions : List (Threads.Action τ Str Tag Dbpagerd.Failure)}
  {final : Shared τ Str Tag Dbpagerd.Failure}
  {trace : List (Memo.Event τ Str Tag Dbpagerd.Failure)}

/-- However the steps of the threads are interleaved, the calls of `get_app`
have the effect of requests to a table that answers each of them in one step,
somewhere between the call and the return. -/
theorem getApp_atomic
    (ran : (Threads.machine (getApp useCache)).run actions Shared.start =
      some (final, trace)) :
    ∃ requests model, (Memo.machine useCache).run requests Memo.State.start =
      some (model, trace) := by
  obtain ⟨requests, model, -, same, -⟩ := reached (getApp_fits useCache) ran
  exact ⟨requests, model, same⟩

/-- With the cache, all threads get the same application for a location, and
different ones for different locations, and every location is loaded at most
once; a location that could not be loaded is tried again.  Without it, every
call gets an application of its own. -/
theorem getApp_shares
    (ran : (Threads.machine (getApp useCache)).run actions Shared.start =
      some (final, trace)) :
    (useCache = true → Memo.OneEach trace) ∧
      (useCache = false → Memo.OwnEach trace) := by
  obtain ⟨requests, model, -, same, -⟩ := reached (getApp_fits useCache) ran
  constructor
  · rintro rfl
    exact Memo.oneEach same
  · rintro rfl
    exact Memo.ownEach same

/-- The location a thread asks for at the moment. -/
def pending : Thread Str Tag Dbpagerd.Failure → List Str
  | .idle => []
  | .running url _ => [url]

/-- A call takes at most seven steps of its thread, so all the calls of a thread
take at most seven times as many, and each is answered once, in its turn and for
its location.  A thread in the middle of a call can take the
next step or waits for the lock, and who holds the lock can take the next step:
the threads never block each other, and also a location that cannot be loaded
leaves the lock free. -/
theorem getApp_returns
    (ran : (Threads.machine (getApp useCache)).run actions Shared.start =
      some (final, trace)) (thread : τ) :
    (∀ before url within, actions = before ++ .call thread url :: within →
        within.countP (Action.calls thread) = 0 →
        within.countP (Action.works thread) ≤ 7) ∧
      actions.countP (Action.works thread) ≤
        7 * actions.countP (Action.calls thread) ∧
      trace.filterMap (Memo.Event.asks thread) =
        trace.filterMap (Memo.Event.answers thread) ++
          pending (final.threads thread) ∧
      (final.threads thread ≠ .idle →
        CanGo (getApp useCache) final thread ∨
          Waits (getApp useCache) final thread) := by
  obtain ⟨requests, model, places, same, follows⟩ :=
    reached (getApp_fits useCache) ran
  refine ⟨?_, works_le (getApp_bounded useCache) ran thread, ?_,
    goes_or_waits follows⟩
  · rintro before url within rfl turn
    exact works_in_call_le (getApp_bounded useCache) ran turn
  rw [Memo.inTurn same thread, follows.clients thread]
  have sits := follows.sits thread
  cases running : final.threads thread with
  | idle =>
      rw [running] at sits
      rw [show places thread = .idle from sits]
      rfl
  | running url code =>
      rw [running] at sits
      obtain ⟨about, -⟩ := sits
      generalize places thread = place at about
      cases place <;> cases about <;> rfl

end Workers

/-! ## Two workers -/

def page : Tag :=
  .mk 0 .module [] [] []

/-- Two threads that miss the same page: the second one waits for the lock,
and then finds the page. -/
def twoWorkers : List (Threads.Action Nat Str Tag Dbpagerd.Failure) :=
  [.call 0 "a".toList, .call 1 "a".toList, .go 0, .go 1, .go 0, .go 0,
    .load 0 (.ok page), .go 0, .go 0, .go 1, .go 1, .go 1, .go 0, .go 1]

theorem twoWorkers_runs :
    ∃ final, (Threads.machine (getApp true)).run twoWorkers Shared.start =
      some (final, [.asked 0 "a".toList, .asked 1 "a".toList,
        .loaded 0 "a".toList (.ok page),
        .answered 0 "a".toList (.ok ⟨0, page⟩),
        .answered 1 "a".toList (.ok ⟨0, page⟩)]) :=
  ⟨_, rfl⟩

theorem twoWorkers_atomic :
    ∃ trace, (∃ final, (Threads.machine (getApp true)).run twoWorkers
        Shared.start = some (final, trace)) ∧
      ∃ requests model, (Memo.machine true).run requests Memo.State.start =
        some (model, trace) := by
  obtain ⟨final, ran⟩ := twoWorkers_runs
  exact ⟨_, ⟨final, ran⟩, getApp_atomic ran⟩

theorem twoWorkers_shares :
    ∃ trace, (∃ final, (Threads.machine (getApp true)).run twoWorkers
        Shared.start = some (final, trace)) ∧ Memo.OneEach trace := by
  obtain ⟨final, ran⟩ := twoWorkers_runs
  exact ⟨_, ⟨final, ran⟩, (getApp_shares ran).1 rfl⟩

/-- The second thread misses the page, waits for the lock and finds the page:
five steps. -/
theorem twoWorkers_returns :
    (twoWorkers.drop 2).countP (Action.works 1) ≤ 7 ∧
      twoWorkers.countP (Action.works 1) ≤
        7 * twoWorkers.countP (Action.calls 1) := by
  obtain ⟨final, ran⟩ := twoWorkers_runs
  have returns := getApp_returns ran 1
  exact ⟨returns.1 [.call 0 "a".toList] "a".toList (twoWorkers.drop 2) rfl
    rfl, returns.2.1⟩

/-! ## Access to the table -/

/-- The second of two threads is about to look for the page that the first one
is about to insert. -/
def racing : List (Threads.Action Nat Str Tag Dbpagerd.Failure) :=
  [.call 0 "a".toList, .call 1 "a".toList, .go 0, .go 0, .go 0,
    .load 0 (.ok page)]

/-- Threads meet at the table of the applications only where `get_app` looks
at it without the lock, while the thread that holds the lock inserts an
application; there they do meet.  At the table of the environments they never
do. -/
theorem table_races {τ Env : Type} [DecidableEq τ] :
    (∀ useCache actions trace,
      ∀ final : Shared τ Str Tag Dbpagerd.Failure,
      (Threads.machine (getApp useCache)).run actions Shared.start =
        some (final, trace) →
      ∀ writer other, final.Race writer other →
        useCache = true ∧ final.owner = some writer ∧ final.Reads other) ∧
    (∃ final trace, (Threads.machine (getApp true)).run racing Shared.start =
        some (final, trace) ∧ final.Race 0 1) ∧
    (∀ actions trace, ∀ final : Shared τ Str Env Exc,
      (Threads.machine (environment Env)).run actions Shared.start =
        some (final, trace) →
      ∀ writer other, ¬ final.Race writer other) := by
  refine ⟨?_, ?_, ?_⟩
  · intro useCache actions trace final ran writer other race
    obtain ⟨_, _, _, _, follows⟩ := reached (getApp_fits useCache) ran
    exact probes_of_race follows race
  · refine ⟨_, _, rfl, ?_, ⟨_, _, _, _, rfl⟩, .inl ⟨_, _, _, _, rfl⟩⟩
    exact Nat.zero_ne_one
  · intro actions trace final ran writer other race
    obtain ⟨_, _, _, _, follows⟩ := reached (environment_fits Env) ran
    obtain ⟨probing, -⟩ := probes_of_race follows race
    cases probing

/-- However the threads that open storages are interleaved, there is one
environment for each directory, and it is opened at most once. -/
theorem environment_shares {τ Env : Type} [DecidableEq τ]
    {tokenize : Str → Str × Str} {actions : List (Threads.Action τ Str Env Exc)}
    {final : Shared τ Str Env Exc} {trace : List (Memo.Event τ Str Env Exc)}
    (ran : (Threads.machine (environment Env)).run
      (actions.map (byHref tokenize)) Shared.start = some (final, trace)) :
    Memo.OneEach trace := by
  obtain ⟨requests, model, -, same, -⟩ := reached (environment_fits Env) ran
  exact Memo.oneEach same

/-- Two threads open two storages in one directory. -/
def twoStorages : List (Threads.Action Nat Str Unit Exc) :=
  [.call 0 "d/a".toList, .call 1 "d/b".toList, .go 1, .go 1, .load 1 (.ok ()),
    .go 1, .go 1, .go 0, .go 0, .go 0, .go 0, .go 1]

theorem twoStorages_share :
    ∃ trace, (∃ final, (Threads.machine (environment Unit)).run
        (twoStorages.map (byHref fun href => (href.take 1, href.drop 2)))
        Shared.start = some (final, trace)) ∧ Memo.OneEach trace := by
  have ran : ∃ final, (Threads.machine (environment Unit)).run
      (twoStorages.map (byHref fun href => (href.take 1, href.drop 2)))
      Shared.start = some (final, [.asked 0 "d".toList, .asked 1 "d".toList,
        .loaded 1 "d".toList (.ok ()), .answered 0 "d".toList (.ok ⟨0, ()⟩),
        .answered 1 "d".toList (.ok ⟨0, ()⟩)]) := ⟨_, rfl⟩
  obtain ⟨final, ran⟩ := ran
  exact ⟨_, ⟨final, ran⟩, environment_shares ran⟩

end DbPager.Applications
