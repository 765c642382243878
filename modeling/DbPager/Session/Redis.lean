import DbPager.Library.Output
import DbPager.Connections
import DbPager.Plain

/-!
# Sessions in redis

The module with sessions in redis asks the server up to three times.  It asks
again when hiredis gives no reply; any reply ends the loop, and an error is a
reply too.  The programs of this file write one mark for each connection they
take from the pool.
-/

namespace DbPager.ModSessionRedis

open Effect

/-- The members of the session object. -/
structure Settings where
  server : Str
  password : Str
  databaseNumber : Int
  ttl : Int

variable {W α : Type}

/-- Programs that mark the attempts they make. -/
abbrev Method (W α : Type) := Prog W Exc Unit α

section Loops

variable (dcl : Dcl) (api : RedisApi W) (settings : Settings)

/-- The settings of the session for a connection that is not configured. -/
def configure (c : Nat) : Method W Unit := do
  let configured ← Prog.act (api.isConfigured c)
  Prog.when (!configured) do
    Prog.act (api.configure c settings.server)
    Prog.when (!settings.password.isEmpty)
      (Prog.act (api.login c settings.password))
    Prog.when (decide (settings.databaseNumber > 0))
      (Prog.act (api.selectDatabase c settings.databaseNumber.toNat))

/-- The connection of an attempt. -/
def acquire : Method W Nat := do
  Prog.emit [()]
  let c ← Prog.act (api.acquire settings.server)
  configure api settings c
  pure c

/-- A command; when there is no reply, the connection is reset and its error
text kept. -/
def ask (c : Nat) (arguments : List Str) :
    Method W (Except Str RedisReply) := do
  match ← Prog.act (api.command c arguments) with
  | .ok reply => pure (.ok reply)
  | .error errstr =>
      Prog.modify (api.reset c)
      pure (.error errstr)

/-- `while (attempts)`, with the message of the last attempt. -/
def retry (attempt : Method W (Except Str α)) : Nat → Str → Method W α
  | 0, msg => Prog.throw (.dbp msg)
  | attempts + 1, _ => do
      match ← attempt with
      | .ok replies => pure replies
      | .error errstr => retry attempt attempts errstr

/-- One pass of the loop in `get_value`. -/
def get (key : Str) : Method W (Except Str RedisReply) := do
  let c ← acquire api settings
  ask api c ["GET".toList, cString key]

/-- The commands of `put_value`, with the replies to `SET` and, where it is
sent, to `EXPIRE`. -/
def store (key value : Str) (c : Nat) :
    Method W (Except Str (RedisReply × Option RedisReply)) := do
  match ← ask api c ["SET".toList, cString key, cString value] with
  | .error errstr => pure (.error errstr)
  | .ok set =>
      if settings.ttl > 0 then
        match ← ask api c
            ["EXPIRE".toList, cString key, dcl.toStringInt settings.ttl] with
        | .error errstr => pure (.error errstr)
        | .ok expire => pure (.ok (set, some expire))
      else pure (.ok (set, none))

/-- One pass of the loop in `put_value`. -/
def put (key value : Str) :
    Method W (Except Str (RedisReply × Option RedisReply)) := do
  let c ← acquire api settings
  store dcl api settings key value c

/-- The text `get_value` makes of a reply. -/
def textOf : RedisReply → Str
  | .string str => cString str
  | _ => []

def getValue (key : Str) : Method W Str := do
  let reply ← retry (get api settings key) 3 "Unknown error".toList
  pure (textOf reply)

def putValue (key value : Str) : Method W Unit := do
  let _ ← retry (put dcl api settings key value) 3 "Unknown error".toList
  pure ()

end Loops

/-! ## What the attempts come to -/

/-- How the attempts end, in order.  There is another one as long as the
server gives no reply. -/
def answers (attempt : Method W (Except Str α)) :
    Nat → W → List (Outcome Exc (Except Str α))
  | 0, _ => []
  | attempts + 1, world =>
      match (attempt world).outcome with
      | .value (.error errstr) =>
          .value (.error errstr) ::
            answers attempt attempts (attempt world).state
      | ending => [ending]

/-! ## The commands and their replies -/

/-- What happens to the server in at most the given number of rounds, and how
the rounds end.  There is another round as long as one ends without a reply. -/
def course (round : Io W (Except Str α)) :
    Nat → W → W × List (Outcome Exc (Except Str α))
  | 0, world => (world, [])
  | rounds + 1, world =>
      match round world with
      | (after, .value (.error errstr)) =>
          ((course round rounds after).1,
            .value (.error errstr) :: (course round rounds after).2)
      | (after, ending) => (after, [ending])

/-- An operation goes on where the first one has returned. -/
def andThen {β : Type} (first : W × Outcome Exc α) (next : α → Io W β) :
    W × Outcome Exc β :=
  match first with
  | (after, .value result) => next result after
  | (after, .error exception) => (after, .error exception)
  | (after, .halt reason) => (after, .halt reason)

section Rounds

variable (dcl : Dcl) (api : RedisApi W) (settings : Settings)

/-- A connection of the pool; a new one is set up with the settings. -/
def connection : Method W Nat := do
  let c ← Prog.act (api.acquire settings.server)
  let configured ← Prog.act (api.isConfigured c)
  if configured then pure c
  else do
    Prog.act (api.configure c settings.server)
    Prog.when (settings.password != [])
      (Prog.act (api.login c settings.password))
    Prog.when (decide (0 < settings.databaseNumber))
      (Prog.act (api.selectDatabase c settings.databaseNumber.toNat))
    pure c

/-- A command is sent; when there is no reply, the connection is reset. -/
def sent (c : Nat) (arguments : List Str) : Io W (Except Str RedisReply) :=
  fun world =>
    match api.command c arguments world with
    | (after, .value (.error errstr)) =>
        (api.reset c after, .value (.error errstr))
    | (after, ending) => (after, ending)

/-- `GET key`. -/
def getRound (key : Str) : Io W (Except Str RedisReply) := fun world =>
  andThen ((connection api settings world).state,
      (connection api settings world).outcome)
    fun c => sent api c ["GET".toList, cString key]

/-- `SET key value` and, when there is a time to live, `EXPIRE key ttl` after
a reply. -/
def putRound (key value : Str) :
    Io W (Except Str (RedisReply × Option RedisReply)) := fun world =>
  andThen ((connection api settings world).state,
      (connection api settings world).outcome)
    fun c world =>
      andThen (sent api c ["SET".toList, cString key, cString value] world)
        fun
        | .error errstr => fun after => (after, .value (.error errstr))
        | .ok set => fun after =>
            if settings.ttl > 0 then
              andThen (sent api c ["EXPIRE".toList, cString key,
                  dcl.toStringInt settings.ttl] after)
                fun
                | .error errstr => fun last => (last, .value (.error errstr))
                | .ok expire => fun last => (last, .value (.ok (set, some expire)))
            else (after, .value (.ok (set, none)))

end Rounds

/-- A string is returned as it is and nil as the empty text; in all other
cases the function raises. -/
def GetRight (answers : List (Outcome Exc (Except Str RedisReply)))
    (outcome : Outcome Exc Str) : Prop :=
  match answers.getLast? with
  | some (.value (.ok (.string str))) => outcome = .value str
  | some (.value (.ok .nil)) => outcome = .value []
  | _ => ∃ exception, outcome = .error exception

/-- The server has carried out the command. -/
def Accepted : RedisReply → Prop
  | .error _ => False
  | _ => True

/-- If the function returns, the server has accepted `SET` and, with a time
to live, `EXPIRE`. -/
def PutRight (settings : Settings)
    (answers : List
      (Outcome Exc (Except Str (RedisReply × Option RedisReply))))
    (outcome : Outcome Exc Unit) : Prop :=
  outcome = .value () →
    ∃ set expire, answers.getLast? = some (.value (.ok (set, expire))) ∧
      Accepted set ∧
      (settings.ttl > 0 → ∃ reply, expire = some reply ∧ Accepted reply)

/-- If a reply ends the loop, it is nil or a text a C string can hold. -/
def Readable (answers : List (Outcome Exc (Except Str RedisReply))) : Prop :=
  match answers.getLast? with
  | some (.value (.ok (.string str))) => Char.ofNat 0 ∉ str
  | some (.value (.ok .nil)) => True
  | some (.value (.ok _)) | some (.halt _) => False
  | _ => True

/-- If replies end the loop, they are no errors. -/
def NoErrors (answers : List
    (Outcome Exc (Except Str (RedisReply × Option RedisReply)))) : Prop :=
  ∀ set expire, answers.getLast? = some (.value (.ok (set, expire))) →
    Accepted set ∧ ∀ reply, expire = some reply → Accepted reply

/-- The outcome of a loop whose attempts end in this way. -/
def ending (msg : Str) : Option (Outcome Exc (Except Str α)) → Outcome Exc α
  | some (.value (.ok replies)) => .value replies
  | some (.value (.error errstr)) => .error (.dbp errstr)
  | some (.error exception) => .error exception
  | some (.halt reason) => .halt reason
  | none => .error (.dbp msg)

theorem retry_outcome (attempt : Method W (Except Str α)) (attempts : Nat)
    (msg : Str) (world : W) :
    (retry attempt attempts msg world).outcome =
      ending msg (answers attempt attempts world).getLast? := by
  induction attempts generalizing msg world with
  | zero => rfl
  | succ attempts induction =>
      unfold retry answers
      cases ran : attempt world with
      | mk after out outcome =>
          cases outcome with
          | error exception =>
              rw [Prog.bind_error ran]
              rfl
          | halt reason =>
              rw [Prog.bind_halt ran]
              rfl
          | value result =>
              rw [Prog.bind_eq ran]
              cases result with
              | ok replies => rfl
              | error errstr =>
                  change (retry attempt attempts errstr after).outcome = _
                  rw [induction, List.getLast?_cons]
                  cases (answers attempt attempts after).getLast? with
                  | none => rfl
                  | some last =>
                      match last with
                      | .value (.ok _) | .value (.error _) => rfl
                      | .error _ | .halt _ => rfl

/-- Each attempt takes one connection at most. -/
theorem retry_marks {attempt : Method W (Except Str α)}
    (once : ∀ world, (attempt world).out.length ≤ 1) (attempts : Nat)
    (msg : Str) (world : W) :
    (retry attempt attempts msg world).out.length ≤ attempts := by
  induction attempts generalizing msg world with
  | zero => exact Nat.le_refl 0
  | succ attempts induction =>
      unfold retry
      have first := once world
      cases ran : attempt world with
      | mk after out outcome =>
          rw [ran] at first
          simp only at first
          cases outcome with
          | error exception =>
              rw [Prog.bind_error ran]
              exact Nat.le_trans first (Nat.le_add_left 1 attempts)
          | halt reason =>
              rw [Prog.bind_halt ran]
              exact Nat.le_trans first (Nat.le_add_left 1 attempts)
          | value result =>
              rw [Prog.bind_eq ran, List.length_append]
              cases result with
              | ok replies =>
                  exact Nat.le_trans first (Nat.le_add_left 1 attempts)
              | error errstr =>
                  have rest := induction errstr after
                  change out.length +
                    (retry attempt attempts errstr after).out.length ≤ _
                  omega

/-- The program does what the operation does. -/
def Makes (program : Method W α) (operation : Io W α) : Prop :=
  ∀ world, (program world).state = (operation world).1 ∧
    (program world).outcome = (operation world).2

theorem Makes.bind {β : Type} {first : Method W α} {operation : Io W α}
    {next : α → Method W β} {rest : α → Io W β}
    (makes : Makes first operation)
    (others : ∀ result, Makes (next result) (rest result)) :
    Makes (first >>= next) fun world => andThen (operation world) rest := by
  intro world
  have same := makes world
  cases ran : first world with
  | mk after out ended =>
      rcases made : operation world with ⟨last, ending⟩
      rw [ran, made] at same
      obtain ⟨rfl, rfl⟩ := same
      simp only [made]
      cases ended with
      | value result =>
          rw [Prog.bind_eq ran]
          exact others result after
      | error exception =>
          rw [Prog.bind_error ran]
          exact ⟨rfl, rfl⟩
      | halt reason =>
          rw [Prog.bind_halt ran]
          exact ⟨rfl, rfl⟩

theorem Makes.answers_eq {attempt : Method W (Except Str α)}
    {round : Io W (Except Str α)} (makes : Makes attempt round)
    (attempts : Nat) (world : W) :
    answers attempt attempts world = (course round attempts world).2 := by
  induction attempts generalizing world with
  | zero => rfl
  | succ attempts induction =>
      obtain ⟨state, outcome⟩ := makes world
      unfold answers course
      rw [state, outcome]
      rcases round world with ⟨after, ending⟩
      match ending with
      | .value (.ok replies) => rfl
      | .value (.error errstr) => simp only [induction]
      | .error exception => rfl
      | .halt reason => rfl

/-- The loop leaves the server as its rounds do, and makes no more of them. -/
theorem Makes.retry_state {attempt : Method W (Except Str α)}
    {round : Io W (Except Str α)} (makes : Makes attempt round)
    (attempts : Nat) (msg : Str) (world : W) :
    (retry attempt attempts msg world).state =
      (course round attempts world).1 := by
  induction attempts generalizing msg world with
  | zero => rfl
  | succ attempts induction =>
      have same := makes world
      rcases made : round world with ⟨last, ending⟩
      cases ran : attempt world with
      | mk after out ended =>
          rw [ran, made] at same
          obtain ⟨rfl, rfl⟩ := same
          unfold retry course
          rw [made]
          match ended with
          | .value (.ok replies) =>
              rw [Prog.bind_eq ran]
              rfl
          | .value (.error errstr) =>
              rw [Prog.bind_eq ran]
              exact induction errstr after
          | .error exception =>
              rw [Prog.bind_error ran]
          | .halt reason =>
              rw [Prog.bind_halt ran]

section Attempts

variable (dcl : Dcl) (api : RedisApi W) (settings : Settings)

theorem ask_silent (c : Nat) (arguments : List Str) :
    Prog.Silent (ask api c arguments) := by
  apply Prog.Silent.bind (Prog.Silent.act _)
  intro reply
  cases reply with
  | ok reply => exact Prog.Silent.pure _
  | error errstr =>
      apply Prog.Silent.bind (Prog.Silent.modify _)
      intro _
      exact Prog.Silent.pure _

theorem configure_silent (c : Nat) :
    Prog.Silent (configure api settings c) := by
  apply Prog.Silent.bind (Prog.Silent.act _)
  intro configured
  apply Prog.Silent.when
  apply Prog.Silent.bind (Prog.Silent.act _)
  intro _
  apply Prog.Silent.bind
  · exact Prog.Silent.when (Prog.Silent.act _)
  · intro _
    exact Prog.Silent.when (Prog.Silent.act _)

/-- An attempt marks itself and takes its connection. -/
theorem acquire_eq :
    acquire api settings =
      Prog.emit [()] >>= fun _ => connection api settings := by
  unfold acquire connection configure
  simp only [Prog.bind_assoc]
  apply congrArg
  funext _
  apply congrArg
  funext c
  apply congrArg
  funext configured
  cases configured with
  | true =>
      change (pure () >>= fun _ => pure c : Method W Nat) = pure c
      rw [Prog.pure_bind]
  | false =>
      have filled : (!settings.password.isEmpty) =
          (settings.password != []) := by
        cases settings.password <;> rfl
      simp only [Prog.when, Bool.not_false, if_true, Prog.bind_assoc, filled]
      rfl

theorem acquire_makes :
    Makes (acquire api settings) fun world =>
      ((connection api settings world).state,
        (connection api settings world).outcome) := by
  intro world
  have marked : (Prog.emit [()] : Method W Unit) world =
      ⟨world, [()], .value ()⟩ := rfl
  rw [acquire_eq, Prog.bind_eq marked]
  exact ⟨rfl, rfl⟩

theorem ask_makes (c : Nat) (arguments : List Str) :
    Makes (ask api c arguments) (sent api c arguments) := by
  intro world
  have run : (Prog.act (api.command c arguments) :
      Method W (Except Str RedisReply)) world =
    ⟨(api.command c arguments world).1, [],
      (api.command c arguments world).2⟩ := rfl
  unfold ask sent
  rcases replied : api.command c arguments world with ⟨after, ending⟩
  rw [replied] at run
  match ending with
  | .value (.ok reply) =>
      rw [Prog.bind_silent run]
      exact ⟨rfl, rfl⟩
  | .value (.error errstr) =>
      rw [Prog.bind_silent run]
      exact ⟨rfl, rfl⟩
  | .error exception =>
      rw [Prog.bind_error run]
      exact ⟨rfl, rfl⟩
  | .halt reason =>
      rw [Prog.bind_halt run]
      exact ⟨rfl, rfl⟩

theorem get_makes (key : Str) :
    Makes (get api settings key) (getRound api settings key) :=
  (acquire_makes api settings).bind fun c => ask_makes api c _

theorem put_makes (key value : Str) :
    Makes (put dcl api settings key value)
      (putRound dcl api settings key value) := by
  apply (acquire_makes api settings).bind
  intro c
  apply (ask_makes api c _).bind
  intro reply
  cases reply with
  | error errstr => exact fun _ => ⟨rfl, rfl⟩
  | ok set =>
      intro world
      by_cases lives : settings.ttl > 0
      · simp only [if_pos lives]
        refine (ask_makes api c _).bind (fun reply => ?_) world
        cases reply with
        | error errstr => exact fun _ => ⟨rfl, rfl⟩
        | ok expire => exact fun _ => ⟨rfl, rfl⟩
      · simp only [if_neg lives]
        exact ⟨rfl, rfl⟩

theorem acquire_marks (world : W) :
    (acquire api settings world).out = [()] := by
  have marked : (Prog.emit [()] : Method W Unit) world =
      ⟨world, [()], .value ()⟩ := rfl
  unfold acquire
  rw [Prog.out_bind_silent]
  · rw [marked]
  · intro _
    apply Prog.Silent.bind (Prog.Silent.act _)
    intro c
    apply Prog.Silent.bind (configure_silent api settings c)
    intro _
    exact Prog.Silent.pure c

theorem get_marks (key : Str) (world : W) :
    (get api settings key world).out.length ≤ 1 := by
  have marks : (get api settings key world).out = [()] := by
    unfold get
    rw [Prog.out_bind_silent fun c => ask_silent api c _]
    exact acquire_marks api settings world
  rw [marks]
  exact Nat.le_refl 1

theorem store_silent (key value : Str) (c : Nat) :
    Prog.Silent (store dcl api settings key value c) := by
  apply Prog.Silent.bind (ask_silent api c _)
  intro reply
  cases reply with
  | error errstr => exact Prog.Silent.pure _
  | ok set =>
      dsimp only
      split
      · apply Prog.Silent.bind (ask_silent api c _)
        intro reply
        cases reply with
        | error errstr => exact Prog.Silent.pure _
        | ok expire => exact Prog.Silent.pure _
      · exact Prog.Silent.pure _

theorem put_marks (key value : Str) (world : W) :
    (put dcl api settings key value world).out.length ≤ 1 := by
  have marks : (put dcl api settings key value world).out = [()] := by
    unfold put
    rw [Prog.out_bind_silent (store_silent dcl api settings key value)]
    exact acquire_marks api settings world
  rw [marks]
  exact Nat.le_refl 1

/-- An attempt that has its replies has one to `EXPIRE` exactly when there is
a time to live. -/
theorem put_expires {key value : Str} {world after : W} {out : List Unit}
    {set : RedisReply} {expire : Option RedisReply}
    (ran : put dcl api settings key value world =
      ⟨after, out, .value (.ok (set, expire))⟩) :
    (∃ reply, expire = some reply) ↔ settings.ttl > 0 := by
  obtain ⟨_, c, _, _, -, ran, -⟩ := Prog.of_bind_value ran
  obtain ⟨_, stored, _, _, -, ran, -⟩ := Prog.of_bind_value ran
  cases stored with
  | error errstr => cases ran
  | ok stored =>
      by_cases lives : settings.ttl > 0
      · simp only [if_pos lives] at ran
        obtain ⟨_, kept, _, _, -, ran, -⟩ := Prog.of_bind_value ran
        cases kept with
        | error errstr => cases ran
        | ok kept =>
            cases ran
            exact iff_of_true ⟨kept, rfl⟩ lives
      · simp only [if_neg lives] at ran
        cases ran
        apply iff_of_false _ lives
        rintro ⟨reply, same⟩
        cases same

/-- The same for the last of several attempts. -/
theorem answers_expire {key value : Str} {set : RedisReply}
    {expire : Option RedisReply} (attempts : Nat) (world : W)
    (last : (answers (put dcl api settings key value) attempts
      world).getLast? = some (.value (.ok (set, expire)))) :
    (∃ reply, expire = some reply) ↔ settings.ttl > 0 := by
  induction attempts generalizing world with
  | zero => cases last
  | succ attempts induction =>
      unfold answers at last
      cases ran : put dcl api settings key value world with
      | mk after out outcome =>
          rw [ran] at last
          match outcome, last with
          | .error _, last => cases last
          | .halt _, last => cases last
          | .value (.ok replies), last =>
              cases last
              exact put_expires dcl api settings ran
          | .value (.error errstr), last =>
              rw [List.getLast?_cons] at last
              cases rest : (answers (put dcl api settings key value) attempts
                  after).getLast? with
              | none =>
                  simp only [rest] at last
                  cases last
              | some ended =>
                  simp only [rest] at last
                  cases last
                  exact induction after rest

theorem getValue_outcome (key : Str) (world : W) :
    (getValue api settings key world).outcome =
      ending "Unknown error".toList
        (answers (get api settings key) 3 world).getLast? >>= fun reply =>
          .value (textOf reply) := by
  rw [← retry_outcome]
  exact Prog.outcome_map _ textOf world

theorem putValue_outcome (key value : Str) (world : W) :
    (putValue dcl api settings key value world).outcome =
      ending "Unknown error".toList
        (answers (put dcl api settings key value) 3 world).getLast? >>=
          fun _ => .value () := by
  rw [← retry_outcome]
  exact Prog.outcome_map _ (fun _ => ()) world

theorem getValue_marks (key : Str) (world : W) :
    (getValue api settings key world).out.length ≤ 3 := by
  unfold getValue
  rw [Prog.out_bind_silent fun reply => Prog.Silent.pure _]
  exact retry_marks (get_marks api settings key) 3 _ world

theorem putValue_marks (key value : Str) (world : W) :
    (putValue dcl api settings key value world).out.length ≤ 3 := by
  unfold putValue
  rw [Prog.out_bind_silent fun _ => Prog.Silent.pure _]
  exact retry_marks (put_marks dcl api settings key value) 3 _ world

theorem getRight_iff (key : Str) (world : W) :
    GetRight (answers (get api settings key) 3 world)
        (getValue api settings key world).outcome ↔
      Readable (answers (get api settings key) 3 world) := by
  rw [getValue_outcome]
  unfold GetRight Readable
  cases (answers (get api settings key) 3 world).getLast? with
  | none => exact iff_of_true ⟨_, rfl⟩ trivial
  | some last =>
      match last with
      | .error _ => exact iff_of_true ⟨_, rfl⟩ trivial
      | .value (.error _) => exact iff_of_true ⟨_, rfl⟩ trivial
      | .halt _ =>
          apply iff_of_false
          · rintro ⟨exception, same⟩
            cases same
          · exact id
      | .value (.ok .nil) => exact iff_of_true rfl trivial
      | .value (.ok (.string str)) =>
          change (Outcome.value (cString str) : Outcome Exc Str) =
            .value str ↔ _
          constructor
          · intro same
            rw [← Outcome.value.inj same]
            exact not_mem_cString str
          · intro plain
            rw [cString_eq_self plain]
      | .value (.ok (.status _)) | .value (.ok (.error _))
      | .value (.ok (.integer _)) | .value (.ok (.array _))
      | .value (.ok .unknown) =>
          apply iff_of_false
          · rintro ⟨exception, same⟩
            cases same
          · exact id

theorem putRight_iff (key value : Str) (world : W) :
    PutRight settings (answers (put dcl api settings key value) 3 world)
        (putValue dcl api settings key value world).outcome ↔
      NoErrors (answers (put dcl api settings key value) 3 world) := by
  rw [putValue_outcome]
  cases last : (answers (put dcl api settings key value) 3 world).getLast? with
  | none =>
      apply iff_of_true
      · intro returned
        cases returned
      · intro set expire same
        rw [last] at same
        cases same
  | some ended =>
      match ended, last with
      | .error _, last | .halt _, last | .value (.error _), last =>
          apply iff_of_true
          · intro returned
            cases returned
          · intro set expire same
            rw [last] at same
            cases same
      | .value (.ok (set, expire)), last =>
          have expires := answers_expire dcl api settings 3 world last
          constructor
          · intro right stored kept same
            obtain ⟨stored, kept, same', accepted, lives⟩ := right rfl
            rw [last] at same same'
            cases same
            cases same'
            refine ⟨accepted, ?_⟩
            rintro reply rfl
            obtain ⟨_, same, fine⟩ := lives (expires.mp ⟨reply, rfl⟩)
            cases same
            exact fine
          · intro fine _
            obtain ⟨stored, kept⟩ := fine set expire last
            refine ⟨set, expire, last, stored, ?_⟩
            intro lives
            obtain ⟨reply, rfl⟩ := expires.mpr lives
            exact ⟨reply, rfl, kept reply rfl⟩

end Attempts

/-- The functions send their commands in at most three rounds.  They tell the
replies apart as they should exactly when `GET` is answered by nil or by a
text without a null character, and `SET` and `EXPIRE` are not answered by an
error, as far as it is a reply that ends the loop. -/
theorem replies_told_apart_iff (dcl : Dcl) (memory : RedisMemory W)
    (settings : Settings) (key value : Str) (world : W) :
    let gets := course (getRound (memory.api dcl) settings key) 3 world
    let puts := course (putRound dcl (memory.api dcl) settings key value) 3
      world
    (getValue (memory.api dcl) settings key world).state = gets.1 ∧
      (putValue dcl (memory.api dcl) settings key value world).state =
        puts.1 ∧
      (GetRight gets.2 (getValue (memory.api dcl) settings key world).outcome ↔
        Readable gets.2) ∧
      (PutRight settings puts.2
          (putValue dcl (memory.api dcl) settings key value world).outcome ↔
        NoErrors puts.2) ∧
      (getValue (memory.api dcl) settings key world).out.length ≤ 3 ∧
      (putValue dcl (memory.api dcl) settings key value world).out.length ≤
        3 := by
  intro gets puts
  have getMakes := get_makes (memory.api dcl) settings key
  have putMakes := put_makes dcl (memory.api dcl) settings key value
  constructor
  · rw [← getMakes.retry_state 3 "Unknown error".toList]
    exact @Prog.view_bind _ _ _ _ _ _ id _ (fun _ _ => rfl) _ world
  constructor
  · rw [← putMakes.retry_state 3 "Unknown error".toList]
    exact @Prog.view_bind _ _ _ _ _ _ id _ (fun _ _ => rfl) _ world
  constructor
  · rw [← getMakes.answers_eq]
    exact getRight_iff _ settings key world
  constructor
  · rw [← putMakes.answers_eq]
    exact putRight_iff dcl _ settings key value world
  constructor
  · exact getValue_marks _ settings key world
  · exact putValue_marks dcl _ settings key value world

/-- A pool with the connection 0 only, and a server that answers every
command in the same way. -/
def memoryOf (reply : RedisReply) :
    RedisMemory (Nat → Option (Str × RedisConnection)) where
  server := []
  password := []
  databaseNumber := 0
  acquire _ world := (world, .value 0)
  filed world := world
  write address object world :=
    Function.update world address
      ((world address).map fun entry => (entry.1, object))
  redisConnect _ _ world := (world, some (0, none))
  redisCommand _ _ world := (world, .ok reply)
  redisFree _ world := world
  filed_write := by
    intro address world key found object there
    rw [there]
    rfl
  filed_connect _ _ _ := rfl
  filed_command _ _ _ := rfl
  filed_free _ _ := rfl

/-- The connection 0, open. -/
def connected (address : Nat) : Option (Str × RedisConnection) :=
  if address = 0 then some ([], ⟨some 0, true, ⟨[], [], []⟩⟩) else none

/-- While the server loads its data it answers everything with an error: the
session is found empty, and it is written. -/
theorem loading_read_as_empty :
    (getValue ((memoryOf (.error "LOADING".toList)).api Dcl.plain)
          ⟨[], [], 0, 0⟩ "k".toList connected).outcome = .value [] ∧
      ¬ GetRight
        (course (getRound ((memoryOf (.error "LOADING".toList)).api Dcl.plain)
          ⟨[], [], 0, 0⟩ "k".toList) 3 connected).2
        (getValue ((memoryOf (.error "LOADING".toList)).api Dcl.plain)
          ⟨[], [], 0, 0⟩ "k".toList connected).outcome ∧
      ¬ PutRight ⟨[], [], 0, 0⟩
        (course (putRound Dcl.plain
          ((memoryOf (.error "LOADING".toList)).api Dcl.plain)
          ⟨[], [], 0, 0⟩ "k".toList "v".toList) 3 connected).2
        (putValue Dcl.plain
          ((memoryOf (.error "LOADING".toList)).api Dcl.plain)
          ⟨[], [], 0, 0⟩ "k".toList "v".toList connected).outcome := by
  refine ⟨rfl, ?_, ?_⟩
  · rintro ⟨exception, same⟩
    cases same
  · intro right
    obtain ⟨set, expire, same, accepted, -⟩ := right rfl
    cases same
    exact accepted

end DbPager.ModSessionRedis
