import DbPager.Fcgx.Records
import DbPager.Library.Effect

/-!
# Reading from a FastCGI connection

The input stream of a request keeps a buffer that is filled by `read`, which
returns as many bytes as have arrived.  The stream takes the records apart as
the bytes come: it hands the contents of its own records to the client and
answers, skips or refuses the others.
-/

namespace DbPager.Fcgx

open Effect

/-! ## The connection -/

/-- A connected socket.  The peer closes it, or reading from it fails, when
everything that arrives has been read. -/
structure Socket where
  /-- What successive calls of `read` find. -/
  arrivals : List Bytes
  /-- The `errno` of a read that fails at the end. -/
  readError : Option Int
  /-- What the next calls of `write` do: take that many bytes, or fail.  Later
  calls take everything. -/
  writes : List (Option Nat)
  /-- The `errno` of a failing write. -/
  writeError : Int
  /-- What has been written. -/
  sent : Bytes

/-- `OS_Read`: the bytes, or the result that is not positive. -/
def Socket.read (size : Nat) (socket : Socket) :
    Except (Option Int) Bytes × Socket :=
  match socket.arrivals with
  | [] => (.error socket.readError, socket)
  | chunk :: arrivals =>
      if chunk.isEmpty then (.error none, { socket with arrivals })
      else if chunk.length ≤ size then (.ok chunk, { socket with arrivals })
      else
        (.ok (chunk.take size),
          { socket with arrivals := chunk.drop size :: arrivals })

/-- `write_it_all`: what is left of the writes, what has been written, and
whether no write has failed. -/
def writeItAll : List (Option Nat) → Bytes →
    List (Option Nat) × Bytes × Bool
  | writes, [] => (writes, [], true)
  | [], buffer => ([], buffer, true)
  | none :: writes, _ :: _ => (writes, [], false)
  | some count :: writes, byte :: buffer =>
      let rest := writeItAll writes ((byte :: buffer).drop count)
      (rest.1, (byte :: buffer).take count ++ rest.2.1, rest.2.2)

/-- `write_it_all` on a socket. -/
def Socket.write (buffer : Bytes) (socket : Socket) : Bool × Socket :=
  let written := writeItAll socket.writes buffer
  (written.2.2, { socket with
    writes := written.1
    sent := socket.sent ++ written.2.1 })

/-! ## Streams -/

/-- What `FCGX_Request` keeps beside its streams. -/
structure RequestData where
  requestId : Nat
  role : Nat
  isBeginProcessed : Bool
  keepConnection : Bool
  appStatus : Nat
  nWriters : Nat

/-- An input stream, `FCGX_Stream` with its `FCGX_Stream_Data`. -/
structure Reader where
  /-- From `rdNext` to `buffStop`. -/
  unread : Bytes
  /-- `stop - rdNext`: how many of them the client may have. -/
  ready : Nat
  isClosed : Bool
  /-- `FCGI_errno`. -/
  errno : Int
  type : UInt8
  eorStop : Bool
  skip : Bool
  contentLen : Nat
  paddingLen : Nat

/-- A connection on which a request is read. -/
structure Conn where
  bufflen : Nat
  socket : Socket
  request : RequestData
  reader : Reader

namespace Conn

/-- Everything that has not been consumed yet. -/
def pending (conn : Conn) : Bytes :=
  conn.reader.unread ++ conn.socket.arrivals.flatten

/-- `rdNext += count`. -/
def advance (count : Nat) (conn : Conn) : Conn :=
  { conn with reader := { conn.reader with
      unread := conn.reader.unread.drop count
      ready := conn.reader.ready - count } }

/-- `SetError`: only the first error is kept. -/
def setError (code : Int) (conn : Conn) : Conn :=
  { conn with reader := { conn.reader with
      errno := if conn.reader.errno = 0 then code else conn.reader.errno
      isClosed := true } }

end Conn

/-- `FCGX_UNSUPPORTED_VERSION`, `FCGX_PROTOCOL_ERROR` and
`FCGX_PARAMS_ERROR`. -/
def unsupportedVersion : Int := -2
def protocolError : Int := -3
def paramsError : Int := -4

/-- What the `Process` functions return. -/
inductive Status where
  | streamRecord
  | skip
  | beginRecord
  | mgmtRecord
  | error (code : Int)

/-- Functions of the library, over the exceptions C does not have. -/
abbrev C (α : Type) := Outcome Empty α

/-- If the buffer is empty, do a read.  A failing read closes the stream. -/
def refill (conn : Conn) : Except Conn Conn :=
  if conn.reader.unread.isEmpty then
    match conn.socket.read conn.bufflen with
    | (.error failed, socket) =>
        .error ({ conn with socket }.setError (failed.getD protocolError))
    | (.ok bytes, socket) =>
        .ok { conn with socket, reader := { conn.reader with
          unread := bytes, ready := 0 } }
  else .ok conn

/-- Hand the content that is there to the client. -/
def deliver (conn : Conn) : Conn :=
  let count := min conn.reader.contentLen conn.reader.unread.length
  { conn with reader := { conn.reader with
      contentLen := conn.reader.contentLen - count
      ready := count } }

/-- Skip the content that is there. -/
def skipContent (conn : Conn) : Conn :=
  let count := min conn.reader.contentLen conn.reader.unread.length
  if conn.reader.contentLen = 0 then conn
  else
    { conn with reader := { conn.reader with
        contentLen := conn.reader.contentLen - count
        unread := conn.reader.unread.drop count
        ready := 0
        skip := conn.reader.contentLen - count != 0 } }

/-- Skip the padding that is there. -/
def skipPadding (conn : Conn) : Conn :=
  let count := min conn.reader.paddingLen conn.reader.unread.length
  { conn with reader := { conn.reader with
      paddingLen := conn.reader.paddingLen - count
      unread := conn.reader.unread.drop count
      ready := 0 } }

/-- The stream while `ProcessHeader` uses it: `eorStop` keeps it inside the
record. -/
def insideRecord (conn : Conn) : Conn :=
  { conn with reader := { conn.reader with eorStop := true, ready := 0 } }

/-- The stream when `ProcessHeader` has returned. -/
def outsideRecord (conn : Conn) : Conn :=
  { conn with reader := { conn.reader with
    eorStop := false, isClosed := false } }

/-- The end of the stream. -/
def closeStream (conn : Conn) : Conn :=
  { conn with reader := { conn.reader with ready := 0, isClosed := true } }

/-- What the loop of `FillBuffProc` does with a header that is complete:
`next` is the next round. -/
def afterHeader (processHeader : Header → Conn → C (Status × Conn))
    (next : Conn → C Conn) (header : Bytes) (conn : Conn) : C Conn := do
  let (status, conn) ←
    processHeader (Header.ofBytes header) (insideRecord conn)
  let conn := outsideRecord conn
  match status with
  | .streamRecord =>
      if conn.reader.contentLen = 0 then pure (closeStream conn) else next conn
  | .skip =>
      next { conn with reader := { conn.reader with skip := true } }
  | .beginRecord => pure conn
  | .mgmtRecord => next conn
  | .error code => pure (conn.setError code)

/-- The loop of `FillBuffProc`, with the bytes of the next header that have
been read so far. -/
def fillLoop (processHeader : Header → Conn → C (Status × Conn)) :
    Nat → Bytes → Conn → C Conn
  | 0, _, _ => .halt .timeout
  | fuel + 1, header, conn =>
      match refill conn with
      | .error failed => .value failed
      | .ok conn =>
          if 0 < conn.reader.contentLen ∧ conn.reader.skip = false then
            .value (deliver conn)
          else
            let conn := skipContent conn
            if 0 < conn.reader.contentLen then
              fillLoop processHeader fuel header conn
            else
              let conn := skipPadding conn
              if 0 < conn.reader.paddingLen then
                fillLoop processHeader fuel header conn
              else if conn.reader.eorStop then .value (closeStream conn)
              else
                let count := min (headerLen - header.length)
                  conn.reader.unread.length
                let header := header ++ conn.reader.unread.take count
                let conn := conn.advance count
                if header.length < headerLen then
                  fillLoop processHeader fuel header conn
                else
                  afterHeader processHeader (fillLoop processHeader fuel [])
                    header conn

/-- `FillBuffProc` when it is called from `ProcessHeader`: it stops at the end
of the record, so that it never comes to a header. -/
def fillInner (conn : Conn) : C Conn :=
  fillLoop (fun _ _ => .halt .fault) (conn.pending.length + 1) [] conn

section Client

variable (fill : Conn → C Conn)

/-- `FCGX_GetChar`; no byte stands for `EOF`. -/
def getChar (conn : Conn) : C (Option UInt8 × Conn) :=
  if conn.reader.isClosed then .value (none, conn)
  else if 0 < conn.reader.ready then
    .value (conn.reader.unread.head?, conn.advance 1)
  else do
    let conn ← fill conn
    if conn.reader.isClosed then pure (none, conn)
    else if 0 < conn.reader.ready then
      pure (conn.reader.unread.head?, conn.advance 1)
    else pure (none, conn)

/-- The loop of `FCGX_GetStr`. -/
def getStrLoop : Nat → Nat → Conn → C (Bytes × Conn)
  | 0, _, _ => .halt .timeout
  | fuel + 1, count, conn => do
      let moved := min count conn.reader.ready
      let bytes := conn.reader.unread.take moved
      let conn := conn.advance moved
      if moved = count then pure (bytes, conn)
      else if conn.reader.isClosed then pure (bytes, conn)
      else
        let conn ← fill conn
        if conn.reader.isClosed then pure (bytes, conn)
        else
          let (rest, conn) ← getStrLoop fuel (count - moved) conn
          pure (bytes ++ rest, conn)

/-- `FCGX_GetStr`: the bytes that have been read. -/
def getStr (count : Nat) (conn : Conn) : C (Bytes × Conn) :=
  if conn.reader.isClosed ∨ count = 0 then .value ([], conn)
  else if count ≤ conn.reader.ready then
    .value (conn.reader.unread.take count, conn.advance count)
  else getStrLoop fill (conn.pending.length + 2) count conn

end Client

/-! ## Clients of a stream

What the clients see of a stream does not depend on how its bytes come: they
only need to know that filling the buffer makes progress as long as there is
content left.
-/

/-- `Holds conn content`: the client can still read exactly this content.  The
bytes that are ready are the first ones, and there are more after filling the
buffer. -/
structure Source (fill : Conn → C Conn) (Holds : Conn → Bytes → Prop) :
    Prop where
  isOpen : ∀ {conn content}, Holds conn content → conn.reader.isClosed = false
  enough : ∀ {conn content}, Holds conn content →
    content.length ≤ conn.pending.length
  starts : ∀ {conn content}, Holds conn content →
    conn.reader.ready ≤ content.length ∧
      conn.reader.unread.take conn.reader.ready =
        content.take conn.reader.ready
  advances : ∀ {conn content} (count : Nat), Holds conn content →
    count ≤ conn.reader.ready →
      Holds (conn.advance count) (content.drop count)
  fills : ∀ {conn content}, Holds conn content → conn.reader.ready = 0 →
    content ≠ [] → ∃ filled, fill conn = .value filled ∧
      0 < filled.reader.ready ∧ Holds filled content

/-- Filling the buffer when everything has been read closes the stream. -/
def Ends (fill : Conn → C Conn) (Holds : Conn → Bytes → Prop)
    (Ended : Conn → Prop) : Prop :=
  ∀ conn, Holds conn [] → ∃ closed, fill conn = .value closed ∧
    closed.reader.isClosed = true ∧ Ended closed

section Sources

variable {fill : Conn → C Conn} {Holds : Conn → Bytes → Prop}
  {Ended : Conn → Prop} {conn : Conn} {content : Bytes}

theorem ready_advance (count : Nat) (conn : Conn) :
    (conn.advance count).reader.ready = conn.reader.ready - count := rfl

/-- The bytes that are ready are the first ones of the content. -/
theorem Source.take_unread (source : Source fill Holds)
    (holds : Holds conn content) {count : Nat}
    (inside : count ≤ conn.reader.ready) :
    conn.reader.unread.take count = content.take count := by
  have same := congrArg (List.take count) (source.starts holds).2
  rwa [List.take_take, List.take_take, Nat.min_eq_left inside] at same

/-- `FCGX_GetChar` yields the next byte. -/
theorem Source.getChar_next (source : Source fill Holds)
    {byte : UInt8} (holds : Holds conn (byte :: content)) :
    ∃ next, getChar fill conn = .value (some byte, next) ∧
      Holds next content := by
  have first : ∀ {conn : Conn}, Holds conn (byte :: content) →
      0 < conn.reader.ready → conn.reader.unread.head? = some byte := by
    intro conn holds ready
    have taken := source.take_unread holds (Nat.succ_le_of_lt ready)
    cases unread : conn.reader.unread with
    | nil => simp [unread] at taken
    | cons other rest =>
        rw [unread] at taken
        simpa using taken
  unfold getChar
  rw [source.isOpen holds, if_neg Bool.false_ne_true]
  by_cases ready : 0 < conn.reader.ready
  · rw [if_pos ready, first holds ready]
    exact ⟨_, rfl, source.advances 1 holds ready⟩
  · rw [if_neg ready]
    obtain ⟨filled, ran, more, held⟩ := source.fills holds
      (Nat.eq_zero_of_not_pos ready) (List.cons_ne_nil _ _)
    refine ⟨filled.advance 1, ?_, source.advances 1 held more⟩
    simp only [ran, Outcome.value_bind, source.isOpen held, more,
      first held more, if_true, if_false, Bool.false_eq_true]
    rfl

/-- `FCGX_GetChar` yields `EOF` behind the content. -/
theorem Source.getChar_end (source : Source fill Holds)
    (ends : Ends fill Holds Ended) (holds : Holds conn []) :
    ∃ closed, getChar fill conn = .value (none, closed) ∧ Ended closed := by
  have none : conn.reader.ready = 0 := by
    simpa using (source.starts holds).1
  obtain ⟨closed, ran, isClosed, ended⟩ := ends _ holds
  refine ⟨closed, ?_, ended⟩
  unfold getChar
  simp only [source.isOpen holds, none, ran, isClosed, Outcome.value_bind,
    lt_irrefl, if_true, if_false, Bool.false_eq_true]
  rfl

/-- What a client that has asked for a number of bytes is left with. -/
def Behind (Holds : Conn → Bytes → Prop) (Ended : Conn → Prop) (count : Nat)
    (content : Bytes) (conn : Conn) : Prop :=
  if count ≤ content.length then Holds conn (content.drop count)
  else Ended conn

/-- The loop of `FCGX_GetStr` collects what is asked for, however it comes.
Every round but the first finds bytes that are ready. -/
theorem Source.getStrLoop_eq (source : Source fill Holds) {fuel count : Nat}
    (ends : content.length < count → Ends fill Holds Ended)
    (holds : Holds conn content) (asked : 0 < count)
    (enough : content.length + (if conn.reader.ready = 0 then 2 else 1) ≤ fuel) :
    ∃ next, getStrLoop fill fuel count conn =
        .value (content.take count, next) ∧
      Behind Holds Ended count content next := by
  induction fuel generalizing conn content count with
  | zero => split at enough <;> omega
  | succ fuel induction =>
      unfold getStrLoop
      simp only
      have moved := source.take_unread holds
        (Nat.min_le_right count conn.reader.ready)
      have held := source.advances _ holds
        (Nat.min_le_right count conn.reader.ready)
      have inside := (source.starts holds).1
      rw [moved]
      generalize least : min count conn.reader.ready = amount at held ⊢
      by_cases all : amount = count
      · rw [if_pos all, ← all]
        refine ⟨_, rfl, ?_⟩
        unfold Behind
        rwa [if_pos (by omega)]
      · have drained : amount = conn.reader.ready := by omega
        have less : amount < count := by omega
        have dry : (conn.advance amount).reader.ready = 0 := by
          rw [ready_advance]
          omega
        rw [if_neg all, source.isOpen held]
        simp only [Bool.false_eq_true, if_false]
        by_cases none : content.drop amount = []
        · -- The content is shorter than what has been asked for.
          have short : content.length ≤ amount :=
            List.drop_eq_nil_iff.mp none
          rw [none] at held
          obtain ⟨closed, ran, isClosed, ended⟩ := ends (by omega) _ held
          refine ⟨closed, ?_, ?_⟩
          · simp only [ran, Outcome.value_bind, isClosed, if_true]
            rw [List.take_of_length_le short,
              List.take_of_length_le (short.trans less.le)]
            rfl
          · unfold Behind
            rwa [if_neg (by omega)]
        · obtain ⟨filled, ran, more, again⟩ := source.fills held dry none
          simp only [ran, Outcome.value_bind, Bool.false_eq_true, if_false,
            source.isOpen again]
          have later : (content.drop amount).length < count - amount →
              Ends fill Holds Ended := fun short =>
            ends (by rw [List.length_drop] at short; omega)
          obtain ⟨next, got, behind⟩ := induction later again (by omega) (by
              rw [if_neg (Nat.pos_iff_ne_zero.mp more), List.length_drop]
              split at enough <;> omega)
          refine ⟨next, ?_, ?_⟩
          · rw [got]
            simp only [Outcome.value_bind]
            rw [← List.take_add, Nat.add_sub_cancel' less.le]
            rfl
          · unfold Behind at *
            rw [List.length_drop] at behind
            by_cases there : count ≤ content.length
            · rw [if_pos there]
              rwa [if_pos (by omega), List.drop_drop,
                Nat.add_sub_cancel' less.le] at behind
            · rw [if_neg there]
              rwa [if_neg (by omega)] at behind

/-- `FCGX_GetStr` reads as many bytes as it is asked for, or what is there. -/
theorem Source.getStr_all (source : Source fill Holds) (count : Nat)
    (ends : content.length < count → Ends fill Holds Ended)
    (holds : Holds conn content) :
    ∃ next, getStr fill count conn = .value (content.take count, next) ∧
      Behind Holds Ended count content next := by
  have inside := (source.starts holds).1
  unfold getStr Behind
  rw [source.isOpen holds]
  by_cases none : count = 0
  · subst none
    exact ⟨conn, by simp, by simpa using holds⟩
  · simp only [Bool.false_eq_true, none, or_self, if_false]
    by_cases fast : count ≤ conn.reader.ready
    · rw [if_pos fast, source.take_unread holds fast]
      refine ⟨_, rfl, ?_⟩
      rw [if_pos (by omega)]
      exact source.advances count holds fast
    · rw [if_neg fast]
      have enough := source.enough holds
      exact source.getStrLoop_eq ends holds (Nat.pos_of_ne_zero none)
        (by split <;> omega)

/-- The part of a source that comes before the end: what is asked for is
there. -/
theorem Source.getStr_eq (source : Source fill Holds) (count : Nat)
    (holds : Holds conn content) (there : count ≤ content.length) :
    ∃ next, getStr fill count conn = .value (content.take count, next) ∧
      Holds next (content.drop count) := by
  have never : content.length < count → Ends fill Holds fun _ => False :=
    fun short => absurd there (Nat.not_le.mpr short)
  obtain ⟨next, got, behind⟩ := source.getStr_all count never holds
  unfold Behind at behind
  rw [if_pos there] at behind
  exact ⟨next, got, behind⟩

end Sources

end DbPager.Fcgx
