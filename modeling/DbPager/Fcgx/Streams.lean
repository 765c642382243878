import DbPager.Fcgx.Params

/-!
# Streams of a request

A stream of a request arrives as the contents of its records.  Between them
there may be records of other requests, which are skipped, and the connection
hands over the bytes in pieces that have nothing to do with the records.  The
client of the stream reads the contents, one behind the other, and then the
end of the stream.
-/

namespace DbPager.Fcgx

open Effect

/-! ## Headers -/

/-- `ProcessBeginRecord`. -/
def processBeginRecord (requestId : Nat) (conn : Conn) : C (Status × Conn) :=
  if requestId = 0 ∨ conn.reader.contentLen ≠ 8 then
    .value (.error protocolError, conn)
  else if conn.request.isBeginProcessed then
    -- The web server multiplexes the connection.
    let written := conn.socket.write
      (endRequestRecord requestId 0 cantMpxConn)
    let conn := { conn with socket := written.2 }
    if written.1 then .value (.skip, conn)
    else .value (.error (-1), conn.setError conn.socket.writeError)
  else do
    let conn := { conn with request := { conn.request with requestId } }
    let (body, conn) ← getStr fillInner 8 conn
    if body.length ≠ 8 then pure (.error protocolError, conn)
    else
      pure (.beginRecord, { conn with request := { conn.request with
        keepConnection := (body.getD 2 0).toNat % 2 = 1
        role := (body.getD 0 0).toNat * 256 + (body.getD 1 0).toNat
        isBeginProcessed := true } })

/-- What a C string shows of an array of bytes. -/
def cBytes (bytes : Bytes) : Bytes :=
  bytes.takeWhile (· ≠ 0)

/-- The bytes of an ASCII text. -/
def ascii (text : String) : Bytes :=
  text.toList.map fun c => UInt8.ofNat c.toNat

/-- The answer to one variable of `FCGI_GET_VALUES`.  A name that contains a
NUL hides the `=` from `strchr`. -/
def valueOf (nameValue : Bytes) : C Bytes :=
  if equalsSign ∉ cBytes nameValue then .halt .fault
  else
    let name := (cBytes nameValue).takeWhile (· ≠ equalsSign)
    let pair (value : String) :=
      UInt8.ofNat name.length :: 1 :: (name ++ ascii value)
    if name = ascii "FCGI_MAX_CONNS" then .value (pair "1")
    else if name = ascii "FCGI_MAX_REQS" then .value (pair "1")
    else if name = ascii "FCGI_MPXS_CONNS" then .value (pair "0")
    else .value []

/-- The answers, in a buffer of 64 bytes that also holds the header and a
terminating NUL. -/
def valuesOf : List Bytes → Bytes → C Bytes
  | [], response => .value response
  | nameValue :: rest, response => do
      let answer ← valueOf nameValue
      if 64 ≤ headerLen + response.length + answer.length then .halt .fault
      else valuesOf rest (response ++ answer)

/-- Send the answer to a management record.  The padding, which the library
does not initialize, stands for zeros. -/
def answerManagement (type : UInt8) (body : Bytes) (conn : Conn) :
    Status × Conn :=
  let padding := alignInt8 body.length - body.length
  let written := conn.socket.write
    ((makeHeader type nullRequestId body.length padding).bytes ++ body ++
      List.replicate padding 0)
  let conn := { conn with socket := written.2 }
  if written.1 then (.mgmtRecord, conn)
  else (.error (-1), conn.setError conn.socket.writeError)

/-- `ProcessManagementRecord`. -/
def processManagementRecord (type : UInt8) (conn : Conn) :
    C (Status × Conn) :=
  if type = RecordType.getValues then do
    let (_, params, conn) ←
      readParams fillInner (Params.new 3 (by decide)) conn
    if conn.reader.errno ≠ 0 ∨ conn.reader.contentLen ≠ 0 then
      pure (.error protocolError, conn)
    else
      let response ← valuesOf params.vec []
      pure (answerManagement RecordType.getValuesResult response conn)
  else
    .value (answerManagement RecordType.unknownType
      (makeUnknownTypeBody type) conn)

/-- `ProcessHeader`. -/
def processHeader (header : Header) (conn : Conn) : C (Status × Conn) :=
  if header.version ≠ version1 then .value (.error unsupportedVersion, conn)
  else
    let conn := { conn with reader := { conn.reader with
      contentLen := header.contentLength
      paddingLen := header.paddingLength.toNat } }
    if header.type = RecordType.beginRequest then
      processBeginRecord header.requestId conn
    else if header.requestId = nullRequestId then
      processManagementRecord header.type conn
    else if header.requestId ≠ conn.request.requestId then
      .value (.skip, conn)
    else if header.type ≠ conn.reader.type then
      .value (.error protocolError, conn)
    else .value (.streamRecord, conn)

/-- `FillBuffProc`. -/
def fillBuffProc (conn : Conn) : C Conn :=
  fillLoop processHeader (conn.pending.length + 1) [] conn

/-! ## What arrives -/

/-- The bytes that arrive before the given later ones. -/
structure Feeds (conn : Conn) (later : List Bytes) (bytes : Bytes) : Prop where
  arrive : ∃ front, conn.socket.arrivals = front ++ later ∧
    conn.reader.unread ++ front.flatten = bytes ∧
    ∀ chunk ∈ front, chunk ≠ []
  positive : 0 < conn.bufflen

/-- Nothing but the stream and what is still to be read changes. -/
structure OnlyReads (before after : Conn) : Prop where
  request : after.request = before.request
  bufflen : after.bufflen = before.bufflen
  writes : after.socket.writes = before.socket.writes
  writeError : after.socket.writeError = before.socket.writeError
  readError : after.socket.readError = before.socket.readError
  sent : after.socket.sent = before.socket.sent
  type : after.reader.type = before.reader.type
  errno : after.reader.errno = before.reader.errno

theorem OnlyReads.refl (conn : Conn) : OnlyReads conn conn :=
  ⟨rfl, rfl, rfl, rfl, rfl, rfl, rfl, rfl⟩

theorem OnlyReads.trans {first second third : Conn}
    (one : OnlyReads first second) (two : OnlyReads second third) :
    OnlyReads first third :=
  ⟨two.request.trans one.request, two.bufflen.trans one.bufflen,
    two.writes.trans one.writes, two.writeError.trans one.writeError,
    two.readError.trans one.readError, two.sent.trans one.sent,
    two.type.trans one.type, two.errno.trans one.errno⟩

section Arriving

variable {conn : Conn} {later : List Bytes} {bytes : Bytes}

theorem Feeds.length_le (feeds : Feeds conn later bytes) :
    bytes.length ≤ conn.pending.length := by
  obtain ⟨front, arrivals, same, -⟩ := feeds.arrive
  unfold Conn.pending
  rw [arrivals, List.flatten_append, ← List.append_assoc, same,
    List.length_append]
  exact Nat.le_add_right _ _

/-- Consuming bytes of the buffer. -/
theorem Feeds.drop (feeds : Feeds conn later bytes) (after : Conn)
    (count : Nat) (inside : count ≤ conn.reader.unread.length)
    (socket : after.socket = conn.socket) (same : after.bufflen = conn.bufflen)
    (unread : after.reader.unread = conn.reader.unread.drop count) :
    Feeds after later (bytes.drop count) := by
  obtain ⟨front, arrivals, joined, proper⟩ := feeds.arrive
  refine ⟨⟨front, by rw [socket, arrivals], ?_, proper⟩, ?_⟩
  · rw [unread, ← joined, List.drop_append_of_le_length inside]
  · rw [same]
    exact feeds.positive

/-- The bytes in the buffer are the first ones. -/
theorem Feeds.unread_eq (feeds : Feeds conn later bytes) :
    conn.reader.unread = bytes.take conn.reader.unread.length := by
  obtain ⟨front, -, joined, -⟩ := feeds.arrive
  rw [← joined, List.take_left]

theorem Feeds.unread_le (feeds : Feeds conn later bytes) :
    conn.reader.unread.length ≤ bytes.length := by
  obtain ⟨front, -, joined, -⟩ := feeds.arrive
  rw [← joined, List.length_append]
  exact Nat.le_add_right _ _

/-- A read finds the next bytes and does not touch the later ones. -/
theorem Feeds.refill (feeds : Feeds conn later bytes) (more : bytes ≠ []) :
    ∃ filled, refill conn = .ok filled ∧ Feeds filled later bytes ∧
      filled.reader.unread ≠ [] ∧ OnlyReads conn filled ∧
      filled.reader.isClosed = conn.reader.isClosed ∧
      filled.reader.eorStop = conn.reader.eorStop ∧
      filled.reader.skip = conn.reader.skip ∧
      filled.reader.contentLen = conn.reader.contentLen ∧
      filled.reader.paddingLen = conn.reader.paddingLen := by
  obtain ⟨front, arrivals, joined, proper⟩ := feeds.arrive
  unfold Fcgx.refill
  by_cases empty : conn.reader.unread = []
  · rw [empty, List.nil_append] at joined
    rw [if_pos (by simp [empty])]
    cases front with
    | nil => exact absurd joined.symm more
    | cons chunk front =>
        have full := proper chunk List.mem_cons_self
        have others : ∀ other ∈ front, other ≠ [] := fun other member =>
          proper other (List.mem_cons_of_mem _ member)
        rw [List.cons_append] at arrivals
        unfold Socket.read
        simp only [arrivals, List.isEmpty_iff, full, if_false]
        by_cases whole : chunk.length ≤ conn.bufflen
        · rw [if_pos whole]
          refine ⟨_, rfl, ⟨⟨front, rfl, joined, others⟩, feeds.positive⟩, full,
            ⟨rfl, rfl, rfl, rfl, rfl, rfl, rfl, rfl⟩, rfl, rfl, rfl, rfl, rfl⟩
        · rw [if_neg whole]
          have positive := feeds.positive
          refine ⟨_, rfl,
            ⟨⟨chunk.drop conn.bufflen :: front, rfl, ?_, ?_⟩, positive⟩, ?_,
            ⟨rfl, rfl, rfl, rfl, rfl, rfl, rfl, rfl⟩, rfl, rfl, rfl, rfl, rfl⟩
          · rw [← joined, List.flatten_cons, List.flatten_cons,
              ← List.append_assoc, List.take_append_drop]
          · intro other member
            rcases List.mem_cons.mp member with rfl | member
            · intro none
              rw [List.drop_eq_nil_iff] at none
              exact whole none
            · exact others other member
          · intro none
            have := congrArg List.length none
            simp only [List.length_take, List.length_nil] at this
            omega
  · rw [if_neg (by simp [empty])]
    exact ⟨conn, rfl, feeds, empty, .refl conn, rfl, rfl, rfl, rfl, rfl⟩

end Arriving

/-! ## The loop over the records -/

/-- A record that may come in the middle of a stream: one of its own, or one
of another request.  Records without content end a stream, and a record of
another request without content is not skipped but makes the library skip the
next one. -/
structure Belongs (type : UInt8) (id : Nat) (record : Record) : Prop where
  content : record.content ≠ []
  origin : record.requestId = id ∧ record.type = type ∨
    record.requestId ≠ id ∧ record.requestId ≠ nullRequestId ∧
      record.type ≠ RecordType.beginRequest

/-- What the records of a request carry. -/
def carried (id : Nat) (records : List Record) : Bytes :=
  records.flatMap fun record =>
    if record.requestId = id then record.content else []

theorem carried_length_le (id : Nat) (records : List Record) :
    (carried id records).length ≤
      (records.flatMap Record.bytes).length := by
  induction records with
  | nil => exact Nat.le_refl _
  | cons record records induction =>
      have one : (if record.requestId = id then record.content else []).length ≤
          record.bytes.length := by
        unfold Record.bytes
        split <;> simp
        omega
      unfold carried at induction ⊢
      rw [List.flatMap_cons, List.flatMap_cons, List.length_append,
        List.length_append]
      exact Nat.add_le_add one induction

/-- A stream of a request as it comes over a connection: the records, and the
record that ends the stream. -/
structure Stream where
  type : UInt8
  id : Nat
  records : List Record
  stop : Record
  named : id ≠ nullRequestId
  typed : type ≠ RecordType.beginRequest
  belongs : ∀ record ∈ records, Belongs type id record
  stopType : stop.type = type
  stopId : stop.requestId = id
  stopContent : stop.content = []

namespace Stream

def content (stream : Stream) : Bytes :=
  carried stream.id stream.records

def bytes (stream : Stream) : Bytes :=
  stream.records.flatMap Record.bytes ++ stream.stop.bytes

/-- The stream without its first record. -/
def tail (stream : Stream) : Stream :=
  { stream with
    records := stream.records.tail
    belongs := fun record member =>
      stream.belongs record (List.mem_of_mem_tail member) }

section Tail

variable {stream : Stream} {record : Record} {records : List Record}

theorem bytes_tail (first : stream.records = record :: records) :
    stream.tail.bytes = records.flatMap Record.bytes ++ stream.stop.bytes := by
  change stream.records.tail.flatMap Record.bytes ++ stream.stop.bytes = _
  rw [first, List.tail_cons]

theorem bytes_eq (first : stream.records = record :: records) :
    stream.bytes = record.bytes ++ stream.tail.bytes := by
  rw [bytes_tail first]
  unfold bytes
  rw [first, List.flatMap_cons, List.append_assoc]

theorem content_eq (first : stream.records = record :: records) :
    stream.content =
      (if record.requestId = stream.id then record.content else []) ++
        stream.tail.content := by
  change carried stream.id stream.records =
    _ ++ carried stream.id stream.records.tail
  rw [first]
  rfl

end Tail

end Stream

/-- What `ProcessHeader` makes of the header of a record of the stream or of
another request. -/
def opened (record : Record) (conn : Conn) : Conn :=
  { conn with reader := { conn.reader with
    contentLen := record.content.length
    paddingLen := record.padding.length } }

theorem processHeader_own {record : Record} (conn : Conn)
    (id : record.requestId = conn.request.requestId)
    (type : record.type = conn.reader.type)
    (named : record.requestId ≠ nullRequestId)
    (typed : record.type ≠ RecordType.beginRequest) :
    processHeader record.header conn =
      .value (.streamRecord, opened record conn) := by
  unfold processHeader
  rw [record.header_requestId, record.header_contentLength,
    record.header_paddingLength]
  rw [id] at named
  rw [type] at typed
  simp [Record.header, typed, named, id, type, opened]

theorem processHeader_foreign {record : Record} (conn : Conn)
    (id : record.requestId ≠ conn.request.requestId)
    (named : record.requestId ≠ nullRequestId)
    (typed : record.type ≠ RecordType.beginRequest) :
    processHeader record.header conn =
      .value (.skip, opened record conn) := by
  unfold processHeader
  rw [record.header_requestId, record.header_contentLength,
    record.header_paddingLength]
  simp [Record.header, typed, named, id, opened]

/-- Where the loop stands: in the content or the padding of a record, or in
a header of which the first bytes have been read.  `tail` is what comes behind
the record or the bytes of the header. -/
structure Stands (stream : Stream) (later : List Bytes) (rest header : Bytes)
    (conn : Conn) (body padding tail : Bytes) : Prop where
  isOpen : conn.reader.isClosed = false
  eorStop : conn.reader.eorStop = false
  requestId : conn.request.requestId = stream.id
  type : conn.reader.type = stream.type
  feeds : Feeds conn later (body ++ padding ++ tail)
  contentLen : conn.reader.contentLen = body.length
  paddingLen : conn.reader.paddingLen = padding.length
  whole : header ++ tail = stream.bytes ++ rest
  short : header.length < headerLen
  plain : header ≠ [] → body = [] ∧ padding = []
  skips : conn.reader.skip = true → body ≠ []

/-- The content the client will get from where the loop stands. -/
def remaining (stream : Stream) (conn : Conn) (body : Bytes) : Bytes :=
  (if conn.reader.skip then [] else body) ++ stream.content

/-- What the client of a stream sees: `body` is the rest of the record at
hand, of which the first bytes are ready. -/
structure InStream (stream : Stream) (later : List Bytes) (rest : Bytes)
    (conn : Conn) (content : Bytes) : Prop where
  isOpen : conn.reader.isClosed = false
  eorStop : conn.reader.eorStop = false
  skip : conn.reader.skip = false
  requestId : conn.request.requestId = stream.id
  type : conn.reader.type = stream.type
  ready : conn.reader.ready ≤ conn.reader.unread.length
  stands : ∃ (records : List Record) (body padding : Bytes),
    (∀ record ∈ records, Belongs stream.type stream.id record) ∧
    Feeds conn later (body ++ padding ++
      (records.flatMap Record.bytes ++ stream.stop.bytes ++ rest)) ∧
    body.length = conn.reader.ready + conn.reader.contentLen ∧
    padding.length = conn.reader.paddingLen ∧
    content = body ++ carried stream.id records

/-- The stream has been read to its end. -/
structure Finished (stream : Stream) (later : List Bytes) (rest : Bytes)
    (conn : Conn) : Prop where
  isClosed : conn.reader.isClosed = true
  feeds : Feeds conn later (stream.stop.padding ++ rest)

/-- What a call of `FillBuffProc` leaves. -/
def Filled (stream : Stream) (later : List Bytes) (rest content : Bytes)
    (conn : Conn) : Prop :=
  if content = [] then Finished stream later rest conn
  else 0 < conn.reader.ready ∧ InStream stream later rest conn content

section Loop

variable {stream : Stream} {later : List Bytes} {rest header : Bytes}
  {conn : Conn} {body padding tail : Bytes}

theorem header_le_bytes (stream : Stream) :
    headerLen ≤ stream.bytes.length := by
  unfold Stream.bytes Record.bytes
  simp only [List.length_append, Header.length_bytes]
  omega

/-- There is always something left to read. -/
theorem Stands.more (stands : Stands stream later rest header conn body
    padding tail) : body ++ padding ++ tail ≠ [] := by
  intro none
  have empty : tail = [] := (List.append_eq_nil_iff.mp none).2
  have whole := congrArg List.length stands.whole
  have long := header_le_bytes stream
  have short := stands.short
  simp only [empty, List.length_append, List.length_nil] at whole
  omega

/-- The first bytes of the content are handed to the client. -/
theorem Stands.deliver (stands : Stands stream later rest header conn body
    padding tail) (there : conn.reader.unread ≠ [])
    (content : 0 < conn.reader.contentLen) (skip : conn.reader.skip = false) :
    0 < (deliver conn).reader.ready ∧
      InStream stream later rest (deliver conn)
        (remaining stream conn body) := by
  have long := stands.contentLen
  have inside := List.length_pos_iff.mpr there
  have bodied : body ≠ [] := List.length_pos_iff.mp (long ▸ content)
  have plain : header = [] := by
    by_contra some_
    exact bodied (stands.plain some_).1
  constructor
  · exact Nat.lt_min.mpr ⟨content, inside⟩
  · refine ⟨stands.isOpen, stands.eorStop, skip, stands.requestId, stands.type,
      Nat.min_le_right _ _, stream.records, body, padding, stream.belongs, ?_,
      ?_, stands.paddingLen.symm, ?_⟩
    · have whole := stands.whole
      rw [plain, List.nil_append] at whole
      have feeds := stands.feeds
      rw [whole] at feeds
      exact ⟨feeds.arrive, feeds.positive⟩
    · simp only [Fcgx.deliver, long]
      omega
    · unfold remaining
      rw [skip]
      rfl

/-- Content that is not delivered is skipped. -/
theorem Stands.skipContent (stands : Stands stream later rest header conn body
    padding tail)
    (undelivered : ¬ (0 < conn.reader.contentLen ∧ conn.reader.skip = false)) :
    ∃ count, count ≤ body.length ∧ count ≤ conn.reader.unread.length ∧
      (skipContent conn).reader.unread = conn.reader.unread.drop count ∧
      (count < body.length → count = conn.reader.unread.length) ∧
      (count = body.length → (skipContent conn).reader.skip = false) ∧
      OnlyReads conn (skipContent conn) ∧
      Stands stream later rest header (skipContent conn) (body.drop count)
        padding tail ∧
      remaining stream (skipContent conn) (body.drop count) =
        remaining stream conn body := by
  have long := stands.contentLen
  unfold Fcgx.skipContent
  by_cases none : conn.reader.contentLen = 0
  · have empty : body = [] := List.length_eq_zero_iff.mp (long ▸ none)
    have unskipped : conn.reader.skip = false := by
      cases skip : conn.reader.skip with
      | false => rfl
      | true => exact absurd empty (stands.skips skip)
    subst empty
    rw [if_pos none]
    exact ⟨0, Nat.le_refl 0, Nat.zero_le _, rfl, fun less => absurd less
      (Nat.lt_irrefl 0), fun _ => unskipped, .refl conn, stands, rfl⟩
  · have skipping : conn.reader.skip = true := by
      cases skip : conn.reader.skip with
      | true => rfl
      | false => exact absurd ⟨Nat.pos_of_ne_zero none, skip⟩ undelivered
    have plain : header = [] := by
      by_contra some_
      rw [(stands.plain some_).1] at long
      exact none long
    rw [if_neg none]
    simp only [long]
    generalize least : min body.length conn.reader.unread.length = count
    have inBody : count ≤ body.length := by omega
    refine ⟨count, inBody, by omega, rfl, fun less => by omega, ?_,
      ⟨rfl, rfl, rfl, rfl, rfl, rfl, rfl, rfl⟩, ?_, ?_⟩
    · intro all
      simp [all]
    · refine ⟨stands.isOpen, stands.eorStop, stands.requestId, stands.type, ?_,
        ?_, stands.paddingLen, stands.whole, stands.short, ?_, ?_⟩
      · have dropped := stands.feeds.drop { conn with
          reader := { conn.reader with
            contentLen := body.length - count
            unread := conn.reader.unread.drop count
            ready := 0
            skip := body.length - count != 0 } } count (by omega) rfl rfl rfl
        rwa [List.append_assoc, List.drop_append_of_le_length inBody,
          ← List.append_assoc] at dropped
      · simp
      · intro some_
        exact absurd plain some_
      · intro skips empty
        have := congrArg List.length empty
        simp only [List.length_drop, List.length_nil] at this
        simp [this] at skips
    · unfold remaining
      simp only [skipping, if_true]
      by_cases all : body.length - count = 0
      · have : body.drop count = [] := List.drop_eq_nil_of_le (by omega)
        simp [all, this]
      · simp [all]

/-- Padding is skipped. -/
theorem Stands.skipPadding (stands : Stands stream later rest header conn []
    padding tail) (unskipped : conn.reader.skip = false) :
    ∃ count, count ≤ padding.length ∧ count ≤ conn.reader.unread.length ∧
      (skipPadding conn).reader.unread = conn.reader.unread.drop count ∧
      (count < padding.length → count = conn.reader.unread.length) ∧
      (skipPadding conn).reader.skip = false ∧
      OnlyReads conn (skipPadding conn) ∧
      Stands stream later rest header (skipPadding conn) []
        (padding.drop count) tail := by
  have long := stands.paddingLen
  unfold Fcgx.skipPadding
  simp only [long]
  generalize least : min padding.length conn.reader.unread.length = count
  have inPadding : count ≤ padding.length := by omega
  refine ⟨count, inPadding, by omega, rfl, fun less => by omega, unskipped,
    ⟨rfl, rfl, rfl, rfl, rfl, rfl, rfl, rfl⟩, stands.isOpen, stands.eorStop,
    stands.requestId, stands.type, ?_, stands.contentLen, ?_, stands.whole,
    stands.short, ?_, ?_⟩
  · have dropped := stands.feeds.drop { conn with
      reader := { conn.reader with
        paddingLen := padding.length - count
        unread := conn.reader.unread.drop count
        ready := 0 } } count (by omega) rfl rfl rfl
    rw [List.nil_append, List.drop_append_of_le_length inPadding] at dropped
    rwa [List.nil_append]
  · simp
  · intro some_
    refine ⟨rfl, ?_⟩
    rw [(stands.plain some_).2]
    exact List.drop_nil
  · intro skips
    exact absurd (unskipped.symm.trans skips) Bool.false_ne_true

/-- The header is read as far as its bytes are there. -/
theorem Stands.readHeader (stands : Stands stream later rest header conn []
    [] tail) (unskipped : conn.reader.skip = false) :
    ∃ count, count ≤ headerLen - header.length ∧
      count ≤ conn.reader.unread.length ∧ count ≤ tail.length ∧
      min (headerLen - header.length) conn.reader.unread.length = count ∧
      (header.length + count < headerLen →
        count = conn.reader.unread.length) ∧
      conn.reader.unread.take count = tail.take count ∧
      Feeds (conn.advance count) later (tail.drop count) ∧
      (header.length + count < headerLen →
        Stands stream later rest (header ++ tail.take count)
          (conn.advance count) [] [] (tail.drop count)) := by
  have feeds := stands.feeds
  rw [List.nil_append, List.nil_append] at feeds
  have inside := feeds.unread_le
  have short := stands.short
  generalize least :
    min (headerLen - header.length) conn.reader.unread.length = count
  have inUnread : count ≤ conn.reader.unread.length := by omega
  have fed : Feeds (conn.advance count) later (tail.drop count) :=
    feeds.drop _ _ inUnread rfl rfl rfl
  refine ⟨count, by omega, inUnread, by omega, rfl, fun less => by omega, ?_,
    fed, ?_⟩
  · rw [feeds.unread_eq, List.take_take, Nat.min_eq_left inUnread]
  · intro partial_
    refine ⟨stands.isOpen, stands.eorStop, stands.requestId, stands.type, fed,
      stands.contentLen, stands.paddingLen, ?_, ?_, fun _ => ⟨rfl, rfl⟩, ?_⟩
    · rw [List.append_assoc, List.take_append_drop]
      exact stands.whole
    · rw [List.length_append, List.length_take]
      omega
    · intro skips
      exact absurd (unskipped.symm.trans skips) Bool.false_ne_true

/-- A header that has been read is the one of the next record. -/
theorem header_eq {first rest tail : Bytes} {record : Record}
    (long : first.length = headerLen)
    (whole : first ++ tail = record.bytes ++ rest) :
    first = record.header.bytes ∧
      tail = record.content ++ record.padding ++ rest := by
  unfold Record.bytes at whole
  simp only [List.append_assoc] at whole
  obtain ⟨same, behind⟩ := List.append_inj whole
    (long.trans (Header.length_bytes _).symm)
  exact ⟨same, by rw [behind, List.append_assoc]⟩

theorem Filled.of_tail {content : Bytes}
    (filled : Filled stream.tail later rest content conn) :
    Filled stream later rest content conn := by
  unfold Filled at *
  by_cases none : content = []
  · rw [if_pos none] at *
    exact ⟨filled.isClosed, filled.feeds⟩
  · rw [if_neg none] at *
    obtain ⟨ready, held⟩ := filled
    exact ⟨ready, held.isOpen, held.eorStop, held.skip, held.requestId,
      held.type, held.ready, held.stands⟩

/-- The state in which the next record is read. -/
def nextRecord (record : Record) (skip : Bool) (conn : Conn) : Conn :=
  { conn with reader := { conn.reader with
    eorStop := false
    isClosed := false
    skip
    ready := 0
    contentLen := record.content.length
    paddingLen := record.padding.length } }

theorem stands_nextRecord {record : Record} {records : List Record}
    (first : stream.records = record :: records)
    (requestId : conn.request.requestId = stream.id)
    (type : conn.reader.type = stream.type)
    (feeds : Feeds conn later (record.content ++ record.padding ++
      (stream.tail.bytes ++ rest))) (skip : Bool) :
    Stands stream.tail later rest [] (nextRecord record skip conn)
      record.content record.padding (stream.tail.bytes ++ rest) :=
  ⟨rfl, rfl, requestId, type, ⟨feeds.arrive, feeds.positive⟩, rfl, rfl, rfl,
    by decide, fun some_ => absurd rfl some_,
    fun _ => (stream.belongs record (first ▸ List.mem_cons_self)).content⟩

/-- What a run of the loop comes to. -/
def LoopEnds (stream : Stream) (later : List Bytes) (rest content : Bytes)
    (conn : Conn) (result : C Conn) : Prop :=
  ∃ filled, result = .value filled ∧ OnlyReads conn filled ∧
    Filled stream later rest content filled

theorem LoopEnds.after {content : Bytes} {middle : Conn} {result : C Conn}
    (ends : LoopEnds stream later rest content middle result)
    (read : OnlyReads conn middle) :
    LoopEnds stream later rest content conn result := by
  obtain ⟨filled, ran, behind, filledUp⟩ := ends
  exact ⟨filled, ran, read.trans behind, filledUp⟩

/-- The loop ends as it should from every place with fewer bytes left. -/
def Continues (later : List Bytes) (rest : Bytes) (fuel : Nat) : Prop :=
  ∀ {stream : Stream} {header : Bytes} {conn : Conn}
    {body padding tail : Bytes},
    Stands stream later rest header conn body padding tail →
    (body ++ padding ++ tail).length < fuel →
      LoopEnds stream later rest (remaining stream conn body) conn
        (fillLoop processHeader fuel header conn)

/-- The header of the record that ends the stream closes it. -/
theorem afterHeader_stop (fuel : Nat) (records : stream.records = [])
    (requestId : conn.request.requestId = stream.id)
    (type : conn.reader.type = stream.type) (unskipped : conn.reader.skip = false)
    (feeds : Feeds conn later (stream.stop.padding ++ rest)) :
    LoopEnds stream later rest (remaining stream conn []) conn
      (afterHeader processHeader (fillLoop processHeader fuel [])
        stream.stop.header.bytes conn) := by
  have none : stream.stop.content.length = 0 := by
    rw [stream.stopContent]
    rfl
  unfold afterHeader
  rw [Header.ofBytes_bytes, processHeader_own (insideRecord conn)
    (stream.stopId.trans requestId.symm) (stream.stopType.trans type.symm)
    (stream.stopId ▸ stream.named) (stream.stopType ▸ stream.typed)]
  simp only [Outcome.value_bind, opened, outsideRecord, none, if_true]
  refine ⟨_, rfl, ⟨rfl, rfl, rfl, rfl, rfl, rfl, rfl, rfl⟩, ?_⟩
  unfold Filled remaining Stream.content carried
  rw [unskipped, records, if_pos (by simp)]
  exact ⟨rfl, feeds.arrive, feeds.positive⟩

/-- The header of a record of the stream starts the delivery of its
content, the header of a record of another request has it skipped. -/
theorem afterHeader_record {fuel : Nat} {record : Record}
    {records : List Record} (first : stream.records = record :: records)
    (requestId : conn.request.requestId = stream.id)
    (type : conn.reader.type = stream.type) (unskipped : conn.reader.skip = false)
    (feeds : Feeds conn later (record.content ++ record.padding ++
      (stream.tail.bytes ++ rest)))
    (continues : Continues later rest fuel)
    (enough : (record.content ++ record.padding ++
      (stream.tail.bytes ++ rest)).length < fuel) :
    LoopEnds stream later rest (remaining stream conn []) conn
      (afterHeader processHeader (fillLoop processHeader fuel [])
        record.header.bytes conn) := by
  have belongs := stream.belongs record (first ▸ List.mem_cons_self)
  have content : record.content.length ≠ 0 := by
    simpa using belongs.content
  have starts := stands_nextRecord first requestId type feeds
  have same : ∀ skip, (record.requestId = stream.id ↔ skip = false) →
      remaining stream.tail (nextRecord record skip conn) record.content =
        remaining stream conn [] := by
    intro skip own
    unfold remaining
    rw [unskipped, Stream.content_eq first]
    cases skip <;> simp [nextRecord, own]
  have ends : ∀ skip, (record.requestId = stream.id ↔ skip = false) →
      LoopEnds stream later rest (remaining stream conn []) conn
        (fillLoop processHeader fuel [] (nextRecord record skip conn)) := by
    intro skip own
    obtain ⟨filled, ran, read, filledUp⟩ := continues (starts skip) enough
    rw [same skip own] at filledUp
    exact ⟨filled, ran, ⟨read.request, read.bufflen, read.writes,
      read.writeError, read.readError, read.sent, read.type, read.errno⟩,
      filledUp.of_tail⟩
  unfold afterHeader
  rw [Header.ofBytes_bytes]
  rcases belongs.origin with ⟨id, typed⟩ | ⟨id, named, typed⟩
  · rw [processHeader_own (insideRecord conn)
      (id.trans requestId.symm) (typed.trans type.symm) (id ▸ stream.named)
      (typed ▸ stream.typed)]
    have next : outsideRecord (opened record (insideRecord conn)) =
        nextRecord record false conn := by
      simp [outsideRecord, opened, insideRecord, nextRecord, unskipped]
    simp only [Outcome.value_bind, next]
    rw [if_neg (show ¬ (nextRecord record false conn).reader.contentLen = 0
      from content)]
    exact ends false (by simp [id])
  · rw [processHeader_foreign (insideRecord conn)
      (fun same => id (same.trans requestId)) named typed]
    exact ends true (by simp [id])

/-- One round of the loop, from the header on. -/
theorem header_round {fuel : Nat} (continues : Continues later rest fuel)
    (stands : Stands stream later rest header conn [] [] tail)
    (unskipped : conn.reader.skip = false) (there : tail.length < fuel + 1)
    (progress : conn.reader.unread = [] → tail.length < fuel) :
    LoopEnds stream later rest (remaining stream conn []) conn
      (let count := min (headerLen - header.length) conn.reader.unread.length
      let header := header ++ conn.reader.unread.take count
      let conn := conn.advance count
      if header.length < headerLen then fillLoop processHeader fuel header conn
      else
        afterHeader processHeader (fillLoop processHeader fuel []) header
          conn) := by
  obtain ⟨count, inHeader, inBuffer, inTail, least, partly, taken, fed,
    again⟩ := stands.readHeader unskipped
  have bound := stands.short
  have moved : OnlyReads conn (conn.advance count) :=
    ⟨rfl, rfl, rfl, rfl, rfl, rfl, rfl, rfl⟩
  have length : (header ++ tail.take count).length = header.length + count := by
    rw [List.length_append, List.length_take, Nat.min_eq_left inTail]
  simp only [least, taken, length]
  by_cases short : header.length + count < headerLen
  · -- The buffer ends in the header.
    rw [if_pos short]
    refine LoopEnds.after (continues (again short) ?_) moved
    simp only [List.append_nil, List.nil_append, List.length_drop]
    by_cases empty : conn.reader.unread = []
    · have := progress empty
      omega
    · have := List.length_pos_iff.mpr empty
      have := partly short
      omega
  · rw [if_neg short]
    have whole : (header ++ tail.take count) ++ tail.drop count =
        stream.bytes ++ rest := by
      rw [List.append_assoc, List.take_append_drop]
      exact stands.whole
    have long : (header ++ tail.take count).length = headerLen := by omega
    have fewer : (tail.drop count).length < fuel := by
      rw [List.length_drop]
      omega
    refine LoopEnds.after ?_ moved
    cases records : stream.records with
    | nil =>
        unfold Stream.bytes at whole
        rw [records, List.flatMap_nil, List.nil_append] at whole
        obtain ⟨first, behind⟩ := header_eq long whole
        rw [stream.stopContent, List.nil_append] at behind
        rw [first]
        exact afterHeader_stop fuel records stands.requestId stands.type
          unskipped (behind ▸ fed)
    | cons record others =>
        rw [Stream.bytes_eq records, List.append_assoc record.bytes] at whole
        obtain ⟨first, behind⟩ := header_eq long whole
        rw [first]
        exact afterHeader_record records stands.requestId stands.type unskipped
          (behind ▸ fed) continues (behind ▸ fewer)

/-- The loop of `FillBuffProc` in a stream: it hands the next content to the
client, or closes the stream when there is none.  The induction is on the
bound; every round consumes a byte. -/
theorem fillLoop_eq (later : List Bytes) (rest : Bytes) (fuel : Nat) :
    Continues later rest fuel := by
  induction fuel with
  | zero =>
      intro _ _ _ _ _ _ _ enough
      exact absurd enough (Nat.not_lt_zero _)
  | succ fuel induction =>
      intro stream header conn body padding tail stands enough
      obtain ⟨start, refilled, feeds, there, read, isClosed, eorStop, skip,
        contentLen, paddingLen⟩ := stands.feeds.refill stands.more
      have stands : Stands stream later rest header start body padding tail :=
        ⟨isClosed.trans stands.isOpen, eorStop.trans stands.eorStop,
          read.request ▸ stands.requestId, read.type.trans stands.type, feeds,
          contentLen.trans stands.contentLen,
          paddingLen.trans stands.paddingLen, stands.whole, stands.short,
          stands.plain, fun skips => stands.skips (skip ▸ skips)⟩
      have same : remaining stream conn body = remaining stream start body := by
        unfold remaining
        rw [skip]
      have some_ := List.length_pos_iff.mpr there
      rw [same, fillLoop, refilled]
      refine LoopEnds.after ?_ read
      simp only
      by_cases delivers : 0 < start.reader.contentLen ∧
          start.reader.skip = false
      · rw [if_pos delivers]
        have bodied : body ≠ [] :=
          List.length_pos_iff.mp (stands.contentLen ▸ delivers.1)
        refine ⟨_, rfl, ⟨rfl, rfl, rfl, rfl, rfl, rfl, rfl, rfl⟩, ?_⟩
        unfold Filled
        rw [if_neg (by simp [remaining, delivers.2, bodied])]
        exact stands.deliver there delivers.1 delivers.2
      · rw [if_neg delivers]
        obtain ⟨skipped, inBody, inUnread, leaves, drained, unskipped, readOn,
          stands, same⟩ := stands.skipContent delivers
        rw [← same]
        refine LoopEnds.after ?_ readOn
        generalize skipContent start = middle at *
        have left := stands.contentLen
        have gone := congrArg List.length leaves
        rw [List.length_drop] at left gone
        simp only [List.length_append] at enough
        by_cases inside : 0 < middle.reader.contentLen
        · -- The buffer ends in content that is skipped.
          rw [if_pos inside]
          refine induction stands ?_
          simp only [List.length_append, List.length_drop]
          omega
        · rw [if_neg inside]
          have quiet := unskipped (by omega)
          rw [List.drop_eq_nil_of_le (by omega)] at stands ⊢
          obtain ⟨padded, inPadding, inRest, leaves, drained, quietToo, readOn,
            stands⟩ := stands.skipPadding quiet
          have same : remaining stream middle [] =
              remaining stream (skipPadding middle) [] := by
            unfold remaining
            rw [quiet, quietToo]
          rw [same]
          refine LoopEnds.after ?_ readOn
          generalize skipPadding middle = behind at *
          have left := stands.paddingLen
          have goneToo := congrArg List.length leaves
          rw [List.length_drop] at left goneToo
          by_cases inside : 0 < behind.reader.paddingLen
          · -- The buffer ends in the padding.
            rw [if_pos inside]
            refine induction stands ?_
            simp only [List.length_append, List.length_drop, List.length_nil]
            omega
          · rw [if_neg inside, stands.eorStop]
            rw [List.drop_eq_nil_of_le (by omega)] at stands
            refine header_round induction stands quietToo (by omega) ?_
            intro empty
            rw [empty, List.length_nil] at goneToo
            omega

end Loop

/-! ## The stream as a source -/

/-- What the client holds while it reads a stream that it has started to read
in the given state. -/
structure Reads (stream : Stream) (later : List Bytes) (rest : Bytes)
    (start conn : Conn) (content : Bytes) : Prop where
  inStream : InStream stream later rest conn content
  onlyReads : OnlyReads start conn

/-- What the client holds behind the stream. -/
structure HasRead (stream : Stream) (later : List Bytes) (rest : Bytes)
    (start conn : Conn) : Prop where
  finished : Finished stream later rest conn
  onlyReads : OnlyReads start conn

section Client

variable {stream : Stream} {later : List Bytes} {rest : Bytes} {start : Conn}

/-- Filling the buffer when nothing is ready. -/
theorem fill_eq {conn : Conn} {content : Bytes}
    (reads : Reads stream later rest start conn content)
    (dry : conn.reader.ready = 0) :
    ∃ filled, fillBuffProc conn = .value filled ∧ OnlyReads start filled ∧
      Filled stream later rest content filled := by
  obtain ⟨records, body, padding, belongs, feeds, length, padded, rfl⟩ :=
    reads.inStream.stands
  rw [dry, Nat.zero_add] at length
  let shorter : Stream := { stream with records, belongs }
  have stands : Stands shorter later rest [] conn body padding
      (shorter.bytes ++ rest) :=
    ⟨reads.inStream.isOpen, reads.inStream.eorStop, reads.inStream.requestId,
      reads.inStream.type, feeds, length.symm, padded.symm, rfl, by decide,
      fun more => absurd rfl more, fun skips => absurd
        (reads.inStream.skip.symm.trans skips) Bool.false_ne_true⟩
  have enough := Nat.lt_succ_of_le feeds.length_le
  obtain ⟨filled, ran, read, filledUp⟩ := fillLoop_eq later rest _ stands enough
  refine ⟨filled, ran, reads.onlyReads.trans read, ?_⟩
  have same : remaining shorter conn body =
      body ++ carried stream.id records := by
    unfold remaining
    rw [reads.inStream.skip]
    rfl
  rw [same] at filledUp
  unfold Filled at *
  by_cases none : body ++ carried stream.id records = []
  · rw [if_pos none] at *
    exact ⟨filledUp.isClosed, filledUp.feeds⟩
  · rw [if_neg none] at *
    obtain ⟨ready, held⟩ := filledUp
    exact ⟨ready, held.isOpen, held.eorStop, held.skip, held.requestId,
      held.type, held.ready, held.stands⟩

theorem Reads.advance {conn : Conn} {content : Bytes} (count : Nat)
    (reads : Reads stream later rest start conn content)
    (inside : count ≤ conn.reader.ready) :
    Reads stream later rest start (conn.advance count)
      (content.drop count) := by
  obtain ⟨records, body, padding, belongs, feeds, length, padded, rfl⟩ :=
    reads.inStream.stands
  have ready := reads.inStream.ready
  have inBody : count ≤ body.length := by omega
  refine ⟨⟨reads.inStream.isOpen, reads.inStream.eorStop, reads.inStream.skip,
    reads.inStream.requestId, reads.inStream.type, ?_, records,
    body.drop count, padding, belongs, ?_, ?_, padded, ?_⟩, ?_⟩
  · change conn.reader.ready - count ≤ (conn.reader.unread.drop count).length
    rw [List.length_drop]
    omega
  · have dropped := feeds.drop (conn.advance count) count
      (inside.trans ready) rfl rfl rfl
    rwa [List.append_assoc, List.drop_append_of_le_length inBody,
      ← List.append_assoc] at dropped
  · change (body.drop count).length =
      conn.reader.ready - count + conn.reader.contentLen
    rw [List.length_drop]
    omega
  · rw [List.drop_append_of_le_length inBody]
  · exact reads.onlyReads.trans ⟨rfl, rfl, rfl, rfl, rfl, rfl, rfl, rfl⟩

/-- A stream is a source: its content comes, one piece after the other. -/
theorem source_stream :
    Source fillBuffProc (Reads stream later rest start) where
  isOpen reads := reads.inStream.isOpen
  enough := by
    intro conn content reads
    obtain ⟨records, body, padding, -, feeds, -, -, rfl⟩ :=
      reads.inStream.stands
    have inside := carried_length_le stream.id records
    have := feeds.length_le
    simp only [List.length_append] at this ⊢
    omega
  starts := by
    intro conn content reads
    obtain ⟨records, body, padding, -, feeds, length, -, rfl⟩ :=
      reads.inStream.stands
    have ready := reads.inStream.ready
    refine ⟨by rw [List.length_append]; omega, ?_⟩
    rw [feeds.unread_eq, List.take_take, Nat.min_eq_left ready,
      List.append_assoc, List.take_append_of_le_length (by omega),
      List.take_append_of_le_length (by omega)]
  advances count reads inside := reads.advance count inside
  fills := by
    intro conn content reads dry more
    obtain ⟨filled, ran, read, filledUp⟩ := fill_eq reads dry
    unfold Filled at filledUp
    rw [if_neg more] at filledUp
    exact ⟨filled, ran, filledUp.1, filledUp.2, read⟩

theorem ends_stream :
    Ends fillBuffProc (Reads stream later rest start)
      (HasRead stream later rest start) := by
  intro conn reads
  have dry : conn.reader.ready = 0 := by
    simpa using (source_stream.starts reads).1
  obtain ⟨filled, ran, read, filledUp⟩ := fill_eq reads dry
  unfold Filled at filledUp
  rw [if_pos rfl] at filledUp
  exact ⟨filled, ran, filledUp.isClosed, filledUp, read⟩

end Client

end DbPager.Fcgx
