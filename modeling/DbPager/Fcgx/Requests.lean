import DbPager.Fcgx.Streams

/-!
# Accepting requests

A worker accepts a connection and reads the beginning of a request and its
parameters from it.  What comes in any pieces, with any padding and between
records of other requests, is received as it was sent.
-/

namespace DbPager.Fcgx

open Effect

/-- `NewReader` for a request. -/
def newReader (type : UInt8) : Reader where
  unread := []
  ready := 0
  isClosed := false
  errno := 0
  type
  eorStop := false
  skip := false
  contentLen := 0
  paddingLen := 0

/-- `SetReaderType`.  What is left of the record at hand counts as read. -/
def setReaderType (type : UInt8) (conn : Conn) : Conn :=
  { conn with reader := { conn.reader with
    type
    eorStop := false
    skip := false
    contentLen := 0
    paddingLen := 0
    ready := 0
    isClosed := false } }

/-- The size of a stream's buffer: 8 bytes are lost if `malloc` returns an
address that is not a multiple of 8. -/
def streamBufflen (aligned : Bool) (bufflen : Nat) : Nat :=
  let bufflen := alignInt8 (min (max bufflen 32) (maxLength + 1))
  if aligned then bufflen else bufflen - 8

theorem streamBufflen_spec (aligned : Bool) (bufflen : Nat) :
    8 ∣ streamBufflen aligned bufflen ∧ 24 ≤ streamBufflen aligned bufflen ∧
      streamBufflen aligned bufflen ≤ maxLength + 1 := by
  unfold streamBufflen alignInt8 maxLength
  cases aligned
  · simp only [Bool.false_eq_true, if_false]
    omega
  · simp only [if_true]
    omega

/-- The entry for the role of the request. -/
def roleEntry (role : Nat) : Option Bytes :=
  if role = responder then some (ascii "FCGI_ROLE=RESPONDER")
  else if role = authorizer then some (ascii "FCGI_ROLE=AUTHORIZER")
  else if role = filter then some (ascii "FCGI_ROLE=FILTER")
  else none

/-- One round of the loop of `FCGX_Accept_r` on a connection that is open:
the environment block, unless the connection has to be closed. -/
def readRequest (conn : Conn) : C (Option (List Bytes) × Conn) := do
  let conn ← fillBuffProc { conn with
    request := { conn.request with isBeginProcessed := false }
    reader := newReader 0 }
  if conn.request.isBeginProcessed then
    match roleEntry conn.request.role with
    | none => pure (none, conn)
    | some role =>
        let (read, params, conn) ← readParams fillBuffProc
          ((Params.new 30 (by decide)).put role)
          (setReaderType RecordType.params conn)
        if read then pure (some params.vec, setReaderType RecordType.stdin conn)
        else pure (none, conn)
  else pure (none, conn)

/-! ## Reading inside a record -/

/-- The content of a record while `ProcessHeader` reads it. -/
structure InRecord (later : List Bytes) (rest : Bytes) (start conn : Conn)
    (content : Bytes) : Prop where
  isOpen : conn.reader.isClosed = false
  skip : conn.reader.skip = false
  ready : conn.reader.ready ≤ conn.reader.unread.length
  feeds : Feeds conn later (content ++ rest)
  length : content.length = conn.reader.ready + conn.reader.contentLen
  paddingLen : conn.reader.paddingLen = start.reader.paddingLen
  onlyReads : OnlyReads start conn

section Record

variable {later : List Bytes} {rest : Bytes} {start : Conn}

theorem source_record : Source fillInner (InRecord later rest start) where
  isOpen held := held.isOpen
  enough := by
    intro conn content held
    have := held.feeds.length_le
    rw [List.length_append] at this
    omega
  starts := by
    intro conn content held
    have length := held.length
    have ready := held.ready
    refine ⟨by omega, ?_⟩
    rw [held.feeds.unread_eq, List.take_take, Nat.min_eq_left ready,
      List.take_append_of_le_length (by omega)]
  advances := by
    intro conn content count held inside
    have length := held.length
    have ready := held.ready
    refine ⟨held.isOpen, held.skip, ?_, ?_, ?_, held.paddingLen,
      held.onlyReads.trans ⟨rfl, rfl, rfl, rfl, rfl, rfl, rfl, rfl⟩⟩
    · change conn.reader.ready - count ≤ (conn.reader.unread.drop count).length
      rw [List.length_drop]
      omega
    · have dropped := held.feeds.drop (conn.advance count) count
        (inside.trans ready) rfl rfl rfl
      rwa [List.drop_append_of_le_length (by omega)] at dropped
    · change (content.drop count).length =
        conn.reader.ready - count + conn.reader.contentLen
      rw [List.length_drop]
      omega
  fills := by
    intro conn content held dry more
    obtain ⟨filled, refilled, feeds, there, read, isClosed, -, skip, contentLen,
      paddingLen⟩ := held.feeds.refill (by simp [more])
    have length := held.length
    have some_ := List.length_pos_iff.mpr more
    have bytes := List.length_pos_iff.mpr there
    have delivers : 0 < filled.reader.contentLen ∧
        filled.reader.skip = false := by
      rw [contentLen, skip]
      exact ⟨by omega, held.skip⟩
    refine ⟨deliver filled, ?_, Nat.lt_min.mpr ⟨delivers.1, bytes⟩,
      isClosed.trans held.isOpen, delivers.2, Nat.min_le_right _ _,
      ⟨feeds.arrive, feeds.positive⟩, ?_, paddingLen.trans held.paddingLen,
      (held.onlyReads.trans read).trans
        ⟨rfl, rfl, rfl, rfl, rfl, rfl, rfl, rfl⟩⟩
    · unfold fillInner fillLoop
      rw [refilled]
      simp only [delivers, and_self, if_true]
    · simp only [deliver, contentLen]
      omega

end Record

/-! ## The beginning of a request -/

/-- A stream that stands before the header of a record. -/
structure AtHeader (later : List Bytes) (bytes : Bytes) (conn : Conn) :
    Prop where
  isOpen : conn.reader.isClosed = false
  eorStop : conn.reader.eorStop = false
  skip : conn.reader.skip = false
  contentLen : conn.reader.contentLen = 0
  paddingLen : conn.reader.paddingLen = 0
  feeds : Feeds conn later bytes

section Beginning

variable {later : List Bytes} {rest : Bytes}

/-- The loop collects a header, in however many pieces it comes. -/
theorem fillLoop_header (processHeader : Header → Conn → C (Status × Conn))
    (fuel : Nat) (header : Bytes) {tail whole : Bytes} {conn : Conn}
    (stands : AtHeader later tail conn)
    (joined : header ++ tail = whole ++ rest)
    (long : whole.length = headerLen) (short : header.length < headerLen)
    (enough : tail.length < fuel) :
    ∃ less behind, fillLoop processHeader fuel header conn =
        afterHeader processHeader (fillLoop processHeader less []) whole
          behind ∧
      AtHeader later rest behind ∧ OnlyReads conn behind := by
  induction fuel generalizing header tail conn with
  | zero => exact absurd enough (Nat.not_lt_zero _)
  | succ fuel induction =>
      have more : tail ≠ [] := by
        rintro rfl
        have := congrArg List.length joined
        simp only [List.length_append, List.length_nil] at this
        omega
      obtain ⟨start, refilled, feeds, there, read, isClosed, eorStop, skip,
        contentLen, paddingLen⟩ := stands.feeds.refill more
      rw [stands.isOpen] at isClosed
      rw [stands.eorStop] at eorStop
      rw [stands.skip] at skip
      rw [stands.contentLen] at contentLen
      rw [stands.paddingLen] at paddingLen
      have bytes := List.length_pos_iff.mpr there
      have inside := feeds.unread_le
      have front := feeds.unread_eq
      have noContent : skipContent start = start := by
        unfold skipContent
        rw [if_pos contentLen]
      have noPadding : (skipPadding start).reader =
          { start.reader with ready := 0 } := by
        simp [skipPadding, paddingLen]
      rw [fillLoop, refilled]
      simp only [contentLen, lt_irrefl, false_and, if_false, noContent]
      have unread : (skipPadding start).reader.unread =
          start.reader.unread := by rw [noPadding]
      have fields : (skipPadding start).reader.paddingLen = 0 ∧
          (skipPadding start).reader.eorStop = false := by
        rw [noPadding]
        exact ⟨paddingLen, eorStop⟩
      simp only [fields, lt_irrefl, if_false, Bool.false_eq_true, unread]
      generalize least :
        min (headerLen - header.length) start.reader.unread.length = count
      have taken : start.reader.unread.take count = tail.take count := by
        rw [front, List.take_take, Nat.min_eq_left (by omega)]
      have stands : AtHeader later (tail.drop count)
          ((skipPadding start).advance count) := by
        refine ⟨?_, ?_, ?_, ?_, ?_, feeds.drop _ count (by omega) rfl
          rfl (by rw [← unread]; rfl)⟩
        all_goals
          simp [Conn.advance, noPadding, isClosed, eorStop, skip, contentLen,
            paddingLen]
      have moved : OnlyReads conn ((skipPadding start).advance count) :=
        read.trans ⟨rfl, rfl, rfl, rfl, rfl, rfl, rfl, rfl⟩
      have joined : (header ++ tail.take count) ++ tail.drop count =
          whole ++ rest := by
        rw [List.append_assoc, List.take_append_drop, joined]
      have length : (header ++ tail.take count).length =
          header.length + count := by
        rw [List.length_append, List.length_take, Nat.min_eq_left (by omega)]
      rw [taken]
      by_cases shorter : (header ++ tail.take count).length < headerLen
      · rw [if_pos shorter]
        obtain ⟨less, behind, ran, standsBehind, readOn⟩ := induction _ stands
          joined shorter (by rw [List.length_drop]; omega)
        exact ⟨less, behind, ran, standsBehind, moved.trans readOn⟩
      · rw [if_neg shorter]
        obtain ⟨same, others⟩ := List.append_inj joined (by omega)
        rw [same]
        exact ⟨fuel, _, rfl, others ▸ stands, moved⟩

/-- `FCGI_BeginRequestBody`. -/
structure BeginBody where
  role : Nat
  flags : UInt8
  reserved : Bytes
  roleFits : role < 65536
  reservedLength : reserved.length = 5

def BeginBody.bytes (body : BeginBody) : Bytes :=
  byteOf body.role 1 :: byteOf body.role 0 :: body.flags :: body.reserved

theorem BeginBody.length_bytes (body : BeginBody) : body.bytes.length = 8 := by
  simp [BeginBody.bytes, body.reservedLength]

/-- `FCGI_KEEP_CONN`. -/
def BeginBody.keeps (body : BeginBody) : Bool :=
  body.flags.toNat % 2 = 1

/-- `FCGI_BeginRequestRecord`. -/
def beginRecord (id : Nat) (fits : id < 65536) (body : BeginBody) : Record where
  type := RecordType.beginRequest
  requestId := id
  content := body.bytes
  padding := []
  idFits := fits
  contentFits := by simp [body.length_bytes, maxLength]
  paddingFits := by simp

/-- The data of a request that has begun. -/
def begun (id : Nat) (body : BeginBody) (request : RequestData) :
    RequestData :=
  { request with
    requestId := id
    role := body.role
    isBeginProcessed := true
    keepConnection := body.keeps }

/-- The connection when the identifier of the new request is stored. -/
def identified (id : Nat) (conn : Conn) : Conn :=
  { conn with request := { conn.request with requestId := id } }

/-- The body of the record is read in however many pieces it comes. -/
theorem processBeginRecord_eq {id : Nat} (body : BeginBody) (named : id ≠ 0)
    (conn : Conn) (sized : conn.reader.contentLen = 8)
    (fresh : conn.request.isBeginProcessed = false)
    (isOpen : conn.reader.isClosed = false) (skip : conn.reader.skip = false)
    (dry : conn.reader.ready = 0)
    (feeds : Feeds conn later (body.bytes ++ rest)) :
    ∃ next, processBeginRecord id conn =
        .value (.beginRecord,
          { next with request := begun id body conn.request }) ∧
      InRecord later rest (identified id conn) next [] := by
  have start : InRecord later rest (identified id conn) (identified id conn)
      body.bytes :=
    ⟨isOpen, skip, dry ▸ Nat.zero_le _, ⟨feeds.arrive, feeds.positive⟩,
      by simp [identified, dry, sized, body.length_bytes], rfl, .refl _⟩
  obtain ⟨next, got, held⟩ := source_record.getStr_eq 8 start
    (Nat.le_of_eq body.length_bytes.symm)
  rw [List.take_of_length_le (Nat.le_of_eq body.length_bytes)] at got
  rw [List.drop_eq_nil_of_le (Nat.le_of_eq body.length_bytes)] at held
  refine ⟨next, ?_, held⟩
  have role : (body.bytes.getD 0 0).toNat * 256 + (body.bytes.getD 1 0).toNat =
      body.role := two_bytes body.roleFits
  unfold processBeginRecord
  rw [if_neg (by simp [named, sized]),
    if_neg (by rw [fresh]; exact Bool.false_ne_true)]
  change (getStr fillInner 8 (identified id conn) >>= _) = _
  rw [got, Outcome.value_bind]
  simp only [body.length_bytes, ne_eq, not_true, if_false]
  rw [role, held.onlyReads.request]
  rfl

/-- The header that begins a request is followed by its body. -/
theorem afterHeader_begin {id : Nat} (fits : id < 65536) (body : BeginBody)
    (named : id ≠ 0) {conn : Conn} (next : Conn → C Conn)
    (fresh : conn.request.isBeginProcessed = false)
    (stands : AtHeader later (body.bytes ++ rest) conn) :
    ∃ final, afterHeader processHeader next
        (beginRecord id fits body).header.bytes conn = .value final ∧
      final.request = begun id body conn.request ∧
      AtHeader later rest final ∧
      OnlyReads conn { final with request := conn.request } := by
  let entered : Conn := opened (beginRecord id fits body) (insideRecord conn)
  obtain ⟨read, ran, held⟩ := processBeginRecord_eq body named
    entered body.length_bytes fresh stands.isOpen stands.skip rfl
    ⟨stands.feeds.arrive, stands.feeds.positive⟩
  have header : processHeader (beginRecord id fits body).header
      (insideRecord conn) = processBeginRecord id entered := by
    unfold processHeader
    rw [Record.header_requestId, Record.header_contentLength,
      Record.header_paddingLength]
    rfl
  have length := held.length
  have only := held.onlyReads
  unfold afterHeader
  rw [Header.ofBytes_bytes, header, ran]
  refine ⟨_, rfl, rfl, ⟨rfl, rfl, held.skip, ?_, held.paddingLen, held.feeds.arrive,
    held.feeds.positive⟩, rfl, only.bufflen, only.writes, only.writeError,
    only.readError, only.sent, only.type, only.errno⟩
  change read.reader.contentLen = 0
  rw [List.length_nil] at length
  omega

end Beginning

/-! ## Whole requests -/

/-- A request as a web server sends it.  The records that begin it and end its
parameters have no padding: `SetReaderType` would not skip it. -/
structure WebRequest where
  id : Nat
  idFits : id < 65536
  named : id ≠ nullRequestId
  body : BeginBody
  role : Bytes
  served : roleEntry body.role = some role
  pairs : List Pair
  params : Stream
  paramsType : params.type = RecordType.params
  paramsId : params.id = id
  paramsContent : params.content = pairs.flatMap Pair.bytes
  paramsStop : params.stop.padding = []
  stdin : Stream
  stdinType : stdin.type = RecordType.stdin
  stdinId : stdin.id = id

namespace WebRequest

def bytes (request : WebRequest) : Bytes :=
  (beginRecord request.id request.idFits request.body).bytes ++
    request.params.bytes ++ request.stdin.bytes

/-- The environment block the request asks for. -/
def envp (request : WebRequest) : List Bytes :=
  request.role :: request.pairs.map Pair.entry

end WebRequest

/-- A connection over which the request comes, before what comes later. -/
structure Brings (request : WebRequest) (later : List Bytes) (rest : Bytes)
    (socket : Socket) : Prop where
  arrive : ∃ front, socket.arrivals = front ++ later ∧
    front.flatten = request.bytes ++ rest ∧ ∀ chunk ∈ front, chunk ≠ []

/-- What a worker that has received a request is left with: the data of the
request, and its body to be read. -/
structure Received (request : WebRequest) (later : List Bytes) (rest : Bytes)
    (before : RequestData) (socket : Socket) (conn : Conn) : Prop where
  data : conn.request = begun request.id request.body
    { before with isBeginProcessed := false }
  body : Reads request.stdin later rest conn conn request.stdin.content
  errno : conn.reader.errno = 0
  sent : conn.socket.sent = socket.sent
  writes : conn.socket.writes = socket.writes

/-- The stream of the parameters ends where the body begins. -/
theorem reads_stdin {request : WebRequest} {later : List Bytes} {rest : Bytes}
    {conn : Conn} (id : conn.request.requestId = request.id)
    (feeds : Feeds conn later (request.stdin.bytes ++ rest)) :
    Reads request.stdin later rest (setReaderType RecordType.stdin conn)
      (setReaderType RecordType.stdin conn) request.stdin.content :=
  ⟨⟨rfl, rfl, rfl, id.trans request.stdinId.symm, request.stdinType.symm,
    Nat.zero_le _, request.stdin.records, [], [], request.stdin.belongs,
    ⟨feeds.arrive, feeds.positive⟩, rfl, rfl, rfl⟩, .refl _⟩

/-- A request is received as it was sent. -/
theorem readRequest_eq (request : WebRequest) {later : List Bytes}
    {rest : Bytes} {socket : Socket} {bufflen : Nat} (before : RequestData)
    (reader : Reader) (brings : Brings request later rest socket)
    (positive : 0 < bufflen) :
    ∃ conn, readRequest ⟨bufflen, socket, before, reader⟩ =
        .value (some request.envp, conn) ∧
      Received request later rest before socket conn := by
  let first : Record := beginRecord request.id request.idFits request.body
  let start : Conn :=
    ⟨bufflen, socket, { before with isBeginProcessed := false }, newReader 0⟩
  obtain ⟨front, arrivals, joined, proper⟩ := brings.arrive
  have feeds : Feeds start later (request.bytes ++ rest) :=
    ⟨⟨front, arrivals, joined, proper⟩, positive⟩
  have whole : request.bytes ++ rest = first.header.bytes ++
      (request.body.bytes ++ (request.params.bytes ++
        (request.stdin.bytes ++ rest))) := by
    unfold WebRequest.bytes Record.bytes
    simp only [List.append_assoc]
    rfl
  obtain ⟨less, behind, ran, stands, read⟩ := fillLoop_header processHeader
    (start.pending.length + 1) [] ⟨rfl, rfl, rfl, rfl, rfl, feeds⟩ whole
    (Header.length_bytes _) (by decide)
    (Nat.lt_succ_of_le feeds.length_le)
  obtain ⟨began, ranToo, data, standsToo, readToo⟩ := afterHeader_begin
    request.idFits request.body request.named
    (fillLoop processHeader less []) (by rw [read.request]) stands
  have filled : fillBuffProc start = .value began := ran.trans ranToo
  let params : Conn := setReaderType RecordType.params began
  have reads : Reads request.params later (request.stdin.bytes ++ rest) params
      params (request.pairs.flatMap Pair.bytes) := by
    refine ⟨⟨rfl, rfl, rfl, ?_, request.paramsType.symm, Nat.zero_le _,
      request.params.records, [], [], request.params.belongs, ?_, rfl, rfl,
      request.paramsContent.symm⟩, .refl _⟩
    · change began.request.requestId = _
      rw [data, request.paramsId]
      rfl
    · have fed := standsToo.feeds
      exact ⟨fed.arrive, fed.positive⟩
  obtain ⟨closed, got, hasRead⟩ := readParams_eq source_stream ends_stream
    request.pairs ((Params.new 30 (by decide)).put request.role) reads
  have only := hasRead.onlyReads
  have behindParams := hasRead.finished.feeds
  rw [request.paramsStop, List.nil_append] at behindParams
  have requestIs : closed.request = began.request := only.request
  refine ⟨setReaderType RecordType.stdin closed, ?_, ?_, ?_, ?_, ?_, ?_⟩
  · unfold readRequest
    change (fillBuffProc start >>= _) = _
    rw [filled, Outcome.value_bind, data]
    have role : (begun request.id request.body behind.request).role =
      request.body.role := rfl
    have started : (begun request.id request.body
      behind.request).isBeginProcessed = true := rfl
    rw [if_pos started, role, request.served]
    simp only
    rw [got]
    simp only [Outcome.value_bind, if_true, Params.vec_putAll]
    rfl
  · change closed.request = _
    rw [requestIs, data, read.request]
  · refine reads_stdin ?_ behindParams
    rw [requestIs, data]
    rfl
  · exact only.errno.trans (readToo.errno.trans read.errno)
  · exact only.sent.trans (readToo.sent.trans read.sent)
  · exact only.writes.trans (readToo.writes.trans read.writes)

/-- A request that asks for a page. -/
def pagePair : Pair :=
  ⟨ascii "REQUEST_METHOD", ascii "GET", false, false, by decide⟩

theorem one_fits : 1 < 65536 := Nat.one_lt_two_pow (Nat.succ_ne_zero 15)

theorem no_padding : ([] : Bytes).length ≤ 255 := Nat.zero_le 255

/-- A record of the request with the identifier 1, without padding. -/
def plainRecord (type : UInt8) (content : Bytes)
    (fits : content.length ≤ maxLength) : Record :=
  ⟨type, 1, content, [], one_fits, fits, no_padding⟩

def pageRequest : WebRequest where
  id := 1
  idFits := by decide
  named := by decide
  body := ⟨responder, 0, [0, 0, 0, 0, 0], by decide, rfl⟩
  role := ascii "FCGI_ROLE=RESPONDER"
  served := rfl
  pairs := [pagePair]
  params :=
    { type := RecordType.params
      id := 1
      records := [plainRecord RecordType.params pagePair.bytes (by decide)]
      stop := plainRecord RecordType.params [] (by decide)
      named := by decide
      typed := by decide
      belongs := by
        intro record member
        rw [List.mem_singleton.mp member]
        exact ⟨by decide, .inl ⟨rfl, rfl⟩⟩
      stopType := rfl
      stopId := rfl
      stopContent := rfl }
  paramsType := rfl
  paramsId := rfl
  paramsContent := by decide
  paramsStop := rfl
  stdin :=
    { type := RecordType.stdin
      id := 1
      records := []
      stop := plainRecord RecordType.stdin [] (by decide)
      named := by decide
      typed := by decide
      belongs := fun _ member => absurd member List.not_mem_nil
      stopType := rfl
      stopId := rfl
      stopContent := rfl }
  stdinType := rfl
  stdinId := rfl

/-- The bytes of the request come in two pieces. -/
def pageSocket : Socket where
  arrivals := [pageRequest.bytes.take 5, pageRequest.bytes.drop 5]
  readError := none
  writes := []
  writeError := 0
  sent := []

theorem pageSocket_brings : Brings pageRequest [] [] pageSocket := by
  refine ⟨_, (List.append_nil _).symm, ?_, ?_⟩
  · decide
  · decide

/-- A request that has not begun. -/
def blankData : RequestData := ⟨0, 0, false, false, 0, 0⟩

theorem page_received :
    ∃ conn, readRequest ⟨8192, pageSocket, blankData, newReader 0⟩ =
        .value (some [ascii "FCGI_ROLE=RESPONDER", ascii "REQUEST_METHOD=GET"],
          conn) ∧
      Received pageRequest [] [] blankData pageSocket conn :=
  readRequest_eq pageRequest blankData (newReader 0) pageSocket_brings (by decide)

end DbPager.Fcgx
