import DbPager.Fcgx.Writer

/-!
# What an output stream sends

As long as the connection takes what is written to it, an output stream sends
records that carry exactly what the client has written, in whatever pieces, and
closing it sends what is left and the records that end it.
-/

namespace DbPager.Fcgx

open Effect

/-! ## Records of an open stream -/

/-- A record of an output stream: it carries something, and it is padded. -/
structure Carries (type : UInt8) (requestId : Nat) (record : Record) :
    Prop where
  type : record.type = type
  requestId : record.requestId = requestId
  content : record.content ≠ []
  aligned : 8 ∣ record.bytes.length

/-- The stream is open, and its buffer begins with the space for a header. -/
structure Writer.Open (size : Nat) (writer : Writer) : Prop where
  fits : writer.Fits size
  most : size ≤ maxLength + 1
  isOpen : writer.isClosed = false
  framed : writer.rawWrite = false
  space : headerLen ≤ writer.buffer.length
  errno : writer.errno = 0

/-- The record that is made of a content. -/
def padded (type : UInt8) (requestId : Nat) (content : Bytes)
    (idFits : requestId < 65536) (contentFits : content.length ≤ maxLength) :
    Record where
  type
  requestId
  content
  padding := List.replicate (alignInt8 content.length - content.length) 0
  idFits
  contentFits
  paddingFits := by
    have := alignInt8_lt content.length
    rw [List.length_replicate]
    omega

theorem carries_padded {type : UInt8} {requestId : Nat} {content : Bytes}
    (idFits : requestId < 65536) (contentFits : content.length ≤ maxLength)
    (some : content ≠ []) :
    Carries type requestId
      (padded type requestId content idFits contentFits) := by
  refine ⟨rfl, rfl, some, ?_⟩
  have divides := dvd_alignInt8 content.length
  have most := le_alignInt8 content.length
  unfold Record.bytes padded
  rw [List.length_append, List.length_append, Header.length_bytes,
    List.length_replicate, Nat.add_assoc, Nat.add_sub_cancel' most]
  exact Nat.dvd_add (Dvd.intro 1 rfl) divides

section Sending

variable {size : Nat} {writer : Writer} {sink : Sink}

theorem open_newWriter (aligned : Bool) (bufflen : Nat) (type : UInt8) :
    (newWriter aligned bufflen type).Open (streamBufflen aligned bufflen) :=
  ⟨fits_newWriter aligned bufflen type,
    (streamBufflen_spec aligned bufflen).2.2, rfl, rfl, Nat.le_refl _, rfl⟩

/-- An open stream makes one record of what is buffered, or none. -/
theorem Writer.Open.encapsulated (open_ : writer.Open size) {requestId : Nat}
    (idFits : requestId < 65536) :
    ∃ records : List Record, (∀ record ∈ records,
        Carries writer.type requestId record) ∧
      (writer.encapsulated requestId).buffer =
        records.flatMap Record.bytes ∧
      records.flatMap Record.content = writer.content ∧
      (records = [] → writer.content = []) := by
  unfold Writer.encapsulated
  rw [open_.framed, if_neg Bool.false_ne_true]
  by_cases none : writer.content = []
  · refine ⟨[], fun _ member => absurd member List.not_mem_nil, ?_, none.symm,
      fun _ => none⟩
    rw [none]
    rfl
  · have long : writer.content.length ≤ maxLength := by
      have inside := open_.fits.inside
      have most := open_.most
      rw [writer.length_content]
      unfold headerLen
      omega
    refine ⟨[padded writer.type requestId writer.content idFits long], ?_, ?_,
      List.append_nil _, fun never => absurd never (List.cons_ne_nil _ _)⟩
    · intro record member
      rw [List.mem_singleton.mp member]
      exact carries_padded idFits long none
    · rw [List.flatMap_cons, List.flatMap_nil, List.append_nil]
      simp only [List.isEmpty_iff, none, if_false]
      unfold Record.bytes Record.header padded Writer.padding
      rw [List.length_replicate]

/-- The socket has taken some bytes; nothing else has happened to it. -/
structure Wrote (bytes : Bytes) (before after : Socket) : Prop where
  sent : after.sent = before.sent ++ bytes
  accepts : after.Accepts
  arrivals : after.arrivals = before.arrivals
  readError : after.readError = before.readError

theorem Wrote.refl {socket : Socket} (accepts : socket.Accepts) :
    Wrote [] socket socket :=
  ⟨(List.append_nil _).symm, accepts, rfl, rfl⟩

theorem Wrote.trans {one two : Bytes} {first second third : Socket}
    (former : Wrote one first second) (latter : Wrote two second third) :
    Wrote (one ++ two) first third :=
  ⟨by rw [latter.sent, former.sent, List.append_assoc], latter.accepts,
    latter.arrivals.trans former.arrivals,
    latter.readError.trans former.readError⟩

/-- Sending the buffer to a socket that accepts it. -/
theorem send_eq (sink : Sink) (accepts : sink.socket.Accepts) :
    ∃ socket, sink.send = ⟨socket, sink.request, { sink.writer.startOver with
        isAnythingWritten := sink.writer.isAnythingWritten ||
          !sink.writer.buffer.isEmpty }⟩ ∧
      Wrote sink.writer.buffer sink.socket socket := by
  unfold Sink.send
  cases empty : sink.writer.buffer.isEmpty with
  | true =>
      refine ⟨sink.socket, ?_, ?_⟩
      · rw [if_pos rfl, Bool.not_true, Bool.or_false]
        rfl
      · rw [List.isEmpty_iff.mp empty]
        exact .refl accepts
  | false =>
      obtain ⟨left, written, others⟩ :=
        Socket.write_eq sink.writer.buffer accepts
      refine ⟨{ sink.socket with
        writes := left
        sent := sink.socket.sent ++ sink.writer.buffer }, ?_, rfl, others, rfl,
          rfl⟩
      · rw [if_neg Bool.false_ne_true, written, Bool.not_false, Bool.or_true]
        rfl

/-- What a stream has sent since a start, and what it still holds, is what it
held then and what has been written to it. -/
structure Emits (size : Nat) (start : Sink) (written : Bytes) (sink : Sink) :
    Prop where
  isOpen : sink.writer.Open size
  request : sink.request = start.request
  type : sink.writer.type = start.writer.type
  records : ∃ records : List Record,
    (∀ record ∈ records,
      Carries start.writer.type start.request.requestId record) ∧
    Wrote (records.flatMap Record.bytes) start.socket sink.socket ∧
    records.flatMap Record.content ++ sink.writer.content =
      start.writer.content ++ written ∧
    sink.writer.isAnythingWritten =
      (start.writer.isAnythingWritten || !records.isEmpty)

theorem Writer.Open.startOver (open_ : writer.Open size) (anything : Bool) :
    Writer.Open size
      { writer.startOver with isAnythingWritten := anything } := by
  have fits := open_.fits.startOver (open_.fits.unclosed open_.isOpen)
  refine ⟨⟨fits.aligned, fits.least, fits.inside, fits.stop, fits.shut⟩,
    open_.most, open_.isOpen, open_.framed, ?_, open_.errno⟩
  change headerLen ≤ (if writer.rawWrite then [] else headerSpace).length
  rw [open_.framed, if_neg Bool.false_ne_true]
  exact Nat.le_refl _

theorem Writer.Open.content_startOver (open_ : writer.Open size) :
    writer.startOver.content = [] := by
  unfold Writer.content Writer.startOver
  rw [open_.framed, if_neg Bool.false_ne_true]
  rfl

/-- The other fields do not change when a record is made. -/
theorem Writer.encapsulated_eq (requestId : Nat) (writer : Writer) :
    ∃ buffer, writer.encapsulated requestId = { writer with buffer } := by
  unfold Writer.encapsulated
  split
  · exact ⟨writer.buffer, rfl⟩
  · exact ⟨_, rfl⟩

theorem isEmpty_bytes (records : List Record) :
    (records.flatMap Record.bytes).isEmpty = records.isEmpty := by
  cases records with
  | nil => rfl
  | cons record records => rfl

/-- Emptying the buffer sends what is buffered as records. -/
theorem emptyBuffProc_emits (open_ : sink.writer.Open size)
    (accepts : sink.socket.Accepts)
    (idFits : sink.request.requestId < 65536) :
    ∃ after, sink.emptyBuffProc = .value after ∧
      Emits size sink [] after ∧ after.writer.content = [] := by
  have unclosed := open_.fits.unclosed open_.isOpen
  obtain ⟨records, carry, buffer, content, -⟩ := open_.encapsulated idFits
  obtain ⟨made, same⟩ :=
    Writer.encapsulated_eq sink.request.requestId sink.writer
  rw [same] at buffer
  obtain ⟨socket, sent, wrote⟩ := send_eq
    { sink with writer := { sink.writer with buffer := made } } accepts
  rw [emptyBuffProc_eq open_.fits unclosed, same, sent]
  refine ⟨_, rfl, ⟨open_.startOver _, rfl, rfl, records, carry, ?_, ?_, ?_⟩,
    open_.content_startOver⟩
  · rwa [show made = records.flatMap Record.bytes from buffer] at wrote
  · rw [content, List.append_nil]
    change _ ++ sink.writer.startOver.content = _
    rw [open_.content_startOver, List.append_nil]
  · rw [← isEmpty_bytes, ← buffer]

theorem Emits.trans {start middle : Sink} {one two : Bytes}
    (former : Emits size start one middle)
    (latter : Emits size middle two sink) :
    Emits size start (one ++ two) sink := by
  obtain ⟨first, firstCarry, firstWrote, firstContent, firstAny⟩ :=
    former.records
  obtain ⟨second, secondCarry, secondWrote, secondContent, secondAny⟩ :=
    latter.records
  rw [former.type, former.request] at secondCarry
  refine ⟨latter.isOpen, latter.request.trans former.request,
    latter.type.trans former.type, first ++ second, ?_, ?_, ?_, ?_⟩
  · intro record member
    rcases List.mem_append.mp member with earlier | later
    · exact firstCarry record earlier
    · exact secondCarry record later
  · rw [List.flatMap_append]
    exact firstWrote.trans secondWrote
  · rw [List.flatMap_append, List.append_assoc, secondContent,
      ← List.append_assoc, firstContent, List.append_assoc]
  · rw [secondAny, firstAny, Bool.or_assoc]
    cases first <;> rfl

theorem Emits.append {start : Sink} {written chunk : Bytes}
    (emits : Emits size start written sink)
    (room : chunk.length ≤ sink.writer.room) :
    Emits size start (written ++ chunk)
      { sink with writer := sink.writer.append chunk } := by
  obtain ⟨records, carry, wrote, content, anything⟩ := emits.records
  have open_ := emits.isOpen
  refine ⟨⟨open_.fits.append room, open_.most, open_.isOpen, open_.framed, ?_,
    open_.errno⟩, emits.request, emits.type, records, carry, wrote, ?_, anything⟩
  · change headerLen ≤ (sink.writer.buffer ++ chunk).length
    rw [List.length_append]
    exact open_.space.trans (Nat.le_add_right _ _)
  · change records.flatMap Record.content ++
      (sink.writer.buffer ++ chunk).drop headerLen = _
    rw [List.drop_append_of_le_length open_.space, ← List.append_assoc]
    change records.flatMap Record.content ++ sink.writer.content ++ chunk = _
    rw [content, List.append_assoc]

theorem Emits.refl (open_ : sink.writer.Open size)
    (accepts : sink.socket.Accepts) : Emits size sink [] sink :=
  ⟨open_, rfl, rfl, [], fun _ member => absurd member List.not_mem_nil,
    .refl accepts, (List.append_nil _).symm, (Bool.or_false _).symm⟩

theorem kept_emits {start : Sink} (idFits : start.request.requestId < 65536) :
    Kept (Emits size start) where
  append := fun emits room => emits.append room
  empty := by
    intro written sink emits _
    obtain ⟨records, -, wrote, -⟩ := emits.records
    obtain ⟨after, ran, further, -⟩ := emptyBuffProc_emits emits.isOpen
      wrote.accepts (by rw [emits.request]; exact idFits)
    refine ⟨after, ran, ?_, ?_⟩
    · rw [← List.append_nil written]
      exact emits.trans further
    · obtain ⟨other, same, -, progress⟩ :=
        emptyBuffProc_safe emits.isOpen.fits emits.isOpen.isOpen
      rwa [Outcome.value.inj (ran.symm.trans same)]

/-- `FCGX_PutStr` writes everything. -/
theorem putStr_emits (sink : Sink) (bytes : Bytes) (open_ : sink.writer.Open size)
    (accepts : sink.socket.Accepts)
    (idFits : sink.request.requestId < 65536) :
    ∃ after, sink.putStr bytes = .value (true, after) ∧
      Emits size sink bytes after := by
  obtain ⟨all, after, front, put, emits, done⟩ :=
    putStr_rule (kept_emits idFits) [] bytes (.refl open_ accepts)
  cases all with
  | false => exact absurd (emits.isOpen.isOpen.symm.trans done) (by decide)
  | true =>
      rw [if_pos rfl] at done
      rw [List.nil_append, done] at emits
      exact ⟨after, put, emits⟩

theorem fFlush_emits (sink : Sink) (open_ : sink.writer.Open size)
    (accepts : sink.socket.Accepts)
    (idFits : sink.request.requestId < 65536) :
    ∃ after, sink.fFlush = .value after ∧ Emits size sink [] after := by
  obtain ⟨after, ran, emits, -⟩ := emptyBuffProc_emits open_ accepts idFits
  refine ⟨after, ?_, emits⟩
  unfold Sink.fFlush
  rw [open_.isOpen, if_neg Bool.false_ne_true]
  exact ran

/-! ## Closing the streams -/

/-- A stream that is being closed hands on the bytes as they are. -/
structure Raw (size : Nat) (start : Sink) (written : Bytes) (sink : Sink) :
    Prop where
  fits : sink.writer.Fits size
  isOpen : sink.writer.isClosed = false
  raw : sink.writer.rawWrite = true
  errno : sink.writer.errno = 0
  request : sink.request = start.request
  type : sink.writer.type = start.writer.type
  bytes : ∃ flushed, Wrote flushed start.socket sink.socket ∧
    flushed ++ sink.writer.buffer = start.writer.buffer ++ written

theorem Raw.send {start : Sink} {written : Bytes}
    (raw : Raw size start written sink) :
    Raw size start written sink.send ∧ sink.send.writer.buffer = [] ∧
      Wrote (start.writer.buffer ++ written) start.socket sink.send.socket := by
  obtain ⟨flushed, wrote, same⟩ := raw.bytes
  obtain ⟨socket, sent, further⟩ := send_eq sink wrote.accepts
  have fits := raw.fits.startOver (raw.fits.unclosed raw.isOpen)
  have empty : sink.writer.startOver.buffer = [] := by
    unfold Writer.startOver
    rw [if_pos raw.raw]
  have all := wrote.trans further
  rw [same] at all
  rw [sent]
  exact ⟨⟨⟨fits.aligned, fits.least, fits.inside, fits.stop, fits.shut⟩,
    raw.isOpen, raw.raw, raw.errno, raw.request, raw.type, _, all,
    (congrArg (start.writer.buffer ++ written ++ ·) empty).trans
      (List.append_nil _)⟩, empty, all⟩

theorem kept_raw {start : Sink} : Kept (Raw size start) where
  append := by
    intro written chunk sink raw room
    obtain ⟨flushed, wrote, same⟩ := raw.bytes
    refine ⟨raw.fits.append room, raw.isOpen, raw.raw, raw.errno, raw.request,
      raw.type, flushed, wrote, ?_⟩
    change flushed ++ (sink.writer.buffer ++ chunk) = _
    rw [← List.append_assoc, same, List.append_assoc]
  empty := by
    intro written sink raw isOpen
    obtain ⟨sent, ran, -, progress⟩ := emptyBuffProc_safe raw.fits isOpen
    have same : sent = sink.send := by
      rw [emptyBuffProc_eq raw.fits (raw.fits.unclosed isOpen)] at ran
      unfold Writer.encapsulated at ran
      rw [if_pos raw.raw] at ran
      exact (Outcome.value.inj ran).symm
    refine ⟨sent, ran, ?_, progress⟩
    rw [same]
    exact raw.send.1

theorem putWhen_raw (needed : Bool) (bytes : Bytes) {start : Sink}
    {written : Bytes} (raw : Raw size start written sink) :
    ∃ after, sink.putWhen needed bytes = .value after ∧
      Raw size start (written ++ if needed then bytes else []) after := by
  unfold Sink.putWhen
  cases needed with
  | false =>
      refine ⟨sink, rfl, ?_⟩
      rwa [if_neg Bool.false_ne_true, List.append_nil]
  | true =>
      obtain ⟨all, after, front, put, kept, done⟩ :=
        putStr_rule kept_raw written bytes raw
      cases all with
      | false => exact absurd (kept.isOpen.symm.trans done) (by decide)
      | true =>
          rw [if_pos rfl] at done
          refine ⟨after, ?_, ?_⟩
          · rw [put]
            rfl
          · rwa [if_pos rfl, ← done]

/-- The bytes of the records that end a stream and perhaps the request. -/
def closing (type : UInt8) (silent : Bool) (request : RequestData) : Bytes :=
  (if silent then [] else (makeHeader type request.requestId 0 0).bytes) ++
    if request.nWriters = 1 then
      endRequestRecord request.requestId request.appStatus requestComplete
    else []

theorem writeCloseRecords_eq (sink : Sink) {start : Sink} {written : Bytes}
    (raw : Raw size start written
      { sink with writer := { sink.writer with rawWrite := true } }) :
    ∃ after, sink.writeCloseRecords = .value { after with
        request := { start.request with
          nWriters := start.request.nWriters - 1 } } ∧
      Raw size start (written ++
        closing start.writer.type sink.isSilent start.request) after := by
  obtain ⟨first, one, firstRaw⟩ :=
    putWhen_raw (!sink.isSilent) sink.endOfStream raw
  obtain ⟨second, two, secondRaw⟩ :=
    putWhen_raw (first.request.nWriters == 1) first.endOfRequest firstRaw
  refine ⟨second, ?_, ?_⟩
  · unfold Sink.writeCloseRecords
    change (Sink.putWhen _ sink.endOfStream _ >>= _) = _
    rw [one, Outcome.value_bind, two, ← secondRaw.request]
    rfl
  · have type : sink.writer.type = start.writer.type := raw.type
    have request : sink.request = start.request := raw.request
    unfold closing
    unfold Sink.endOfRequest Sink.endOfStream at secondRaw
    rw [firstRaw.request, type, request] at secondRaw
    rw [← List.append_assoc]
    generalize sink.isSilent = silent at secondRaw ⊢
    cases silent <;> simpa using secondRaw

/-- Closing an open stream sends what is buffered and the records that end the
stream and perhaps the request. -/
theorem fClose_eq (sink : Sink) (open_ : sink.writer.Open size)
    (accepts : sink.socket.Accepts)
    (idFits : sink.request.requestId < 65536) :
    ∃ (after : Sink) (records : List Record),
      sink.fClose = .value (true, after) ∧
      (∀ record ∈ records,
        Carries sink.writer.type sink.request.requestId record) ∧
      records.flatMap Record.content = sink.writer.content ∧
      Wrote (records.flatMap Record.bytes ++ closing sink.writer.type
          (sink.writer.type == RecordType.stderr && records.isEmpty &&
            !sink.writer.isAnythingWritten) sink.request)
        sink.socket after.socket ∧
      after.request = { sink.request with
        nWriters := sink.request.nWriters - 1 } := by
  have unclosed := open_.fits.unclosed open_.isOpen
  obtain ⟨records, carry, buffer, content, -⟩ := open_.encapsulated idFits
  obtain ⟨made, same⟩ :=
    Writer.encapsulated_eq sink.request.requestId sink.writer
  have fits := open_.fits.encapsulated unclosed sink.request.requestId
  rw [same] at buffer fits
  have isEmpty : made.isEmpty = records.isEmpty := by
    rw [← isEmpty_bytes, ← buffer]
  let start : Sink := { sink with writer := { sink.writer with buffer := made } }
  have raw : Raw size start []
      { start with writer := { start.writer with rawWrite := true } } :=
    ⟨⟨fits.aligned, fits.least, fits.inside, fits.stop, fits.shut⟩,
      open_.isOpen, rfl, open_.errno, rfl, rfl, [], .refl accepts,
      (List.append_nil _).symm⟩
  obtain ⟨after, ran, closed⟩ := writeCloseRecords_eq start raw
  obtain ⟨flushed, wrote, whole⟩ := closed.bytes
  let last : Sink := { after with
    request := { start.request with nWriters := start.request.nWriters - 1 } }
  obtain ⟨socket, sent, further⟩ := send_eq last wrote.accepts
  refine ⟨{ last.send with writer := { last.send.writer with
      wasFCloseCalled := true
      isClosed := true
      size := last.send.writer.buffer.length } }, records, ?_, carry, content,
    ?_, ?_⟩
  · unfold Sink.fClose
    rw [unclosed, if_neg Bool.false_ne_true, open_.fits.encapsulate_eq unclosed,
      Outcome.value_bind, same]
    change (Sink.writeCloseRecords start >>= _) = _
    rw [ran, Outcome.value_bind]
    have errno : last.send.writer.errno = 0 := by
      rw [sent]
      exact closed.errno
    change Outcome.value (decide (last.send.writer.errno = 0), _) = _
    rw [errno]
    rfl
  · have all := wrote.trans further
    change Wrote (flushed ++ after.writer.buffer) _ socket at all
    rw [whole] at all
    change Wrote _ sink.socket last.send.socket
    have silent : start.isSilent = (sink.writer.type == RecordType.stderr &&
        records.isEmpty && !sink.writer.isAnythingWritten) := by
      rw [← isEmpty]
      rfl
    rw [sent, ← silent, ← buffer]
    exact all
  · change last.send.request = _
    rw [sent]

end Sending

end DbPager.Fcgx
