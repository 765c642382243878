import DbPager.Fcgx.Requests

/-!
# Writing to a FastCGI connection

An output stream collects what the client writes behind the space for a
header.  When the buffer is full it becomes a record, padded to a multiple of
eight bytes.  Closing the streams of a request writes the records that end the
streams and the request.
-/

namespace DbPager.Fcgx

open Effect

/-- An output stream, `FCGX_Stream` with its `FCGX_Stream_Data`. -/
structure Writer where
  /-- From `buff` to `wrNext`. -/
  buffer : Bytes
  /-- `stop - buff`. -/
  size : Nat
  isClosed : Bool
  wasFCloseCalled : Bool
  /-- `FCGI_errno`. -/
  errno : Int
  type : UInt8
  isAnythingWritten : Bool
  rawWrite : Bool

/-- What the functions of an output stream work on. -/
structure Sink where
  socket : Socket
  request : RequestData
  writer : Writer

/-- The space for a header, which is not initialized. -/
def headerSpace : Bytes :=
  List.replicate headerLen 0

/-- `NewWriter`. -/
def newWriter (aligned : Bool) (bufflen : Nat) (type : UInt8) : Writer where
  buffer := headerSpace
  size := streamBufflen aligned bufflen
  isClosed := false
  wasFCloseCalled := false
  errno := 0
  type
  isAnythingWritten := false
  rawWrite := false

namespace Writer

/-- `SetError`. -/
def setError (code : Int) (writer : Writer) : Writer :=
  { writer with
    errno := if writer.errno = 0 then code else writer.errno
    isClosed := true }

/-- `memcpy` to `wrNext`. -/
def append (bytes : Bytes) (writer : Writer) : Writer :=
  { writer with buffer := writer.buffer ++ bytes }

/-- `stop - wrNext`. -/
def room (writer : Writer) : Nat :=
  writer.size - writer.buffer.length

/-- What has been buffered behind the header. -/
def content (writer : Writer) : Bytes :=
  writer.buffer.drop headerLen

/-- The padding of a record with that content. -/
def padding (writer : Writer) : Nat :=
  alignInt8 writer.content.length - writer.content.length

/-- The first part of `EmptyBuffProc`: make a record of what is buffered.
Writing behind the buffer is undefined. -/
def encapsulate (requestId : Nat) (writer : Writer) : C Writer :=
  if writer.rawWrite then .value writer
  else if writer.content.isEmpty then .value { writer with buffer := [] }
  else if writer.size < writer.buffer.length + writer.padding then .halt .fault
  else
    .value { writer with
      buffer := (makeHeader writer.type requestId writer.content.length
        writer.padding).bytes ++ writer.content ++
          List.replicate writer.padding 0 }

/-- The buffer is empty: leave space for the next header. -/
def startOver (writer : Writer) : Writer :=
  { writer with buffer := if writer.rawWrite then [] else headerSpace }

end Writer

namespace Sink

/-- The last part of `EmptyBuffProc`: send what is buffered. -/
def send (sink : Sink) : Sink :=
  if sink.writer.buffer.isEmpty then
    { sink with writer := sink.writer.startOver }
  else
    let written := sink.socket.write sink.writer.buffer
    let writer := { sink.writer with isAnythingWritten := true }
    { sink with
      socket := written.2
      writer := if written.1 then writer.startOver
        else writer.setError written.2.writeError }

/-- `EmptyBuffProc` when the stream stays open. -/
def emptyBuffProc (sink : Sink) : C Sink := do
  let writer ← sink.writer.encapsulate sink.request.requestId
  pure { sink with writer }.send

/-- The loop of `FCGX_PutStr`: whether everything has been written. -/
def putStrLoop : Nat → Bytes → Sink → C (Bool × Sink)
  | 0, _, _ => .halt .timeout
  | fuel + 1, bytes, sink => do
      let moved := min bytes.length sink.writer.room
      let sink := { sink with writer := sink.writer.append (bytes.take moved) }
      if moved = bytes.length ∧ 0 < moved then pure (true, sink)
      else if sink.writer.isClosed then pure (false, sink)
      else putStrLoop fuel (bytes.drop moved) (← sink.emptyBuffProc)

/-- `FCGX_PutStr`. -/
def putStr (bytes : Bytes) (sink : Sink) : C (Bool × Sink) :=
  if bytes.length ≤ sink.writer.room then
    .value (true, { sink with writer := sink.writer.append bytes })
  else putStrLoop (bytes.length + 2) bytes sink

/-- `FCGX_FFlush`. -/
def fFlush (sink : Sink) : C Sink :=
  if sink.writer.isClosed then .value sink else sink.emptyBuffProc

/-- Nothing at all has been written to the error stream. -/
def isSilent (sink : Sink) : Bool :=
  sink.writer.type == RecordType.stderr && sink.writer.buffer.isEmpty &&
    !sink.writer.isAnythingWritten

/-- The record that ends a stream. -/
def endOfStream (sink : Sink) : Bytes :=
  (makeHeader sink.writer.type sink.request.requestId 0 0).bytes

/-- The record that ends the request, written by the last writer to close. -/
def endOfRequest (sink : Sink) : Bytes :=
  endRequestRecord sink.request.requestId sink.request.appStatus
    requestComplete

/-- `FCGX_PutStr` under a condition. -/
def putWhen (needed : Bool) (bytes : Bytes) (sink : Sink) : C Sink := do
  if needed then
    let (_, sink) ← sink.putStr bytes
    pure sink
  else pure sink

/-- `WriteCloseRecords`, whose records are not made part of the stream. -/
def writeCloseRecords (sink : Sink) : C Sink := do
  let silent := sink.isSilent
  let sink := { sink with writer := { sink.writer with rawWrite := true } }
  let sink ← sink.putWhen (!silent) sink.endOfStream
  let sink ← sink.putWhen (sink.request.nWriters == 1) sink.endOfRequest
  pure { sink with request := { sink.request with
    nWriters := sink.request.nWriters - 1 } }

/-- `FCGX_FClose`: whether there was no error. -/
def fClose (sink : Sink) : C (Bool × Sink) := do
  if sink.writer.wasFCloseCalled then pure (sink.writer.errno = 0, sink)
  else
    let writer ← sink.writer.encapsulate sink.request.requestId
    let sink := (← { sink with writer }.writeCloseRecords).send
    pure (sink.writer.errno = 0, { sink with writer := { sink.writer with
      wasFCloseCalled := true
      isClosed := true
      size := sink.writer.buffer.length } })

end Sink

/-! ## Writes that succeed -/

/-- No write fails; each takes as much as it likes. -/
def Socket.Accepts (socket : Socket) : Prop :=
  ∀ result ∈ socket.writes, result ≠ none

theorem writeItAll_eq {writes : List (Option Nat)} (buffer : Bytes)
    (accepts : ∀ result ∈ writes, result ≠ none) :
    ∃ left, writeItAll writes buffer = (left, buffer, true) ∧
      ∀ result ∈ left, result ≠ none := by
  induction writes generalizing buffer with
  | nil =>
      cases buffer with
      | nil => exact ⟨[], rfl, accepts⟩
      | cons byte buffer => exact ⟨[], rfl, accepts⟩
  | cons result writes induction =>
      cases buffer with
      | nil => exact ⟨result :: writes, rfl, accepts⟩
      | cons byte buffer =>
          cases result with
          | none => exact absurd rfl (accepts none List.mem_cons_self)
          | some count =>
              obtain ⟨left, ran, others⟩ := induction
                ((byte :: buffer).drop count) fun result member =>
                  accepts result (List.mem_cons_of_mem _ member)
              refine ⟨left, ?_, others⟩
              simp only [writeItAll, ran, List.take_append_drop]

theorem Socket.write_eq {socket : Socket} (buffer : Bytes)
    (accepts : socket.Accepts) :
    ∃ left, socket.write buffer =
        (true, { socket with writes := left, sent := socket.sent ++ buffer }) ∧
      ∀ result ∈ left, result ≠ none := by
  obtain ⟨left, ran, others⟩ := writeItAll_eq buffer accepts
  refine ⟨left, ?_, others⟩
  unfold Socket.write
  rw [ran]


/-! ## Buffers are not overrun -/

/-- The buffer holds what has been written to it.  Closing the stream lets it
end where the client has stopped. -/
structure Writer.Fits (size : Nat) (writer : Writer) : Prop where
  aligned : 8 ∣ size
  least : 24 ≤ size
  inside : writer.buffer.length ≤ size
  stop : writer.wasFCloseCalled = false → writer.size = size
  shut : writer.wasFCloseCalled = true →
    writer.isClosed = true ∧ writer.size = writer.buffer.length

section Safety

variable {size : Nat} {writer : Writer} {sink : Sink}

theorem fits_newWriter (aligned : Bool) (bufflen : Nat) (type : UInt8) :
    (newWriter aligned bufflen type).Fits (streamBufflen aligned bufflen) := by
  obtain ⟨divides, least, -⟩ := streamBufflen_spec aligned bufflen
  refine ⟨divides, least, ?_, fun _ => rfl, fun shut => nomatch shut⟩
  change (List.replicate headerLen (0 : UInt8)).length ≤ _
  rw [List.length_replicate]
  exact le_trans (Nat.le_add_right 8 16) least

theorem Writer.length_content (writer : Writer) :
    writer.content.length = writer.buffer.length - headerLen :=
  List.length_drop

/-- The padding of a record fits into the buffer, because the size of the
buffer is a multiple of eight. -/
theorem Writer.Fits.padding_le (fits : writer.Fits size)
    (some : writer.content ≠ []) :
    headerLen + writer.content.length + writer.padding ≤ size ∧
      writer.buffer.length + writer.padding ≤ size := by
  have more := List.length_pos_iff.mpr some
  have inside := fits.inside
  have length := writer.length_content
  have sum := le_alignInt8 writer.content.length
  obtain ⟨count, rfl⟩ := fits.aligned
  unfold Writer.padding
  unfold alignInt8 headerLen at *
  omega

/-- What `encapsulate` leaves. -/
def Writer.encapsulated (requestId : Nat) (writer : Writer) : Writer :=
  if writer.rawWrite then writer
  else
    { writer with
      buffer := if writer.content.isEmpty then []
        else (makeHeader writer.type requestId writer.content.length
          writer.padding).bytes ++ writer.content ++
            List.replicate writer.padding 0 }

theorem Writer.Fits.encapsulate_eq (fits : writer.Fits size)
    (unclosed : writer.wasFCloseCalled = false) (requestId : Nat) :
    writer.encapsulate requestId = .value (writer.encapsulated requestId) := by
  unfold Writer.encapsulate Writer.encapsulated
  by_cases raw : writer.rawWrite = true
  · rw [if_pos raw, if_pos raw]
  · rw [if_neg raw, if_neg raw]
    by_cases none : writer.content.isEmpty = true
    · rw [if_pos none, if_pos none]
    · have some : writer.content ≠ [] := by simpa using none
      have room := (fits.padding_le some).2
      rw [if_neg none, if_neg none, fits.stop unclosed,
        if_neg (Nat.not_lt.mpr room)]

theorem Writer.Fits.encapsulated (fits : writer.Fits size)
    (unclosed : writer.wasFCloseCalled = false) (requestId : Nat) :
    (writer.encapsulated requestId).Fits size := by
  unfold Writer.encapsulated
  by_cases raw : writer.rawWrite = true
  · rwa [if_pos raw]
  · rw [if_neg raw]
    refine ⟨fits.aligned, fits.least, ?_, fits.stop, fun shut => ?_⟩
    · by_cases none : writer.content.isEmpty = true
      · rw [if_pos none]
        exact Nat.zero_le _
      · rw [if_neg none, List.length_append, List.length_append,
          Header.length_bytes, List.length_replicate]
        exact (fits.padding_le (by simpa using none)).1
    · exact absurd (unclosed.symm.trans shut) Bool.false_ne_true

theorem Writer.encapsulated_wasFCloseCalled (requestId : Nat)
    (writer : Writer) :
    (writer.encapsulated requestId).wasFCloseCalled =
      writer.wasFCloseCalled := by
  unfold Writer.encapsulated
  split <;> rfl

theorem Writer.Fits.append (fits : writer.Fits size) {bytes : Bytes}
    (room : bytes.length ≤ writer.room) : (writer.append bytes).Fits size := by
  have inside := fits.inside
  unfold Writer.room at room
  refine ⟨fits.aligned, fits.least, ?_, fits.stop, fun shut => ?_⟩
  · change (writer.buffer ++ bytes).length ≤ size
    rw [List.length_append]
    by_cases shut : writer.wasFCloseCalled = true
    · have := (fits.shut shut).2
      omega
    · have := fits.stop (Bool.not_eq_true _ ▸ shut)
      omega
  · obtain ⟨isClosed, stop⟩ := fits.shut shut
    refine ⟨isClosed, ?_⟩
    change writer.size = (writer.buffer ++ bytes).length
    rw [List.length_append]
    omega

theorem Writer.Fits.startOver (fits : writer.Fits size)
    (unclosed : writer.wasFCloseCalled = false) :
    writer.startOver.Fits size := by
  refine ⟨fits.aligned, fits.least, ?_, fits.stop, fun shut => ?_⟩
  · unfold Writer.startOver
    split
    · exact Nat.zero_le _
    · exact le_trans (Nat.le_add_right 8 16) fits.least
  · exact absurd (unclosed.symm.trans shut) Bool.false_ne_true

/-- There is room after starting over. -/
theorem Writer.Fits.room_startOver (fits : writer.Fits size)
    (unclosed : writer.wasFCloseCalled = false) :
    0 < writer.startOver.room := by
  have least := fits.least
  have stop := fits.stop unclosed
  unfold Writer.room Writer.startOver
  split
  · exact lt_of_lt_of_eq (by omega : 0 < size) stop.symm
  · change 0 < writer.size - headerSpace.length
    rw [stop]
    change 0 < size - 8
    omega

/-- What sending the buffer leaves: an empty buffer or a closed stream. -/
structure Sent (size : Nat) (before after : Sink) : Prop where
  fits : after.writer.Fits size
  request : after.request = before.request
  unclosed : after.writer.wasFCloseCalled = false
  rawWrite : after.writer.rawWrite = before.writer.rawWrite
  type : after.writer.type = before.writer.type
  room : after.writer.isClosed = true ∨ 0 < after.writer.room

theorem sent_send (sink : Sink) (fits : sink.writer.Fits size)
    (unclosed : sink.writer.wasFCloseCalled = false) :
    Sent size sink sink.send := by
  unfold Sink.send
  by_cases empty : sink.writer.buffer.isEmpty = true
  · rw [if_pos empty]
    exact ⟨fits.startOver unclosed, rfl, unclosed, rfl, rfl,
      .inr (fits.room_startOver unclosed)⟩
  · rw [if_neg empty]
    by_cases written : (sink.socket.write sink.writer.buffer).1 = true
    · simp only [written, if_true]
      have marked : Writer.Fits size
          { sink.writer with isAnythingWritten := true } :=
        ⟨fits.aligned, fits.least, fits.inside, fits.stop, fits.shut⟩
      exact ⟨marked.startOver unclosed, rfl, unclosed, rfl, rfl,
        .inr (marked.room_startOver unclosed)⟩
    · simp only [written]
      refine ⟨⟨fits.aligned, fits.least, fits.inside, fits.stop, fun shut => ?_⟩,
        rfl, unclosed, rfl, rfl, .inl rfl⟩
      exact absurd (unclosed.symm.trans shut) Bool.false_ne_true

/-- `EmptyBuffProc` never writes behind the buffer. -/
theorem emptyBuffProc_eq (fits : sink.writer.Fits size)
    (unclosed : sink.writer.wasFCloseCalled = false) :
    sink.emptyBuffProc = .value
      { sink with writer :=
        sink.writer.encapsulated sink.request.requestId }.send := by
  unfold Sink.emptyBuffProc
  rw [fits.encapsulate_eq unclosed]
  rfl

/-! ## The rule of `FCGX_PutStr` -/

/-- What is kept by appending what there is room for and by sending the
buffer of an open stream. -/
structure Kept (Inv : Bytes → Sink → Prop) : Prop where
  append : ∀ {written chunk : Bytes} {sink : Sink}, Inv written sink →
    chunk.length ≤ sink.writer.room →
      Inv (written ++ chunk) { sink with writer := sink.writer.append chunk }
  empty : ∀ {written : Bytes} {sink : Sink}, Inv written sink →
    sink.writer.isClosed = false →
      ∃ sent, sink.emptyBuffProc = .value sent ∧ Inv written sent ∧
        (sent.writer.isClosed = true ∨ 0 < sent.writer.room)

/-- `FCGX_PutStr` has written the bytes, or as many of them as it could before
the stream closed. -/
def Put (Inv : Bytes → Sink → Prop) (written bytes : Bytes)
    (result : C (Bool × Sink)) : Prop :=
  ∃ all after front, result = .value (all, after) ∧
    Inv (written ++ front) after ∧
    (if all then front = bytes else after.writer.isClosed = true)

theorem putStrLoop_rule {Inv : Bytes → Sink → Prop} (kept : Kept Inv)
    {fuel : Nat} {written bytes : Bytes} {sink : Sink}
    (inv : Inv written sink)
    (enough : bytes.length +
      (if sink.writer.isClosed = true ∨ 0 < sink.writer.room then 1 else 2) ≤
        fuel) (more : bytes ≠ []) :
    Put Inv written bytes (sink.putStrLoop fuel bytes) := by
  induction fuel generalizing written bytes sink with
  | zero => split at enough <;> omega
  | succ fuel induction =>
      have long := List.length_pos_iff.mpr more
      unfold Sink.putStrLoop
      simp only
      generalize least : min bytes.length sink.writer.room = moved
      have length : (bytes.take moved).length = moved := by
        rw [List.length_take]
        omega
      have fits : (bytes.take moved).length ≤ sink.writer.room := by omega
      have appended := kept.append inv fits
      by_cases all : moved = bytes.length ∧ 0 < moved
      · rw [if_pos all]
        refine ⟨true, _, bytes.take moved, rfl, appended, ?_⟩
        rw [if_pos rfl, all.1, List.take_length]
      · rw [if_neg all]
        by_cases closed : (sink.writer.append (bytes.take moved)).isClosed = true
        · rw [if_pos closed]
          refine ⟨false, _, bytes.take moved, rfl, appended, ?_⟩
          rw [if_neg Bool.false_ne_true]
          exact closed
        · rw [if_neg closed]
          obtain ⟨sent, ran, again, progress⟩ := kept.empty appended
            (Bool.not_eq_true _ ▸ closed)
          have rest : bytes.drop moved ≠ [] := by
            intro none
            have := List.drop_eq_nil_iff.mp none
            omega
          have open_ : ¬ sink.writer.isClosed = true := closed
          obtain ⟨whole, after, front, put, held, done⟩ := induction again (by
            rw [if_pos progress, List.length_drop]
            split at enough
            · have : 0 < sink.writer.room := by tauto
              omega
            · omega) rest
          refine ⟨whole, after, bytes.take moved ++ front, ?_, ?_, ?_⟩
          · rw [ran, Outcome.value_bind]
            exact put
          · rwa [← List.append_assoc]
          · cases whole
            · exact done
            · rw [if_pos rfl] at done ⊢
              rw [done, List.take_append_drop]

theorem putStr_rule {Inv : Bytes → Sink → Prop} (kept : Kept Inv)
    (written : Bytes) {sink : Sink} (bytes : Bytes) (inv : Inv written sink) :
    Put Inv written bytes (sink.putStr bytes) := by
  unfold Sink.putStr
  by_cases fast : bytes.length ≤ sink.writer.room
  · rw [if_pos fast]
    exact ⟨true, _, bytes, rfl, kept.append inv fast, rfl⟩
  · rw [if_neg fast]
    have more : bytes ≠ [] := by
      intro none
      rw [none] at fast
      exact fast (Nat.zero_le _)
    exact putStrLoop_rule kept inv (by split <;> omega) more

/-- The invariant that holds whatever the socket does. -/
structure Safe (size : Nat) (before : Sink) (sink : Sink) : Prop where
  fits : sink.writer.Fits size
  request : sink.request = before.request
  called : sink.writer.wasFCloseCalled = before.writer.wasFCloseCalled

theorem Writer.Fits.unclosed (fits : writer.Fits size)
    (isOpen : writer.isClosed = false) : writer.wasFCloseCalled = false := by
  cases shut : writer.wasFCloseCalled with
  | false => rfl
  | true =>
      exact absurd (isOpen.symm.trans (fits.shut shut).1) Bool.false_ne_true

/-- `EmptyBuffProc` keeps the buffer safe. -/
theorem emptyBuffProc_safe (fits : sink.writer.Fits size)
    (isOpen : sink.writer.isClosed = false) :
    ∃ sent, sink.emptyBuffProc = .value sent ∧ Safe size sink sent ∧
      (sent.writer.isClosed = true ∨ 0 < sent.writer.room) := by
  have unclosed := fits.unclosed isOpen
  have sent := sent_send
    { sink with writer := sink.writer.encapsulated sink.request.requestId }
    (fits.encapsulated unclosed _)
    ((Writer.encapsulated_wasFCloseCalled _ _).trans unclosed)
  exact ⟨_, emptyBuffProc_eq fits unclosed,
    ⟨sent.fits, sent.request, sent.unclosed.trans unclosed.symm⟩, sent.room⟩

theorem kept_safe (size : Nat) (before : Sink) :
    Kept (fun _ => Safe size before) where
  append := fun safe room =>
    ⟨safe.fits.append room, safe.request, safe.called⟩
  empty := by
    intro written sink safe isOpen
    obtain ⟨sent, ran, again, progress⟩ := emptyBuffProc_safe safe.fits isOpen
    exact ⟨sent, ran, ⟨again.fits, again.request.trans safe.request,
      again.called.trans safe.called⟩, progress⟩

theorem putStr_safe (sink : Sink) (bytes : Bytes) (fits : sink.writer.Fits size) :
    ∃ all after, sink.putStr bytes = .value (all, after) ∧
      Safe size sink after := by
  obtain ⟨all, after, front, put, safe, -⟩ :=
    putStr_rule (kept_safe size sink) [] bytes ⟨fits, rfl, rfl⟩
  exact ⟨all, after, put, safe⟩

theorem fFlush_safe (sink : Sink) (fits : sink.writer.Fits size) :
    ∃ after, sink.fFlush = .value after ∧ Safe size sink after := by
  unfold Sink.fFlush
  by_cases closed : sink.writer.isClosed = true
  · rw [if_pos closed]
    exact ⟨sink, rfl, fits, rfl, rfl⟩
  · rw [if_neg closed]
    obtain ⟨sent, ran, safe, -⟩ :=
      emptyBuffProc_safe fits (Bool.not_eq_true _ ▸ closed)
    exact ⟨sent, ran, safe⟩

theorem putWhen_safe (sink : Sink) (needed : Bool) (bytes : Bytes)
    (fits : sink.writer.Fits size) :
    ∃ after, sink.putWhen needed bytes = .value after ∧
      Safe size sink after := by
  unfold Sink.putWhen
  cases needed with
  | false => exact ⟨sink, rfl, fits, rfl, rfl⟩
  | true =>
      obtain ⟨all, after, put, safe⟩ := putStr_safe sink bytes fits
      refine ⟨after, ?_, safe⟩
      rw [put]
      rfl

theorem writeCloseRecords_safe (sink : Sink) (fits : sink.writer.Fits size) :
    ∃ after, sink.writeCloseRecords = .value after ∧
      after.writer.Fits size ∧
      after.writer.wasFCloseCalled = sink.writer.wasFCloseCalled := by
  obtain ⟨first, one, firstSafe⟩ := putWhen_safe
    { sink with writer := { sink.writer with rawWrite := true } }
    (!sink.isSilent) sink.endOfStream
    ⟨fits.aligned, fits.least, fits.inside, fits.stop, fits.shut⟩
  obtain ⟨second, two, secondSafe⟩ := putWhen_safe first
    (first.request.nWriters == 1) first.endOfRequest firstSafe.fits
  refine ⟨{ second with request := { second.request with
      nWriters := second.request.nWriters - 1 } }, ?_, secondSafe.fits,
    secondSafe.called.trans firstSafe.called⟩
  unfold Sink.writeCloseRecords
  change (Sink.putWhen _ sink.endOfStream _ >>= _) = _
  rw [one, Outcome.value_bind, two]
  rfl

/-- Closing a stream comes to an end and leaves it closed. -/
theorem fClose_safe (sink : Sink) (fits : sink.writer.Fits size) :
    ∃ fine after, sink.fClose = .value (fine, after) ∧
      after.writer.Fits size ∧ after.writer.wasFCloseCalled = true := by
  unfold Sink.fClose
  by_cases called : sink.writer.wasFCloseCalled = true
  · rw [if_pos called]
    exact ⟨_, sink, rfl, fits, called⟩
  · have unclosed : sink.writer.wasFCloseCalled = false :=
      Bool.not_eq_true _ ▸ called
    rw [if_neg called, fits.encapsulate_eq unclosed, Outcome.value_bind]
    obtain ⟨middle, ran, inside, same⟩ := writeCloseRecords_safe
      { sink with
        writer := sink.writer.encapsulated sink.request.requestId }
      (fits.encapsulated unclosed _)
    have sent := sent_send _ inside
      (same.trans ((Writer.encapsulated_wasFCloseCalled _ _).trans unclosed))
    rw [ran]
    exact ⟨_, _, rfl, ⟨fits.aligned, fits.least, sent.fits.inside,
      fun never => absurd never Bool.noConfusion, fun _ => ⟨rfl, rfl⟩⟩, rfl⟩

end Safety

end DbPager.Fcgx
