import DbPager.Fcgx.Sending

/-!
# Responses

The two output streams of a request share its connection.  Whatever the client
writes to them, in whatever pieces and order, the web server finds it in their
records, followed by the records that end the streams and the request.
-/

namespace DbPager.Fcgx

open Effect

/-! ## The streams of a request -/

/-- The output streams of a request. -/
inductive Channel where
  | out
  | err
  deriving DecidableEq

def Channel.type : Channel → UInt8
  | .out => RecordType.stdout
  | .err => RecordType.stderr

/-- A request that has been accepted, `FCGX_Request`. -/
structure Exchange where
  conn : Conn
  out : Writer
  err : Writer

/-- The end of `FCGX_Accept_r`: create the output streams. -/
def startResponse (aligned : Channel → Bool) (conn : Conn) : Exchange where
  conn := { conn with request := { conn.request with nWriters := 2 } }
  out := newWriter (aligned .out) 8192 RecordType.stdout
  err := newWriter (aligned .err) 512 RecordType.stderr

/-- What the client does with an output stream. -/
inductive Call where
  | putStr (channel : Channel) (bytes : Bytes)
  | fFlush (channel : Channel)
  | fClose (channel : Channel)

namespace Exchange

def writer (exchange : Exchange) : Channel → Writer
  | .out => exchange.out
  | .err => exchange.err

/-- What a function of an output stream works on. -/
def sink (channel : Channel) (exchange : Exchange) : Sink :=
  ⟨exchange.conn.socket, exchange.conn.request, exchange.writer channel⟩

/-- What it has left. -/
def restore (channel : Channel) (sink : Sink) (exchange : Exchange) :
    Exchange where
  conn := { exchange.conn with socket := sink.socket, request := sink.request }
  out := if channel = .out then sink.writer else exchange.out
  err := if channel = .err then sink.writer else exchange.err

def fClose (channel : Channel) (exchange : Exchange) : C (Bool × Exchange) := do
  let (fine, sink) ← (exchange.sink channel).fClose
  pure (fine, exchange.restore channel sink)

def call (exchange : Exchange) : Call → C Exchange
  | .putStr channel bytes => do
      let (_, sink) ← (exchange.sink channel).putStr bytes
      pure (exchange.restore channel sink)
  | .fFlush channel => do
      pure (exchange.restore channel (← (exchange.sink channel).fFlush))
  | .fClose channel => do
      let (_, exchange) ← exchange.fClose channel
      pure exchange

def run (exchange : Exchange) (calls : List Call) : C Exchange :=
  calls.foldlM call exchange

/-- `FCGX_Finish_r`: whether the connection is closed. -/
def finish (exchange : Exchange) : C (Bool × Exchange) := do
  let (errFine, exchange) ← exchange.fClose .err
  let (outFine, exchange) ← exchange.fClose .out
  pure (!exchange.conn.request.keepConnection || !errFine || !outFine ||
    exchange.conn.reader.errno != 0, exchange)

end Exchange

/-! ## Any calls, on any connection -/

/-- No buffer of a request is overrun. -/
def Exchange.Fits (sizes : Channel → Nat) (exchange : Exchange) : Prop :=
  ∀ channel, (exchange.writer channel).Fits (sizes channel)

section Runs

variable {sizes : Channel → Nat} {exchange : Exchange}

theorem Exchange.writer_restore (channel other : Channel) (sink : Sink)
    (exchange : Exchange) :
    (exchange.restore channel sink).writer other =
      if other = channel then sink.writer else exchange.writer other := by
  cases channel <;> cases other <;> rfl

theorem Exchange.Fits.restore (fits : exchange.Fits sizes) {channel : Channel}
    {sink : Sink} (inside : sink.writer.Fits (sizes channel)) :
    (exchange.restore channel sink).Fits sizes := by
  intro other
  rw [Exchange.writer_restore]
  by_cases same : other = channel
  · rw [if_pos same, same]
    exact inside
  · rw [if_neg same]
    exact fits other

theorem Exchange.Fits.fClose (fits : exchange.Fits sizes) (channel : Channel) :
    ∃ fine after, exchange.fClose channel = .value (fine, after) ∧
      after.Fits sizes := by
  obtain ⟨fine, after, ran, inside, -⟩ :=
    fClose_safe (exchange.sink channel) (fits channel)
  refine ⟨fine, exchange.restore channel after, ?_, fits.restore inside⟩
  unfold Exchange.fClose
  rw [ran]
  rfl

/-- A call comes to an end and overruns no buffer. -/
theorem Exchange.Fits.call (fits : exchange.Fits sizes) (call : Call) :
    ∃ after, exchange.call call = .value after ∧ after.Fits sizes := by
  cases call with
  | putStr channel bytes =>
      obtain ⟨all, after, ran, safe⟩ :=
        putStr_safe (exchange.sink channel) bytes (fits channel)
      refine ⟨exchange.restore channel after, ?_, fits.restore safe.fits⟩
      change ((exchange.sink channel).putStr bytes >>= _) = _
      rw [ran]
      rfl
  | fFlush channel =>
      obtain ⟨after, ran, safe⟩ :=
        fFlush_safe (exchange.sink channel) (fits channel)
      refine ⟨exchange.restore channel after, ?_, fits.restore safe.fits⟩
      change ((exchange.sink channel).fFlush >>= _) = _
      rw [ran]
      rfl
  | fClose channel =>
      obtain ⟨fine, after, ran, inside⟩ := fits.fClose channel
      refine ⟨after, ?_, inside⟩
      change (exchange.fClose channel >>= _) = _
      rw [ran]
      rfl

theorem Exchange.Fits.run (fits : exchange.Fits sizes) (calls : List Call) :
    ∃ after, exchange.run calls = .value after ∧ after.Fits sizes := by
  induction calls generalizing exchange with
  | nil => exact ⟨exchange, rfl, fits⟩
  | cons call calls induction =>
      obtain ⟨middle, ran, inside⟩ := fits.call call
      obtain ⟨after, others, last⟩ := induction inside
      refine ⟨after, ?_, last⟩
      unfold Exchange.run at *
      rw [List.foldlM_cons, ran, Outcome.value_bind, others]

theorem Exchange.Fits.finish (fits : exchange.Fits sizes) :
    ∃ close after, exchange.finish = .value (close, after) ∧
      after.Fits sizes := by
  obtain ⟨errFine, middle, errRan, errFits⟩ := fits.fClose .err
  obtain ⟨outFine, after, outRan, outFits⟩ := errFits.fClose .out
  unfold Exchange.finish
  rw [errRan, Outcome.value_bind]
  simp only
  rw [outRan]
  exact ⟨_, after, rfl, outFits⟩

/-- The sizes of the buffers of a request. -/
def bufferSizes (aligned : Channel → Bool) (channel : Channel) : Nat :=
  streamBufflen (aligned channel) (match channel with
    | .out => 8192
    | .err => 512)

theorem fits_startResponse (aligned : Channel → Bool) (conn : Conn) :
    (startResponse aligned conn).Fits (bufferSizes aligned) := by
  intro channel
  cases channel with
  | out => exact fits_newWriter _ _ _
  | err => exact fits_newWriter _ _ _

/-- Whatever a client does with the output streams of a request, and whatever
the connection does with what is written to it, every call comes to an end, no
buffer is overrun, and the request can be finished. -/
theorem run_fits (aligned : Channel → Bool) (conn : Conn) (calls : List Call) :
    ∃ after close last, (startResponse aligned conn).run calls = .value after ∧
      after.Fits (bufferSizes aligned) ∧
      after.finish = .value (close, last) ∧
      last.Fits (bufferSizes aligned) := by
  obtain ⟨after, ran, fits⟩ := (fits_startResponse aligned conn).run calls
  obtain ⟨close, last, finished, inside⟩ := fits.finish
  exact ⟨after, close, last, ran, fits, finished, inside⟩

end Runs

/-! ## What the web server finds -/

/-- What the records of a type carry. -/
def contentOf (type : UInt8) (records : List Record) : Bytes :=
  records.flatMap fun record => if record.type = type then record.content else []

/-- What the client has written to a stream. -/
def writtenTo (channel : Channel) (calls : List Call) : Bytes :=
  calls.flatMap fun
    | .putStr other bytes => if other = channel then bytes else []
    | .fFlush _ => []
    | .fClose _ => []

/-- The client leaves it to the library to close the streams. -/
def LeavesOpen (calls : List Call) : Prop :=
  ∀ channel, Call.fClose channel ∉ calls

/-- The records that have been sent since a start, and what is still held,
carry what the client has written. -/
structure Responding (sizes : Channel → Nat) (start : Exchange)
    (written : Channel → Bytes) (exchange : Exchange) : Prop where
  isOpen : ∀ channel, (exchange.writer channel).Open (sizes channel)
  type : ∀ channel, (exchange.writer channel).type = channel.type
  request : exchange.conn.request = start.conn.request
  reader : exchange.conn.reader = start.conn.reader
  bufflen : exchange.conn.bufflen = start.conn.bufflen
  records : ∃ records : List Record,
    (∀ record ∈ records, ∃ channel : Channel,
      Carries channel.type start.conn.request.requestId record) ∧
    Wrote (records.flatMap Record.bytes) start.conn.socket
      exchange.conn.socket ∧
    ∀ channel,
      contentOf channel.type records ++ (exchange.writer channel).content =
        written channel ∧
      (exchange.writer channel).isAnythingWritten =
        records.any (·.type == channel.type)

section Contents

variable {type : UInt8} {requestId : Nat} {records : List Record}

theorem contentOf_append (type : UInt8) (one two : List Record) :
    contentOf type (one ++ two) = contentOf type one ++ contentOf type two :=
  List.flatMap_append

theorem contentOf_same
    (carry : ∀ record ∈ records, Carries type requestId record) :
    contentOf type records = records.flatMap Record.content := by
  unfold contentOf
  induction records with
  | nil => rfl
  | cons record records induction =>
      rw [List.flatMap_cons, List.flatMap_cons,
        if_pos (carry record List.mem_cons_self).type,
        induction fun other member =>
          carry other (List.mem_cons_of_mem _ member)]

theorem contentOf_other {other : UInt8}
    (carry : ∀ record ∈ records, Carries type requestId record)
    (different : type ≠ other) : contentOf other records = [] := by
  apply List.flatMap_eq_nil_iff.mpr
  intro record member
  rw [(carry record member).type, if_neg different]

theorem any_same (carry : ∀ record ∈ records, Carries type requestId record) :
    (records.any (·.type == type)) = !records.isEmpty := by
  cases records with
  | nil => rfl
  | cons record records =>
      have first := (carry record List.mem_cons_self).type
      simp [first]

theorem any_other {other : UInt8}
    (carry : ∀ record ∈ records, Carries type requestId record)
    (different : type ≠ other) :
    (records.any (·.type == other)) = false := by
  apply List.any_eq_false.mpr
  intro record member
  rw [(carry record member).type]
  simpa using different

/-- Nothing is carried for a type if there is no record of it. -/
theorem contentOf_eq_nil (carry : ∀ record ∈ records, record.content ≠ []) :
    contentOf type records = [] ↔ records.any (·.type == type) = false := by
  unfold contentOf
  rw [List.flatMap_eq_nil_iff, List.any_eq_false]
  apply forall₂_congr
  intro record member
  by_cases same : record.type = type
  · simp [same, carry record member]
  · simp [same]

theorem Channel.type_injective {one two : Channel} (different : one ≠ two) :
    one.type ≠ two.type := by
  cases one <;> cases two <;> simp_all [Channel.type] <;> decide

end Contents

section Response

variable {sizes : Channel → Nat} {start exchange : Exchange}
  {written : Channel → Bytes}

/-- A stream emits records on behalf of the request. -/
theorem Responding.emits (responding : Responding sizes start written exchange)
    {channel : Channel} {bytes : Bytes} {after : Sink}
    (emits : Emits (sizes channel) (exchange.sink channel) bytes after) :
    Responding sizes start
      (fun other => written other ++ if other = channel then bytes else [])
      (exchange.restore channel after) := by
  obtain ⟨sent, sentCarry, sentWrote, sentContent⟩ := responding.records
  obtain ⟨records, carry, wrote, content, anything⟩ := emits.records
  have type : (exchange.sink channel).writer.type = channel.type :=
    responding.type channel
  have request : (exchange.sink channel).request = start.conn.request :=
    responding.request
  rw [type, request] at carry
  refine ⟨?_, ?_, emits.request.trans request, responding.reader,
    responding.bufflen, sent ++ records, ?_, ?_, ?_⟩
  · intro other
    rw [Exchange.writer_restore]
    by_cases same : other = channel
    · rw [if_pos same, same]
      exact emits.isOpen
    · rw [if_neg same]
      exact responding.isOpen other
  · intro other
    rw [Exchange.writer_restore]
    by_cases same : other = channel
    · rw [if_pos same, same]
      exact emits.type.trans type
    · rw [if_neg same]
      exact responding.type other
  · intro record member
    rcases List.mem_append.mp member with earlier | later
    · exact sentCarry record earlier
    · exact ⟨channel, carry record later⟩
  · rw [List.flatMap_append]
    exact sentWrote.trans wrote
  · intro other
    rw [Exchange.writer_restore, contentOf_append, List.any_append]
    obtain ⟨before, any⟩ := sentContent other
    by_cases same : other = channel
    · subst same
      rw [if_pos rfl, if_pos rfl, contentOf_same carry, any_same carry,
        List.append_assoc, content, anything, ← List.append_assoc, ← before,
        ← any]
      exact ⟨rfl, rfl⟩
    · have different := Channel.type_injective (Ne.symm same)
      rw [if_neg same, if_neg same, contentOf_other carry different,
        any_other carry different, List.append_nil, List.append_nil,
        Bool.or_false]
      exact ⟨before, any⟩

/-- What a single call contributes. -/
theorem Responding.call (responding : Responding sizes start written exchange)
    (idFits : start.conn.request.requestId < 65536) (call : Call)
    (open_ : LeavesOpen [call]) :
    ∃ after, exchange.call call = .value after ∧
      Responding sizes start
        (fun channel => written channel ++ writtenTo channel [call]) after := by
  obtain ⟨sent, -, wrote, -⟩ := responding.records
  have id : exchange.conn.request.requestId < 65536 := by
    rw [responding.request]
    exact idFits
  cases call with
  | putStr channel bytes =>
      obtain ⟨after, ran, emits⟩ := putStr_emits (exchange.sink channel)
        bytes (responding.isOpen channel) wrote.accepts id
      refine ⟨exchange.restore channel after, ?_, ?_⟩
      · change ((exchange.sink channel).putStr bytes >>= _) = _
        rw [ran]
        rfl
      · have further := responding.emits emits
        simp only [writtenTo, List.flatMap_cons, List.flatMap_nil,
          List.append_nil]
        simpa only [eq_comm] using further
  | fFlush channel =>
      obtain ⟨after, ran, emits⟩ := fFlush_emits (exchange.sink channel)
        (responding.isOpen channel) wrote.accepts id
      refine ⟨exchange.restore channel after, ?_, ?_⟩
      · change ((exchange.sink channel).fFlush >>= _) = _
        rw [ran]
        rfl
      · have further := responding.emits emits
        simpa [writtenTo] using further
  | fClose channel => exact absurd List.mem_cons_self (open_ channel)

/-- What the calls of a client contribute. -/
theorem Responding.run (responding : Responding sizes start written exchange)
    (idFits : start.conn.request.requestId < 65536) {calls : List Call}
    (open_ : LeavesOpen calls) :
    ∃ after, exchange.run calls = .value after ∧
      Responding sizes start
        (fun channel => written channel ++ writtenTo channel calls) after := by
  induction calls generalizing exchange written with
  | nil =>
      refine ⟨exchange, rfl, ?_⟩
      simpa [writtenTo] using responding
  | cons call calls induction =>
      obtain ⟨middle, ran, first⟩ := responding.call idFits call fun channel =>
        by simpa using fun same : Call.fClose channel = call =>
          open_ channel (same ▸ List.mem_cons_self)
      obtain ⟨after, others, all⟩ := induction first fun channel member =>
        open_ channel (List.mem_cons_of_mem _ member)
      refine ⟨after, ?_, ?_⟩
      · unfold Exchange.run at *
        rw [List.foldlM_cons, ran, Outcome.value_bind, others]
      · simpa [writtenTo, List.append_assoc] using all

theorem responding_startResponse (aligned : Channel → Bool) {conn : Conn}
    (accepts : conn.socket.Accepts) :
    ∃ sizes, Responding sizes (startResponse aligned conn) (fun _ => [])
      (startResponse aligned conn) := by
  refine ⟨bufferSizes aligned, ?_, ?_, rfl, rfl, rfl, [],
    fun _ member => absurd member List.not_mem_nil, .refl accepts, ?_⟩
  · intro channel
    cases channel with
    | out => exact open_newWriter _ _ _
    | err => exact open_newWriter _ _ _
  · intro channel
    cases channel <;> rfl
  · intro channel
    cases channel <;> exact ⟨rfl, rfl⟩

end Response

/-- What the web server finds when a response is complete: the records of both
streams, the end of the error stream if there is anything in it, the rest of
the output stream with its end, and the end of the request. -/
structure Response (start : Exchange) (written : Channel → Bytes)
    (bytes : Bytes) : Prop where
  records : ∃ mixed last : List Record,
    (∀ record ∈ mixed, ∃ channel : Channel,
      Carries channel.type start.conn.request.requestId record) ∧
    (∀ record ∈ last,
      Carries RecordType.stdout start.conn.request.requestId record) ∧
    contentOf RecordType.stdout (mixed ++ last) = written .out ∧
    contentOf RecordType.stderr mixed = written .err ∧
    bytes = mixed.flatMap Record.bytes ++
      (if written .err = [] then []
        else (makeHeader RecordType.stderr start.conn.request.requestId 0
          0).bytes) ++
      last.flatMap Record.bytes ++
      (makeHeader RecordType.stdout start.conn.request.requestId 0 0).bytes ++
      endRequestRecord start.conn.request.requestId
        start.conn.request.appStatus requestComplete

/-- The error stream is closed while the other one is still open. -/
theorem closing_err {request : RequestData} (writers : request.nWriters = 2)
    (silent : Bool) : closing RecordType.stderr silent request =
      if silent then []
      else (makeHeader RecordType.stderr request.requestId 0 0).bytes := by
  have others : ¬ request.nWriters = 1 := by omega
  unfold closing
  rw [if_neg others, List.append_nil]

/-- The output stream is the last one to close. -/
theorem closing_out {request : RequestData} (writers : request.nWriters = 1)
    (one other : Bool) : closing RecordType.stdout
        (RecordType.stdout == RecordType.stderr && one && other) request =
      (makeHeader RecordType.stdout request.requestId 0 0).bytes ++
        endRequestRecord request.requestId request.appStatus
          requestComplete := by
  unfold closing
  rw [if_pos writers]
  rfl

/-- A response is complete when the request is finished. -/
theorem finish_eq {sizes : Channel → Nat} {start exchange : Exchange}
    {written : Channel → Bytes}
    (responding : Responding sizes start written exchange)
    (idFits : start.conn.request.requestId < 65536)
    (writers : start.conn.request.nWriters = 2) :
    ∃ close after bytes, exchange.finish = .value (close, after) ∧
      close = (!start.conn.request.keepConnection ||
        start.conn.reader.errno != 0) ∧
      after.conn.request = { start.conn.request with nWriters := 0 } ∧
      Wrote bytes start.conn.socket after.conn.socket ∧
      Response start written bytes := by
  obtain ⟨records, carry, wrote, contents⟩ := responding.records
  have id : exchange.conn.request.requestId < 65536 := by
    rw [responding.request]
    exact idFits
  obtain ⟨err, errRecords, errRan, errCarry, errContent, errWrote, errRequest⟩ :=
    fClose_eq (exchange.sink .err) (responding.isOpen .err)
      wrote.accepts id
  have request : (exchange.sink .err).request = start.conn.request :=
    responding.request
  rw [request, show (exchange.sink .err).writer.type = RecordType.stderr from
    responding.type .err] at errCarry errWrote
  rw [request] at errRequest
  have errId : err.request.requestId = start.conn.request.requestId := by
    rw [errRequest]
  obtain ⟨out, outRecords, outRan, outCarry, outContent, outWrote, outRequest⟩ :=
    fClose_eq ((exchange.restore .err err).sink .out)
      (responding.isOpen .out) errWrote.accepts (errId ▸ idFits)
  have outType : ((exchange.restore .err err).sink .out).writer.type =
    RecordType.stdout := responding.type .out
  have outReq : ((exchange.restore .err err).sink .out).request =
    err.request := rfl
  rw [outReq, errId, outType] at outCarry
  rw [outReq, outType] at outWrote
  rw [outReq] at outRequest
  have all := (wrote.trans errWrote).trans outWrote
  have errs : contentOf RecordType.stderr (records ++ errRecords) =
      written .err := by
    rw [contentOf_append, contentOf_same errCarry, errContent]
    exact (contents .err).1
  have silent : (errRecords.isEmpty &&
      !(exchange.sink .err).writer.isAnythingWritten) = true ↔
        written .err = [] := by
    have any : (exchange.sink .err).writer.isAnythingWritten =
        records.any (·.type == RecordType.stderr) := (contents .err).2
    have proper : ∀ record ∈ records ++ errRecords, record.content ≠ [] := by
      intro record member
      rcases List.mem_append.mp member with earlier | later
      · obtain ⟨channel, carries⟩ := carry record earlier
        exact carries.content
      · exact (errCarry record later).content
    rw [← errs, contentOf_eq_nil proper, List.any_append, any_same errCarry, any]
    simp [and_comm]
  refine ⟨!start.conn.request.keepConnection || start.conn.reader.errno != 0,
    (exchange.restore .err err).restore .out out, _, ?_, rfl, ?_, all,
    records ++ errRecords, outRecords, ?_, outCarry, ?_, errs, ?_⟩
  · change ((exchange.sink .err).fClose >>= _) >>= _ = _
    rw [errRan]
    change ((((exchange.restore .err err).sink .out).fClose >>= _) >>= _) = _
    rw [outRan]
    change Outcome.value ((!out.request.keepConnection || false || false ||
      exchange.conn.reader.errno != 0), _) = _
    rw [outRequest, errRequest, responding.reader, Bool.or_false, Bool.or_false]
  · change out.request = _
    rw [outRequest, errRequest, writers]
    rfl
  · intro record member
    rcases List.mem_append.mp member with earlier | later
    · exact carry record earlier
    · exact ⟨.err, errCarry record later⟩
  · rw [contentOf_append, contentOf_append, contentOf_same outCarry, outContent,
      contentOf_other errCarry (by decide), List.append_nil]
    exact (contents .out).1
  · have last : err.request.nWriters = 1 := by rw [errRequest, writers]
    rw [closing_err writers, closing_out last, errRequest, List.flatMap_append]
    simp only [beq_self_eq_true, Bool.true_and, silent, List.append_assoc]

/-- Whatever the client writes to the streams of a request, in whatever pieces
and order, the web server finds it in the response. -/
theorem respond_eq (aligned : Channel → Bool) (conn : Conn) (calls : List Call)
    (accepts : conn.socket.Accepts) (idFits : conn.request.requestId < 65536)
    (open_ : LeavesOpen calls) :
    ∃ close after bytes,
      ((startResponse aligned conn).run calls >>= Exchange.finish) =
        .value (close, after) ∧
      close = (!conn.request.keepConnection || conn.reader.errno != 0) ∧
      after.conn.request = { conn.request with nWriters := 0 } ∧
      Wrote bytes conn.socket after.conn.socket ∧
      Response (startResponse aligned conn)
        (fun channel => writtenTo channel calls) bytes := by
  obtain ⟨sizes, started⟩ := responding_startResponse aligned accepts
  obtain ⟨written, ran, responding⟩ := started.run idFits open_
  obtain ⟨close, after, bytes, finished, closes, data, wrote, response⟩ :=
    finish_eq responding idFits rfl
  refine ⟨close, after, bytes, ?_, closes, data, wrote, ?_⟩
  · rw [ran]
    exact finished
  · simpa only [List.nil_append] using response

/-- A page and a complaint, with a flush in between. -/
def pageCalls : List Call :=
  [.putStr .out (ascii "Status: 200"), .putStr .err (ascii "late"),
    .fFlush .out, .putStr .out (ascii "page")]

theorem page_sent :
    ∃ close after bytes,
      ((startResponse (fun _ => true) ⟨8192, pageSocket,
        { blankData with requestId := 1 }, newReader RecordType.stdin⟩).run
          pageCalls >>= Exchange.finish) = .value (close, after) ∧
      close = true ∧
      after.conn.request = { blankData with requestId := 1 } ∧
      Wrote bytes pageSocket after.conn.socket ∧
      Response (startResponse (fun _ => true) ⟨8192, pageSocket,
        { blankData with requestId := 1 }, newReader RecordType.stdin⟩)
        (fun channel => writtenTo channel pageCalls) bytes :=
  respond_eq (fun _ => true) ⟨8192, pageSocket,
      { blankData with requestId := 1 }, newReader RecordType.stdin⟩ pageCalls
    (fun _ member => absurd member List.not_mem_nil) (by decide)
    (by intro channel; cases channel <;> simp [pageCalls])

/-- A response without error messages is a stream as the library itself would
read it, and the end of the request. -/
theorem Response.stream {start : Exchange} {written : Channel → Bytes}
    {bytes : Bytes} (response : Response start written bytes)
    (named : start.conn.request.requestId ≠ nullRequestId)
    (idFits : start.conn.request.requestId < 65536)
    (quiet : written .err = []) :
    ∃ stream : Stream, stream.type = RecordType.stdout ∧
      stream.id = start.conn.request.requestId ∧
      stream.content = written .out ∧
      bytes = stream.bytes ++ endRequestRecord start.conn.request.requestId
        start.conn.request.appStatus requestComplete := by
  obtain ⟨mixed, last, mixedCarry, lastCarry, outs, errs, whole⟩ :=
    response.records
  have proper : ∀ record ∈ mixed, record.content ≠ [] := by
    intro record member
    obtain ⟨channel, carries⟩ := mixedCarry record member
    exact carries.content
  have carry : ∀ record ∈ mixed ++ last,
      Carries RecordType.stdout start.conn.request.requestId record := by
    intro record member
    rcases List.mem_append.mp member with earlier | later
    · obtain ⟨channel, carries⟩ := mixedCarry record earlier
      cases channel with
      | out => exact carries
      | err =>
          have none := (contentOf_eq_nil proper).mp (errs.trans quiet)
          have marked := List.any_eq_false.mp none record earlier
          rw [carries.type] at marked
          exact absurd (beq_self_eq_true _) marked
    · exact lastCarry record later
  let stop : Record := ⟨RecordType.stdout, start.conn.request.requestId, [], [],
    idFits, Nat.zero_le _, Nat.zero_le _⟩
  refine ⟨⟨RecordType.stdout, start.conn.request.requestId, mixed ++ last, stop,
    named, by decide, ?_, rfl, rfl, rfl⟩, rfl, rfl, ?_, ?_⟩
  · intro record member
    have carries := carry record member
    exact ⟨carries.content, .inl ⟨carries.requestId, carries.type⟩⟩
  · rw [← outs]
    apply List.flatMap_congr
    intro record member
    rw [if_pos (carry record member).requestId,
      if_pos (carry record member).type]
  · rw [whole, if_pos quiet, List.append_nil]
    have ends : stop.bytes = (makeHeader RecordType.stdout
        start.conn.request.requestId 0 0).bytes := rfl
    change _ = (mixed ++ last).flatMap Record.bytes ++ stop.bytes ++ _
    rw [ends, List.flatMap_append]

end DbPager.Fcgx
