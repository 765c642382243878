import DbPager.Fcgx.Responses
import DbPager.Daemon

/-!
# A worker and its connections

A worker of the server takes the requests from its connections, one after the
other, and answers each of them on the connection over which it has come.
Over the bytes of the connections the worker does what the loop over requests
does: the web server gets the answer to the request it has sent.
-/

namespace DbPager.Fcgx

open Effect Dbpagerd

/-! ## The loop over connections -/

/-- The text of some bytes. -/
def textOf (bytes : Bytes) : Str :=
  bytes.map fun byte => Char.ofNat byte.toNat

/-- The bytes of a text. -/
def bytesOf (text : Str) : Bytes :=
  text.map fun c => UInt8.ofNat c.toNat

/-- What the support library writes for a response: the status, and the rest
of it.  `malloc` decides how buffers are aligned. -/
structure Wire where
  alignedIn : Bool
  aligned : Channel → Bool
  status : HttpResponse → Str
  print : HttpResponse → Str

/-- A call of the library, which raises no exceptions. -/
def library {σ ε ω α : Type} (result : C α) : Prog σ ε ω α :=
  Prog.act fun state =>
    (state, match result with
      | .value result => .value result
      | .halt reason => .halt reason)

/-- `get_request` at the point where it reads the body from the stream. -/
def readBody (http : HttpApi) (allocates : Nat → Bool) (reading : Reading)
    (conn : Conn) : Outcome Exc (HttpRequest × Conn) :=
  let request := { reading.request with
    processVars := http.mapOrder reading.envVars }
  if 0 < reading.length then
    if Dbpagerd.intMax ≤ reading.length then .halt .fault
    else if allocates (reading.length.toNat + 1) then
      match getStr fillBuffProc reading.length.toNat conn with
      | .value (bytes, conn) =>
          .value ({ request with content := some (textOf bytes) }, conn)
      | .halt reason => .halt reason
    else .error ⟨.std, "std::bad_alloc".toList, 0⟩
  else .value (request, conn)

/-- An entry of the environment block, as a C string. -/
def entryText (entry : Bytes) : Str :=
  textOf (cBytes entry)

/-- `send_response`. -/
def sendResponse (wire : Wire) (response : HttpResponse) : List Call :=
  [.putStr .out (bytesOf ("Status: ".toList ++ wire.status response)),
    .putStr .out (bytesOf "\r\n".toList),
    .putStr .out (bytesOf (wire.print response))]

section Worker

variable {W : Type} (server : Server W) (wire : Wire)

/-- `get_request` on an accepted request. -/
def getRequestFrom (envp : List Bytes) (conn : Conn) :
    Outcome Exc (HttpRequest × Conn) := do
  readBody server.http server.allocates
    (← readLines server.api.dcl server.http ⟨server.http.blank, 0, []⟩
      (envp.map entryText)) conn

/-- The answer to a request, also when an exception leaves
`process_cgi_request`. -/
def answer (request : HttpRequest) : Prog W Failure Dbpagerd.Event HttpResponse :=
  (processCgiRequest server request).tryCatch fun failure =>
    if failure.isStd then
      pure (HttpResponse.new.setMessage 500 failure.what)
    else Prog.throw failure

/-- The body of the loop of `process_request`, and the end of the request:
whether the connection is closed, and what has become of the request. -/
def serveRequest (envp : List Bytes) (conn : Conn) :
    Prog W Failure Socket (Bool × Exchange) := do
  let (request, conn) ← Prog.act fun world =>
    (world, match getRequestFrom server envp conn with
      | .value read => .value read
      | .error exception => .error (.thrown exception)
      | .halt reason => .halt reason)
  let response ← Prog.act fun world =>
    ((answer server request world).state, (answer server request world).outcome)
  library ((startResponse wire.aligned conn).run
    (sendResponse wire response) >>= Exchange.finish)

/-- The loop of `FCGX_Accept_r` over the connections that wait, the first of
which may be open already.  Connections that bring no request are closed. -/
def acceptRequest : List Socket → RequestData →
    Prog W Failure Socket (Option (List Bytes × Conn × List Socket))
  | [], _ => pure none
  | socket :: waiting, data => do
      match ← library (readRequest
        ⟨streamBufflen wire.alignedIn 8192, socket, data, newReader 0⟩) with
      | (some envp, conn) => pure (some (envp, conn, waiting))
      | (none, conn) => do
          Prog.emit [conn.socket]
          acceptRequest waiting conn.request

/-- `process_request`: the connections that wait are served until there are no
more.  What is emitted are the connections that have been closed. -/
def work : Nat → List Socket → RequestData → Prog W Failure Socket Unit
  | 0, _, _ => Prog.halt .timeout
  | fuel + 1, waiting, data => do
      match ← acceptRequest wire waiting data with
      | none => pure ()
      | some (envp, conn, waiting) => do
          let (close, exchange) ← serveRequest server wire envp conn
          if close then do
            Prog.emit [exchange.conn.socket]
            work fuel waiting exchange.conn.request
          else
            work fuel (exchange.conn.socket :: waiting) exchange.conn.request

end Worker

/-! ## One request -/

/-- A request as the worker sees it. -/
def WebRequest.accepted (request : WebRequest) : FcgxRequest where
  envp := request.envp.map entryText
  input := textOf request.stdin.content

section Reading

variable {W : Type} {server : Server W} {request : WebRequest}
  {later : List Bytes} {rest : Bytes} {before : RequestData}
  {socket : Socket} {conn : Conn}

/-- What a worker reads does not touch what it will send. -/
structure Unspoken (request : WebRequest) (before : RequestData)
    (socket : Socket) (conn : Conn) : Prop where
  data : conn.request = begun request.id request.body
    { before with isBeginProcessed := false }
  errno : conn.reader.errno = 0
  sent : conn.socket.sent = socket.sent
  writes : conn.socket.writes = socket.writes

theorem Unspoken.onlyReads (unspoken : Unspoken request before socket conn)
    {next : Conn} (only : OnlyReads conn next) :
    Unspoken request before socket next :=
  ⟨only.request.trans unspoken.data, only.errno.trans unspoken.errno,
    only.sent.trans unspoken.sent, only.writes.trans unspoken.writes⟩

theorem Received.unspoken
    (received : Received request later rest before socket conn) :
    Unspoken request before socket conn :=
  ⟨received.data, received.errno, received.sent, received.writes⟩

/-- The body of a request is read from its records. -/
theorem getStr_received (count : Nat)
    (received : Received request later rest before socket conn) :
    ∃ next, getStr fillBuffProc count conn =
        .value (request.stdin.content.take count, next) ∧
      Unspoken request before socket next := by
  obtain ⟨next, got, behind⟩ := source_stream.getStr_all count
    (fun _ => ends_stream) received.body
  refine ⟨next, got, received.unspoken.onlyReads ?_⟩
  unfold Behind at behind
  by_cases there : count ≤ request.stdin.content.length
  · rw [if_pos there] at behind
    exact behind.onlyReads
  · rw [if_neg there] at behind
    exact behind.onlyReads

/-- `get_request` reads the request the web server has sent. -/
theorem getRequestFrom_eq {http : HttpRequest}
    (received : Received request later rest before socket conn)
    (read : Dbpagerd.getRequest server.api.dcl server.http server.allocates
      request.accepted = .value http) :
    ∃ next, getRequestFrom server request.envp conn = .value (http, next) ∧
      Unspoken request before socket next := by
  unfold Dbpagerd.getRequest at read
  obtain ⟨reading, lines, content⟩ := Outcome.bind_eq_value.mp read
  unfold readContent at content
  have lines' : readLines server.api.dcl server.http ⟨server.http.blank, 0, []⟩
      (request.envp.map entryText) = .value reading := lines
  unfold getRequestFrom readBody
  rw [lines', Outcome.value_bind]
  simp only at content ⊢
  by_cases some_ : 0 < reading.length
  · rw [if_pos some_] at content ⊢
    by_cases large : Dbpagerd.intMax ≤ reading.length
    · rw [if_pos large] at content
      cases content
    · rw [if_neg large] at content ⊢
      by_cases memory : server.allocates (reading.length.toNat + 1) = true
      · rw [if_pos memory] at content ⊢
        obtain ⟨next, got, unspoken⟩ :=
          getStr_received reading.length.toNat received
        refine ⟨next, ?_, unspoken⟩
        rw [got, ← Outcome.value.inj content]
        simp only [WebRequest.accepted, textOf, List.map_take]
      · rw [if_neg memory] at content
        cases content
  · rw [if_neg some_] at content ⊢
    refine ⟨conn, ?_, received.unspoken⟩
    rw [Outcome.value.inj content]

end Reading

/-! ## One response -/

/-- The response is all that the web server gets for its request: a stream as
the library itself would read it, and the end of the request. -/
def Answered (wire : Wire) (status : Nat) (request : WebRequest)
    (response : HttpResponse) (before after : Socket) : Prop :=
  ∃ stream : Stream, stream.type = RecordType.stdout ∧
    stream.id = request.id ∧
    stream.content = bytesOf ("Status: ".toList ++ wire.status response ++
      "\r\n".toList ++ wire.print response) ∧
    after.sent = before.sent ++ stream.bytes ++
      endRequestRecord request.id status requestComplete

section Answering

variable {W : Type} {server : Server W}

theorem answer_silent (server : Server W) (request : HttpRequest) :
    Prog.Silent (answer server request) := by
  apply Prog.Silent.tryCatch (processCgiRequest_silent server request)
  intro failure
  split
  · exact .pure _
  · exact .throw _

/-- A round of the loop over requests that sends a response. -/
theorem serve_value {accepted : FcgxRequest} {world later : W}
    {response : HttpResponse}
    (served : serve server accepted world =
      ⟨later, [.accepted accepted, .sent response], .value ()⟩) :
    ∃ request, Dbpagerd.getRequest server.api.dcl server.http server.allocates
        accepted = .value request ∧
      answer server request world = ⟨later, [], .value response⟩ := by
  by_cases readable : Readable server.api.dcl server.allocates accepted
  · obtain ⟨request, read⟩ :=
      (@getRequest_value server.api.dcl server.http _ _).mpr readable
    refine ⟨request, read, ?_⟩
    rw [serve_read read world] at served
    obtain ⟨middle, _, written, rest, accepts, responds, whole⟩ :=
      Prog.of_bind_value served
    obtain ⟨last, sent, silent, out, answers, sends, others⟩ :=
      Prog.of_bind_value responds
    change answer server request middle = _ at answers
    have quiet := answer_silent server request middle
    rw [answers] at quiet
    cases accepts
    cases sends
    cases quiet
    cases whole.trans (congrArg _ others)
    exact answers
  · have stops := serve_unread world readable
    rw [served] at stops
    exact absurd rfl stops

/-- The worker answers the request on the connection over which it has come. -/
theorem serveRequest_eq (wire : Wire) {request : WebRequest}
    {later : List Bytes} {rest : Bytes} {before : RequestData}
    {socket : Socket} {conn : Conn} (world : W) {final : W} {response : HttpResponse}
    (received : Received request later rest before socket conn)
    (accepts : socket.Accepts)
    (served : serve server request.accepted world =
      ⟨final, [.accepted request.accepted, .sent response], .value ()⟩) :
    ∃ exchange, serveRequest server wire request.envp conn world =
        ⟨final, [], .value (!request.body.keeps, exchange)⟩ ∧
      exchange.conn.request.appStatus = before.appStatus ∧
      Answered wire before.appStatus request response socket
        exchange.conn.socket := by
  obtain ⟨http, read, answers⟩ := serve_value served
  obtain ⟨next, got, unspoken⟩ := getRequestFrom_eq received read
  have accepting : next.socket.Accepts := by
    unfold Socket.Accepts
    rw [unspoken.writes]
    exact accepts
  obtain ⟨close, exchange, bytes, finished, closes, data, wrote, framed⟩ :=
    respond_eq wire.aligned next (sendResponse wire response) accepting
      (by rw [unspoken.data]; exact request.idFits) (by
        intro channel member
        simp [sendResponse] at member)
  have id : (startResponse wire.aligned next).conn.request.requestId =
      request.id := by
    change next.request.requestId = _
    rw [unspoken.data]
    rfl
  obtain ⟨stream, type, streamId, content, whole⟩ := framed.stream
    (id ▸ request.named) (id ▸ request.idFits) rfl
  refine ⟨exchange, ?_, ?_, stream, type, streamId.trans id, ?_, ?_⟩
  · have reads : (Prog.act fun world => (world,
        match getRequestFrom server request.envp conn with
        | .value read => .value read
        | .error exception => .error (.thrown exception)
        | .halt reason => .halt reason) :
          Prog W Failure Socket (HttpRequest × Conn)) world =
            ⟨world, [], .value (http, next)⟩ := by
      rw [got]
      rfl
    have replies : (Prog.act fun world =>
        ((answer server http world).state, (answer server http world).outcome) :
          Prog W Failure Socket HttpResponse) world =
            ⟨final, [], .value response⟩ := by
      change Run.mk (answer server http world).state []
        (answer server http world).outcome = _
      rw [answers]
    unfold serveRequest
    rw [Prog.bind_silent reads]
    change (_ >>= fun response => library ((startResponse wire.aligned next).run
      (sendResponse wire response) >>= Exchange.finish)) world = _
    rw [Prog.bind_silent replies, finished, closes, unspoken.errno,
      unspoken.data]
    simp [library, Prog.act, begun]
  · rw [data, unspoken.data]
    rfl
  · rw [content]
    simp [writtenTo, sendResponse, bytesOf]
  · have status : (startResponse wire.aligned next).conn.request.appStatus =
        before.appStatus := by
      change next.request.appStatus = _
      rw [unspoken.data]
      rfl
    rw [wrote.sent, whole, id, status, unspoken.sent, List.append_assoc]

end Answering

/-! ## The connections of a worker -/

/-- A connection that brings one request, in whatever pieces, and takes what is
written to it. -/
structure Visit where
  request : WebRequest
  socket : Socket
  rest : Bytes
  brings : Brings request [] rest socket
  accepts : socket.Accepts
  single : request.body.keeps = false

/-- A connection that brings no request. -/
def Refused (wire : Wire) (socket : Socket) : Prop :=
  ∀ data : RequestData, ∃ conn,
    readRequest ⟨streamBufflen wire.alignedIn 8192, socket, data,
      newReader 0⟩ = .value (none, conn) ∧
    conn.request.appStatus = data.appStatus

/-- What waits for a worker. -/
inductive Connection (wire : Wire) where
  | visit (visit : Visit)
  | refused (socket : Socket) (refused : Refused wire socket)

def Connection.socket {wire : Wire} : Connection wire → Socket
  | .visit first => first.socket
  | .refused socket _ => socket

/-- The requests that come over some connections. -/
def requestsOf {wire : Wire} : List (Connection wire) → List FcgxRequest
  | [] => []
  | .visit first :: connections =>
      first.request.accepted :: requestsOf connections
  | .refused _ _ :: connections => requestsOf connections

/-- What becomes of the connections when their requests get the responses. -/
inductive Closes (wire : Wire) (status : Nat) :
    List (Connection wire) → List HttpResponse → List Socket → Prop
  | nil : Closes wire status [] [] []
  | visit {connections responses closed response socket} {visit : Visit}
      (answered : Answered wire status visit.request response visit.socket
        socket) (others : Closes wire status connections responses closed) :
      Closes wire status (.visit visit :: connections)
        (response :: responses) (socket :: closed)
  | refused {connections responses closed} {before socket}
      {refused : Refused wire before}
      (others : Closes wire status connections responses closed) :
      Closes wire status (.refused before refused :: connections) responses
        (socket :: closed)

/-- A connection that is closed at once brings no request. -/
theorem refused_idle (wire : Wire) {socket : Socket}
    (idle : socket.arrivals = []) : Refused wire socket := by
  intro data
  let start : Conn := ⟨streamBufflen wire.alignedIn 8192, socket,
    { data with isBeginProcessed := false }, newReader 0⟩
  have failed : fillBuffProc start =
      .value (start.setError (socket.readError.getD protocolError)) := by
    unfold fillBuffProc fillLoop refill Socket.read
    simp only [start, newReader, idle, List.isEmpty_nil, if_true]
  refine ⟨start.setError (socket.readError.getD protocolError), ?_, rfl⟩
  unfold readRequest
  change (fillBuffProc start >>= _) = _
  rw [failed]
  rfl

section Loop

variable {W : Type} {server : Server W} {wire : Wire}

theorem work_succ (fuel : Nat) (waiting : List Socket) (data : RequestData) :
    work server wire (fuel + 1) waiting data =
      acceptRequest wire waiting data >>= fun
        | none => pure ()
        | some (envp, conn, waiting) =>
            serveRequest server wire envp conn >>= fun served =>
              if served.1 then
                Prog.emit [served.2.conn.socket] >>= fun _ =>
                  work server wire fuel waiting served.2.conn.request
              else
                work server wire fuel (served.2.conn.socket :: waiting)
                  served.2.conn.request := by
  rw [work]

/-- A connection that brings no request is closed, and the worker goes on with
the next one. -/
theorem work_refused (server : Server W) {socket : Socket}
    (waiting : List Socket) (data : RequestData) (fuel : Nat)
    (refused : Refused wire socket) :
    ∃ conn : Conn, conn.request.appStatus = data.appStatus ∧
      work server wire (fuel + 1) (socket :: waiting) data =
        Prog.emit [conn.socket] >>= fun _ =>
          work server wire (fuel + 1) waiting conn.request := by
  obtain ⟨conn, ran, status⟩ := refused data
  refine ⟨conn, status, ?_⟩
  have closes : (acceptRequest wire (socket :: waiting) data :
      Prog W Failure Socket _) = Prog.emit [conn.socket] >>= fun _ =>
        acceptRequest wire waiting conn.request := by
    rw [acceptRequest, ran]
    rfl
  rw [work_succ, work_succ, closes, Prog.bind_assoc]

/-- A connection that brings a request is closed when the request has been
answered. -/
theorem work_visit (wire : Wire) (visit : Visit) (waiting : List Socket)
    (data : RequestData) {world middle : W} {response : HttpResponse} (fuel : Nat)
    (served : serve server visit.request.accepted world =
      ⟨middle, [.accepted visit.request.accepted, .sent response],
        .value ()⟩) :
    ∃ (after : RequestData) (socket : Socket), after.appStatus = data.appStatus ∧
      Answered wire data.appStatus visit.request response visit.socket socket ∧
      work server wire (fuel + 1) (visit.socket :: waiting) data world =
        (Prog.emit [socket] >>= fun _ => work server wire fuel waiting after)
          middle := by
  obtain ⟨conn, accepted, received⟩ := readRequest_eq visit.request data
    (newReader 0) visit.brings (lt_of_lt_of_le (by decide)
      (streamBufflen_spec wire.alignedIn 8192).2.1)
  obtain ⟨exchange, ran, status, answered⟩ := serveRequest_eq wire
    world received visit.accepts served
  refine ⟨exchange.conn.request, exchange.conn.socket, status, answered, ?_⟩
  have accepts : (acceptRequest wire (visit.socket :: waiting) data :
      Prog W Failure Socket _) world =
        ⟨world, [], .value (some (visit.request.envp, conn, waiting))⟩ := by
    unfold acceptRequest
    rw [accepted]
    rfl
  rw [work_succ, Prog.bind_silent accepts]
  simp only
  rw [Prog.bind_silent ran, visit.single]
  rfl

/-- The first request of a loop that returns has been answered, and so have
the others after it. -/
theorem first_served {first : FcgxRequest} {others : List FcgxRequest}
    {world final : W} {response : HttpResponse} {out : List Dbpagerd.Event}
    (served : processRequest server (first :: others) world =
      ⟨final, .accepted first :: .sent response :: out, .value ()⟩) :
    ∃ middle, serve server first world =
        ⟨middle, [.accepted first, .sent response], .value ()⟩ ∧
      processRequest server others middle = ⟨final, out, .value ()⟩ := by
  obtain ⟨middle, _, written, rest, here, later, whole⟩ :=
    Prog.of_bind_value (show (serve server first >>= fun _ =>
      processRequest server others) world = _ from served)
  rcases @serve_iff W server first world with
    ⟨-, after, sent, ran⟩ | ⟨-, stopped⟩
  · rw [ran] at here
    cases here
    cases whole
    exact ⟨_, ran, later⟩
  · rw [here] at stopped
    exact absurd rfl stopped

/-- The requests are answered one after the other, each one in the world the
requests before it have left. -/
inductive AnswersEach (server : Server W) :
    List FcgxRequest → List HttpResponse → W → W → Prop
  | nil {world} : AnswersEach server [] [] world world
  | cons {first response others responses world middle final}
      (here : serve server first world =
        ⟨middle, [.accepted first, .sent response], .value ()⟩)
      (later : AnswersEach server others responses middle final) :
      AnswersEach server (first :: others) (response :: responses) world final

theorem answersEach_of_processRequest {requests : List FcgxRequest}
    {responses : List HttpResponse} {world final : W}
    (each : responses.length = requests.length)
    (served : processRequest server requests world =
      ⟨final, (requests.zip responses).flatMap fun exchange =>
        [.accepted exchange.1, .sent exchange.2], .value ()⟩) :
    AnswersEach server requests responses world final := by
  induction requests generalizing responses world with
  | nil =>
      cases responses with
      | cons response responses => cases each
      | nil =>
          cases served
          exact .nil
  | cons first others induction =>
      cases responses with
      | nil => cases each
      | cons response responses =>
          obtain ⟨middle, here, later⟩ := first_served served
          exact .cons here (induction (Nat.succ.inj each) later)

/-- A worker closes every connection when it has answered its request. -/
theorem work_closes {fuel : Nat} (connections : List (Connection wire))
    {data : RequestData} {world final : W} {responses : List HttpResponse}
    (enough : (requestsOf connections).length < fuel)
    (answers : AnswersEach server (requestsOf connections) responses world
      final) :
    ∃ closed, work server wire fuel (connections.map Connection.socket) data
        world = ⟨final, closed, .value ()⟩ ∧
      Closes wire data.appStatus connections responses closed := by
  induction connections generalizing fuel data world responses with
  | nil =>
      cases fuel with
      | zero => exact absurd enough (Nat.not_lt_zero _)
      | succ fuel =>
          cases answers
          exact ⟨[], rfl, .nil⟩
  | cons connection connections induction =>
      cases fuel with
      | zero => exact absurd enough (Nat.not_lt_zero _)
      | succ fuel =>
          cases connection with
          | refused socket refused =>
              obtain ⟨conn, status, closes⟩ := work_refused server
                (connections.map Connection.socket) data fuel refused
              obtain ⟨closed, ran, others⟩ :=
                @induction (fuel + 1) conn.request world responses enough answers
              rw [status] at others
              refine ⟨conn.socket :: closed, ?_, .refused others⟩
              change work server wire (fuel + 1)
                (socket :: connections.map Connection.socket) data world = _
              rw [closes, Prog.bind_eq (rfl : Prog.emit [conn.socket] world = _),
                ran]
              rfl
          | visit visit =>
              cases answers with
              | @cons _ response _ responses _ middle _ here later =>
                  obtain ⟨after, socket, status, answered, works⟩ :=
                    work_visit wire visit
                      (connections.map Connection.socket) data fuel here
                  obtain ⟨closed, ran, others⟩ := @induction fuel after
                    middle responses (Nat.lt_of_succ_lt_succ enough) later
                  rw [status] at others
                  refine ⟨socket :: closed, ?_, .visit answered others⟩
                  change work server wire (fuel + 1)
                    (visit.socket :: connections.map Connection.socket) data
                    world = _
                  rw [works, Prog.bind_eq (rfl : Prog.emit [socket] middle = _),
                    ran]
                  rfl

/-- The worker over its connections does what the loop over requests does: the
web server gets the answer to each request on the connection over which it has
sent it. -/
theorem work_eq {fuel : Nat} (connections : List (Connection wire))
    {data : RequestData} {world final : W} {responses : List HttpResponse}
    (enough : (requestsOf connections).length < fuel)
    (each : responses.length = (requestsOf connections).length)
    (served : processRequest server (requestsOf connections) world =
      ⟨final, ((requestsOf connections).zip responses).flatMap fun exchange =>
        [.accepted exchange.1, .sent exchange.2], .value ()⟩) :
    ∃ closed, work server wire fuel (connections.map Connection.socket) data
        world = ⟨final, closed, .value ()⟩ ∧
      Closes wire data.appStatus connections responses closed := by
  have answers : AnswersEach server (requestsOf connections) responses world
      final := answersEach_of_processRequest each served
  exact work_closes connections enough answers

end Loop

def plainWire : Wire where
  alignedIn := true
  aligned _ := true
  status _ := "200".toList
  print response := "\r\n".toList ++ response.content

def pageVisit : Visit where
  request := pageRequest
  socket := pageSocket
  rest := []
  brings := pageSocket_brings
  accepts := fun _ member => absurd member List.not_mem_nil
  single := rfl

/-- A connection that is closed without a request. -/
def idleSocket : Socket :=
  { pageSocket with arrivals := [] }

/-- What a script that greets leads to. -/
def greetingResponse : HttpResponse :=
  { HttpResponse.new.setHeader "X-Powered-By".toList
      "dbpager (FastCGI)".toList with
    contentType := "text/plain".toList
    content := "hello".toList }

theorem page_answered :
    ∃ closed, work plainServer plainWire 2 [idleSocket, pageSocket] blankData
        () = ⟨(), closed, .value ()⟩ ∧
      Closes plainWire 0 [.refused idleSocket (refused_idle plainWire rfl),
        .visit pageVisit] [greetingResponse] closed :=
  work_eq [.refused idleSocket (refused_idle plainWire rfl), .visit pageVisit]
    (by decide) rfl rfl

end DbPager.Fcgx
