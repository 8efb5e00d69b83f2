import Aeon.ClientServer
import Aeon.HttpRequest

/-!
# The HTTP server

What the handlers of the HTTP server do with a client, and what `poll`, `start` and
`stop` do with all of them.  The calls of the handlers come in any order that an event
set can bring about.
-/

namespace Aeon.Http

open Search

structure Limits where
  maxClients : ℕ := 128
  maxHeaderBytes : ℕ := 8192
  maxQueuedBytes : UInt64 := 128 * 1024
  idleTimeoutMs : Int := 30000
  deriving DecidableEq, Repr

def reason (status : ℕ) : List UInt8 :=
  match status with
  | 200 => ascii "OK"
  | 400 => ascii "Bad Request"
  | 404 => ascii "Not Found"
  | 405 => ascii "Method Not Allowed"
  | 408 => ascii "Request Timeout"
  | 413 => ascii "Content Too Large"
  | 431 => ascii "Request Header Fields Too Large"
  | 501 => ascii "Not Implemented"
  | 505 => ascii "HTTP Version Not Supported"
  | _ => ascii "Internal Server Error"

/-- What `send_response` is given besides the peer. -/
structure Response where
  status : ℕ
  type : List UInt8 := ascii "text/plain; charset=utf-8"
  body : List UInt8
  head : Bool := false
  close : Bool := true
  allowHeader : Bool := false
  http10 : Bool := false
  deriving DecidableEq, Repr

namespace Response

def statusLine (r : Response) : List UInt8 :=
  (if r.http10 then ascii "HTTP/1.0 " else ascii "HTTP/1.1 ") ++
    (Decimal.text r.status ++ ([32] ++ (reason r.status ++ crlf)))

def text (r : Response) : List UInt8 :=
  r.statusLine ++
    (ascii "Content-Type: " ++ r.type ++ crlf ++
      (ascii "Content-Length: " ++ Decimal.text r.body.length ++ crlf ++
        (ascii "Connection: " ++ (if r.close then ascii "close" else ascii "keep-alive") ++ crlf ++
          ((if r.allowHeader then ascii "Allow: GET, HEAD" ++ crlf else []) ++
            (crlf ++ if r.head then [] else r.body)))))

end Response

/-- The response that `handle_request` sends. -/
def respondTo (request : ParsedRequest) : Response :=
  if request.error ≠ 0 then
    { status := request.error
      body := reason request.error ++ [10]
      allowHeader := request.error = 405
      http10 := request.http10 }
  else
    let answer (status : ℕ) (type body : List UInt8) : Response :=
      { status, type, body, head := request.head, close := request.close, http10 := request.http10 }
    if request.path = ascii "/" ∨ request.path = ascii "/index.html" then
      answer 200 (ascii "text/html; charset=utf-8")
        (ascii "<html><body><h1>libAeon HTTP example</h1></body></html>\n")
    else if request.path = ascii "/health" then
      answer 200 (ascii "text/plain; charset=utf-8") (ascii "ok\n")
    else answer 404 (ascii "text/plain; charset=utf-8") (ascii "Not Found\n")

def respond (raw : List UInt8) : Response := respondTo (parse raw)

def tooLarge : Response := { status := 431, body := ascii "Request Header Fields Too Large\n" }
def tooMany : Response := { status := 400, body := ascii "Too many pipelined requests\n" }

/-- The peer of the HTTP server, without its socket. -/
structure Peer where
  incoming : List UInt8 := []
  lastActivity : ℕ := 0
  closing : Bool := false
  deriving DecidableEq, Repr

abbrev Record := PeerRecord Peer
abbrev Server := ClientServer Peer

section Handlers

variable (limits : Limits)

def sendResponse (r : Response) (p : Record) : Record :=
  let w := p.conn.queueWrite r.text
  if !w.1 then { p with conn := w.2, retire := true }
  else { p with conn := w.2, data := { p.data with closing := p.data.closing || r.close } }

def handleRequest (raw : List UInt8) (p : Record) : Record := sendResponse (respond raw) p

/-- The loop of `receive`, which handles at most `left` requests more. -/
def receiveLoop : ℕ → Record → Record
  | left, p =>
    if p.retire || p.data.closing then p
    else match find blankLine p.data.incoming with
    | none => if limits.maxHeaderBytes < p.data.incoming.length then sendResponse tooLarge p else p
    | some stop =>
      if limits.maxHeaderBytes < stop + 4 then sendResponse tooLarge p
      else match left with
      | 0 => sendResponse tooMany p
      | left + 1 => receiveLoop left <| handleRequest (p.data.incoming.take (stop + 4))
          { p with data := { p.data with incoming := p.data.incoming.drop (stop + 4) } }

def maxPipelinedPerEvent : ℕ := 32

/-- `receive`, of a peer that `lookup` has found. -/
def receive (now : ℕ) (data : List UInt8) (p : Record) : Record :=
  if p.retire || p.data.closing || data.isEmpty then p
  else
    let p := receiveLoop limits maxPipelinedPerEvent
      { p with data := { p.data with lastActivity := now, incoming := p.data.incoming ++ data } }
    let p := if p.data.closing then { p with data := { p.data with incoming := [] } } else p
    if !p.retire && !p.data.closing && limits.maxHeaderBytes < p.data.incoming.length then
      sendResponse tooLarge p
    else p

def drained (p : Record) : Record := if p.data.closing then { p with retire := true } else p

end Handlers

/-- What one receive of `poll` gives. -/
abbrev Read := { bytes : List UInt8 // bytes.length ≤ Socket.maxBufferSize }

/-- What `poll` comes across.  `arrivals` are the connections that `accept` finds, and
times are in nanoseconds. -/
inductive Event
  | listen (arrivals : List Incoming) (now : ℕ)
  | data (id : ℕ) (bytes : Read) (now : ℕ)
  | eof (id : ℕ)
  | error (id : ℕ)
  | writable (id : ℕ)

inductive Op
  | start (address listens : Bool)
  | poll (events : List Event) (now : ℕ) (throws : Bool)
  | stop

namespace Server

variable (limits : Limits) (h : ℕ → Host)

def acceptReady (arrivals : List Incoming) (now : ℕ) (s : Server) : Server :=
  (arrivals.take 32).foldl (fun s (peer : Incoming) =>
    (s.enroll h limits.maxClients limits.maxQueuedBytes peer { lastActivity := now }).2) s

/-- The event set calls handlers only for what is registered with it. -/
def event (s : Server) : Event → Server
  | .listen arrivals now => acceptReady limits h arrivals now s
  | .data id bytes now =>
    if id ∈ s.registered then (s.receive id bytes).turn id (Http.receive limits now bytes) else s
  | .eof id => if id ∈ s.registered then s.hangUp h id else s
  | .error id => if id ∈ s.registered then s.retire id else s
  | .writable id => if id ∈ s.registered then s.flush h id drained else s

def expired (now : ℕ) (p : Record) : Bool :=
  !p.retire && decide (limits.idleTimeoutMs * 1000000 < (now : Int) - p.data.lastActivity)

/-- The check of `poll` for clients that have sent nothing for too long. -/
def expire (now : ℕ) (s : Server) : Server :=
  if limits.idleTimeoutMs > 0 then
    s.peers.foldl (fun s id => if expired limits now (s.record id) then s.retire id else s) s
  else s

def start (address listens : Bool) (s : Server) : Server :=
  if s.running || s.polling || !address || limits.maxClients = 0 || limits.maxHeaderBytes < 32 ||
    limits.maxQueuedBytes < 256 || limits.idleTimeoutMs < 0 || !listens then s
  else { s.closeOwnedPeers h with running := true }

def poll (events : List Event) (now : ℕ) (throws : Bool) (s : Server) : Server :=
  if !s.running || s.polling then s
  else
    let s : Server := { events.foldl (event limits h) { s with polling := true } with polling := false }
    if throws then s.reap h else (expire limits now s).reap h

def exec (s : Server) : Op → Server
  | .start address listens => start limits h address listens s
  | .poll events now throws => poll limits h events now throws s
  | .stop => s.stop h

def run (ops : List Op) : Server := ops.foldl (exec limits h) (ClientServer.idle {})

end Server

end Aeon.Http
