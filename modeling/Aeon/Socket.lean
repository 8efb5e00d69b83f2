import Aeon.Address

/-!
# The base socket object

`Socket` holds the fields of the base class that its operations read or write.
Each native call takes its answer from a `Host`: the answer numbered `tick`,
where `tick` counts the native calls made on the object so far.  Quantifying
over hosts is quantifying over everything the operating system may answer.
-/

namespace Aeon

/-- Which producer a TLS record comes from. -/
inductive Origin
  | queued | direct
  deriving DecidableEq, Repr

/-- The two functions that call `SSL_shutdown`. -/
inductive ShutdownCaller
  | pollStep | close
  deriving DecidableEq, Repr

/-- The notifications of event sockets and event sets, with what they pass on. -/
inductive Notice
  | data (bytes : List UInt8)
  | connect
  | close
  | listen
  | error (code : Int)
  | drain
  | write (bytes : List UInt8) (sent : Int)
  | datagram (bytes : List UInt8) (sender : Sockaddr)
  deriving DecidableEq, Repr

inductive SslCode
  | none | wantRead | wantWrite | zeroReturn | other
  deriving DecidableEq, Repr

/-- The return value of an OpenSSL call and what `SSL_get_error` says of it. -/
structure SslResult where
  ret : Int
  code : SslCode := .none
  data : List UInt8 := []
  deriving DecidableEq, Repr

def SslResult.wants (r : SslResult) : Bool :=
  r.ret ≤ 0 && (r.code == .wantRead || r.code == .wantWrite)

/-- What an object did to its descriptor, to OpenSSL, to its queue and to its
handlers, in order.  TLS events carry the number of the session.  An `SSL_write`
also records whether it was a retry and how many queued bytes a direct one
found waiting, and an `SSL_read` or `SSL_shutdown` the retry that was outstanding.
The answers of a handshake and of a shutdown are recorded where a nonblocking socket
looks at them.
`sslVerify` is the identity that a session was told to verify, if any, and
`verifyMode` whether an application asked for verification.
`reopened` is a descriptor that is open although `close` has just made room for
a new one. -/
inductive Event
  | opened (fd : ℕ)
  | closed (fd : ℕ)
  | reopened (fd : ℕ)
  | recv (fd : ℕ)
  | send (fd : ℕ)
  | configured (fd : ℕ) (family : Family) (blocking : Bool)
  | bound (fd : ℕ)
  | received (fd : ℕ) (sender : Sockaddr)
  | sslNew (id : ℕ)
  | sslFree (id : ℕ)
  | verifyMode (session : Option ℕ) (strict : Bool)
  | sslVerify (session : Option ℕ) (identity : Option String)
  | handshake (id : ℕ) (done strict verified : Bool) (answer : Option SslResult)
  | sslRead (id : ℕ) (result : SslResult) (directRetry : Bool)
  | sslWrite (id : ℕ) (origin : Origin) (data : List UInt8) (result : SslResult) (retry : Bool)
      (waiting : ℕ)
  | retryRejected (origin : Origin)
  | sslShutdown (id : ℕ) (caller : ShutdownCaller) (outstanding : ℕ) (answer : Option SslResult)
  | accepted (session : Option ℕ) (data : List UInt8)
  | discarded (session : Option ℕ)
  | notify (session : Option ℕ) (notice : Notice)
  deriving DecidableEq, Repr

/-- The answers of the operating system to the native calls of one object: an
error number where the call gives nothing else, and zero for success.  `recv` is
also given the room there is for what it receives. -/
structure Host where
  socket : ℕ → Option ℕ
  close : ℕ → ℕ
  fcntl : ℕ → ℕ
  setsockopt : ℕ → ℕ
  connect : ℕ → ℕ
  bind : ℕ → ℕ
  listen : ℕ → ℕ
  accept : ℕ → Option ℕ × ℕ
  select : ℕ → IoResult
  getsockopt : ℕ → IoResult
  recv : ℕ → ℕ → IoResult × List UInt8
  send : ℕ → IoResult
  getaddrinfo : ℕ → Option (List Family)
  inetPton : Family → String → Bool
  now : ℕ → ℕ

/-- A host on which every native call succeeds and hands out descriptor 3. -/
def Host.steady : Host where
  socket _ := some 3
  close _ := 0
  fcntl _ := 0
  setsockopt _ := 0
  connect _ := 0
  bind _ := 0
  listen _ := 0
  accept _ := (some 4, 0)
  select _ := ⟨1, 0⟩
  getsockopt _ := ⟨0, 0⟩
  recv _ _ := (⟨0, 0⟩, [])
  send _ := ⟨1, 0⟩
  getaddrinfo _ := some [.inet]
  inetPton family ip := family = .inet ∧ ip = "127.0.0.1"
  now _ := 0

structure Socket where
  sockfd : Option ℕ := none
  n : Int := 0
  connected : Bool := false
  blocking : Bool := true
  netFamily : Family := .inet
  port : Int := 0
  hostname : String := ""
  errorCode : Int := errNone
  errorState : ℕ := 0
  readTimeoutMs : Int := 0
  writeTimeoutMs : Int := 0
  connectTimeoutMs : Int := 0
  tick : ℕ := 0
  log : List Event := []
  deriving DecidableEq, Repr

namespace Socket

def isValidSocket (s : Socket) : Bool := s.sockfd.isSome

def setError (code : Int) (s : Socket) : Socket := { s with errorCode := code }

/-- `error_code` and `error_state` together, as most failing paths set them. -/
def fail (code : Int) (state : ℕ) (s : Socket) : Socket :=
  { s with errorCode := code, errorState := state }

def record (e : Event) (s : Socket) : Socket := { s with log := s.log ++ [e] }

def ticked (s : Socket) : Socket := { s with tick := s.tick + 1 }

/-- `socket()`, whose native answers are numbered from `tick` on. -/
def construct (h : Host) (tick : ℕ) : Socket :=
  match h.socket tick with
  | none => { tick := tick + 1, errorCode := errNoSocket, errorState := stateCreate }
  | some fd =>
    let s : Socket := { sockfd := some fd, tick := tick + 2, log := [.opened fd] }
    if h.fcntl (tick + 1) ≠ 0 then s.fail errNoSocket stateCreate else s

/-- `socket(existing_fd, true)`. -/
def adopt (h : Host) (tick : ℕ) (fd : ℕ) : Socket :=
  let s : Socket := { sockfd := some fd, connected := true, tick := tick + 1 }
  if h.fcntl tick ≠ 0 then s.fail errNoSocket stateCreate else s

/-- Ownership is given up before the native call, whatever that call answers. -/
def close (h : Host) (s : Socket) : Bool × Socket :=
  match s.sockfd with
  | none => (false, s)
  | some owned =>
    let err := h.close s.tick
    let s := ({ s with sockfd := none, connected := false }.ticked).record (.closed owned)
    if err ≠ 0 then (false, s.setError (translateNativeError err)) else (true, s)

def setBlocking (h : Host) (flag : Bool) (s : Socket) : Bool × Socket :=
  if !s.isValidSocket then (false, s.fail errNoSocket stateCreate)
  else
    let err := h.fcntl s.tick
    if err ≠ 0 then (false, s.ticked.fail (translateNativeError err) stateCreate)
    else (true, { s.ticked with blocking := flag, errorCode := errNone })

def setReadTimeout (timeoutMs : Int) (s : Socket) : Bool × Socket :=
  if timeoutMs < 0 then (false, s.setError errInvalidArgument)
  else (true, { s with readTimeoutMs := timeoutMs, errorCode := errNone })

def setWriteTimeout (timeoutMs : Int) (s : Socket) : Bool × Socket :=
  if timeoutMs < 0 then (false, s.setError errInvalidArgument)
  else (true, { s with writeTimeoutMs := timeoutMs, errorCode := errNone })

def setConnectTimeout (timeoutMs : Int) (s : Socket) : Bool × Socket :=
  if timeoutMs < 0 then (false, s.setError errInvalidArgument)
  else (true, { s with connectTimeoutMs := timeoutMs, errorCode := errNone })

/-- `set_so_reuseaddr` and `set_ipv6_v6only`: one `setsockopt` call. -/
def setOption (h : Host) (s : Socket) : Bool × Socket :=
  if !s.isValidSocket then (false, s.fail errNoSocket stateCreate)
  else
    let err := h.setsockopt s.tick
    if err ≠ 0 then (false, s.ticked.fail (translateNativeError err) stateCreate)
    else (true, s.ticked.setError errNone)

end Socket

/-- The public setters of the base class. -/
inductive PlainSetter
  | blocking (flag : Bool)
  | readTimeout (timeoutMs : Int)
  | writeTimeout (timeoutMs : Int)
  | connectTimeout (timeoutMs : Int)
  | option

def PlainSetter.run (h : Host) : PlainSetter → Socket → Bool × Socket
  | .blocking flag => Socket.setBlocking h flag
  | .readTimeout timeoutMs => Socket.setReadTimeout timeoutMs
  | .writeTimeout timeoutMs => Socket.setWriteTimeout timeoutMs
  | .connectTimeout timeoutMs => Socket.setConnectTimeout timeoutMs
  | .option => Socket.setOption h

namespace Socket

@[simp] theorem close_sockfd (h : Host) (s : Socket) : (s.close h).2.sockfd = none := by
  unfold close
  cases hs : s.sockfd with
  | none => exact hs
  | some fd => dsimp only; split <;> rfl

theorem close_none {h : Host} {s : Socket} (hs : s.sockfd = none) : s.close h = (false, s) := by
  rw [close, hs]

theorem close_log {h : Host} {s : Socket} {fd : ℕ} (hs : s.sockfd = some fd) :
    (s.close h).2.log = s.log ++ [.closed fd] := by
  unfold close
  rw [hs]
  dsimp only
  split <;> rfl

/-- The connection is the same, and native calls may have been answered. -/
structure Beside (s t : Socket) : Prop where
  log : t.log = s.log
  sockfd : t.sockfd = s.sockfd
  connected : t.connected = s.connected
  tick : s.tick ≤ t.tick

theorem Beside.trans {s t u : Socket} (h : s.Beside t) (h' : t.Beside u) : s.Beside u :=
  ⟨h'.log.trans h.log, h'.sockfd.trans h.sockfd, h'.connected.trans h.connected, h.tick.trans h'.tick⟩

/-- A function of the base object that leaves its connection alone. -/
def Aside (f : Socket → Socket) : Prop := ∀ s : Socket, s.Beside (f s)

theorem aside_setBlocking (h : Host) (flag : Bool) :
    Aside fun s => (s.setBlocking h flag).2 := by
  intro s
  unfold setBlocking
  dsimp only
  split
  · exact ⟨rfl, rfl, rfl, le_rfl⟩
  · split <;> exact ⟨rfl, rfl, rfl, Nat.le_succ _⟩

theorem aside_run (h : Host) (setter : PlainSetter) : Aside fun s => (setter.run h s).2 := by
  intro s
  cases setter with
  | blocking flag => exact aside_setBlocking h flag s
  | readTimeout timeoutMs =>
    simp only [PlainSetter.run, setReadTimeout]
    split <;> exact ⟨rfl, rfl, rfl, le_rfl⟩
  | writeTimeout timeoutMs =>
    simp only [PlainSetter.run, setWriteTimeout]
    split <;> exact ⟨rfl, rfl, rfl, le_rfl⟩
  | connectTimeout timeoutMs =>
    simp only [PlainSetter.run, setConnectTimeout]
    split <;> exact ⟨rfl, rfl, rfl, le_rfl⟩
  | option =>
    simp only [PlainSetter.run, setOption]
    split
    · exact ⟨rfl, rfl, rfl, le_rfl⟩
    · split <;> exact ⟨rfl, rfl, rfl, Nat.le_succ _⟩

end Socket

end Aeon
