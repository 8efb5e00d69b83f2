import Aeon.Resolver
import Aeon.SslClient

/-!
# The blocking TLS socket and its sessions

`ssl_socket` and `ssl_client_socket` once more, with what becomes of each `SSL`
object: its number, the descriptor that it is attached to, what it has been told
to verify and what it reports.  The creations, uses and frees of `SSL` objects
are in the history of the object.
-/

namespace Aeon

/-- The resolver gives addresses. -/
structure SslHost extends SslClientHost where
  addresses : ℕ → String → Option (List Sockaddr)
  resolves : ∀ tick name,
    resolve tick name = ((addresses tick name).bind Resolver.resolveInternal).map Sockaddr.family
  sslAccept : ℕ → Int
  inetNtop : Family → List UInt8 → String

/-- A host on which every call succeeds at once, and no name is known. -/
def SslHost.steady : SslHost where
  toTlsHost := .steady
  resolve _ _ := none
  sslConnect _ := 1
  sslErrorSyscall _ := false
  addresses _ _ := none
  resolves _ _ := rfl
  sslAccept _ := 1
  inetNtop _ _ := ""

/-- An `SSL` object.  `identity` is what it verifies the peer against, if it
verifies; `finished` is `SSL_is_init_finished`, and `verified` whether
`SSL_get_verify_result` is `X509_V_OK`. -/
structure SslSession (κ : Type) where
  id : ℕ
  carried : κ
  fd : Option ℕ := none
  identity : Option String := none
  finished : Bool := false
  verified : Bool := false

/-- `SSL_set_fd`. -/
def SslSession.attach {κ : Type} (fd : Option ℕ) (s : SslSession κ) : SslSession κ := { s with fd := fd }

def SslSession.verifyAgainst {κ : Type} (identity : String) (s : SslSession κ) : SslSession κ :=
  { s with identity := some identity }

/-- `made` counts the `SSL` objects of the socket, and `linked` is the address that
the descriptor has been connected to. -/
structure SslSocket (κ : Type) extends Socket where
  ctx : Option ℕ := none
  ownsCtx : Bool := false
  session : Option (SslSession κ) := none
  made : ℕ := 0
  linked : Option Sockaddr := none
  certFile : String := ""
  keyFile : String := ""
  verifyMode : SslVerifyMode := .strict
  allowSelfSigned : Bool := false
  requestedHost : String := ""
  portNum : Int := 0

variable {κ : Type}

namespace SslSocket

variable (o : CredentialStore κ) (h : SslHost)

def onSocket (f : Socket → Socket) (c : SslSocket κ) : SslSocket κ := { c with toSocket := f c.toSocket }

def setError (code : Int) (c : SslSocket κ) : SslSocket κ := c.onSocket (Socket.setError code)

def record (ev : Event) (c : SslSocket κ) : SslSocket κ := c.onSocket (Socket.record ev)

/-- `ssl_socket(shared_ctx)`: a context of the socket's own, if `SSL_CTX_new` gives
one, or a shared one.  The base is given the type `SOCK_STREAM` for its family, which is
that of `AF_UNIX`. -/
def construct (tick : ℕ) (ctx : Option ℕ) (owns : Bool) : SslSocket κ :=
  let base := { Socket.construct h.toHost tick with netFamily := .other }
  { toSocket := if ctx.isNone then base.setError errNoSocket else base, ctx := ctx
    ownsCtx := owns && ctx.isSome }

/-- `ssl_socket(accepted_fd, server_ctx)`. -/
def adopt (tick fd : ℕ) (ctx : Option ℕ) : SslSocket κ :=
  { toSocket := Socket.adopt h.toHost tick fd, ctx := ctx, verifyMode := .off }

def newSession (held : κ) (c : SslSocket κ) : SslSocket κ :=
  { c with session := some ⟨c.made, held, none, none, false, false⟩, made := c.made + 1 }.record
    (.sslNew c.made)

/-- `SSL_free`, if there is an `SSL` object. -/
def freeSession (c : SslSocket κ) : SslSocket κ :=
  match c.session with
  | none => c
  | some s => { c with session := none }.record (.sslFree s.id)

/-- The one `SSL_shutdown` of `close`, whose answer is not looked at. -/
def sendAlert (c : SslSocket κ) : SslSocket κ :=
  match c.session with
  | none => c
  | some s => if c.isValidSocket && s.finished then c.record (.sslShutdown s.id .close 0 none) else c

/-- `socket::close`. -/
def closeBase (c : SslSocket κ) : Bool × SslSocket κ :=
  ((c.toSocket.close h.toHost).1,
    { c with toSocket := (c.toSocket.close h.toHost).2, linked := none })

/-- `ssl_socket::close`. -/
def close (c : SslSocket κ) : Bool × SslSocket κ := c.sendAlert.freeSession.closeBase h

def setCertificateFile (path : Option String) (c : SslSocket κ) : Int × SslSocket κ :=
  match path with
  | none => (sslError, c.setError sslError)
  | some path => (errNone, { c with certFile := path })

def setPrivateKeyFile (path : Option String) (c : SslSocket κ) : Int × SslSocket κ :=
  match path with
  | none => (sslError, c.setError sslError)
  | some path => (errNone, { c with keyFile := path })

def setCaFile (path : Option String) (c : SslSocket κ) : Int × SslSocket κ :=
  match path with
  | none => (sslError, c.setError sslError)
  | some _ =>
    if c.ctx.isNone then (sslErrorInit, c.setError sslErrorInit)
    else
      let loaded := h.loadVerifyLocations c.tick
      let c := c.onSocket Socket.ticked
      if !loaded then (sslErrorCert, c.setError sslErrorCert) else (errNone, c)

/-- What the `SSL` object is told to verify. -/
def verifyAgainst (identity : String) (c : SslSocket κ) : SslSocket κ :=
  { c with session := c.session.map (.verifyAgainst identity) }.record
    (.sslVerify (c.session.map SslSession.id) (some identity))

/-- The settings of the connection, which leave the context alone. -/
def configureVerification (identity : String) (c : SslSocket κ) : Int × SslSocket κ :=
  let numeric := isNumericIp h.toHost identity
  if c.verifyMode = .strict then
    if identity.isEmpty then (sslErrorCert, c.setError sslErrorCert)
    else
      let set := h.setVerifyIdentity c.tick
      let ok := set && (numeric || h.setTlsextHostName (c.tick + 1))
      let c := if set then c.verifyAgainst identity else c
      let c := c.onSocket fun s => s.ticked.ticked
      if !ok then (sslErrorCert, c.setError sslErrorCert) else (errNone, c)
  else if identity.isEmpty || numeric then (errNone, c)
  else
    let ok := h.setTlsextHostName c.tick
    let c := c.onSocket Socket.ticked
    if !ok then (sslErrorInit, c.setError sslErrorInit) else (errNone, c)

/-- The files and the settings of the socket, for a new `SSL` object. -/
def configureSession (identity : String) (held : κ) (c : SslSocket κ) :
    Int × SslSocket κ × Option κ :=
  match CredentialStore.load o.useCertificateFile c.certFile held with
  | none => (sslErrorCert, c.setError sslErrorCert, some held)
  | some certified =>
    match CredentialStore.load o.usePrivateKeyFile c.keyFile certified with
    | none => (sslErrorKey, c.setError sslErrorKey, some certified)
    | some loaded =>
      let r := c.configureVerification h identity
      (r.1, r.2, some loaded)

/-- `setup_ssl`, with the credentials of the context before and after. -/
def setupSsl (identity : String) (c : SslSocket κ) (store : Option κ) :
    Int × SslSocket κ × Option κ :=
  match store with
  | none => (sslErrorInit, c.setError sslErrorInit, none)
  | some held =>
    let c := c.freeSession
    let made := h.sslNew c.tick
    let attached := h.sslSetFd (c.tick + 1)
    let c := c.onSocket fun s => s.ticked.ticked
    if !made then (sslErrorInit, c.setError sslErrorInit, some held)
    else
      let c := c.newSession held
      if !attached then (sslErrorInit, (c.setError sslErrorInit).freeSession, some held)
      else
        { c with session := c.session.map (.attach c.sockfd) }.configureSession o h identity held

/-- What the `SSL` object reports after its handshake. -/
def shaken (done strict verified : Bool) (c : SslSocket κ) : SslSocket κ :=
  match c.session with
  | none => c
  | some s => { c with session := some { s with finished := done, verified := verified } }.record
      (.handshake s.id done strict verified none)

def performHandshake (c : SslSocket κ) : Int × SslSocket κ :=
  if c.session.isNone then (sslErrorInit, c.setError sslErrorInit)
  else
    let ret := h.sslConnect c.tick
    let syscall := h.sslErrorSyscall c.tick
    let verified := h.verifyOk (c.tick + 1)
    let strict := c.verifyMode == .strict
    let c := (c.onSocket fun s => s.ticked.ticked).shaken (ret = 1) strict verified
    let rejected := strict && !verified
    if ret ≠ 1 then
      let code := if rejected then sslErrorCert else if syscall then errNoSocket
        else sslErrorHandshake
      (code, c.setError code)
    else if rejected then (sslErrorCert, c.setError sslErrorCert)
    else (errNone, c)

/-- `perform_server_handshake`. -/
def performServerHandshake (c : SslSocket κ) (store : Option κ) : Int × SslSocket κ :=
  match store with
  | none => (sslErrorInit, c.setError sslErrorInit)
  | some held =>
    if !c.isValidSocket then (sslErrorInit, c.setError sslErrorInit)
    else
      let made := h.sslNew c.tick
      let attached := h.sslSetFd (c.tick + 1)
      let ret := h.sslAccept (c.tick + 2)
      let c := c.onSocket fun s => s.ticked.ticked
      if !made then (sslErrorInit, c.setError sslErrorInit)
      else
        let c := c.newSession held
        if !attached then (sslErrorInit, c.setError sslErrorInit)
        else
          let c := { c with session := c.session.map (.attach c.sockfd) }
          let c := (c.onSocket Socket.ticked).shaken (ret = 1) false false
          if ret ≠ 1 then (sslErrorHandshake, c.setError sslErrorHandshake)
          else (errNone, c.setError errNone)

/-- A connect in progress: the socket, and the credentials of its context. -/
structure Attempt (κ : Type) where
  ok : Bool
  client : SslSocket κ
  store : Option κ

/-- The failure exit after the transport is connected. -/
def abandon (client : SslSocket κ) (store : Option κ) : Attempt κ :=
  let failure := client.errorCode
  ⟨false, (client.close h).2.setError failure, store⟩

/-- A previous connection or handshake leaves nothing behind. -/
def dropPrevious (family : Family) (c : SslSocket κ) : SslSocket κ :=
  let c := if c.session.isSome || c.connected then (c.close h).2 else c
  if c.isValidSocket && family != c.netFamily then (c.closeBase h).2 else c

/-- The descriptor of the new connection, or the failure before it. -/
def openTransport (family : Family) (c : SslSocket κ) : Bool × SslSocket κ :=
  let c := c.dropPrevious h family
  if c.isValidSocket then (true, c)
  else match h.socket c.tick with
    | none => (false, (c.onSocket Socket.ticked).setError errNoSocket)
    | some fd =>
      (true, c.onSocket fun s =>
        { s.ticked.record (.opened fd) with sockfd := some fd, netFamily := family })

def connectTo (target : Sockaddr) (identity : String) (c : SslSocket κ) (store : Option κ) :
    Attempt κ :=
  let transport := c.openTransport h target.family
  if !transport.1 then ⟨false, transport.2, store⟩
  else
    let err := h.connect transport.2.tick
    let c := transport.2.onSocket Socket.ticked
    if err ≠ 0 then ⟨false, ((c.setError (translateNativeError err)).close h).2, store⟩
    else
      let c := { c.onSocket fun s => { s with
        connected := true, port := target.getPort.toNat, hostname := identity } with
        linked := some target }
      let setup := c.setupSsl o h identity store
      if setup.1 ≠ errNone then setup.2.1.abandon h setup.2.2
      else
        let shaken := setup.2.1.performHandshake h
        if shaken.1 ≠ errNone then shaken.2.abandon h setup.2.2
        else ⟨true, shaken.2.setError errNone, setup.2.2⟩

/-- `connect(hostname, port)`.  A null pointer is `none`, and an exception of the
resolver is caught. -/
def connectHost (hostname : Option String) (port : Int) (c : SslSocket κ)
    (store : Option κ) : Attempt κ :=
  let requested := hostname.getD ""
  if requested.isEmpty || port ≤ 0 || port > 65535 then ⟨false, c.setError sslError, store⟩
  else
    let c := { c with requestedHost := requested, portNum := port }
    let resolved := (h.addresses c.tick requested).bind Resolver.resolveInternal
    let c := c.onSocket Socket.ticked
    match resolved with
    | none => ⟨false, c.setError errNoHost, store⟩
    | some addr => c.connectTo o h (addr.setPort (.ofNat port.toNat)) requested store

/-- `connect()`. -/
def connectStored (c : SslSocket κ) (store : Option κ) : Attempt κ :=
  if c.requestedHost.isEmpty || c.portNum ≤ 0 then ⟨false, c.setError sslError, store⟩
  else c.connectHost o h (some c.requestedHost) c.portNum store

/-- `connect(address)`, which verifies the text of the address. -/
def connectAddress (target : Sockaddr) (c : SslSocket κ) (store : Option κ) : Attempt κ :=
  if target.family = .other || target.getPort = 0 then ⟨false, c.setError sslError, store⟩
  else
    let requested := target.getString h.inetNtop
    { c with requestedHost := requested, portNum := target.getPort.toNat }.connectTo o h target
      requested store

/-- `write(data, size)`. -/
def write (data : List UInt8) (c : SslSocket κ) : Int × SslSocket κ :=
  match c.session with
  | none => (errNoSocket, c.setError errNoSocket)
  | some s =>
    if !c.connected then (errNoSocket, c.setError errNoSocket)
    else
      let answer := h.sslWrite c.tick data.length
      let c := (c.onSocket Socket.ticked).record (.sslWrite s.id .direct data answer false 0)
      if answer.ret ≤ 0 then
        (sslErrorIo, if answer.code ≠ .none then c.setError sslErrorIo else c)
      else (answer.ret, c)

/-- `read(buffer, size)`; a null buffer is `false`. -/
def read (buffer : Bool) (size : Int) (c : SslSocket κ) : (Int × List UInt8) × SslSocket κ :=
  if !buffer || size ≤ 0 then ((sslError, []), c.setError sslError)
  else match c.session with
  | none => ((errNoSocket, []), c.setError errNoSocket)
  | some s =>
    if !c.connected then ((errNoSocket, []), c.setError errNoSocket)
    else
      let answer := h.sslRead c.tick size.toNat
      let c := (c.onSocket Socket.ticked).record (.sslRead s.id answer false)
      if answer.ret ≤ 0 then
        ((sslErrorIo, []), if answer.code ≠ .none then c.setError sslErrorIo else c)
      else ((answer.ret, answer.data), c)

/-- One turn of the loop of `read_line` for each place left in the buffer. -/
def readLineLoop (id : ℕ) : ℕ → List UInt8 → SslSocket κ → (Int × List UInt8) × SslSocket κ
  | 0, line, c => ((line.length, line), c)
  | room + 1, line, c =>
    let answer := h.sslRead c.tick 1
    let c := (c.onSocket Socket.ticked).record (.sslRead id answer false)
    if answer.ret ≤ 0 then ((sslErrorIo, line), c.setError sslErrorIo)
    else
      let byte := answer.data.headD 0
      if byte = 10 then ((line.length + 1, line ++ [byte]), c)
      else readLineLoop id room (line ++ [byte]) c

/-- `read_line` and `read_until`. -/
def readLine (buffer : Bool) (size : Int) (c : SslSocket κ) : (Int × List UInt8) × SslSocket κ :=
  if !buffer || size ≤ 0 then ((sslError, []), c.setError sslError)
  else match c.session with
  | none => ((errNoSocket, []), c.setError errNoSocket)
  | some s =>
    if !c.connected then ((errNoSocket, []), c.setError errNoSocket)
    else c.readLineLoop h s.id (size - 1).toNat []

end SslSocket

/-- The public functions of `ssl_client_socket`. -/
inductive SslCall
  | setCertificateFile (path : Option String)
  | setPrivateKeyFile (path : Option String)
  | setCaFile (path : Option String)
  | setPeerVerification (mode : SslVerifyMode)
  | setAllowSelfSigned (allow : Bool)
  | set (setter : PlainSetter)
  | connectStored
  | connectHost (hostname : Option String) (port : Int)
  | connectAddress (target : Sockaddr)
  | write (data : List UInt8)
  | read (buffer : Bool) (size : Int)
  | readLine (buffer : Bool) (size : Int)
  | close

namespace SslSocket

/-- A call on a socket whose context holds the credentials `store`. -/
def exec (o : CredentialStore κ) (h : SslHost) (store : Option κ) (c : SslSocket κ) :
    SslCall → SslSocket κ
  | .setCertificateFile path => (c.setCertificateFile path).2
  | .setPrivateKeyFile path => (c.setPrivateKeyFile path).2
  | .setCaFile path => (c.setCaFile h path).2
  | .setPeerVerification mode => { c with verifyMode := mode }
  | .setAllowSelfSigned allow => { c with allowSelfSigned := allow }
  | .set setter => c.onSocket fun s => (setter.run h.toHost s).2
  | .connectStored => (c.connectStored o h store).client
  | .connectHost hostname port => (c.connectHost o h hostname port store).client
  | .connectAddress target => (c.connectAddress o h target store).client
  | .write data => (c.write h data).2
  | .read buffer size => (c.read h buffer size).2
  | .readLine buffer size => (c.readLine h buffer size).2
  | .close => (c.close h).2

end SslSocket

end Aeon
