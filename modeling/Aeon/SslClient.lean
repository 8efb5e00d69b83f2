import Aeon.Library.History
import Aeon.SslEventSocket
import Mathlib.Data.List.Induction
import Mathlib.Logic.Function.Basic

/-!
# The blocking TLS client and the identity that it presents

`ssl_client_socket` over `ssl_socket`, for any number of sockets whose contexts
may be shared.  A handshake presents what `SSL_new` copied from the context,
and `setup_ssl` loads the files of the socket only after that.
-/

namespace Aeon

/-- The certificates and keys of an `SSL_CTX`, and how the two `SSL_CTX_use`
functions change them when they succeed. -/
structure CredentialStore (κ : Type) where
  empty : κ
  useCertificateFile : String → κ → Option κ
  usePrivateKeyFile : String → κ → Option κ

/-- The answers to the resolver and to the blocking handshake as well. -/
structure SslClientHost extends TlsHost where
  resolve : ℕ → String → Option Family
  sslConnect : ℕ → Int
  sslErrorSyscall : ℕ → Bool

/-- `ctx` is the number of the `SSL_CTX`, and `ssl` what the `SSL` object
carries.  `hostname` and `portNum` are the members of the derived class. -/
structure SslClientSocket (κ : Type) extends Socket where
  ctx : Option ℕ := none
  ssl : Option κ := none
  certFile : String := ""
  keyFile : String := ""
  verifyMode : SslVerifyMode := .strict
  allowSelfSigned : Bool := false
  requestedHost : String := ""
  portNum : Int := 0

/-- One call of `SSL_connect`: the socket, what its `SSL` object carries, and
the files configured on the socket. -/
structure Handshake (κ : Type) where
  client : ℕ
  presented : κ
  certFile : String
  keyFile : String
  deriving DecidableEq

structure SslClients (κ : Type) where
  contexts : ℕ → κ
  sockets : ℕ → SslClientSocket κ
  handshakes : List (Handshake κ) := []

variable {κ : Type}

namespace CredentialStore

/-- A file that is configured is loaded. -/
def load (use : String → κ → Option κ) (path : String) (store : κ) : Option κ :=
  if path.isEmpty then some store else use path store

/-- What a socket with these files is to present: the files alone. -/
def identity (o : CredentialStore κ) (certFile keyFile : String) : Option κ :=
  (load o.useCertificateFile certFile o.empty).bind (load o.usePrivateKeyFile keyFile)

end CredentialStore

namespace SslClientSocket

variable (o : CredentialStore κ) (h : SslClientHost)

def onSocket (f : Socket → Socket) (c : SslClientSocket κ) : SslClientSocket κ :=
  { c with toSocket := f c.toSocket }

def setError (code : Int) (c : SslClientSocket κ) : SslClientSocket κ :=
  c.onSocket (Socket.setError code)

/-- The constructors, with a context of the socket's own or a shared one.  The base is
given the type `SOCK_STREAM` for its family, which is that of `AF_UNIX`. -/
def construct (tick : ℕ) (ctx : Option ℕ) : SslClientSocket κ :=
  let base := { Socket.construct h.toHost tick with netFamily := .other }
  { toSocket := if ctx.isNone then base.setError errNoSocket else base, ctx := ctx }

/-- `ssl_socket::close`. -/
def close (c : SslClientSocket κ) : Bool × SslClientSocket κ :=
  let r := c.toSocket.close h.toHost
  (r.1, { c with toSocket := r.2, ssl := none })

def setCertificateFile (path : Option String) (c : SslClientSocket κ) : SslClientSocket κ :=
  match path with
  | none => c.setError sslError
  | some path => { c with certFile := path }

def setPrivateKeyFile (path : Option String) (c : SslClientSocket κ) : SslClientSocket κ :=
  match path with
  | none => c.setError sslError
  | some path => { c with keyFile := path }

/-- The settings of the connection, which leave the context alone. -/
def configureVerification (identity : String) (c : SslClientSocket κ) : Int × SslClientSocket κ :=
  let numeric := isNumericIp h.toHost identity
  if c.verifyMode = .strict then
    if identity.isEmpty then (sslErrorCert, c.setError sslErrorCert)
    else
      let ok := h.setVerifyIdentity c.tick && (numeric || h.setTlsextHostName (c.tick + 1))
      let c := c.onSocket fun s => s.ticked.ticked
      if !ok then (sslErrorCert, c.setError sslErrorCert) else (errNone, c)
  else if identity.isEmpty || numeric then (errNone, c)
  else
    let ok := h.setTlsextHostName c.tick
    let c := c.onSocket Socket.ticked
    if !ok then (sslErrorInit, c.setError sslErrorInit) else (errNone, c)

/-- `setup_ssl`, with the credentials of the context before and after. -/
def setupSsl (identity : String) (c : SslClientSocket κ) (store : Option κ) :
    Int × SslClientSocket κ × Option κ :=
  match store with
  | none => (sslErrorInit, c.setError sslErrorInit, none)
  | some held =>
    let made := h.sslNew c.tick
    let attached := h.sslSetFd (c.tick + 1)
    let c := { c.onSocket (fun s => s.ticked.ticked) with ssl := none }
    if !made || !attached then (sslErrorInit, c.setError sslErrorInit, some held)
    else
      let c := { c with ssl := some held }
      match CredentialStore.load o.useCertificateFile c.certFile held with
      | none => (sslErrorCert, c.setError sslErrorCert, some held)
      | some certified =>
        match CredentialStore.load o.usePrivateKeyFile c.keyFile certified with
        | none => (sslErrorKey, c.setError sslErrorKey, some certified)
        | some loaded =>
          let r := c.configureVerification h identity
          (r.1, r.2, some loaded)

def performHandshake (c : SslClientSocket κ) : Int × SslClientSocket κ :=
  let ret := h.sslConnect c.tick
  let syscall := h.sslErrorSyscall c.tick
  let verified := h.verifyOk (c.tick + 1)
  let c := c.onSocket fun s => s.ticked.ticked
  let rejected := c.verifyMode == .strict && !verified
  if ret ≠ 1 then
    let code := if rejected then sslErrorCert else if syscall then errNoSocket
      else sslErrorHandshake
    (code, c.setError code)
  else if rejected then (sslErrorCert, c.setError sslErrorCert)
  else (errNone, c)

/-- A connect in progress: the socket, the credentials of its context, and what
its `SSL` object carried when `SSL_connect` was called on it. -/
structure Attempt (κ : Type) where
  ok : Bool
  client : SslClientSocket κ
  store : Option κ
  presented : Option κ := none

/-- The failure exit after the transport is connected. -/
def abandon (client : SslClientSocket κ) (store presented : Option κ) : Attempt κ :=
  let failure := client.errorCode
  ⟨false, (client.close h).2.setError failure, store, presented⟩

/-- The descriptor of the new connection, or the failure before it. -/
def openTransport (family : Family) (c : SslClientSocket κ) : Bool × SslClientSocket κ :=
  let c := if c.ssl.isSome || c.connected then (c.close h).2 else c
  let s := if c.isValidSocket && family != c.netFamily then (c.toSocket.close h.toHost).2
    else c.toSocket
  if s.isValidSocket then (true, { c with toSocket := s })
  else match h.socket s.tick with
    | none => (false, { c with toSocket := s.ticked.setError errNoSocket })
    | some fd =>
      let s := s.ticked.record (.opened fd)
      (true, { c with toSocket := { s with sockfd := some fd, netFamily := family } })

def connectTo (family : Family) (port : ℕ) (identity : String) (c : SslClientSocket κ)
    (store : Option κ) : Attempt κ :=
  let transport := c.openTransport h family
  if !transport.1 then ⟨false, transport.2, store, none⟩
  else
    let err := h.connect transport.2.tick
    let c := transport.2.onSocket Socket.ticked
    if err ≠ 0 then ⟨false, ((c.setError (translateNativeError err)).close h).2, store, none⟩
    else
      let c := c.onSocket fun s => { s with connected := true, port := port, hostname := identity }
      let setup := c.setupSsl o h identity store
      if setup.1 ≠ errNone then setup.2.1.abandon h setup.2.2 none
      else
        let shaken := setup.2.1.performHandshake h
        if shaken.1 ≠ errNone then shaken.2.abandon h setup.2.2 setup.2.1.ssl
        else ⟨true, shaken.2.setError errNone, setup.2.2, setup.2.1.ssl⟩

/-- `connect(hostname, port)`.  A null pointer is `none`. -/
def connectHost (hostname : Option String) (port : Int) (c : SslClientSocket κ)
    (store : Option κ) : Attempt κ :=
  let requested := hostname.getD ""
  if requested.isEmpty || port ≤ 0 || port > 65535 then ⟨false, c.setError sslError, store, none⟩
  else
    let c := { c with requestedHost := requested, portNum := port }
    let resolved := h.resolve c.tick requested
    let c := c.onSocket Socket.ticked
    match resolved with
    | none => ⟨false, c.setError errNoHost, store, none⟩
    | some family => c.connectTo o h family port.toNat requested store

/-- `connect()`. -/
def connectStored (c : SslClientSocket κ) (store : Option κ) : Attempt κ :=
  if c.requestedHost.isEmpty || c.portNum ≤ 0 then ⟨false, c.setError sslError, store, none⟩
  else c.connectHost o h (some c.requestedHost) c.portNum store

/-- `connect(address)`, which verifies the text of the address. -/
def connectAddress (family : Family) (text : String) (port : UInt16) (c : SslClientSocket κ)
    (store : Option κ) : Attempt κ :=
  if family = .other || port = 0 then ⟨false, c.setError sslError, store, none⟩
  else
    { c with requestedHost := text, portNum := port.toNat }.connectTo o h family port.toNat text
      store

end SslClientSocket

inductive SslClientOp
  | setCertificateFile (path : Option String)
  | setPrivateKeyFile (path : Option String)
  | setPeerVerification (mode : SslVerifyMode)
  | setAllowSelfSigned (allow : Bool)
  | connectStored
  | connectHost (hostname : Option String) (port : Int)
  | connectAddress (family : Family) (text : String) (port : UInt16)
  | close

namespace SslClients

open SslClientSocket

/-- A connect of socket `i`, with the context that it has. -/
def connect (i : ℕ) (attempt : SslClientSocket κ → Option κ → Attempt κ) (w : SslClients κ) :
    SslClients κ :=
  let c := w.sockets i
  let a := attempt c (c.ctx.map w.contexts)
  { contexts := match c.ctx, a.store with
      | some ctx, some store => Function.update w.contexts ctx store
      | _, _ => w.contexts
    sockets := Function.update w.sockets i a.client
    handshakes := w.handshakes ++
      (a.presented.map fun presented => ⟨i, presented, c.certFile, c.keyFile⟩).toList }

def set (i : ℕ) (f : SslClientSocket κ → SslClientSocket κ) (w : SslClients κ) : SslClients κ :=
  { w with sockets := Function.update w.sockets i (f (w.sockets i)) }

/-- A call on socket `i`, whose native calls are answered by host `i`. -/
def exec (o : CredentialStore κ) (hosts : ℕ → SslClientHost) (w : SslClients κ) :
    ℕ × SslClientOp → SslClients κ
  | (i, .setCertificateFile path) => w.set i (setCertificateFile path)
  | (i, .setPrivateKeyFile path) => w.set i (setPrivateKeyFile path)
  | (i, .setPeerVerification mode) => w.set i fun c => { c with verifyMode := mode }
  | (i, .setAllowSelfSigned allow) => w.set i fun c => { c with allowSelfSigned := allow }
  | (i, .connectStored) => w.connect i (SslClientSocket.connectStored o (hosts i))
  | (i, .connectHost hostname port) =>
    w.connect i (SslClientSocket.connectHost o (hosts i) hostname port)
  | (i, .connectAddress family text port) =>
    w.connect i (SslClientSocket.connectAddress o (hosts i) family text port)
  | (i, .close) => w.set i fun c => (c.close (hosts i)).2

def run (o : CredentialStore κ) (hosts : ℕ → SslClientHost) (calls : List (ℕ × SslClientOp))
    (w : SslClients κ) : SslClients κ := calls.foldl (exec o hosts) w

/-- New sockets on new contexts; sockets with the same context share it. -/
def start (o : CredentialStore κ) (hosts : ℕ → SslClientHost) (ctxOf : ℕ → Option ℕ) :
    SslClients κ where
  contexts _ := o.empty
  sockets i := .construct (hosts i) 0 (ctxOf i)

/-- A handshake that presents the files of its own socket and nothing else. -/
def Own (o : CredentialStore κ) (e : Handshake κ) : Prop :=
  some e.presented = o.identity e.certFile e.keyFile

instance [DecidableEq κ] (o : CredentialStore κ) (e : Handshake κ) : Decidable (Own o e) :=
  inferInstanceAs (Decidable (_ = _))

/-- The context of socket `i` holds already what the socket is to present. -/
def Holds (o : CredentialStore κ) (w : SslClients κ) (i : ℕ) : Prop :=
  (w.sockets i).ctx.map w.contexts = o.identity (w.sockets i).certFile (w.sockets i).keyFile

end SslClients

namespace SslClientSocket

variable {o : CredentialStore κ} {h : SslClientHost}

theorem configureVerification_ssl (identity : String) (c : SslClientSocket κ) :
    (c.configureVerification h identity).2.ssl = c.ssl := by
  unfold configureVerification
  dsimp only
  split
  · split
    · rfl
    · split <;> rfl
  · split
    · rfl
    · split <;> rfl

/-- An `SSL` object that is set up carries what the context held before. -/
def Carries (store : Option κ) (r : Int × SslClientSocket κ × Option κ) : Prop :=
  r.1 = errNone → r.2.1.ssl = store

theorem setupSsl_carries (identity : String) (c : SslClientSocket κ) (store : Option κ) :
    Carries store (c.setupSsl o h identity store) := by
  have hfail {code : Int} (hcode : code ≠ errNone) {r : SslClientSocket κ × Option κ} :
      Carries store (code, r) := fun hok => absurd hok hcode
  unfold setupSsl
  split
  · exact hfail (by decide)
  · dsimp only
    split
    · exact hfail (by decide)
    · split
      · exact hfail (by decide)
      · split
        · exact hfail (by decide)
        · exact fun _ => configureVerification_ssl identity _

/-- A handshake presents what the context held when the connect began. -/
theorem connectTo_presented (family : Family) (port : ℕ) (identity : String)
    (c : SslClientSocket κ) (store : Option κ) :
    (c.connectTo o h family port identity store).presented = none ∨
      (c.connectTo o h family port identity store).presented = store := by
  unfold connectTo
  dsimp only
  split
  · exact .inl rfl
  · split
    · exact .inl rfl
    · generalize hc : SslClientSocket.onSocket (fun s : Socket =>
        { s with connected := true, port := port, hostname := identity }) _ = c'
      split
      · exact .inl rfl
      · rename_i hok
        have hssl := setupSsl_carries identity c' store (not_not.mp hok)
        split <;> exact .inr hssl

theorem connectHost_presented (hostname : Option String) (port : Int) (c : SslClientSocket κ)
    (store : Option κ) :
    (c.connectHost o h hostname port store).presented = none ∨
      (c.connectHost o h hostname port store).presented = store := by
  unfold connectHost
  dsimp only
  split
  · exact .inl rfl
  · split
    · exact .inl rfl
    · exact connectTo_presented ..

theorem connectStored_presented (c : SslClientSocket κ) (store : Option κ) :
    (c.connectStored o h store).presented = none ∨
      (c.connectStored o h store).presented = store := by
  unfold connectStored
  split
  · exact .inl rfl
  · exact connectHost_presented ..

theorem connectAddress_presented (family : Family) (text : String) (port : UInt16)
    (c : SslClientSocket κ) (store : Option κ) :
    (c.connectAddress o h family text port store).presented = none ∨
      (c.connectAddress o h family text port store).presented = store := by
  unfold connectAddress
  split
  · exact .inl rfl
  · exact connectTo_presented ..

end SslClientSocket

namespace SslClients

variable {o : CredentialStore κ} {hosts : ℕ → SslClientHost} {w : SslClients κ}

/-- One call adds at most one handshake, and that one presents the credentials
of the context of its socket. -/
structure Adds (o : CredentialStore κ) (i : ℕ) (w w' : SslClients κ) : Prop where
  most : w'.handshakes = w.handshakes ∨ ∃ e, w'.handshakes = w.handshakes ++ [e] ∧
    (Own o e ↔ Holds o w i)

theorem connect_adds {i : ℕ} {attempt : SslClientSocket κ → Option κ → SslClientSocket.Attempt κ}
    (hattempt : ∀ c store, (attempt c store).presented = none ∨
      (attempt c store).presented = store) : Adds o i w (w.connect i attempt) := by
  constructor
  unfold connect
  dsimp only
  rcases hattempt (w.sockets i) ((w.sockets i).ctx.map w.contexts) with hp | hp
  · rw [hp]
    exact .inl (List.append_nil _)
  · rw [hp]
    cases hheld : (w.sockets i).ctx.map w.contexts with
    | none => exact .inl (List.append_nil _)
    | some held =>
      refine .inr ⟨⟨i, held, (w.sockets i).certFile, (w.sockets i).keyFile⟩, rfl, ?_⟩
      rw [Own, Holds, hheld]

theorem exec_adds (w : SslClients κ) (call : ℕ × SslClientOp) :
    Adds o call.1 w (exec o hosts w call) := by
  obtain ⟨i, op⟩ := call
  cases op with
  | connectStored => exact connect_adds fun c store => c.connectStored_presented store
  | connectHost hostname port =>
    exact connect_adds fun c store => c.connectHost_presented hostname port store
  | connectAddress family text port =>
    exact connect_adds fun c store => c.connectAddress_presented family text port store
  | _ => exact ⟨.inl rfl⟩

theorem run_snoc (calls : List (ℕ × SslClientOp)) (call : ℕ × SslClientOp) :
    run o hosts (calls ++ [call]) w = exec o hosts (run o hosts calls w) call := by
  rw [run, List.foldl_append]
  rfl

/-- In every run of any number of sockets, every handshake presents exactly the
files of its own socket if and only if, for each call that came to a handshake,
the context of the socket held them when the call began. -/
theorem handshakes_own_iff (o : CredentialStore κ) (hosts : ℕ → SslClientHost) (w : SslClients κ)
    (hw : w.handshakes = []) (calls : List (ℕ × SslClientOp)) :
    (∀ e ∈ (run o hosts calls w).handshakes, Own o e) ↔
      ∀ pre call post, calls = pre ++ call :: post →
        (exec o hosts (run o hosts pre w) call).handshakes ≠ (run o hosts pre w).handshakes →
        Holds o (run o hosts pre w) call.1 := by
  have hsteps : (∀ e ∈ (run o hosts calls w).handshakes, Own o e) ↔
      History.Always (fun pre call =>
        (exec o hosts (run o hosts pre w) call).handshakes ≠ (run o hosts pre w).handshakes →
        Holds o (run o hosts pre w) call.1) calls := by
    induction calls using List.reverseRecOn with
    | nil => exact iff_of_true (by simp [run, hw]) .nil
    | append_singleton calls call ih =>
      rw [History.Always.snoc_iff, ← ih, run_snoc]
      have hadds : Adds o call.1 _ (exec o hosts (run o hosts calls w) call) := exec_adds _ call
      rcases hadds.most with hsame | ⟨e, he, hown⟩
      · rw [hsame]
        exact (and_iff_left fun hne => absurd rfl hne).symm
      · rw [he, ← hown]
        have hne : (run o hosts calls w).handshakes ++ [e] ≠ (run o hosts calls w).handshakes := by
          simp
        simp only [List.mem_append, List.mem_singleton, hne, ne_eq, not_false_eq_true, true_imp_iff]
        exact ⟨fun hall => ⟨fun e' he' => hall e' (.inl he'), hall e (.inr rfl)⟩,
          fun hall e' he' => he'.elim (hall.1 e') fun heq => heq ▸ hall.2⟩
  exact hsteps

/-- A context that holds the last certificate and the last key loaded. -/
def lastLoaded : CredentialStore (Option String × Option String) where
  empty := (none, none)
  useCertificateFile path store := some (some path, store.2)
  usePrivateKeyFile path store := some (store.1, some path)

def steadyClient : SslClientHost where
  toTlsHost := .steady
  resolve _ _ := some .inet
  sslConnect _ := 1
  sslErrorSyscall _ := false

/-- One client with a context of its own, and its first connection. -/
def firstConnect : List (ℕ × SslClientOp) :=
  [(0, .setCertificateFile (some "client.pem")), (0, .setPrivateKeyFile (some "client-key.pem")),
    (0, .connectHost (some "example.org") 443)]

theorem first_connect_presents_none : ¬ ∀ (κ : Type) (o : CredentialStore κ)
    (hosts : ℕ → SslClientHost) (ctxOf : ℕ → Option ℕ) (calls : List (ℕ × SslClientOp)),
    ∀ e ∈ (run o hosts calls (start o hosts ctxOf)).handshakes, Own o e := by
  intro hall
  have hown := hall _ lastLoaded (fun _ => steadyClient) some firstConnect
    ⟨0, (none, none), "client.pem", "client-key.pem"⟩ (by decide +kernel)
  exact absurd hown (by decide +kernel)

theorem handshakes_own_iff_first :
    (∀ e ∈ (run lastLoaded (fun _ => steadyClient) firstConnect
        (start lastLoaded (fun _ => steadyClient) some)).handshakes, Own lastLoaded e) ↔
      ∀ pre call post, firstConnect = pre ++ call :: post →
        (exec lastLoaded (fun _ => steadyClient) (run lastLoaded (fun _ => steadyClient) pre
            (start lastLoaded (fun _ => steadyClient) some)) call).handshakes ≠
          (run lastLoaded (fun _ => steadyClient) pre
            (start lastLoaded (fun _ => steadyClient) some)).handshakes →
        Holds lastLoaded (run lastLoaded (fun _ => steadyClient) pre
          (start lastLoaded (fun _ => steadyClient) some)) call.1 :=
  handshakes_own_iff lastLoaded (fun _ => steadyClient)
    (start lastLoaded (fun _ => steadyClient) some) rfl firstConnect

end SslClients

end Aeon
