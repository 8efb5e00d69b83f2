import Aeon.Tcp
import Mathlib.Logic.Function.Basic

/-!
# TCP objects with their address and the mode of their descriptor

The TCP functions once more, with the remote address that a connect leaves and
the modes of the native descriptors.  They are written over any object that has
such a state in it, and may close it as its class does.
-/

namespace Aeon

open Program Errno

/-- The resolver gives addresses. -/
structure TcpHost extends Host where
  addresses : ℕ → Option (List Sockaddr)
  families : ∀ tick, getaddrinfo tick = (addresses tick).map (List.map Sockaddr.family)

/-- Whether each native descriptor is in blocking mode. -/
abbrev Modes := ℕ → Bool

/-- A new descriptor is in blocking mode, and `configure_blocking` sets its mode. -/
def Event.settleMode (modes : Modes) : Event → Modes
  | .opened fd => Function.update modes fd true
  | .configured fd _ blocking => Function.update modes fd blocking
  | _ => modes

structure TcpSocket extends Socket where
  remoteAddr : Sockaddr := .other
  modes : Modes := fun _ => true

namespace TcpSocket

section Functions

variable {α : Type} (h : Host)

/-- A function of the base class that does not set the mode of its descriptor. -/
def onBase (f : Socket → α × Socket) (s : TcpSocket) : α × TcpSocket :=
  ((f s.toSocket).1, { s with toSocket := (f s.toSocket).2 })

def fail (code : Int) (state : ℕ) (s : TcpSocket) : TcpSocket :=
  { s with toSocket := s.toSocket.fail code state }

/-- The mode of the held descriptor. -/
def setMode (flag : Bool) (s : TcpSocket) : TcpSocket :=
  { s with modes := s.sockfd.elim s.modes fun fd => Function.update s.modes fd flag }

def setBlocking (flag : Bool) (s : TcpSocket) : Bool × TcpSocket :=
  let r := s.onBase (Socket.setBlocking h flag)
  (r.1, if r.1 then r.2.setMode flag else r.2)

/-- `sockfd = ::socket(family, SOCK_STREAM, 0)` and the check after it. -/
def create (family : Family) (s : TcpSocket) : Bool × TcpSocket :=
  let r := s.onBase (Socket.create h family)
  (r.1, if r.1 then r.2.setMode true else r.2)

/-- The connect of `connect_timeout_ms > 0`, under a `blocking_mode_guard`. -/
def guardedConnect (s : TcpSocket) : Bool × TcpSocket :=
  let original := s.blocking
  let guarded := s.setBlocking h false
  if !guarded.1 then (false, guarded.2.fail guarded.2.errorCode stateConnect)
  else
    let r := guarded.2.onBase (Socket.pendingConnect h)
    let restored := r.2.setBlocking h original
    (r.1, if restored.1 && r.2.errorCode != errNone then
        { restored.2 with toSocket := restored.2.toSocket.setError r.2.errorCode }
      else restored.2)

def nativeConnect (s : TcpSocket) : Bool × TcpSocket :=
  if s.connectTimeoutMs > 0 then s.guardedConnect h else s.onBase (Socket.plainConnect h)

/-- What `tcp_connect` leaves when it has succeeded. -/
def connectDone (target : Sockaddr) (s : TcpSocket) : TcpSocket :=
  { s with toSocket := s.toSocket.connectDone, remoteAddr := target }

end Functions

section Base

variable (h : Host)

/-- What a function does to the base object. -/
def Projects {α : Type} (f : TcpSocket → α × TcpSocket) (g : Socket → α × Socket) : Prop :=
  ∀ s, (f s).1 = (g s.toSocket).1 ∧ (f s).2.toSocket = (g s.toSocket).2

theorem setBlocking_base (flag : Bool) : Projects (setBlocking h flag) (Socket.setBlocking h flag) := by
  intro s
  unfold setBlocking
  dsimp only
  split <;> exact ⟨rfl, rfl⟩

theorem create_base (family : Family) : Projects (create h family) (Socket.create h family) := by
  intro s
  unfold create
  dsimp only
  split <;> exact ⟨rfl, rfl⟩

theorem guardedConnect_base : Projects (guardedConnect h) (Socket.guardedConnect h) := by
  intro s
  obtain ⟨hset, hguarded⟩ := setBlocking_base h false s
  unfold guardedConnect Socket.guardedConnect
  dsimp only
  rw [hset]
  split
  · exact ⟨rfl, by rw [← hguarded]; rfl⟩
  · rw [← hguarded]
    obtain ⟨hback, hrestored⟩ := setBlocking_base h s.blocking
      ((s.setBlocking h false).2.onBase (Socket.pendingConnect h)).2
    refine ⟨rfl, ?_⟩
    rw [hback]
    split
    · rename_i hkeep
      exact (congr_arg (Socket.setError _) hrestored).trans (if_pos hkeep).symm
    · rename_i hlost
      exact hrestored.trans (if_neg hlost).symm

theorem nativeConnect_base : Projects (nativeConnect h) (Socket.nativeConnect h) := by
  intro s
  unfold nativeConnect Socket.nativeConnect
  split
  · exact guardedConnect_base h s
  · exact ⟨rfl, rfl⟩

end Base

section Code

variable {σ : Type} (h : TcpHost) (part : Part σ TcpSocket) (close : Code σ Bool)

/-- `tcp_connect(address)`. -/
def tcpConnectAddress (target : Sockaddr) : Code σ Bool := do
  if target.family = .other then
    part.run fun s => ((), s.fail errNoSocket stateConnect)
    return false
  else
    let _ ← close
    let made ← part.run fun s =>
      let r := s.create h.toHost target.family
      (r.1, { r.2 with connected := false })
    if !made then return false
    else
      let succeeded ← part.run fun s => s.nativeConnect h.toHost
      if !succeeded then
        let _ ← close
        return false
      else
        part.run fun s => ((), s.connectDone target)
        return true

/-- The resolved addresses in order, until one connects. -/
def tcpConnectEntries : List Sockaddr → Code σ Bool
  | [] => return false
  | .other :: entries => tcpConnectEntries entries
  | target :: entries => do
    let success ← tcpConnectAddress h part close target
    if success then return true else tcpConnectEntries entries

/-- `tcp_connect()`, with the host name and port the object holds. -/
def tcpConnectStored : Code σ Bool := do
  let entries ← part.run fun s =>
    if s.hostname.isEmpty || !isValidPort s.port then (none, s.fail errNoHost stateResolve)
    else match h.addresses s.tick with
      | none => (none, { s with toSocket := s.toSocket.ticked.fail errNoHost stateResolve })
      | some entries => (some entries, { s with toSocket := s.toSocket.ticked })
  match entries with
  | none => return false
  | some entries => do
    let success ← tcpConnectEntries h part close entries
    part.run fun s => ((), { s with connected := success })
    return success

/-- A null pointer is `none`. -/
def tcpConnectHost (hostname : Option String) (port : Int) : Code σ Bool := do
  let hostname := hostname.getD ""
  if hostname.isEmpty || !isValidPort port then
    part.run fun s => ((), s.fail errNoSocket stateConnect)
    return false
  else
    part.run fun s => ((), { s with hostname := hostname, port := port })
    tcpConnectStored h part close

def tcpListen (ip : Option String) (port : Int) : Code σ Bool := do
  match listenTarget h.toHost ip port with
  | none =>
    part.run fun s => ((), s.fail errNoSocket stateBind)
    return false
  | some family => do
    let _ ← close
    let made ← part.run fun s => s.create h.toHost family
    if !made then return false
    else
      part.run (onBase fun s => ((), s.prepareListen h.toHost family port))
      let bound ← part.run (onBase (Socket.tcpBind h.toHost))
      if !bound then
        let _ ← close
        return false
      else
        let listening ← part.run (onBase (Socket.nativeListen h.toHost))
        if !listening then
          let _ ← close
          return false
        else return true

end Code

section Simulation

variable {α β : Type} {h : TcpHost}

/-- An object of the base class. -/
def plainThis (h : Host) : This Socket := ⟨Code.update, Code.update (Socket.close h)⟩

/-- Its `close`, with the address and the modes. -/
def plainClose (h : Host) : Code TcpSocket Bool := Code.update (onBase (Socket.close h))

/-- The code does to the base object what the other code does. -/
def Simulates (m : Code TcpSocket α) (m' : Code Socket α) : Prop :=
  ∀ s, (m s).1 = (m' s.toSocket).1 ∧ (m s).2.toSocket = (m' s.toSocket).2

namespace Simulates

theorem ret (a : α) : Simulates (pure a) (pure a) := fun _ => ⟨rfl, rfl⟩

theorem bind {m : Code TcpSocket α} {m' : Code Socket α} {f : α → Code TcpSocket β}
    {f' : α → Code Socket β} (hm : Simulates m m') (hf : ∀ a, Simulates (f a) (f' a)) :
    Simulates (m >>= f) (m' >>= f') := by
  intro s
  obtain ⟨hret, hstate⟩ := hm s
  rw [Code.bind_run, Code.bind_run]
  revert hret hstate
  rcases m s with ⟨e | a, t⟩ <;> rcases m' s.toSocket with ⟨e' | a', t'⟩
  · exact fun hret hstate => ⟨congr_arg _ (Except.error.inj hret), hstate⟩
  · exact fun hret => nomatch hret
  · exact fun hret => nomatch hret
  · intro hret hstate
    obtain rfl := Except.ok.inj hret
    obtain rfl : t.toSocket = t' := hstate
    exact hf a t

theorem ite {c : Prop} [Decidable c] {m n : Code TcpSocket α} {m' n' : Code Socket α}
    (ht : c → Simulates m m') (hf : ¬c → Simulates n n') :
    Simulates (if c then m else n) (if c then m' else n') := by
  split
  · exact ht ‹c›
  · exact hf ‹¬c›

theorem run {f : TcpSocket → α × TcpSocket} {g : Socket → α × Socket} (hf : Projects f g) :
    Simulates ((Part.whole TcpSocket).run f) ((plainThis h.toHost).run g) :=
  fun s => ⟨congr_arg _ (hf s).1, (hf s).2⟩

end Simulates

open Simulates

theorem tcpConnectAddress_simulates (target : Sockaddr) :
    Simulates (tcpConnectAddress h (Part.whole TcpSocket) (plainClose h.toHost) target)
      (Aeon.tcpConnectAddress h.toHost (plainThis h.toHost) target.family) := by
  have hclose : Simulates (plainClose h.toHost) (plainThis h.toHost).close := fun _ => ⟨rfl, rfl⟩
  refine ite (fun _ => (run fun _ => ⟨rfl, rfl⟩).bind fun _ => ret false) fun _ => ?_
  refine hclose.bind fun _ => Simulates.bind (run fun s => ?_) fun made => ite (fun _ => ret false) fun _ => ?_
  · obtain ⟨hmade, hbase⟩ := create_base h.toHost target.family s
    exact ⟨hmade, congr_arg (fun b : Socket => { b with connected := false }) hbase⟩
  · refine (run (nativeConnect_base h.toHost)).bind fun succeeded => ite (fun _ => ?_) fun _ => ?_
    · exact hclose.bind fun _ => ret false
    · exact (run fun _ => ⟨rfl, rfl⟩).bind fun _ => ret true

theorem tcpConnectEntries_simulates (entries : List Sockaddr) :
    Simulates (tcpConnectEntries h (Part.whole TcpSocket) (plainClose h.toHost) entries)
      (Aeon.tcpConnectEntries h.toHost (plainThis h.toHost) (entries.map Sockaddr.family)) := by
  induction entries with
  | nil => exact ret false
  | cons target entries ih =>
    cases target with
    | other => exact ih
    | inet port addr =>
      exact (tcpConnectAddress_simulates _).bind fun _ => ite (fun _ => ret true) fun _ => ih
    | inet6 port flow addr scope =>
      exact (tcpConnectAddress_simulates _).bind fun _ => ite (fun _ => ret true) fun _ => ih

theorem tcpConnectStored_simulates :
    Simulates (tcpConnectStored h (Part.whole TcpSocket) (plainClose h.toHost))
      (Aeon.tcpConnectStored h.toHost (plainThis h.toHost)) := by
  have htail (entries : List Sockaddr) := (tcpConnectEntries_simulates (h := h) entries).bind fun ok =>
    (run (h := h) (f := fun s : TcpSocket => ((), { s with connected := ok }))
      (g := fun s => ((), { s with connected := ok })) fun _ => ⟨rfl, rfl⟩).bind fun _ => ret ok
  intro s
  have hfamilies := h.families s.tick
  unfold tcpConnectStored Aeon.tcpConnectStored
  rw [Code.bind_run, Code.bind_run, Part.run_run]
  simp only [plainThis, Code.update_run, Part.whole_get, Part.whole_set]
  by_cases hguard : (s.hostname.isEmpty || !isValidPort s.port) = true
  · simp only [hguard, if_true]
    exact ⟨rfl, rfl⟩
  · simp only [hguard, Bool.false_eq_true, if_false, hfamilies]
    cases hfound : h.addresses s.tick with
    | none => exact ⟨rfl, rfl⟩
    | some entries => exact htail entries { s with toSocket := s.toSocket.ticked }

/-- The functions of the base class are these, without the address and the modes. -/
theorem tcpConnectHost_simulates (hostname : Option String) (port : Int) :
    Simulates (tcpConnectHost h (Part.whole TcpSocket) (plainClose h.toHost) hostname port)
      (Aeon.tcpConnectHost h.toHost (plainThis h.toHost) hostname port) := by
  refine ite (fun _ => (run fun _ => ⟨rfl, rfl⟩).bind fun _ => ret false) fun _ => ?_
  exact (run fun _ => ⟨rfl, rfl⟩).bind fun _ => tcpConnectStored_simulates

theorem tcpListen_simulates (ip : Option String) (port : Int) :
    Simulates (tcpListen h (Part.whole TcpSocket) (plainClose h.toHost) ip port)
      (Aeon.tcpListen h.toHost (plainThis h.toHost) ip port) := by
  have hclose : Simulates (plainClose h.toHost) (plainThis h.toHost).close := fun _ => ⟨rfl, rfl⟩
  have hgiveUp : Simulates (plainClose h.toHost >>= fun _ => pure false)
      ((plainThis h.toHost).close >>= fun _ => pure false) := hclose.bind fun _ => ret false
  unfold tcpListen Aeon.tcpListen
  cases listenTarget h.toHost ip port with
  | none => exact (run fun _ => ⟨rfl, rfl⟩).bind fun _ => ret false
  | some family =>
    refine hclose.bind fun _ => (run (create_base h.toHost family)).bind fun made =>
      ite (fun _ => ret false) fun _ => (run fun _ => ⟨rfl, rfl⟩).bind fun _ => ?_
    refine Simulates.bind (run fun _ => ⟨rfl, rfl⟩) fun bound => ite (fun _ => hgiveUp) fun _ => ?_
    exact Simulates.bind (run fun _ => ⟨rfl, rfl⟩) fun listening => ite (fun _ => hgiveUp) fun _ => ret true

end Simulation

/-- A host on which every native call succeeds, and a name has one address. -/
def steadyHost : TcpHost where
  toHost := .steady
  addresses _ := some [.inet 80 #v[127, 0, 0, 1]]
  families _ := rfl

end TcpSocket

end Aeon
