import Aeon.Library.Reentrant
import Aeon.TcpSocket
import Aeon.Udp

/-!
# The blocking flag and the mode of the descriptor

A new TCP descriptor is in blocking mode whatever the flag of the object says.
The event classes set the mode afterwards, a connect under a timeout restores it,
and the other connects and listens leave it.  Datagram descriptors are given the
mode of the flag before they are used.
-/

namespace Aeon

open Program Reentrant

namespace TcpSocket

/-- The flag is the mode of the descriptor, if there is one. -/
def InMode (s : TcpSocket) : Prop := ∀ fd, s.sockfd = some fd → s.modes fd = s.blocking

inductive Note
  | closed | connected | listening
  deriving DecidableEq, Repr

section Classes

variable (h : TcpHost) (event : Bool) (cb : Note → Code TcpSocket Unit)

/-- `close` of the class.  Only an event class has a handler. -/
def close : Code TcpSocket Bool := do
  let closed ← Code.update (onBase (Socket.close h.toHost))
  Code.whenever (event && closed) (cb .closed)
  return closed

/-- What an event class does when it has connected or listens. -/
def finish (n : Note) (ok : Bool) : Code TcpSocket Unit :=
  if ok && event then do
    let set ← Code.update (setBlocking h.toHost false)
    if !set then let _ ← Code.update (onBase (Socket.close h.toHost))
    else cb n
  else pure ()

inductive Op
  | setBlocking (flag : Bool)
  | setConnectTimeout (timeoutMs : Int)
  | connectStored
  | connectHost (hostname : Option String) (port : Int)
  | connectAddress (target : Sockaddr)
  | listen (ip : Option String) (port : Int)
  | accept (timeoutMs : Int)
  | close

/-- The operations of the client and the server classes.  An accepted peer is
another object. -/
def system : System TcpSocket Note Op where
  exec cb
    | .setBlocking flag => do let _ ← Code.update (setBlocking h.toHost flag)
    | .setConnectTimeout timeoutMs => do
      let _ ← Code.update (onBase (Socket.setConnectTimeout timeoutMs))
    | .connectStored => do
      let ok ← tcpConnectStored h (Part.whole TcpSocket) (close h event cb)
      finish h event cb .connected ok
    | .connectHost hostname port => do
      let ok ← tcpConnectHost h (Part.whole TcpSocket) (close h event cb) hostname port
      finish h event cb .connected ok
    | .connectAddress target => do
      let ok ← tcpConnectAddress h (Part.whole TcpSocket) (close h event cb) target
      finish h event cb .connected ok
    | .listen ip port => do
      let ok ← tcpListen h (Part.whole TcpSocket) (close h event cb) ip port
      finish h event cb .listening ok
    | .accept timeoutMs => do let _ ← Code.update (onBase (Socket.tcpAccept h.toHost timeoutMs))
    | .close => do let _ ← close h event cb

end Classes

/-- `event_socket()` and `event_socket(fd, adopt)` make the descriptor non-blocking. -/
def constructEvent (h : Host) (s : TcpSocket) : TcpSocket :=
  if !s.isValidSocket then s
  else
    let mode := s.setBlocking h false
    if mode.1 then mode.2 else (mode.2.onBase (Socket.close h)).2

def construct (h : Host) (tick : ℕ) (modes : Modes) : TcpSocket :=
  let base := Socket.construct h tick
  { toSocket := base, modes := base.log.foldl Event.settleMode modes }

/-- `socket(existing_fd, true)`. -/
def adopt (h : Host) (tick fd : ℕ) (modes : Modes) : TcpSocket :=
  { toSocket := Socket.adopt h tick fd, modes := modes }

/-- The constructor of the class. -/
def ofClass (h : Host) (event : Bool) (s : TcpSocket) : TcpSocket :=
  if event then s.constructEvent h else s

/-- A new object of the class, on a descriptor of its own, on one that it is given in
a mode in `adopts`, or on one that `accept(blocking)` has accepted. -/
inductive New (h : Host) (event : Bool) (adopts : Bool → Prop) : TcpSocket → Prop
  | construct (tick : ℕ) (modes : Modes) : New h event adopts ((construct h tick modes).ofClass h event)
  | adopt (tick fd : ℕ) (modes : Modes) (hmode : adopts (modes fd)) :
      New h event adopts ((adopt h tick fd modes).ofClass h event)
  | accepted {t : TcpSocket} (tick fd : ℕ) (blocking : Bool) (modes : Modes)
      (ht : ((TcpSocket.adopt h tick fd modes).ofClass h event).setBlocking h blocking = (true, t)) :
      New h event adopts t

/-- Where the flag and the mode of a new descriptor may differ: an object without the
event classes' own step that is not blocking, and has no timeout on its connects. -/
def Op.trusts (event : Bool) (s : TcpSocket) : Op → Prop
  | connectStored | connectHost .. | connectAddress _ =>
    event = true ∨ s.connectTimeoutMs > 0 ∨ s.blocking = true
  | listen .. => event = true ∨ s.blocking = true
  | _ => True

section Modes

variable {h : TcpHost} {event : Bool} {cb : Note → Code TcpSocket Unit} {s t : TcpSocket}

/-- What the functions of the base class leave of the flag, the timeout and the descriptor. -/
structure Alike (s t : TcpSocket) : Prop where
  sockfd : t.sockfd = s.sockfd
  blocking : t.blocking = s.blocking
  timeout : t.connectTimeoutMs = s.connectTimeoutMs
  modes : t.modes = s.modes

theorem Alike.inMode (h : Alike s t) (hs : InMode s) : InMode t := by
  intro fd hfd
  rw [h.modes, h.blocking]
  exact hs fd (h.sockfd ▸ hfd)

/-- The flag and the timeout, which say whether a new descriptor can be trusted. -/
def settings (s : TcpSocket) : Bool × Int := (s.blocking, s.connectTimeoutMs)

theorem setBlocking_none {flag : Bool} (hs : s.sockfd = none) :
    s.setBlocking h.toHost flag = (false, s.fail errNoSocket stateCreate) := by
  unfold setBlocking onBase Socket.setBlocking Socket.isValidSocket
  rw [hs]
  rfl

theorem setBlocking_some {flag : Bool} {fd : ℕ} (hf : ∀ tick, h.fcntl tick = 0)
    (hs : s.sockfd = some fd) : s.setBlocking h.toHost flag = (true, { s with
      toSocket := { s.toSocket.ticked with blocking := flag, errorCode := errNone }
      modes := Function.update s.modes fd flag }) := by
  unfold setBlocking onBase Socket.setBlocking Socket.isValidSocket
  rw [hs, hf]
  simp [setMode, Socket.ticked, hs]

/-- Once it has been set, the mode is that of the flag. -/
theorem setBlocking_inMode (hf : ∀ tick, h.fcntl tick = 0) (flag : Bool) (s : TcpSocket) :
    InMode (s.setBlocking h.toHost flag).2 := by
  intro fd hfd
  cases hs : s.sockfd with
  | none =>
    rw [setBlocking_none hs] at hfd
    cases hs.symm.trans hfd
  | some fd' =>
    rw [setBlocking_some hf hs] at hfd ⊢
    obtain rfl := Option.some.inj (hs.symm.trans hfd)
    exact Function.update_self ..

theorem pendingConnect_alike (s : TcpSocket) :
    Alike s (s.onBase (Socket.pendingConnect h.toHost)).2 := by
  unfold onBase Socket.pendingConnect
  dsimp only [Socket.fail, Socket.ticked]
  split
  · exact ⟨rfl, rfl, rfl, rfl⟩
  · split
    · split
      · split <;> exact ⟨rfl, rfl, rfl, rfl⟩
      · split <;> exact ⟨rfl, rfl, rfl, rfl⟩
    · exact ⟨rfl, rfl, rfl, rfl⟩

/-- A connect under a timeout leaves the descriptor in the mode of the flag, and any
other leaves its mode alone. -/
theorem nativeConnect_inMode (hf : ∀ tick, h.fcntl tick = 0) (hs : s.isValidSocket = true) :
    (s.nativeConnect h.toHost).2.settings = s.settings ∧
      (s.connectTimeoutMs > 0 ∨ InMode s → InMode (s.nativeConnect h.toHost).2) := by
  unfold nativeConnect
  split
  · obtain ⟨fd, hfd⟩ := Option.isSome_iff_exists.mp hs
    unfold guardedConnect
    rw [setBlocking_some hf hfd]
    dsimp only
    rw [if_neg (by decide)]
    have hwait := pendingConnect_alike (h := h) { s with
      toSocket := { s.toSocket.ticked with blocking := false, errorCode := errNone }
      modes := Function.update s.modes fd false }
    generalize onBase (Socket.pendingConnect h.toHost) { s with
      toSocket := { s.toSocket.ticked with blocking := false, errorCode := errNone }
      modes := Function.update s.modes fd false } = r at hwait
    have hback := setBlocking_inMode (h := h) hf s.blocking r.2
    rw [setBlocking_some hf (hwait.sockfd.trans hfd)] at hback ⊢
    have hsettings : (s.blocking, r.2.connectTimeoutMs) = s.settings :=
      congr_arg (s.blocking, ·) hwait.timeout
    split
    · exact ⟨hsettings, fun _ => hback⟩
    · exact ⟨hsettings, fun _ => hback⟩
  · rename_i htimeout
    have halike : Alike s (s.onBase (Socket.plainConnect h.toHost)).2 := by
      unfold onBase Socket.plainConnect
      dsimp only
      split <;> exact ⟨rfl, rfl, rfl, rfl⟩
    refine ⟨Prod.ext halike.blocking halike.timeout, fun hor => ?_⟩
    exact halike.inMode (hor.resolve_left htimeout)

theorem create_settings (h : Host) (family : Family) (s : Socket) :
    ((s.create h family).2.blocking = s.blocking ∧
      (s.create h family).2.connectTimeoutMs = s.connectTimeoutMs) ∧
      (s.create h family).2.sockfd.isSome = (s.create h family).1 := by
  have hnoted : s.noteReopened.blocking = s.blocking ∧
      s.noteReopened.connectTimeoutMs = s.connectTimeoutMs := by
    unfold Socket.noteReopened
    cases s.sockfd <;> exact ⟨rfl, rfl⟩
  unfold Socket.create
  dsimp only
  split
  · rename_i hnone
    exact ⟨hnoted, congr_arg Option.isSome hnone⟩
  · rename_i hsome
    exact ⟨hnoted, congr_arg Option.isSome hsome⟩

/-- A new descriptor is in blocking mode. -/
theorem create_mode (family : Family) (s : TcpSocket) :
    (s.create h.toHost family).2.settings = s.settings ∧
      ((s.create h.toHost family).1 = false → (s.create h.toHost family).2.sockfd = none) ∧
      ((s.create h.toHost family).1 = true → ∃ fd, (s.create h.toHost family).2.sockfd = some fd ∧
        (s.create h.toHost family).2.modes fd = true) := by
  obtain ⟨⟨hblocking, htimeout⟩, hmade⟩ := create_settings h.toHost family s.toSocket
  have hsettings : (s.onBase (Socket.create h.toHost family)).2.settings = s.settings :=
    Prod.ext hblocking htimeout
  unfold create
  dsimp only
  split
  · rename_i hok
    obtain ⟨fd, hfd⟩ := Option.isSome_iff_exists.mp (hmade.trans hok)
    refine ⟨hsettings, fun hno => absurd (hok.symm.trans hno) (by decide), fun _ => ⟨fd, hfd, ?_⟩⟩
    have hset : (s.onBase (Socket.create h.toHost family)).2.sockfd = some fd := hfd
    unfold setMode
    rw [hset]
    exact Function.update_self ..
  · rename_i hno
    exact ⟨hsettings, fun _ => Option.not_isSome_iff_eq_none.mp fun hsome =>
      hno (hmade.symm.trans hsome), fun hok => absurd hok hno⟩

section Code

/-- No descriptor of the object is in another mode than its flag says, and one that a
function makes will not be when the function has returned. -/
structure Trusted (trust : Bool × Int → Prop) (s : TcpSocket) : Prop where
  inMode : InMode s
  trust : trust s.settings

variable {trust : Bool × Int → Prop}

/-- The close of the class, from any state.  The handlers keep the mode, and only an
event class, which trusts every state, has them. -/
theorem close_trusted (trust : Bool × Int → Prop) (hcb : ∀ n, Keeps InMode (cb n)) (hevent : event = true → ∀ x, trust x) :
    Triple (fun s => trust s.settings) (close h event cb) (fun _ => Trusted trust) fun _ => InMode := by
  have hbase : Triple (fun s => trust s.settings) (Code.update (onBase (Socket.close h.toHost)))
      (fun _ => Trusted trust) fun _ => InMode := by
    intro s hs
    have hclosed : ((s.onBase (Socket.close h.toHost)).2.sockfd = none) := Socket.close_sockfd ..
    refine ⟨fun fd hfd => (nomatch hclosed.symm.trans hfd), ?_⟩
    have hsettings : (s.onBase (Socket.close h.toHost)).2.settings = s.settings := by
      unfold onBase Socket.close settings
      dsimp only
      split
      · rfl
      · split <;> rfl
    rw [hsettings]
    exact hs
  refine hbase.bind fun closed => Triple.bind (.whenever (fun hboth => ?_) fun _ _ hs => hs) fun _ => .pure
  rw [Bool.and_eq_true] at hboth
  exact (keeps_iff.mp (hcb .closed)).mono (fun _ hs => hs.inMode)
    (fun _ _ hs => ⟨hs, hevent hboth.1 _⟩) fun _ _ hs => hs

/-- A function of the base object that leaves the flag and the descriptor alone. -/
theorem run_alike {α : Type} {P : TcpSocket → Prop} {E : Halt → TcpSocket → Prop}
    {f : TcpSocket → α × TcpSocket} (hf : ∀ s, Alike s (f s).2) (hP : ∀ s t, Alike s t → P s → P t) :
    Triple P ((Part.whole TcpSocket).run f) (fun _ => P) E := fun s hs => hP s _ (hf s) hs

theorem Trusted.alike (hst : Alike s t) (hs : Trusted trust s) : Trusted trust t :=
  ⟨hst.inMode hs.inMode, (Prod.ext hst.blocking hst.timeout : t.settings = s.settings) ▸ hs.trust⟩

/-- What a function that connects or listens leaves: on success the event classes
are still to set the mode. -/
def Outcome (event : Bool) (trust : Bool × Int → Prop) (ok : Bool) (s : TcpSocket) : Prop :=
  if ok then trust s.settings ∧ (event = true ∨ InMode s) else Trusted trust s

theorem Outcome.alike {ok : Bool} (hst : Alike s t) (hs : Outcome event trust ok s) :
    Outcome event trust ok t := by
  have hsettings : t.settings = s.settings := Prod.ext hst.blocking hst.timeout
  unfold Outcome at *
  split
  · rw [if_pos ‹_›] at hs
    exact ⟨hsettings ▸ hs.1, hs.2.imp_right hst.inMode⟩
  · rw [if_neg ‹_›] at hs
    exact hs.alike hst

/-- A descriptor that has just been made. -/
def Fresh (trust : Bool × Int → Prop) (s : TcpSocket) : Prop :=
  trust s.settings ∧ ∃ fd, s.sockfd = some fd ∧ s.modes fd = true

theorem Fresh.inMode (hs : Fresh trust s) (hblocking : s.blocking = true) : InMode s := by
  obtain ⟨-, fd, hfd, hmode⟩ := hs
  intro fd' hfd'
  obtain rfl := Option.some.inj (hfd.symm.trans hfd')
  exact hmode.trans hblocking.symm

theorem Fresh.alike (hst : Alike s t) (hs : Fresh trust s) : Fresh trust t := by
  obtain ⟨htrust, fd, hfd, hmode⟩ := hs
  refine ⟨(Prod.ext hst.blocking hst.timeout : t.settings = s.settings) ▸ htrust, fd,
    hst.sockfd.trans hfd, ?_⟩
  rw [hst.modes]
  exact hmode

theorem run_create {f : TcpSocket → TcpSocket} (hf : ∀ s, Alike s (f s)) (family : Family) :
    Triple (Trusted trust) ((Part.whole TcpSocket).run fun s =>
        ((s.create h.toHost family).1, f (s.create h.toHost family).2))
      (fun made s => if made then Fresh trust s else Trusted trust s) fun _ => InMode := by
  intro s hs
  obtain ⟨hsettings, hfailed, hmade⟩ := create_mode (h := h) family s
  show if (s.create h.toHost family).1 then _ else _
  have htrust : trust (s.create h.toHost family).2.settings := hsettings ▸ hs.trust
  split
  · exact Fresh.alike (hf _) ⟨htrust, hmade ‹_›⟩
  · rename_i hno
    have hnone := hfailed (Bool.eq_false_iff.mpr hno)
    exact Trusted.alike (hf _) ⟨fun fd hfd => (nomatch hnone.symm.trans hfd), htrust⟩

section Connect

variable (hf : ∀ tick, h.fcntl tick = 0) (hcb : ∀ n, Keeps InMode (cb n))
variable (hevent : event = true → ∀ x, trust x)

include hf hcb hevent

theorem tcpConnectAddress_mode
    (hconnect : ∀ x, trust x → event = true ∨ x.2 > 0 ∨ x.1 = true) (target : Sockaddr) :
    Triple (Trusted trust) (tcpConnectAddress h (Part.whole TcpSocket) (close h event cb) target)
      (Outcome event trust) fun _ => InMode := by
  have hclose := close_trusted (h := h) trust hcb hevent
  have hfalse : Triple (Trusted trust) (pure false : Code TcpSocket Bool) (Outcome event trust)
      fun _ => InMode := .ret fun _ hs => hs
  unfold tcpConnectAddress
  refine .ite (fun _ => ?_) fun _ => ?_
  · exact (run_alike (fun _ => ⟨rfl, rfl, rfl, rfl⟩) fun _ _ => Trusted.alike).bind fun _ => hfalse
  · refine (hclose.pre fun _ hs => hs.trust).bind fun _ => ?_
    refine (run_create (f := fun s => { s with connected := false })
      (fun _ => ⟨rfl, rfl, rfl, rfl⟩) target.family).bind fun made => .ite (fun hnot => ?_) fun hmade => ?_
    · obtain rfl : made = false := by simpa using hnot
      exact hfalse
    · have hfresh : made = true := by simpa using hmade
      subst hfresh
      have hnative : Triple (Fresh trust) ((Part.whole TcpSocket).run fun s => s.nativeConnect h.toHost)
          (fun _ s => trust s.settings ∧ (event = true ∨ InMode s)) fun _ => InMode := by
        intro s hs
        obtain ⟨fd, hfd, -⟩ := hs.2
        obtain ⟨hsettings, hmode⟩ := nativeConnect_inMode (s := s) hf (congr_arg Option.isSome hfd)
        refine ⟨hsettings.symm ▸ hs.1, (hconnect _ hs.1).imp_right fun hor => ?_⟩
        exact hmode (hor.imp_right hs.inMode)
      refine hnative.bind fun succeeded => .ite (fun _ => ?_) fun _ => ?_
      · exact (hclose.pre fun _ hs => hs.1).bind fun _ => hfalse
      · refine (run_alike (P := Outcome event trust true) (fun _ => ⟨rfl, rfl, rfl, rfl⟩)
          fun _ _ => Outcome.alike).bind fun _ => .ret fun _ hs => hs

theorem tcpConnectEntries_mode
    (hconnect : ∀ x, trust x → event = true ∨ x.2 > 0 ∨ x.1 = true) (entries : List Sockaddr) :
    Triple (Trusted trust) (tcpConnectEntries h (Part.whole TcpSocket) (close h event cb) entries)
      (Outcome event trust) fun _ => InMode := by
  induction entries with
  | nil => exact .ret fun _ hs => hs
  | cons target entries ih =>
    have hfirst : Triple (Trusted trust) (do
        let success ← tcpConnectAddress h (Part.whole TcpSocket) (close h event cb) target
        if success then return true
        else tcpConnectEntries h (Part.whole TcpSocket) (close h event cb) entries)
        (Outcome event trust) fun _ => InMode := by
      refine (tcpConnectAddress_mode hf hcb hevent hconnect target).bind fun success => ?_
      cases success with
      | true => exact .ret fun _ hs => hs
      | false => exact ih
    cases target with
    | other => exact ih
    | inet port addr => exact hfirst
    | inet6 port flow addr scope => exact hfirst

theorem tcpConnectStored_mode (hconnect : ∀ x, trust x → event = true ∨ x.2 > 0 ∨ x.1 = true) :
    Triple (Trusted trust) (tcpConnectStored h (Part.whole TcpSocket) (close h event cb))
      (Outcome event trust) fun _ => InMode := by
  unfold tcpConnectStored
  refine (run_alike (fun s => ?_) fun _ _ => Trusted.alike).bind fun entries => ?_
  · dsimp only
    split
    · exact ⟨rfl, rfl, rfl, rfl⟩
    · split <;> exact ⟨rfl, rfl, rfl, rfl⟩
  · cases entries with
    | none => exact .ret fun _ hs => hs
    | some entries =>
      refine (tcpConnectEntries_mode hf hcb hevent hconnect entries).bind fun success => ?_
      exact (run_alike (fun _ => ⟨rfl, rfl, rfl, rfl⟩) fun _ _ => Outcome.alike).bind fun _ =>
        .ret fun _ hs => hs

theorem tcpConnectHost_mode (hconnect : ∀ x, trust x → event = true ∨ x.2 > 0 ∨ x.1 = true)
    (hostname : Option String) (port : Int) :
    Triple (Trusted trust) (tcpConnectHost h (Part.whole TcpSocket) (close h event cb) hostname port)
      (Outcome event trust) fun _ => InMode := by
  unfold tcpConnectHost
  refine .ite (fun _ => ?_) fun _ => ?_
  · exact (run_alike (fun _ => ⟨rfl, rfl, rfl, rfl⟩) fun _ _ => Trusted.alike).bind fun _ =>
      .ret fun _ hs => hs
  · exact (run_alike (fun _ => ⟨rfl, rfl, rfl, rfl⟩) fun _ _ => Trusted.alike).bind fun _ =>
      tcpConnectStored_mode hf hcb hevent hconnect

omit hf in
theorem tcpListen_mode (hlisten : ∀ x, trust x → event = true ∨ x.1 = true) (ip : Option String)
    (port : Int) :
    Triple (Trusted trust) (tcpListen h (Part.whole TcpSocket) (close h event cb) ip port)
      (Outcome event trust) fun _ => InMode := by
  have hclose := close_trusted (h := h) trust hcb hevent
  have hfalse : Triple (Trusted trust) (pure false : Code TcpSocket Bool) (Outcome event trust)
      fun _ => InMode := .ret fun _ hs => hs
  have hgiveUp : Triple (Fresh trust) (do let _ ← close h event cb; return false)
      (Outcome event trust) fun _ => InMode := (hclose.pre fun _ hs => hs.1).bind fun _ => hfalse
  have hstep {α : Type} {f : Socket → α × Socket} (hsame : ∀ s, (f s).2.sockfd = s.sockfd ∧
      (f s).2.blocking = s.blocking ∧ (f s).2.connectTimeoutMs = s.connectTimeoutMs) :
      Triple (Fresh trust) ((Part.whole TcpSocket).run (onBase f)) (fun _ => Fresh trust)
        fun _ => InMode :=
    run_alike (fun s => ⟨(hsame s.toSocket).1, (hsame s.toSocket).2.1, (hsame s.toSocket).2.2, rfl⟩)
      fun _ _ => Fresh.alike
  unfold tcpListen
  cases listenTarget h.toHost ip port with
  | none =>
    exact (run_alike (fun _ => ⟨rfl, rfl, rfl, rfl⟩) fun _ _ => Trusted.alike).bind fun _ => hfalse
  | some family =>
    refine (hclose.pre fun _ hs => hs.trust).bind fun _ => ?_
    refine (run_create (f := fun s => s) (fun _ => ⟨rfl, rfl, rfl, rfl⟩) family).bind fun made =>
      .ite (fun hnot => ?_) fun hmade => ?_
    · obtain rfl : made = false := by simpa using hnot
      exact hfalse
    · obtain rfl : made = true := by simpa using hmade
      refine (hstep fun s => ?_).bind fun _ => (hstep fun s => ?_).bind fun bound =>
        .ite (fun _ => hgiveUp) fun _ => (hstep fun s => ?_).bind fun listening =>
          .ite (fun _ => hgiveUp) fun _ => .ret fun s hs => ?_
      · have hoption (s : Socket) : (s.setOption h.toHost).2.sockfd = s.sockfd ∧
            (s.setOption h.toHost).2.blocking = s.blocking ∧
            (s.setOption h.toHost).2.connectTimeoutMs = s.connectTimeoutMs := by
          unfold Socket.setOption
          dsimp only
          split
          · exact ⟨rfl, rfl, rfl⟩
          · split <;> exact ⟨rfl, rfl, rfl⟩
        have hfirst := hoption { s with port := port }
        have hsecond := hoption ({ s with port := port }.setOption h.toHost).2
        unfold Socket.prepareListen
        dsimp only
        split
        · exact ⟨hsecond.1.trans hfirst.1, hsecond.2.1.trans hfirst.2.1,
            hsecond.2.2.trans hfirst.2.2⟩
        · exact hfirst
      · unfold Socket.tcpBind
        dsimp only
        split
        · exact ⟨rfl, rfl, rfl⟩
        · split <;> exact ⟨rfl, rfl, rfl⟩
      · unfold Socket.nativeListen
        dsimp only
        split <;> exact ⟨rfl, rfl, rfl⟩
      · exact ⟨hs.1, (hlisten _ hs.1).imp_right hs.inMode⟩

end Connect

/-- The event classes set the mode that the others have already. -/
theorem finish_mode (hf : ∀ tick, h.fcntl tick = 0) (hcb : ∀ n, Keeps InMode (cb n)) (n : Note)
    (ok : Bool) :
    Triple (Outcome event trust ok) (finish h event cb n ok) (fun _ => InMode) fun _ => InMode := by
  unfold finish
  refine .ite (fun _ => ?_) fun hnot => .ret fun s hs => ?_
  · refine Triple.bind (Q := fun _ => InMode) (fun s _ => setBlocking_inMode hf false s) fun set => ?_
    refine .ite (fun _ => ?_) fun _ => keeps_iff.mp (hcb n)
    refine Triple.bind (Q := fun _ => InMode) (fun s _ fd hfd => ?_) fun _ => .ret fun _ hs => hs
    exact nomatch (Socket.close_sockfd h.toHost s.toSocket).symm.trans hfd
  · unfold Outcome at hs
    split at hs
    · refine hs.2.resolve_left fun hyes => hnot ?_
      simp [*]
    · exact hs.inMode

theorem tcpAccept_mode (h : Host) (timeoutMs : Int) (s : Socket) :
    (s.tcpAccept h timeoutMs).2.sockfd = s.sockfd ∧
      (s.tcpAccept h timeoutMs).2.blocking = s.blocking := by
  have hwait : (if timeoutMs > 0 then s.ticked else s).sockfd = s.sockfd ∧
      (if timeoutMs > 0 then s.ticked else s).blocking = s.blocking := by
    split <;> exact ⟨rfl, rfl⟩
  unfold Socket.tcpAccept
  dsimp only
  generalize (if timeoutMs > 0 then s.ticked else s) = t at hwait
  generalize (if timeoutMs > 0 then h.select s.tick else ⟨1, 0⟩) = ready
  split
  · exact ⟨rfl, rfl⟩
  · split
    · exact hwait
    · split
      · exact hwait
      · split
        · split <;> simpa only [Socket.fail, Socket.ticked] using hwait
        · split <;> simpa only [Socket.fail, Socket.record, Socket.ticked] using hwait

/-- An operation that can be trusted keeps the mode. -/
theorem exec_inMode (hf : ∀ tick, h.fcntl tick = 0) (hcb : ∀ n, Keeps InMode (cb n)) (o : Op)
    (ho : o.trusts event s) (hs : InMode s) : InMode ((system h event).exec cb o s).2 := by
  have hafter {m : Code TcpSocket Bool} {n : Note} {trust : Bool × Int → Prop}
      (hm : Triple (Trusted trust) m (Outcome event trust) fun _ => InMode)
      (ht : trust s.settings) : InMode ((m >>= finish h event cb n) s).2 := by
    have hend := hm.bind (finish_mode hf hcb n) s ⟨hs, ht⟩
    revert hend
    rcases (m >>= finish h event cb n) s with ⟨_ | _, t⟩ <;> exact id
  have hsame {t : TcpSocket} (hfd : t.sockfd = s.sockfd) (hblocking : t.blocking = s.blocking)
      (hmodes : t.modes = s.modes) : InMode t := by
    intro fd ht
    rw [hmodes, hblocking]
    exact hs fd (hfd ▸ ht)
  cases o with
  | setBlocking flag => exact setBlocking_inMode hf flag s
  | setConnectTimeout timeoutMs =>
    have hset : ((s.toSocket.setConnectTimeout timeoutMs).2.sockfd = s.sockfd) ∧
        (s.toSocket.setConnectTimeout timeoutMs).2.blocking = s.blocking := by
      unfold Socket.setConnectTimeout
      split <;> exact ⟨rfl, rfl⟩
    exact hsame (t := (s.onBase (Socket.setConnectTimeout timeoutMs)).2) hset.1 hset.2 rfl
  | connectStored => exact hafter (tcpConnectStored_mode hf hcb (fun hyes _ => .inl hyes) fun _ => id) ho
  | connectHost hostname port =>
    exact hafter (tcpConnectHost_mode hf hcb (fun hyes _ => .inl hyes) (fun _ => id) hostname port) ho
  | connectAddress target =>
    exact hafter (tcpConnectAddress_mode hf hcb (fun hyes _ => .inl hyes) (fun _ => id) target) ho
  | listen ip port =>
    have hevent (hyes : event = true) (x : Bool × Int) : event = true ∨ x.1 = true := .inl hyes
    exact hafter (tcpListen_mode hcb hevent (fun _ => id) ip port) ho
  | accept timeoutMs =>
    have haccept := tcpAccept_mode h.toHost timeoutMs s.toSocket
    exact hsame (t := (s.onBase (Socket.tcpAccept h.toHost timeoutMs)).2) haccept.1 haccept.2 rfl
  | close =>
    have hend := close_trusted (h := h) (fun _ => True) hcb (fun (_ : event = true) _ => trivial) s trivial
    show InMode ((close h event cb >>= fun _ => pure ()) s).2
    rw [Code.bind_run]
    revert hend
    rcases close h event cb s with ⟨_ | _, t⟩
    · exact id
    · exact fun hend => hend.inMode

/-- The constructors of the event classes set the mode. -/
theorem ofClass_inMode (hf : ∀ tick, h.fcntl tick = 0) (hs : event = true ∨ InMode s) :
    InMode (s.ofClass h.toHost event) := by
  unfold ofClass constructEvent
  split
  · dsimp only
    split
    · rename_i hinvalid
      intro fd hfd
      simp [Socket.isValidSocket, hfd] at hinvalid
    · split
      · exact setBlocking_inMode hf false s
      · intro fd hfd
        cases (Socket.close_sockfd h.toHost _).symm.trans hfd
  · exact hs.resolve_left ‹_›

theorem construct_opened {h : Host} {tick fd : ℕ} (hfd : (Socket.construct h tick).sockfd = some fd) :
    (Socket.construct h tick).log = [.opened fd] ∧ (Socket.construct h tick).blocking = true := by
  revert hfd
  unfold Socket.construct
  split
  · exact nofun
  · dsimp only
    split
    · exact fun hfd => ⟨congr_arg (fun fd => [Event.opened fd]) (Option.some.inj hfd), rfl⟩
    · exact fun hfd => ⟨congr_arg (fun fd => [Event.opened fd]) (Option.some.inj hfd), rfl⟩

/-- An object that is given a descriptor in blocking mode only, unless its class sets
the mode, starts in the mode of its flag. -/
theorem New.inMode (hf : ∀ tick, h.fcntl tick = 0)
    (hs : New h.toHost event (fun mode => event = true ∨ mode = true) s) : InMode s := by
  cases hs with
  | construct tick modes =>
    refine ofClass_inMode hf (.inr fun fd hfd => ?_)
    have hbase := construct_opened (h := h.toHost) hfd
    show (Socket.construct h.toHost tick).log.foldl Event.settleMode modes fd = _
    rw [hbase.1]
    exact (Function.update_self ..).trans hbase.2.symm
  | adopt tick fd modes hmode =>
    refine ofClass_inMode hf (hmode.imp_right fun htrue fd' hfd => ?_)
    have hbase : (Socket.adopt h.toHost tick fd).sockfd = some fd ∧
        (Socket.adopt h.toHost tick fd).blocking = true := by
      unfold Socket.adopt
      dsimp only
      split <;> exact ⟨rfl, rfl⟩
    obtain rfl := Option.some.inj (hbase.1.symm.trans hfd)
    exact htrue.trans hbase.2.symm
  | accepted tick fd blocking modes ht =>
    have hset := setBlocking_inMode hf blocking
      ((TcpSocket.adopt h.toHost tick fd modes).ofClass h.toHost event)
    rwa [ht] at hset

/-- In every run of a TCP object whose steps can be trusted, the flag is the mode of
the descriptor. -/
theorem run_inMode (hf : ∀ tick, h.fcntl tick = 0)
    (hnew : New h.toHost event (fun mode => event = true ∨ mode = true) s)
    (hrun : Run (system h event) (fun s o => o.trusts event s) (fun s o => o.trusts event s)
      (fun _ _ => True) s t) : InMode t := by
  refine hrun.keeps (fun o cb hcb u ho hu => ?_) (hnew.inMode hf)
  refine exec_inMode hf (fun n => ?_) o ho hu
  exact hcb.keeps (fun o cb _ hcb u ho hu => exec_inMode hf hcb o ho hu) n

end Code

end Modes

end TcpSocket

/-- A datagram socket, with the modes of the native descriptors. -/
structure ModedUdp extends UdpSocket where
  modes : Modes := fun _ => true

namespace ModedUdp

variable {α : Type} (h : UdpHost)

def InMode (s : ModedUdp) : Prop := ∀ fd, s.sockfd = some fd → s.modes fd = s.blocking

/-- A function of the datagram socket, whose new events say which modes it has set. -/
def onUdp (f : UdpSocket → α × UdpSocket) (s : ModedUdp) : ModedUdp :=
  let t := (f s.toUdpSocket).2
  { toUdpSocket := t, modes := (t.log.drop s.log.length).foldl Event.settleMode s.modes }

def setBlocking (flag : Bool) (s : ModedUdp) : ModedUdp :=
  let r := s.toSocket.setBlocking h.toHost flag
  { s with
    toSocket := r.2
    modes := if r.1 then s.sockfd.elim s.modes fun fd => Function.update s.modes fd flag
      else s.modes }

def close (s : ModedUdp) : ModedUdp := { s with toSocket := (s.toSocket.close h.toHost).2 }

/-- `udp_socket()`, and for the event classes the mode that they set. -/
def construct (event : Bool) (tick : ℕ) (modes : Modes) : ModedUdp :=
  let s := UdpSocket.construct h tick
  let s : ModedUdp := { toUdpSocket := s, modes := s.log.foldl Event.settleMode modes }
  if event && s.isValidSocket then
    let set := s.setBlocking h false
    if (s.toSocket.setBlocking h.toHost false).1 then set else set.close h
  else s

inductive Op
  | setBlocking (flag : Bool)
  | connectStored
  | connectHost (hostname : Option String) (port : Int)
  | connectAddress (target : Sockaddr)
  | listen (port : Int) (bind : Option NativeBindFn)
  | close

/-- The public operations.  The event classes call their handlers when the operation
is over, so what these do comes after it. -/
def exec (s : ModedUdp) : Op → ModedUdp
  | .setBlocking flag => s.setBlocking h flag
  | .connectStored => s.onUdp (UdpSocket.udpConnectStored h)
  | .connectHost hostname port => s.onUdp (UdpSocket.udpConnectHost h hostname port)
  | .connectAddress target => s.onUdp (UdpSocket.udpConnectAddress h target)
  | .listen port bind => s.onUdp (UdpSocket.udpListenWith h port bind)
  | .close => s.close h

section Modes

variable {h : UdpHost} {s t u : UdpSocket}

/-- What has been done since `s` leaves the descriptor that is held in the mode of the
flag, if it was in that mode before. -/
structure Settles (s t : UdpSocket) : Prop where
  blocking : t.blocking = s.blocking
  done : ∃ events, t.log = s.log ++ events ∧ ∀ modes : Modes,
    (∀ fd, s.sockfd = some fd → modes fd = s.blocking) →
      ∀ fd, t.sockfd = some fd → events.foldl Event.settleMode modes fd = s.blocking

theorem Settles.refl (s : UdpSocket) : Settles s s :=
  ⟨rfl, [], (List.append_nil _).symm, fun _ hmodes => hmodes⟩

theorem Settles.trans (hst : Settles s t) (htu : Settles t u) : Settles s u := by
  obtain ⟨hfirst, es, hes, hset⟩ := hst
  obtain ⟨hsecond, fs, hfs, hthen⟩ := htu
  refine ⟨hsecond.trans hfirst, es ++ fs, by rw [hfs, hes, List.append_assoc], ?_⟩
  intro modes hmodes fd hfd
  rw [List.foldl_append, ← hfirst]
  refine hthen _ (fun fd' hfd' => ?_) fd hfd
  rw [hfirst]
  exact hset modes hmodes fd' hfd'

/-- Only the descriptor, the flag and the log matter. -/
theorem Settles.same (hst : Settles s t) (hfd : u.sockfd = t.sockfd) (hflag : u.blocking = t.blocking)
    (hlog : u.log = t.log) : Settles s u := by
  obtain ⟨hfirst, es, hes, hset⟩ := hst
  exact ⟨hflag.trans hfirst, es, hlog.trans hes, fun modes hmodes fd hu =>
    hset modes hmodes fd (hfd ▸ hu)⟩

theorem closeCandidate_settles (fd : ℕ) (s : UdpSocket) : Settles s (s.closeCandidate fd) :=
  ⟨rfl, [.closed fd], rfl, fun _ hmodes => hmodes⟩

theorem closePrior_settles (prior : Option ℕ) (s : UdpSocket) : Settles s (s.closePrior prior) := by
  cases prior with
  | none => exact .refl s
  | some fd => exact closeCandidate_settles fd s

/-- The candidate is given the mode of the flag before it is held. -/
theorem selectFamily_settles (hf : ∀ tick, h.fcntl tick = 0) (family : Family) (s : UdpSocket) :
    Settles s (s.selectFamily h family s.blocking).2 ∧
      ∀ candidate, (s.selectFamily h family s.blocking).1 = some candidate →
        Settles s { (s.selectFamily h family s.blocking).2 with sockfd := some candidate } := by
  unfold UdpSocket.selectFamily
  split
  · exact ⟨.refl s, nofun⟩
  · split
    · exact ⟨(Settles.refl s).same rfl rfl rfl, nofun⟩
    · rename_i made _
      dsimp only
      rw [if_neg (by rw [hf]; decide)]
      have hlog : s.log ++ [.opened made] ++ [.configured made family s.blocking] =
          s.log ++ [.opened made, .configured made family s.blocking] := List.append_assoc ..
      refine ⟨⟨rfl, _, hlog, fun modes hmodes fd hfd => ?_⟩, fun candidate hmade => ?_⟩
      · show Function.update (Function.update modes made true) made s.blocking fd = s.blocking
        by_cases hsame : fd = made
        · rw [hsame, Function.update_self]
        · rw [Function.update_of_ne hsame, Function.update_of_ne hsame]
          exact hmodes fd hfd
      · obtain rfl := Option.some.inj hmade
        refine ⟨rfl, _, hlog, fun modes _ fd hfd => ?_⟩
        obtain rfl := Option.some.inj hfd
        exact Function.update_self ..

theorem udpConnectAddress_settles (hf : ∀ tick, h.fcntl tick = 0) (target : Sockaddr)
    (s : UdpSocket) : Settles s (s.udpConnectAddress h target).2 := by
  obtain ⟨hkept, hmade⟩ := selectFamily_settles (h := h) hf target.family s
  unfold UdpSocket.udpConnectAddress
  dsimp only
  split
  · exact (Settles.refl s).same rfl rfl rfl
  · split
    · generalize s.selectFamily h target.family s.blocking = made at hkept hmade
      cases hcandidate : made.1 with
      | none => exact hkept.same rfl rfl rfl
      | some candidate =>
        have hheld : Settles s { made.2 with sockfd := some candidate, netFamily := target.family } :=
          (hmade candidate hcandidate).same rfl rfl rfl
        exact (hheld.trans (closePrior_settles made.2.sockfd _)).same rfl rfl rfl
    · exact (Settles.refl s).same rfl rfl rfl

theorem udpConnectEntries_settles (hf : ∀ tick, h.fcntl tick = 0) (entries : List Sockaddr)
    (s : UdpSocket) : Settles s (s.udpConnectEntries h entries).2 := by
  induction entries generalizing s with
  | nil => exact .refl s
  | cons target entries ih =>
    have hfirst : Settles s (if (s.udpConnectAddress h target).1 then s.udpConnectAddress h target
        else (s.udpConnectAddress h target).2.udpConnectEntries h entries).2 := by
      split
      · exact udpConnectAddress_settles hf target s
      · exact (udpConnectAddress_settles hf target s).trans (ih _)
    cases target with
    | other => exact ih s
    | inet port addr => exact hfirst
    | inet6 port flow addr scope => exact hfirst

theorem udpConnectHost_settles (hf : ∀ tick, h.fcntl tick = 0) (hostname : Option String)
    (port : Int) (s : UdpSocket) : Settles s (s.udpConnectHost h hostname port).2 := by
  unfold UdpSocket.udpConnectHost
  dsimp only
  split
  · exact (Settles.refl s).same rfl rfl rfl
  · split
    · exact (Settles.refl s).same rfl rfl rfl
    · have hentries := fun entries => ((Settles.refl s).same (u := s.ticked) rfl rfl rfl).trans
        (udpConnectEntries_settles hf entries s.ticked)
      split
      · exact (hentries _).same rfl rfl rfl
      · exact (hentries _).same rfl rfl rfl

theorem listenFamily_settles (hf : ∀ tick, h.fcntl tick = 0) (bind : NativeBindFn) (port : Int)
    (family : Family) (s : UdpSocket) : Settles s (s.listenFamily h bind port family).2 := by
  obtain ⟨hkept, hmade⟩ := selectFamily_settles (h := h) hf family s
  unfold UdpSocket.listenFamily
  dsimp only
  generalize s.selectFamily h family s.blocking = made at hkept hmade
  cases hcandidate : made.1 with
  | none => exact hkept.same rfl rfl rfl
  | some candidate =>
    have hdual (fd : Option ℕ) (hst : Settles s { made.2 with sockfd := fd }) :
        Settles s { (if family = .inet6 then made.2.ticked else made.2) with sockfd := fd } := by
      split
      · exact hst.same rfl rfl rfl
      · exact hst
    have hleft := hdual made.2.sockfd (hkept.same rfl rfl rfl)
    have hheld := hdual (some candidate) (hmade candidate hcandidate)
    have hprior : (if family = .inet6 then made.2.ticked else made.2).sockfd = made.2.sockfd := by
      split <;> rfl
    rw [← hprior] at hleft
    dsimp only
    generalize (if family = .inet6 then h.setsockopt made.2.tick else 0) = dual
    generalize (if family = .inet6 then made.2.ticked else made.2) = v at hleft hheld
    split
    · exact hleft.trans (closeCandidate_settles candidate v)
    · have hbound (fd : Option ℕ) :
          Settles { v with sockfd := fd } { v.ticked.record (.bound candidate) with sockfd := fd } :=
        ⟨rfl, [.bound candidate], rfl, fun _ hmodes => hmodes⟩
      split
      · refine Settles.trans ?_ (closePrior_settles _ _)
        exact (hheld.trans (hbound (some candidate))).same rfl rfl rfl
      · refine Settles.trans ?_ (closeCandidate_settles _ _)
        exact (hleft.trans (hbound v.sockfd)).same rfl rfl rfl

theorem listenFamilies_settles (hf : ∀ tick, h.fcntl tick = 0) (bind : NativeBindFn) (port : Int)
    (families : List Family) (lastError : Int) (s : UdpSocket) :
    Settles s (s.listenFamilies h bind port families lastError).2 := by
  induction families generalizing lastError s with
  | nil => exact (Settles.refl s).same rfl rfl rfl
  | cons family families ih =>
    have hfamily := listenFamily_settles (h := h) hf bind port family s
    unfold UdpSocket.listenFamilies
    generalize s.listenFamily h bind port family = r at hfamily
    rcases r with ⟨_ | error, t⟩
    · exact hfamily
    · exact hfamily.trans (ih error t)

theorem udpListenWith_settles (hf : ∀ tick, h.fcntl tick = 0) (port : Int)
    (bind : Option NativeBindFn) (s : UdpSocket) : Settles s (s.udpListenWith h port bind).2 := by
  unfold UdpSocket.udpListenWith
  cases bind with
  | none => exact (Settles.refl s).same rfl rfl rfl
  | some bind =>
    dsimp only
    split
    · exact (Settles.refl s).same rfl rfl rfl
    · exact listenFamilies_settles hf bind port _ _ s

end Modes

section Runs

variable {h : UdpHost} {s t : ModedUdp}

theorem onUdp_inMode {f : UdpSocket → Bool × UdpSocket} (hf : Settles s.toUdpSocket (f s.toUdpSocket).2)
    (hs : InMode s) : InMode (s.onUdp f) := by
  obtain ⟨hflag, events, hlog, hset⟩ := hf
  intro fd hfd
  have hnew : (f s.toUdpSocket).2.log.drop s.log.length = events := by
    rw [hlog, List.drop_left]
  show ((f s.toUdpSocket).2.log.drop s.log.length).foldl Event.settleMode s.modes fd =
    (f s.toUdpSocket).2.blocking
  rw [hnew, hflag]
  exact hset s.modes hs fd hfd

theorem setBlocking_inMode (hf : ∀ tick, h.fcntl tick = 0) (flag : Bool) (s : ModedUdp) :
    InMode (s.setBlocking h flag) := by
  unfold setBlocking Socket.setBlocking Socket.isValidSocket
  cases hheld : s.sockfd with
  | none => exact fun fd hfd => nomatch hheld.symm.trans hfd
  | some fd =>
    rw [hf]
    intro fd' hfd'
    obtain rfl := Option.some.inj (hheld.symm.trans hfd')
    exact Function.update_self ..

theorem close_inMode (s : ModedUdp) : InMode (s.close h) :=
  fun _ hfd => nomatch (Socket.close_sockfd h.toHost s.toSocket).symm.trans hfd

/-- Every operation on a datagram socket keeps the mode. -/
theorem exec_inMode (hf : ∀ tick, h.fcntl tick = 0) (o : Op) (hs : InMode s) :
    InMode (s.exec h o) := by
  cases o with
  | setBlocking flag => exact setBlocking_inMode hf flag s
  | connectStored => exact onUdp_inMode (udpConnectAddress_settles hf _ _) hs
  | connectHost hostname port => exact onUdp_inMode (udpConnectHost_settles hf hostname port _) hs
  | connectAddress target => exact onUdp_inMode (udpConnectAddress_settles hf target _) hs
  | listen port bind => exact onUdp_inMode (udpListenWith_settles hf port bind _) hs
  | close => exact close_inMode s

/-- The class calls its constructor's mode before anything else is done. -/
theorem construct_inMode (hf : ∀ tick, h.fcntl tick = 0) (event : Bool) (tick : ℕ) (modes : Modes) :
    InMode (construct h event tick modes) := by
  have hbase (s : ModedUdp) (hs : InMode s) : InMode (if event && s.isValidSocket then
      if (s.toSocket.setBlocking h.toHost false).1 then s.setBlocking h false
      else (s.setBlocking h false).close h
      else s) := by
    split
    · split
      · exact setBlocking_inMode hf false s
      · exact close_inMode _
    · exact hs
  refine hbase _ fun fd hfd => ?_
  have hnew : (UdpSocket.construct h tick).toSocket.log = (Socket.construct h.toHost tick).log ∧
      (UdpSocket.construct h tick).sockfd = (Socket.construct h.toHost tick).sockfd ∧
      (UdpSocket.construct h tick).blocking = (Socket.construct h.toHost tick).blocking := by
    unfold UdpSocket.construct
    dsimp only
    split <;> exact ⟨rfl, rfl, rfl⟩
  obtain ⟨hlog, hblocking⟩ := TcpSocket.construct_opened (hnew.2.1.symm.trans hfd)
  show (UdpSocket.construct h tick).log.foldl Event.settleMode modes fd = _
  rw [hnew.1, hlog]
  exact (Function.update_self ..).trans (hnew.2.2.trans hblocking).symm

theorem run_inMode (hf : ∀ tick, h.fcntl tick = 0) (ops : List Op) (hs : InMode s) :
    InMode (ops.foldl (exec h) s) := by
  induction ops generalizing s with
  | nil => exact hs
  | cons o ops ih => exact ih (exec_inMode hf o hs)

end Runs

end ModedUdp

/-- Where the mode can be set, the flag of every object is the mode of its descriptor
after every operation.  The handlers may do anything with the object, and may throw
at any moment, so this is about the moments at which they act too. -/
theorem blocking_is_mode {h : TcpHost} {u : UdpHost} (hf : ∀ tick, h.fcntl tick = 0)
    (hu : ∀ tick, u.fcntl tick = 0) :
    (∀ event s t, TcpSocket.New h.toHost event (fun mode => event = true ∨ mode = true) s →
      Run (TcpSocket.system h event) (fun s o => o.trusts event s) (fun s o => o.trusts event s)
        (fun _ _ => True) s t → t.InMode) ∧
      ∀ event tick modes (ops : List ModedUdp.Op),
        (ops.foldl (ModedUdp.exec u) (ModedUdp.construct u event tick modes)).InMode :=
  ⟨fun _ _ _ hnew hrun => TcpSocket.run_inMode hf hnew hrun,
    fun event tick modes ops =>
      ModedUdp.run_inMode hu ops (ModedUdp.construct_inMode hu event tick modes)⟩

/-- A datagram socket that is made non-blocking and then sends elsewhere. -/
def redirected : List ModedUdp.Op :=
  [.setBlocking false, .connectAddress (.inet6 53 0 (.replicate 16 0) 0)]

/-- An event client that connects to a new address. -/
def reattached : List TcpSocket.Op := [.connectAddress (.inet 80 (dotted 127 0 0 1))]

theorem blocking_is_mode_steady :
    (script (TcpSocket.system TcpSocket.steadyHost true) reattached
      ((TcpSocket.construct .steady 0 fun _ => true).ofClass .steady true)).2.InMode ∧
      (redirected.foldl (ModedUdp.exec .steady)
        (ModedUdp.construct .steady false 0 fun _ => true)).InMode := by
  have hmode := blocking_is_mode (h := TcpSocket.steadyHost) (u := .steady) (fun _ => rfl) fun _ => rfl
  refine ⟨hmode.1 true _ _ (.construct 0 _) (Run.start.script reattached fun o ho t => ?_),
    hmode.2 false 0 (fun _ => true) redirected⟩
  obtain rfl := List.mem_singleton.mp ho
  exact .inl rfl

/-- A client that has been made non-blocking connects to another address. -/
theorem fresh_descriptor_blocks : ¬∀ (h : TcpHost), (∀ tick, h.fcntl tick = 0) → ∀ event s t,
    TcpSocket.New h.toHost event (fun _ => True) s →
      Run (TcpSocket.system h event) (fun _ _ => True) (fun _ _ => True) (fun _ _ => True) s t →
        t.InMode := by
  intro hall
  let s := (TcpSocket.construct .steady 0 fun _ => true).ofClass .steady false
  have hrun : Run (TcpSocket.system TcpSocket.steadyHost false) (fun _ _ => True) (fun _ _ => True)
      (fun _ _ => True) s _ :=
    Run.script .start [.setBlocking false, .connectAddress (.inet 80 #v[127, 0, 0, 1])]
      fun _ _ _ => trivial
  have hmode := hall TcpSocket.steadyHost (fun _ => rfl) false _ _ (.construct 0 fun _ => true) hrun
  exact absurd (hmode 3 rfl) (by decide +kernel)

end Aeon
