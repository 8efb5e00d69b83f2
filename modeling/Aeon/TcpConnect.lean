import Aeon.TcpSocket

/-!
# What a connect leaves

`tcp_connect` on an object whose class closes it as the base class does, without
a handler.  An address gives a connection to it or a closed object with an error;
a list of addresses is tried in order up to the first that connects.
-/

namespace Aeon

open Program Errno

/-- A native call that fails reports an error. -/
structure Host.ReportsErrors (h : Host) : Prop where
  select : ∀ tick, (h.select tick).ret < 0 → (h.select tick).errno ≠ 0
  getsockopt : ∀ tick, (h.getsockopt tick).ret ≠ 0 → (h.getsockopt tick).errno ≠ 0

theorem translateNativeError_ne {e : ℕ} (he : e ≠ 0) : translateNativeError e ≠ errNone := by
  have hlt := translateNativeError_lt he
  simp only [socketError, errNone] at *
  omega

namespace Socket

/-- An error of a connect. -/
structure Erred (s : Socket) : Prop where
  errorCode : s.errorCode ≠ errNone
  errorState : s.errorState = stateCreate ∨ s.errorState = stateConnect

/-- A closed object with the error. -/
structure Refused (s : Socket) : Prop extends Erred s where
  closed : s.sockfd = none
  connected : s.connected = false

/-- A new descriptor of the family, not connected. -/
structure Created (family : Family) (s : Socket) : Prop where
  valid : s.isValidSocket = true
  family : s.netFamily = family
  connected : s.connected = false

variable {h : Host} {s t : Socket} {family : Family}

/-- The descriptor is the same, and the object as connected as it was. -/
structure SameDescriptor (s t : Socket) : Prop where
  sockfd : t.sockfd = s.sockfd
  family : t.netFamily = s.netFamily
  connected : t.connected = s.connected

theorem SameDescriptor.trans {u : Socket} (h : SameDescriptor s t) (h' : SameDescriptor t u) :
    SameDescriptor s u :=
  ⟨h'.sockfd.trans h.sockfd, h'.family.trans h.family, h'.connected.trans h.connected⟩

theorem SameDescriptor.created (h : SameDescriptor s t) (hs : Created family s) :
    Created family t := by
  refine ⟨?_, h.family.trans hs.family, h.connected.trans hs.connected⟩
  rw [Socket.isValidSocket, h.sockfd]
  exact hs.valid

/-- A mode that cannot be set is an error, and one that is set changes no state. -/
structure ModeSpec (s : Socket) (r : Bool × Socket) : Prop where
  same : SameDescriptor s r.2
  failed : r.1 = false → r.2.errorCode ≠ errNone ∧ r.2.errorState = stateCreate
  kept : r.1 = true → r.2.errorState = s.errorState

theorem setBlocking_spec (flag : Bool) (s : Socket) : ModeSpec s (s.setBlocking h flag) := by
  unfold setBlocking
  dsimp only
  split
  · exact ⟨⟨rfl, rfl, rfl⟩, fun _ => ⟨by simp [fail, errNoSocket, errNone], rfl⟩, nofun⟩
  · split
    · rename_i herr
      exact ⟨⟨rfl, rfl, rfl⟩, fun _ => ⟨translateNativeError_ne herr, rfl⟩, nofun⟩
    · exact ⟨⟨rfl, rfl, rfl⟩, nofun, fun _ => rfl⟩

/-- A connect fails with an error of the connect. -/
structure ConnectSpec (s : Socket) (r : Bool × Socket) : Prop where
  same : SameDescriptor s r.2
  failed : r.1 = false → Erred r.2

/-- A pending connect fails with the error of the call that has told so. -/
theorem pendingConnect_spec (hn : h.ReportsErrors) (s : Socket) :
    SameDescriptor s (s.pendingConnect h).2 ∧ ((s.pendingConnect h).1 = false →
      (s.pendingConnect h).2.errorCode ≠ errNone ∧
        (s.pendingConnect h).2.errorState = stateConnect) := by
  unfold pendingConnect
  dsimp only
  split
  · exact ⟨⟨rfl, rfl, rfl⟩, nofun⟩
  · rename_i hconnect
    split
    · split
      · split
        · exact ⟨⟨rfl, rfl, rfl⟩, nofun⟩
        · rename_i hanswer
          refine ⟨⟨rfl, rfl, rfl⟩, fun _ => ⟨translateNativeError_ne fun hzero => ?_, rfl⟩⟩
          refine hanswer ⟨?_, hzero⟩
          by_contra hret
          exact hn.getsockopt _ hret hzero
      · rename_i hready
        split
        · exact ⟨⟨rfl, rfl, rfl⟩, fun _ => ⟨by simp [fail, errTimeout, errNone], rfl⟩⟩
        · rename_i hzero
          have herr := hn.select (s.tick + 1) (by simp [ticked] at hready hzero; omega)
          exact ⟨⟨rfl, rfl, rfl⟩, fun _ => ⟨translateNativeError_ne herr, rfl⟩⟩
    · exact ⟨⟨rfl, rfl, rfl⟩, fun _ => ⟨translateNativeError_ne hconnect, rfl⟩⟩

/-- The guard puts the mode back and keeps the error, or leaves its own. -/
theorem guardedConnect_spec (hn : h.ReportsErrors) (s : Socket) :
    ConnectSpec s (s.guardedConnect h) := by
  have hset := s.setBlocking_spec (h := h) false
  unfold guardedConnect
  dsimp only
  generalize s.setBlocking h false = guarded at hset
  split
  · rename_i hnot
    have hfailed := hset.failed (by simpa using hnot)
    exact ⟨⟨hset.same.sockfd, hset.same.family, hset.same.connected⟩, fun _ => ⟨hfailed.1, .inr rfl⟩⟩
  · obtain ⟨hwait, hwaitFailed⟩ := guarded.2.pendingConnect_spec hn
    generalize guarded.2.pendingConnect h = r at hwait hwaitFailed
    have hback := r.2.setBlocking_spec (h := h) s.blocking
    have hall := (hset.same.trans hwait).trans hback.same
    generalize r.2.setBlocking h s.blocking = restored at hback hall
    split
    · rename_i hkeep
      rw [Bool.and_eq_true, bne_iff_ne] at hkeep
      exact ⟨⟨hall.sockfd, hall.family, hall.connected⟩, fun hfail =>
        ⟨hkeep.2, .inr ((hback.kept hkeep.1).trans (hwaitFailed hfail).2)⟩⟩
    · rename_i hlost
      refine ⟨hall, fun hfail => ?_⟩
      have hnot : restored.1 = false := by
        by_contra hyes
        refine hlost ?_
        rw [Bool.and_eq_true, bne_iff_ne]
        exact ⟨(Bool.not_eq_false _).mp hyes, (hwaitFailed hfail).1⟩
      exact ⟨(hback.failed hnot).1, .inl (hback.failed hnot).2⟩

theorem nativeConnect_spec (hn : h.ReportsErrors) (s : Socket) : ConnectSpec s (s.nativeConnect h) := by
  unfold nativeConnect
  split
  · exact s.guardedConnect_spec hn
  · unfold plainConnect
    dsimp only
    split
    · exact ⟨⟨rfl, rfl, rfl⟩, nofun⟩
    · rename_i herr
      exact ⟨⟨rfl, rfl, rfl⟩, fun _ => ⟨translateNativeError_ne herr, .inr rfl⟩⟩

/-- What the `::socket` of a connect leaves. -/
theorem create_spec (family : Family) (s : Socket) :
    ((s.create h family).1 = true → Created family { (s.create h family).2 with connected := false }) ∧
      ((s.create h family).1 = false → Refused { (s.create h family).2 with connected := false }) := by
  unfold create
  dsimp only
  split
  · rename_i hnone
    exact ⟨nofun, fun _ => ⟨⟨by simp [fail, errNoSocket, errNone], .inl rfl⟩, hnone, rfl⟩⟩
  · rename_i hsome
    exact ⟨fun _ => ⟨congr_arg Option.isSome hsome, rfl, rfl⟩, nofun⟩

/-- A close keeps the error, or has one of its own. -/
theorem close_refused (hs : Erred s) (hconnected : s.connected = false) : Refused (s.close h).2 := by
  unfold close
  split
  · exact ⟨hs, ‹_›, hconnected⟩
  · dsimp only
    split
    · rename_i herr
      exact ⟨⟨translateNativeError_ne herr, hs.errorState⟩, rfl, rfl⟩
    · exact ⟨⟨hs.errorCode, hs.errorState⟩, rfl, rfl⟩

end Socket

namespace TcpSocket

/-- A connection to the target, and no error. -/
structure Connected (target : Sockaddr) (s : TcpSocket) : Prop where
  connected : s.connected = true
  valid : s.isValidSocket = true
  family : s.netFamily = target.family
  remoteAddr : s.remoteAddr = target
  errorCode : s.errorCode = errNone
  errorState : s.errorState = 0

section Connect

variable {σ : Type} {h : TcpHost} {part : Part σ TcpSocket} {close : Code σ Bool}

/-- The class closes an object as the base class does, and calls no handler. -/
structure ClosesBase (h : Host) (part : Part σ TcpSocket) (close : Code σ Bool) : Prop where
  returns : ∀ s, ∃ b, (close s).1 = .ok b
  base : ∀ s, (part.get (close s).2).toSocket = ((part.get s).toSocket.close h).2

/-- What holds of the base object before and after a close. -/
theorem ClosesBase.triple (hc : ClosesBase h.toHost part close) {P Q : Socket → Prop}
    (hPQ : ∀ s, P s → Q (s.close h.toHost).2) :
    Triple (fun s => P (part.get s).toSocket) close (fun _ s => Q (part.get s).toSocket)
      fun _ _ => False := by
  intro s hs
  obtain ⟨b, hb⟩ := hc.returns s
  have hbase := hc.base s
  rcases hclose : close s with ⟨r, t⟩
  rw [hclose] at hb hbase
  obtain rfl : r = .ok b := hb
  show Q (part.get t).toSocket
  rw [show (part.get t).toSocket = _ from hbase]
  exact hPQ _ hs

/-- What holds of the base object before and after a function of it. -/
theorem run_triple {α : Type} {f : TcpSocket → α × TcpSocket} {P : TcpSocket → Prop}
    {Q : α → TcpSocket → Prop} (hf : ∀ s, P s → Q (f s).1 (f s).2) :
    Triple (fun s => P (part.get s)) (part.run f) (fun a s => Q a (part.get s)) fun _ _ => False := by
  intro s hs
  show Q _ (part.get (part.set _ s))
  rw [part.get_set]
  exact hf _ hs

/-- A connect to an address gives a connection to it, or a closed object with the error. -/
theorem tcpConnectAddress_spec (hn : h.ReportsErrors) (hc : ClosesBase h.toHost part close)
    (target : Sockaddr) :
    Triple (fun _ => True) (tcpConnectAddress h part close target)
      (fun ok s => (ok = true → Connected target (part.get s)) ∧
        (ok = false → target.family ≠ .other → Socket.Refused (part.get s).toSocket))
      fun _ _ => False := by
  unfold tcpConnectAddress
  refine .ite (fun hother => ?_) fun _ => ?_
  · exact (run_triple (P := fun _ => True) (Q := fun _ _ => True) fun _ _ => trivial).bind fun _ =>
      .ret fun _ _ => ⟨nofun, fun _ hne => absurd hother hne⟩
  · refine (hc.triple (P := fun _ => True) (Q := fun _ => True) fun _ _ => trivial).bind fun _ => ?_
    refine (run_triple (P := fun _ => True) (Q := fun made s =>
      (made = true → Socket.Created target.family s.toSocket) ∧
        (made = false → Socket.Refused s.toSocket)) fun s _ => ?_).bind fun made => ?_
    · obtain ⟨hmade, hbase⟩ := create_base h.toHost target.family s
      obtain ⟨hcreated, hrefused⟩ := s.toSocket.create_spec (h := h.toHost) target.family
      dsimp only
      rw [hmade, hbase]
      exact ⟨hcreated, hrefused⟩
    · refine .ite (fun hnot => ?_) fun hmade => ?_
      · exact .ret fun s hs => ⟨nofun, fun _ _ => hs.2 (by simpa using hnot)⟩
      · have hnative : Triple (fun s : σ => Socket.Created target.family (part.get s).toSocket)
            (part.run fun s => s.nativeConnect h.toHost) (fun ok s =>
              Socket.Created target.family (part.get s).toSocket ∧
                (ok = false → Socket.Erred (part.get s).toSocket)) fun _ _ => False := by
          refine run_triple (P := fun s => Socket.Created target.family s.toSocket) (Q := fun ok s =>
            Socket.Created target.family s.toSocket ∧ (ok = false → Socket.Erred s.toSocket))
            fun s hs => ?_
          obtain ⟨hok, hbase⟩ := nativeConnect_base h.toHost s
          have hspec := s.toSocket.nativeConnect_spec hn
          rw [hok, hbase]
          exact ⟨hspec.same.created hs, hspec.failed⟩
        refine (hnative.pre fun s hs => hs.1 (by simpa using hmade)).bind fun succeeded =>
          .ite (fun hnot => ?_) fun _ => ?_
        · refine ((hc.triple (P := fun s => Socket.Erred s ∧ s.connected = false)
            fun s hs => Socket.close_refused hs.1 hs.2).pre fun s hs =>
              ⟨hs.2 (by simpa using hnot), hs.1.connected⟩).bind fun _ => ?_
          exact .ret fun s hs => ⟨nofun, fun _ _ => hs⟩
        · refine ((run_triple (P := fun s => Socket.Created target.family s.toSocket)
            (Q := fun _ => Connected target) fun s hs => ?_).pre fun s hs => hs.1).bind fun _ => ?_
          · exact ⟨rfl, hs.valid, hs.family, rfl, rfl, rfl⟩
          · exact .ret fun s hs => ⟨fun _ => hs, nofun⟩

/-- `tcp_connect(address)` as a function of the state. -/
def attempt (h : TcpHost) (part : Part σ TcpSocket) (close : Code σ Bool) (target : Sockaddr)
    (s : σ) : Bool × σ :=
  match tcpConnectAddress h part close target s with
  | (.ok ok, t) => (ok, t)
  | (.error _, t) => (false, t)

/-- The state after an attempt at each of the addresses. -/
def attempts (h : TcpHost) (part : Part σ TcpSocket) (close : Code σ Bool)
    (targets : List Sockaddr) (s : σ) : σ :=
  targets.foldl (fun s target => (attempt h part close target s).2) s

/-- `tcp_connect(address)` fails for each of the addresses, one after the other. -/
def AllFail (h : TcpHost) (part : Part σ TcpSocket) (close : Code σ Bool) (targets : List Sockaddr)
    (s : σ) : Prop :=
  ∀ earlier target later, targets = earlier ++ target :: later →
    (attempt h part close target (attempts h part close earlier s)).1 = false

/-- The addresses are tried in order up to the first that connects, which leaves `t`. -/
def Tried (h : TcpHost) (part : Part σ TcpSocket) (close : Code σ Bool) (targets : List Sockaddr)
    (s : σ) (ok : Bool) (t : σ) : Prop :=
  (ok = true ∧ ∃ earlier target later, targets = earlier ++ target :: later ∧
      AllFail h part close earlier s ∧
      attempt h part close target (attempts h part close earlier s) = (true, t)) ∨
    (ok = false ∧ AllFail h part close targets s ∧ t = attempts h part close targets s)

theorem tcpConnectAddress_attempt (hn : h.ReportsErrors) (hc : ClosesBase h.toHost part close)
    (target : Sockaddr) (s : σ) : tcpConnectAddress h part close target s =
      (.ok (attempt h part close target s).1, (attempt h part close target s).2) := by
  have hspec := tcpConnectAddress_spec hn hc target s trivial
  unfold attempt
  revert hspec
  rcases tcpConnectAddress h part close target s with ⟨e | ok, t⟩
  · exact False.elim
  · exact fun _ => rfl

/-- An address that does not connect is tried before the others. -/
theorem Tried.cons {target : Sockaddr} {targets : List Sockaddr} {s t : σ} {ok : Bool}
    (hfail : (attempt h part close target s).1 = false)
    (ht : Tried h part close targets (attempt h part close target s).2 ok t) :
    Tried h part close (target :: targets) s ok t := by
  have hall {targets : List Sockaddr} (ha : AllFail h part close targets
      (attempt h part close target s).2) : AllFail h part close (target :: targets) s := by
    rintro (_ | ⟨first, earlier⟩) a later heq
    · obtain ⟨rfl, -⟩ := List.cons.inj heq
      exact hfail
    · obtain ⟨rfl, htail⟩ := List.cons.inj heq
      exact ha earlier a later htail
  rcases ht with ⟨hok, earlier, a, later, rfl, hearlier, ha⟩ | ⟨hok, hnone, rfl⟩
  · exact .inl ⟨hok, target :: earlier, a, later, rfl, hall hearlier, ha⟩
  · exact .inr ⟨hok, hall hnone, rfl⟩

/-- The IPv4 and IPv6 addresses of the list. -/
def supported (entries : List Sockaddr) : List Sockaddr :=
  entries.filter fun target => target.family ≠ .other

theorem tcpConnectEntries_tried (hn : h.ReportsErrors) (hc : ClosesBase h.toHost part close)
    (entries : List Sockaddr) (s : σ) : ∃ ok t, tcpConnectEntries h part close entries s = (.ok ok, t) ∧
      Tried h part close (supported entries) s ok t := by
  induction entries generalizing s with
  | nil => exact ⟨false, s, rfl, .inr ⟨rfl, by rintro (_ | _) _ _ ⟨⟩, rfl⟩⟩
  | cons target entries ih =>
    have hfirst (hsupported : supported (target :: entries) = target :: supported entries) :
        ∃ ok t, (do
          let success ← tcpConnectAddress h part close target
          if success then return true else tcpConnectEntries h part close entries : Code σ Bool) s =
            (.ok ok, t) ∧ Tried h part close (supported (target :: entries)) s ok t := by
      rw [Code.bind_run, tcpConnectAddress_attempt hn hc, hsupported]
      dsimp only
      cases hok : (attempt h part close target s).1 with
      | true =>
        refine ⟨true, _, rfl, .inl ⟨rfl, [], target, _, rfl, by rintro (_ | _) _ _ ⟨⟩, ?_⟩⟩
        exact Prod.ext hok rfl
      | false =>
        obtain ⟨ok, t, hrun, ht⟩ := ih (attempt h part close target s).2
        exact ⟨ok, t, hrun, ht.cons hok⟩
    cases target with
    | other => exact ih s
    | inet port addr => exact hfirst rfl
    | inet6 port flow addr scope => exact hfirst rfl

/-- The state in which the name has been resolved. -/
def resolved (part : Part σ TcpSocket) (s : σ) : σ :=
  part.set { part.get s with toSocket := (part.get s).toSocket.ticked } s

/-- `this->connected = success`. -/
def setConnected (part : Part σ TcpSocket) (ok : Bool) (s : σ) : σ :=
  part.set { part.get s with connected := ok } s

/-- What `tcp_connect` does from a state: with an address, with the name and the port
that the object holds, and with a name and a port. -/
structure ConnectContract (h : TcpHost) (part : Part σ TcpSocket) (close : Code σ Bool) (s : σ) :
    Prop where
  address : ∀ target, ∃ ok t, tcpConnectAddress h part close target s = (.ok ok, t) ∧
    (ok = true → Connected target (part.get t)) ∧
    (ok = false → target.family ≠ .other → Socket.Refused (part.get t).toSocket)
  stored : ∀ entries, (part.get s).hostname ≠ "" → isValidPort (part.get s).port = true →
    h.addresses (part.get s).tick = some entries →
    ∃ ok t, tcpConnectStored h part close s = (.ok ok, setConnected part ok t) ∧
      Tried h part close (supported entries) (resolved part s) ok t ∧
      (ok = true → ∃ target ∈ supported entries, Connected target (part.get (setConnected part ok t)))
  host : ∀ hostname port entries, hostname ≠ "" → isValidPort port = true →
    h.addresses (part.get s).tick = some entries →
    ∃ ok t, tcpConnectHost h part close (some hostname) port s = (.ok ok, setConnected part ok t) ∧
      Tried h part close (supported entries)
        (resolved part (part.set { part.get s with hostname := hostname, port := port } s)) ok t ∧
      (ok = true → ∃ target ∈ supported entries, Connected target (part.get (setConnected part ok t)))

/-- The address that connected is still the one of the connection. -/
theorem Tried.connected (hn : h.ReportsErrors) (hc : ClosesBase h.toHost part close)
    {targets : List Sockaddr} {s t : σ} {ok : Bool} (ht : Tried h part close targets s ok t)
    (hok : ok = true) : ∃ target ∈ targets, Connected target (part.get (setConnected part ok t)) := by
  rcases ht with ⟨-, earlier, target, later, rfl, -, ha⟩ | ⟨hno, -⟩
  · have hspec := tcpConnectAddress_spec hn hc target (attempts h part close earlier s) trivial
    rw [tcpConnectAddress_attempt hn hc, ha] at hspec
    have hdone := hspec.1 rfl
    refine ⟨target, by simp, ?_⟩
    rw [setConnected, part.get_set]
    exact ⟨hok, hdone.valid, hdone.family, hdone.remoteAddr, hdone.errorCode, hdone.errorState⟩
  · exact absurd (hok.symm.trans hno) (by decide)

theorem tcpConnectStored_tried (hn : h.ReportsErrors) (hc : ClosesBase h.toHost part close) (s : σ)
    (entries : List Sockaddr) (hname : (part.get s).hostname ≠ "")
    (hport : isValidPort (part.get s).port = true)
    (hentries : h.addresses (part.get s).tick = some entries) :
    ∃ ok t, tcpConnectStored h part close s = (.ok ok, setConnected part ok t) ∧
      Tried h part close (supported entries) (resolved part s) ok t ∧
      (ok = true → ∃ target ∈ supported entries,
        Connected target (part.get (setConnected part ok t))) := by
  obtain ⟨ok, t, hrun, htried⟩ := tcpConnectEntries_tried hn hc entries (resolved part s)
  refine ⟨ok, t, ?_, htried, htried.connected hn hc⟩
  have hguard : ((part.get s).hostname.isEmpty || !isValidPort (part.get s).port) = false := by
    simp [hname, hport]
  unfold tcpConnectStored
  simp only [Code.bind_run, Part.run_run, hguard, hentries, Bool.false_eq_true, if_false]
  rw [resolved] at hrun
  rw [hrun]
  rfl

/-- `tcp_connect` of an object without a close callback, from every state. -/
theorem connect_contract (hn : h.ReportsErrors) (hc : ClosesBase h.toHost part close) (s : σ) :
    ConnectContract h part close s where
  address target := by
    have hspec := tcpConnectAddress_spec hn hc target s trivial
    rw [tcpConnectAddress_attempt hn hc] at hspec
    exact ⟨_, _, tcpConnectAddress_attempt hn hc target s, hspec⟩
  stored entries hname hport hentries := tcpConnectStored_tried hn hc s entries hname hport hentries
  host hostname port entries hname hport hentries := by
    have hget := part.get_set { part.get s with hostname := hostname, port := port } s
    obtain ⟨ok, t, hrun, htried⟩ := tcpConnectStored_tried hn hc
      (part.set { part.get s with hostname := hostname, port := port } s) entries
      (by rw [hget]; exact hname) (by rw [hget]; exact hport) (by rw [hget]; exact hentries)
    refine ⟨ok, t, ?_, htried⟩
    have hguard : (hostname.isEmpty || !isValidPort port) = false := by simp [hname, hport]
    unfold tcpConnectHost
    simp only [Option.getD_some, hguard, Bool.false_eq_true, if_false]
    exact hrun

end Connect

theorem plainClose_closesBase (h : Host) : ClosesBase h (Part.whole TcpSocket) (plainClose h) :=
  ⟨fun _ => ⟨_, rfl⟩, fun _ => rfl⟩

/-- A connected socket with a connect timeout. -/
def reconnecting : TcpSocket :=
  { sockfd := some 5, connected := true, blocking := false, connectTimeoutMs := 100, hostname := "peer" }

theorem connect_contract_steady :
    ConnectContract steadyHost (Part.whole TcpSocket) (plainClose steadyHost.toHost) reconnecting :=
  connect_contract ⟨fun _ h => absurd h (by decide : ¬(1 : Int) < 0), fun _ h => absurd rfl h⟩
    (plainClose_closesBase _) reconnecting

end TcpSocket

end Aeon
