import Aeon.Library.History
import Aeon.UdpClient
import Aeon.UdpReplacement

/-!
# Where the datagrams of a client go

The selected destination and the last sender share one field.  A client sends to the
sender of the last datagram that it has received since its destination was selected,
and to that destination as long as there is none.
-/

namespace Aeon

open Program Reentrant History

/-- The sender of a datagram that is received. -/
def Traffic.sender : Traffic → Option Sockaddr
  | .received a => some a
  | _ => none

/-- The address that is left to send to. -/
def Traffic.selects : Traffic → Option Sockaddr
  | .selected a | .received a => some a
  | .sent _ => none

/-- The address that a history leaves to send to. -/
def destination (log : List Traffic) : Sockaddr := (latest Traffic.selects log).getD .other

/-- The same after the selection of `target`, if nothing is selected since. -/
def replyAddress (target : Sockaddr) (log : List Traffic) : Sockaddr :=
  (latest Traffic.sender log).getD target

theorem destination_append (log es : List Traffic) :
    destination (log ++ es) = (latest Traffic.selects es).getD (destination log) := by
  unfold destination
  rw [latest_trans]
  cases latest Traffic.selects es <;> rfl

theorem destination_since {pre mid : List Traffic} {target : Sockaddr}
    (hmid : ∀ a, .selected a ∉ mid) :
    destination (pre ++ .selected target :: mid) = replyAddress target mid := by
  have hsame : mid.filterMap Traffic.selects = mid.filterMap Traffic.sender := by
    refine List.filterMap_congr fun e he => ?_
    cases e with
    | selected a => exact absurd he (hmid a)
    | received a => rfl
    | sent call => rfl
  rw [← List.singleton_append, ← List.append_assoc, destination_append, destination_append]
  unfold replyAddress latest
  rw [hsame]
  rfl

/-- Only one address has been selected or heard from. -/
theorem destination_only {pre mid : List Traffic} {target : Sockaddr}
    (hmid : ∀ e ∈ mid, ∀ a, e.selects = some a → a = target) :
    destination (pre ++ .selected target :: mid) = target := by
  rw [← List.singleton_append, ← List.append_assoc, destination_append, destination_append]
  cases hlast : latest Traffic.selects mid with
  | none => rfl
  | some a =>
    obtain ⟨e, he, ha⟩ := List.mem_filterMap.mp (List.mem_of_getLast? hlast)
    exact hmid e he a ha

namespace UdpSocket

variable {h : UdpHost} {s t u : UdpSocket}

/-- The sender that a history of the socket receives from. -/
def senderOf : Event → Option Sockaddr
  | .received _ sender => some sender
  | _ => none

/-- The address of the socket is that of the last sender that it has heard since. -/
def Hears (s t : UdpSocket) : Prop :=
  ∃ es, t.log = s.log ++ es ∧ t.remoteAddr = (latest senderOf es).getD s.remoteAddr

namespace Hears

theorem of_eq (hlog : t.log = s.log) (hremote : t.remoteAddr = s.remoteAddr) : Hears s t :=
  ⟨[], by rw [hlog, List.append_nil], hremote⟩

theorem refl (s : UdpSocket) : Hears s s := .of_eq rfl rfl

theorem trans (hst : Hears s t) (htu : Hears t u) : Hears s u := by
  obtain ⟨es, hlog, hremote⟩ := hst
  obtain ⟨fs, hlog', hremote'⟩ := htu
  refine ⟨es ++ fs, by rw [hlog', hlog, List.append_assoc], ?_⟩
  rw [hremote', hremote, latest_trans]
  cases latest senderOf fs <;> rfl

/-- Events without a sender, and an address that stays. -/
theorem deaf {es : List Event} (hlog : t.log = s.log ++ es) (hes : ∀ e ∈ es, senderOf e = none)
    (hremote : t.remoteAddr = s.remoteAddr) : Hears s t := by
  refine ⟨es, hlog, ?_⟩
  rw [hremote, latest, List.filterMap_eq_nil_iff.mpr hes]
  rfl

end Hears

theorem read_hears (buffer : Bool) (size : Int) : Hears s (s.read h buffer size).2 := by
  unfold read
  split
  · exact .of_eq rfl rfl
  · have hwait : Hears s (if s.readTimeoutMs > 0 then s.ticked else s) := by
      split <;> exact .of_eq rfl rfl
    dsimp only
    generalize (if s.readTimeoutMs > 0 then s.ticked else s) = t at hwait ⊢
    generalize (if s.readTimeoutMs > 0 then h.select s.tick else ⟨1, 0⟩) = ready
    split
    · exact hwait.trans (.of_eq rfl rfl)
    · split
      · exact hwait.trans (.of_eq rfl rfl)
      · split
        · exact hwait.trans (.of_eq rfl rfl)
        · exact hwait.trans ⟨[_], rfl, rfl⟩

theorem readString_hears (size : Int) : Hears s (s.readString h size).2 := by
  unfold readString
  split
  · exact .refl s
  · exact read_hears ..

theorem readUntilLoop_hears (turns left : ℕ) (got : List UInt8) :
    Hears s (s.readUntilLoop h turns left got).2 := by
  induction turns generalizing left got s with
  | zero => exact .refl s
  | succ turns ih =>
    unfold readUntilLoop
    have hread : Hears s (s.read h true left).2 := read_hears ..
    split
    · exact .refl s
    · dsimp only
      split
      · exact hread
      · exact hread.trans (ih ..)

theorem readUntil_hears (buffer : Bool) (size : Int) : Hears s (s.readUntil h buffer size).2 := by
  unfold readUntil
  split
  · exact .of_eq rfl rfl
  · exact readUntilLoop_hears ..

end UdpSocket

namespace Socket

/-- `read_line` receives without the address of the sender. -/
theorem readLineLoop_log (h : Host) (room : ℕ) (carriage linefeed : Bool) (line : List UInt8)
    (s : Socket) : ∃ es, (s.readLineLoop h room carriage linefeed line).2.log = s.log ++ es ∧
      ∀ e ∈ es, UdpSocket.senderOf e = none := by
  induction room generalizing carriage linefeed line s with
  | zero => exact ⟨[], (List.append_nil _).symm, nofun⟩
  | succ room ih =>
    have hrecv : ∃ es, (s.nativeRecv h 1).2.log = s.log ++ es ∧
        ∀ e ∈ es, UdpSocket.senderOf e = none := by
      unfold nativeRecv
      cases s.sockfd with
      | none => exact ⟨[], (List.append_nil _).symm, nofun⟩
      | some fd => exact ⟨[.recv fd], rfl, by simp [UdpSocket.senderOf]⟩
    obtain ⟨es, hlog, hes⟩ := hrecv
    unfold readLineLoop
    dsimp only
    split
    · exact ⟨es, hlog, hes⟩
    · split
      · exact ⟨es, hlog, hes⟩
      · split
        · exact ⟨es, hlog, hes⟩
        · obtain ⟨fs, hlog', hfs⟩ := ih _ _ _ _
          refine ⟨es ++ fs, hlog'.trans ?_, fun e he => ?_⟩
          · rw [← List.append_assoc, ← hlog]
          · exact (List.mem_append.mp he).elim (hes e) (hfs e)

end Socket

namespace UdpSocket

variable {h : UdpHost} {s t : UdpSocket}

theorem readLine_hears (buffer : Bool) (size : Int) :
    Hears s { s with toSocket := (s.toSocket.readLine h.toHost buffer size).2 } := by
  unfold Socket.readLine
  split
  · exact .refl s
  · obtain ⟨es, hlog, hes⟩ := Socket.readLineLoop_log h.toHost _ false false []
      { s.toSocket with n := 0 }
    exact .deaf hlog hes rfl

theorem recv_hears (r : UdpRecv) : Hears s (r.run h s) := by
  cases r with
  | buffer b size => exact read_hears ..
  | string size => exact readString_hears size
  | internal =>
    show Hears s (s.read h true (Socket.maxBufferSize - 1)).2
    exact read_hears ..
  | readUntil b size => exact readUntil_hears ..
  | readLine b size => exact readLine_hears ..

/-- What is heard in the history of the socket is heard in that of the client. -/
theorem Hears.heard (hst : Hears s t) :
    t.remoteAddr = (latest Traffic.selects (UdpClient.heard s t)).getD s.remoteAddr := by
  obtain ⟨es, hlog, hremote⟩ := hst
  rw [hremote, UdpClient.heard, hlog, List.drop_left, latest, latest, List.filterMap_filterMap]
  congr 3
  funext e
  cases e <;> rfl

/-- A connect that fails leaves the destination as it is. -/
theorem Decides.keepsRemote {Q : UdpSocket → Prop} {r : Bool × UdpSocket} (hr : Decides s Q r)
    (hfailed : r.1 = false) : r.2.remoteAddr = s.remoteAddr := by
  rw [(hr.refused hfailed).same]

/-- A call of `sendto` is given the address of the socket. -/
theorem sendDatagram_target {valid : Bool} {fd : ℕ} {family : Family} {remote : Sockaddr}
    {answer : IoResult} {data : Option (List UInt8)} {size : Int} {call : SendCall}
    (hcall : (sendDatagram valid fd family remote answer data size).call = some call) :
    remote.native family = some call.target := by
  unfold sendDatagram at hcall
  split at hcall
  · cases hcall
  · split at hcall
    · cases hcall
    · rename_i target htarget
      cases hcall
      exact htarget

theorem send_target (s : UdpSocket) (answer : IoResult) (d : UdpSend) :
    (d.run answer s).2.remoteAddr = s.remoteAddr ∧
      ∀ call, (d.run answer s).1.call = some call →
        s.remoteAddr.native s.netFamily = some call.target := by
  have hstring (data : List UInt8) : (s.writeString answer data).2.remoteAddr = s.remoteAddr ∧
      ∀ call, (s.writeString answer data).1.call = some call →
        s.remoteAddr.native s.netFamily = some call.target := by
    unfold writeString
    split
    · exact ⟨rfl, nofun⟩
    · exact ⟨rfl, fun _ => sendDatagram_target⟩
  cases d with
  | sized data size => exact ⟨rfl, fun _ => sendDatagram_target⟩
  | string data => exact hstring data
  | text data =>
    cases data with
    | none => exact ⟨rfl, nofun⟩
    | some data => exact hstring data

end UdpSocket

namespace UdpClient

variable {h : UdpHost} {c : UdpClientClass} {s : UdpClient}

/-- A datagram goes to the address that the history before it leaves. -/
def Directed (pre : List Traffic) (e : Traffic) : Prop :=
  ∀ call, e = .sent call → ∃ family, (destination pre).native family = some call.target

structure Follows (s : UdpClient) : Prop where
  remote : s.remoteAddr = destination s.traffic
  directed : Always Directed s.traffic

theorem follows_construct (tick : ℕ) : Follows (construct h c tick) := by
  refine ⟨?_, .nil⟩
  show (construct h c tick).remoteAddr = .other
  have hplain : (UdpSocket.construct h tick).remoteAddr = .other := by
    unfold UdpSocket.construct
    dsimp only
    split <;> rfl
  cases c with
  | udpClientSocket => exact hplain
  | udpClientEventSocket =>
    unfold construct UdpServer.construct
    dsimp only
    split <;> exact hplain

/-- A step that does not select, receive or send. -/
theorem Follows.frame {t : UdpClient} (hs : Follows s) (hremote : t.remoteAddr = s.remoteAddr)
    (htraffic : t.traffic = s.traffic) : Follows t :=
  ⟨by rw [hremote, htraffic, hs.remote], htraffic ▸ hs.directed⟩

/-- One that selects an address, whether from the application or from a datagram. -/
theorem Follows.choose {t : UdpClient} {e : Traffic} {a : Sockaddr} (hs : Follows s)
    (htraffic : t.traffic = s.traffic ++ [e]) (he : e.selects = some a) (ht : t.remoteAddr = a) :
    Follows t := by
  refine ⟨?_, ?_⟩
  · rw [ht, htraffic, destination, latest_snoc, he]
    rfl
  · rw [htraffic]
    refine hs.directed.snoc fun call hcall => ?_
    subst hcall
    cases he

theorem Follows.receive (hs : Follows s) (r : UdpRecv) : Follows (s.receive h r) := by
  have hheard := (UdpSocket.recv_hears (h := h) (s := s.toUdpSocket) r).heard
  refine ⟨?_, hs.directed.append fun e he pre call hcall => ?_⟩
  · show (r.run h s.toUdpSocket).remoteAddr = destination (s.traffic ++ _)
    rw [destination_append, hheard, hs.remote]
  · subst hcall
    obtain ⟨ev, -, hev⟩ := List.mem_filterMap.mp he
    cases ev <;> cases hev

theorem Follows.write (hs : Follows s) (answer : IoResult) (d : UdpSend) :
    Follows (s.write answer d).2 := by
  obtain ⟨hremote, htarget⟩ := UdpSocket.send_target s.toUdpSocket answer d
  cases hcall : (d.run answer s.toUdpSocket).1.call with
  | none => exact hs.frame hremote (by simp [UdpClient.write, hcall])
  | some call =>
    have htraffic : (s.write answer d).2.traffic = s.traffic ++ [.sent call] := by
      simp [UdpClient.write, hcall]
    refine ⟨?_, ?_⟩
    · rw [htraffic, destination, latest_snoc]
      exact hremote.trans hs.remote
    · rw [htraffic]
      refine hs.directed.snoc fun sent hsent => ?_
      obtain rfl := Traffic.sent.inj hsent
      exact ⟨s.netFamily, hs.remote ▸ htarget call hcall⟩

section Handlers

variable {cb : UdpClientNote → Code UdpClient Unit} (hcb : ∀ n, Keeps Follows (cb n))
include hcb

theorem fire_follows (n : UdpClientNote) : Keeps Follows (fire c cb n) := .whenever (hcb n)

/-- What is left of a connect once the socket has selected its target or failed. -/
theorem connected_follows {target : Sockaddr} {Q : UdpSocket → Prop} {r : Bool × UdpSocket}
    (hs : Follows s) (hr : UdpSocket.Decides s.toUdpSocket Q r)
    (htarget : r.1 = true → r.2.remoteAddr = target) :
    Follows ((if r.1 then do
        note (.selected target)
        fire c cb .connected
        return true
      else return false : Code UdpClient Bool) { s with toUdpSocket := r.2 }).2 := by
  cases hok : r.1 with
  | false => exact hs.frame (hr.keepsRemote hok) rfl
  | true =>
    have hselected : Follows { s with
        toUdpSocket := r.2, traffic := s.traffic ++ [.selected target] } :=
      hs.choose rfl rfl (htarget hok)
    exact (Keeps.bind (fire_follows hcb .connected) fun _ => .pure true) _ hselected

theorem connectAddress_follows (target : Sockaddr) :
    Keeps Follows (connectAddress h c cb target) := fun s hs =>
  have hspec := UdpSocket.udpConnectAddress_spec (h := h) target s.toUdpSocket
  connected_follows hcb hs hspec fun hok => (hspec.done hok).remoteAddr

theorem connectHost_follows (hostname : Option String) (port : Int) :
    Keeps Follows (connectHost h c cb hostname port) := by
  intro s hs
  have hselected := connected_follows (c := c) hcb hs
    (s.toUdpSocket.udpConnectHost_spec (h := h) hostname port) fun _ => rfl
  unfold connectHost
  rw [Code.bind_run]
  dsimp only [socketPart, Part.run_run]
  split <;> rename_i hok
  · rw [if_pos hok] at hselected
    exact hselected
  · rw [if_neg hok] at hselected
    exact hselected

theorem close_follows : Keeps Follows (close h c cb) := by
  refine .bind (fun s hs => hs.frame rfl rfl) fun closed => ?_
  exact .bind (.whenever (fire_follows hcb .closed)) fun _ => .pure closed

theorem reportError_follows (code : Int) : Keeps Follows (reportError cb code) :=
  .bind (.modify fun _ hs => hs.frame rfl rfl) fun _ => hcb _

theorem dispatch_follows (flags : Flags) : Keeps Follows (dispatch h cb flags) := by
  have hreport := reportError_follows hcb
  refine .bind (.read id) fun s => .ite (fun _ => ?_) fun _ => .pure ()
  refine .ite (fun _ => ?_) fun _ => .ite (fun _ => hreport _) fun _ => .ite (fun _ => ?_)
    fun _ => .pure ()
  · refine .bind (.modify fun _ hs => hs.frame rfl rfl) fun _ => .ite (fun _ => ?_) fun _ =>
      .ite (fun _ => hreport _) fun _ => .pure ()
    exact .bind (.modify fun s hs => hs.choose rfl rfl rfl) fun _ => hcb _
  · exact .bind (.modify fun _ hs => hs.frame rfl rfl) fun _ => hreport _

theorem exec_follows (o : UdpClientOp) : Keeps Follows ((system h c).exec cb o) := by
  cases o with
  | connectAddress target =>
    exact .bind (connectAddress_follows hcb target) fun _ => .pure ()
  | connectStored =>
    refine .bind (.bind (.read _) fun target => ?_) fun _ => .pure ()
    exact connectAddress_follows hcb target
  | connectHost hostname port =>
    exact .bind (connectHost_follows hcb hostname port) fun _ => .pure ()
  | close => exact .bind (close_follows hcb) fun _ => .pure ()
  | receive r => exact .modify fun _ hs => hs.receive r
  | write answer d => exact .bind (.update fun _ hs => hs.write answer d) fun _ => .pure ()
  | set f => exact .modify fun _ hs => hs.frame rfl rfl
  | dispatch flags => exact .whenever (dispatch_follows hcb flags)

end Handlers

/-- In every state that an application can bring a client to. -/
theorem Reaches.follows (hs : Reaches h c s) : Follows s := by
  obtain ⟨tick, hrun⟩ := hs
  refine hrun.keeps (fun o cb real t _ => ?_) (follows_construct tick)
  have hcb := real.keeps (I := Follows) fun o cb _ hcb t _ => exec_follows hcb o t
  exact exec_follows hcb o t

/-- After a destination has been selected, every datagram goes to the last sender that
has been heard since, or to the destination if there is none, and `connect()` selects
that address again.  As long as only the destination is selected or heard, everything
goes to it. -/
theorem writes_follow_senders (hs : Reaches h c s) {pre mid : List Traffic} {target : Sockaddr} :
    ((∀ a, .selected a ∉ mid) →
      (∀ call post, s.traffic = pre ++ .selected target :: mid ++ .sent call :: post →
        ∃ family, (replyAddress target mid).native family = some call.target) ∧
      (s.traffic = pre ++ .selected target :: mid → (s.udpConnectStored h).1 = true →
        (s.udpConnectStored h).2.remoteAddr = replyAddress target mid)) ∧
    ((∀ e ∈ mid, ∀ a, e.selects = some a → a = target) → ∀ call post,
      s.traffic = pre ++ .selected target :: mid ++ .sent call :: post →
        ∃ family, target.native family = some call.target) := by
  have hfollows := hs.follows
  refine ⟨fun hmid => ⟨fun call post hlog => ?_, fun hlog hok => ?_⟩, fun hmid call post hlog => ?_⟩
  · rw [← destination_since hmid]
    exact hfollows.directed _ _ post hlog call rfl
  · rw [← destination_since hmid, ← hlog, ← hfollows.remote]
    exact ((UdpSocket.udpConnectAddress_spec s.remoteAddr s.toUdpSocket).done hok).remoteAddr
  · have hsent := hfollows.directed _ _ post hlog call rfl
    rwa [destination_only hmid] at hsent

/-- A host on which somebody else sends a datagram to every socket. -/
def strangerHost : UdpHost :=
  { UdpHost.steady with recvfrom := fun _ _ => (⟨1, 0⟩, [7], .inet 4001 ⟨#[10, 0, 0, 9], rfl⟩) }

def chosenServer : Sockaddr := .inet 4000 ⟨#[10, 0, 0, 1], rfl⟩

/-- A client that reads once between the selection of its server and a write. -/
def redirected : UdpClient :=
  after strangerHost .udpClientSocket [.connectAddress chosenServer, .receive (.buffer true 16),
    .write ⟨1, 0⟩ (.sized (some [1]) 1)]

theorem writes_follow_senders_redirected :
    ∃ family, (replyAddress chosenServer
      [.received (.inet 4001 ⟨#[10, 0, 0, 9], rfl⟩)]).native family =
        some (.inet 4001 ⟨#[10, 0, 0, 9], rfl⟩) :=
  ((writes_follow_senders (reaches_after strangerHost .udpClientSocket _)).1 (by simp)).1
    ⟨3, .inet 4001 ⟨#[10, 0, 0, 9], rfl⟩, [1]⟩ []
    (show redirected.traffic = [] ++ .selected chosenServer ::
        [.received (.inet 4001 ⟨#[10, 0, 0, 9], rfl⟩)] ++
        [.sent ⟨3, .inet 4001 ⟨#[10, 0, 0, 9], rfl⟩, [1]⟩] by decide +kernel)

/-- The datagram of a third party redirects what a client writes. -/
theorem stranger_redirects : ¬∀ (h : UdpHost) (c : UdpClientClass) (s : UdpClient),
    Reaches h c s → ∀ (pre mid : List Traffic) (target : Sockaddr),
    (∀ a, .selected a ∈ mid → a = target) → ∀ call post,
    s.traffic = pre ++ .selected target :: mid ++ .sent call :: post →
    ∃ family, target.native family = some call.target := by
  intro hall
  obtain ⟨family, hsent⟩ := hall strangerHost .udpClientSocket redirected (reaches_after ..) []
    [.received (.inet 4001 ⟨#[10, 0, 0, 9], rfl⟩)] chosenServer (by simp)
    ⟨3, .inet 4001 ⟨#[10, 0, 0, 9], rfl⟩, [1]⟩ [] (by decide +kernel)
  revert hsent
  cases family <;> decide

end UdpClient

end Aeon
