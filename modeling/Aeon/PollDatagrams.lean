import Aeon.EventOps

/-!
# Datagrams handed over by the poll

`poll` receives into a buffer of its own, and `udp_socket::read` into that of its
caller.  The kernel discards what the room given to `recvfrom` does not hold.
-/

namespace Aeon

open Program

/-- The longest payload of a datagram. -/
def maxDatagram : ℕ := 65507

/-- A datagram that waits in the kernel. -/
structure Datagram where
  payload : List UInt8
  sender : Sockaddr
  fits : payload.length ≤ maxDatagram
  deriving DecidableEq

namespace Datagram

/-- What is left of a datagram in a buffer of the size `room`. -/
def within (room : ℕ) (d : Datagram) : Datagram where
  payload := d.payload.take room
  sender := d.sender
  fits := (List.length_take_le' room d.payload).trans d.fits

/-- The answer of `recvfrom` that hands over a datagram. -/
def given (room : ℕ) (d : Datagram) : IoResult × List UInt8 × Sockaddr :=
  (⟨(d.within room).payload.length, 0⟩, (d.within room).payload, d.sender)

variable {d : Datagram} {room : ℕ}

theorem within_eq_iff : d.within room = d ↔ d.payload.length ≤ room := by
  rw [← List.take_eq_self_iff]
  constructor
  · exact congrArg Datagram.payload
  · intro htake
    cases d
    exact Datagram.mk.injEq .. ▸ ⟨htake, rfl⟩

end Datagram

namespace UdpSocket

variable {h : UdpHost} {s : UdpSocket} {size : Int} {d : Datagram}

/-- The clock of `recvfrom` in a read that waits first or does not. -/
def readTick (s : UdpSocket) : ℕ := if s.readTimeoutMs > 0 then s.tick + 1 else s.tick

/-- `read` gives its caller what the buffer has room for. -/
theorem read_given (hvalid : s.isValidSocket = true) (hsize : 0 < size)
    (hwait : s.readTimeoutMs > 0 → (h.select s.tick).ret > 0)
    (hd : ∀ room, h.recvfrom s.readTick room = d.given room) :
    (s.read h true size).1 =
        (((d.within size.toNat).payload.length : Int), (d.within size.toNat).payload) ∧
      (s.read h true size).2.remoteAddr = d.sender := by
  have hready : (if s.readTimeoutMs > 0 then h.select s.tick else ⟨1, 0⟩ : IoResult).ret > 0 := by
    split
    · exact hwait ‹_›
    · exact Int.one_pos
  have htick : (if s.readTimeoutMs > 0 then s.ticked else s).tick = s.readTick := by
    unfold readTick
    split <;> rfl
  have hsize' : ¬size ≤ 0 := Int.not_le.mpr hsize
  have hlength : ¬((d.within size.toNat).payload.length : Int) < 0 := Int.not_lt.mpr (by simp)
  unfold read
  simp only [hvalid, hsize', Bool.not_true, Bool.or_self, decide_false, Bool.false_eq_true,
    if_false, hready.ne', Int.not_lt.mpr hready.le, htick, hd, Datagram.given,
    hlength, record, and_self]

end UdpSocket

namespace EventLoop

open EventWorld

variable {h : LoopHost} {ps : List Watch} {p : Watch} {flags : Flags} {w w₁ : EventWorld}
variable {d e : Datagram}

/-- A datagram that has been received goes to the handler of the socket, then to
that of the set while the token is active, and its sender to the socket. -/
def handOver (cb : EventNote → Code EventWorld Unit) (ps : List Watch) (p : Watch)
    (d : Datagram) : Code EventWorld ℕ := do
  note (.received p.token)
  note (.event p.token (.datagram d.payload d.sender))
  act p .count (datagramFrom d.payload.length d.sender)
  callback cb (later ps) p .socket (.datagram d.payload d.sender)
  let active ← getIfActive p.token
  Code.whenever active (callback cb (later ps) p .set (.datagram d.payload d.sender))
  return 1

/-- The history of a hand-over that its first handler ends. -/
theorem handOver_log (ps : List Watch) (p : Watch) (d : Datagram) (w : EventWorld) : ∃ rest,
    (handOver (fun _ => Code.halt .thrown) ps p d w).2.log =
      w.log ++ [.received p.token] ++ .event p.token (.datagram d.payload d.sender) :: rest := by
  let u : EventWorld := { w with log := w.log ++ [.received p.token] }
  let v : EventWorld :=
    { u with log := u.log ++ [.event p.token (.datagram d.payload d.sender)] }
  suffices hlog : ∃ rest, (handOver (fun _ => Code.halt .thrown) ps p d w).2.log = v.log ++ rest by
    obtain ⟨rest, hrest⟩ := hlog
    exact ⟨rest, hrest.trans (List.append_assoc ..)⟩
  have hreceived : note (.received p.token) w = (.ok (), u) := rfl
  have hnote : note (.event p.token (.datagram d.payload d.sender)) u = (.ok (), v) := rfl
  unfold handOver
  rw [Code.bind_run, hreceived]
  dsimp only
  rw [Code.bind_run, hnote]
  dsimp only
  rw [Code.bind_run]
  cases ho : v.find p.socket with
  | none =>
    have hact : act p .count (datagramFrom d.payload.length d.sender) v =
        (.error .undefined, { v with log := v.log ++ [.dangling p.token] }) := by
      rw [act, EventWorld.use, ho]
    rw [hact]
    exact ⟨_, rfl⟩
  | some o =>
    have hact : act p .count (datagramFrom d.payload.length d.sender) v =
        (.ok (), { v.store p.socket (datagramFrom d.payload.length d.sender o).2 with
          log := v.log ++ [.did p.token .count p.connection o.connection] }) := by
      rw [act, EventWorld.use, ho]
    rw [hact]
    exact ⟨_, List.append_assoc v.log _ [.entered p.token .socket (.datagram d.payload d.sender)]⟩

theorem handOver_injective
    (hsame : ∀ cb, handOver cb ps p d w = handOver cb ps p e w) : d = e := by
  obtain ⟨rest, hd⟩ := handOver_log ps p d w
  obtain ⟨rest', he⟩ := handOver_log ps p e w
  rw [hsame, he] at hd
  have hhead := (List.cons.inj (List.append_cancel_left hd)).1
  injection hhead with _ hnotice
  injection hnotice with hpayload hsender
  exact (Datagram.mk.injEq ..).mpr ⟨hpayload.symm, hsender.symm⟩

/-- `poll` hands over what its own buffer has room for. -/
theorem dispatch_given (cb : EventNote → Code EventWorld Unit) (hudp : p.udp = true)
    (hin : flags.pollin = true) (hcur : current p w = (.ok true, w₁))
    (hd : h.recvfrom w₁.tick Socket.maxBufferSize = d.given Socket.maxBufferSize) :
    dispatch h cb ps p flags w =
      handOver cb ps p (d.within Socket.maxBufferSize) { w₁ with tick := w₁.tick + 1 } := by
  have hdue : isDue h p flags = pure true := if_pos (by simp [Flags.any, hin])
  unfold dispatch
  rw [hdue, Code.bind_run, Code.pure_run]
  simp only [Bool.not_true, Bool.false_eq_true, if_false, hudp, if_true]
  unfold dispatchUdp
  rw [Code.bind_run, hcur]
  simp only [Bool.not_true, Bool.false_eq_true, if_false, hin, if_true]
  have hreceived : recvfrom h p w₁ = (.ok (d.given Socket.maxBufferSize),
      { w₁ with tick := w₁.tick + 1, log := w₁.log ++ [.received p.token] }) := by
    rw [← hd]
    rfl
  rw [Code.bind_run, hreceived]
  dsimp only [Datagram.given]
  rw [if_pos (Int.natCast_nonneg _)]
  simp only [bothCallbacks, setCallback, bind_assoc]
  rfl

theorem dispatch_handOver_iff (hudp : p.udp = true) (hin : flags.pollin = true)
    (hcur : current p w = (.ok true, w₁))
    (hd : h.recvfrom w₁.tick Socket.maxBufferSize = d.given Socket.maxBufferSize) :
    (∀ cb, dispatch h cb ps p flags w = handOver cb ps p d { w₁ with tick := w₁.tick + 1 }) ↔
      d.payload.length ≤ Socket.maxBufferSize := by
  rw [← Datagram.within_eq_iff]
  constructor
  · intro hall
    exact handOver_injective fun cb => (dispatch_given cb hudp hin hcur hd).symm.trans (hall cb)
  · intro hfits cb
    rw [dispatch_given cb hudp hin hcur hd, hfits]

/-- A readable datagram socket is given the whole datagram just if that fits into the
buffer of `poll`, while `read` gives it to any caller with room for it. -/
theorem poll_delivers_iff (hudp : p.udp = true) (hin : flags.pollin = true)
    (hcur : current p w = (.ok true, w₁)) (hd : ∀ room, h.recvfrom w₁.tick room = d.given room) :
    ((∀ cb, dispatch h cb ps p flags w = handOver cb ps p d { w₁ with tick := w₁.tick + 1 }) ↔
        d.payload.length ≤ Socket.maxBufferSize) ∧
      ∀ (u : UdpHost) (s : UdpSocket) (size : Int), s.isValidSocket = true → 0 < size →
        (s.readTimeoutMs > 0 → (u.select s.tick).ret > 0) →
        (∀ room, u.recvfrom s.readTick room = d.given room) → d.payload.length ≤ size →
        (s.read u true size).1 = ((d.payload.length : Int), d.payload) ∧
          (s.read u true size).2.remoteAddr = d.sender := by
  refine ⟨dispatch_handOver_iff hudp hin hcur (hd _), ?_⟩
  intro u s size hvalid hsize hwait hu hroom
  have hwhole : d.within size.toNat = d :=
    Datagram.within_eq_iff.mpr (Int.toNat_of_nonneg hsize.le ▸ hroom |> Int.ofNat_le.mp)
  have hread := UdpSocket.read_given hvalid hsize hwait hu
  rwa [hwhole] at hread

/-- A host on which a datagram is always waiting. -/
def handing (d : Datagram) : LoopHost :=
  { LoopHost.same ⟨.steady, .steady⟩ { pollin := true } with
    recvfrom := fun _ room => d.given room }

/-- A registered client socket, and the watch on it. -/
def receiving (d : Datagram) : EventWorld := after (handing d) 1 [.createUdp false, .add (some 0)]

def onlyWatch : Watch := ⟨0, 0, true, 3, false, 0⟩

def zeros (n : ℕ) (hn : n ≤ maxDatagram) : Datagram where
  payload := List.replicate n 0
  sender := .inet 4000 (dotted 127 0 0 1)
  fits := (List.length_replicate ..).trans_le hn

theorem current_receiving (d : Datagram) :
    current onlyWatch (receiving d) = (.ok true, (current onlyWatch (receiving d)).2) := rfl

theorem poll_delivers_iff_short :
    (∀ cb, dispatch (handing (zeros 2 (by decide))) cb [] onlyWatch { pollin := true }
        (receiving (zeros 2 (by decide))) =
      let w := (current onlyWatch (receiving (zeros 2 (by decide)))).2
      handOver cb [] onlyWatch (zeros 2 (by decide)) { w with tick := w.tick + 1 }) ∧
    ((UdpSocket.construct { UdpHost.steady with
        recvfrom := fun _ room => (zeros 2 (by decide)).given room } 0).read
      { UdpHost.steady with recvfrom := fun _ room => (zeros 2 (by decide)).given room }
        true 512).1 = (2, [0, 0]) :=
  have hboth := @poll_delivers_iff (handing (zeros 2 (by decide))) [] _ { pollin := true } _ _ _
    rfl rfl (current_receiving (zeros 2 (by decide))) fun _ => rfl
  ⟨hboth.1.mpr (by decide), (hboth.2 { UdpHost.steady with
    recvfrom := fun _ room => (zeros 2 (by decide)).given room } _ 512 (by decide) (by decide)
    (by decide) (fun _ => rfl) (by decide)).1⟩

/-- The handlers get the first 256 bytes of a datagram of 257. -/
theorem long_datagram_not_delivered : ¬∀ (h : LoopHost) (ps : List Watch) (p : Watch)
    (flags : Flags) (w w₁ : EventWorld) (d : Datagram), p.udp = true → flags.pollin = true →
    current p w = (.ok true, w₁) → (∀ room, h.recvfrom w₁.tick room = d.given room) →
    ∀ cb, dispatch h cb ps p flags w = handOver cb ps p d { w₁ with tick := w₁.tick + 1 } := by
  intro hall
  have hfits (d : Datagram) : d.payload.length ≤ Socket.maxBufferSize :=
    (dispatch_handOver_iff (h := handing d) rfl rfl (current_receiving d) rfl).mp
      (hall (handing d) [] onlyWatch { pollin := true } (receiving d) _ d rfl rfl
        (current_receiving d) fun _ => rfl)
  have hlong : (zeros 257 (by decide)).payload.length = 257 := List.length_replicate
  exact absurd (hlong.symm.trans_le (hfits _)) (by decide)

end EventLoop

end Aeon
