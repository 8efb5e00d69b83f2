import Aeon.PongClient

/-!
# Server and clients

Between the server and its clients datagrams are lost, come twice or in another order, and
anybody may send anything to anybody.  Yet no two clients ever draw different boards for
one moment of the game.
-/

namespace Aeon.Pong

open Http (ascii)

/-- What a snapshot shows. -/
def State.view (s : State) : View :=
  ⟨s.sequence, s.leftY, s.rightY, s.ballX, s.ballY, s.leftScore, s.rightScore, s.occupied⟩

/-- A datagram that comes to a client: one of those that the server has sent, which may
have come before, or one from elsewhere. -/
inductive Arrival
  | sent (k : ℕ)
  | stray (bytes : List UInt8) (sender : Sockaddr)

inductive Event
  | call (o : Op)
  | turn (endpoint : Sockaddr) (now : ℤ) (pressed : List ℤ) (arrivals : List (ℤ × Arrival))

/-- The clients are told apart by their endpoints. -/
structure World where
  server : Server := {}
  clients : Sockaddr → Client := fun _ => {}

namespace World

variable (inetNtop : Family → List UInt8 → String) (server : Sockaddr)

/-- Nobody else sends from the endpoint of the server. -/
def packet (w : World) (endpoint : Sockaddr) (a : ℤ × Arrival) : Option Packet :=
  match a.2 with
  | .sent k => match w.server.sent[k]? with
    | some d => if d.1 = endpoint then some ⟨a.1, d.2, server⟩ else none
    | none => none
  | .stray bytes sender => if Client.trusts inetNtop server sender then none else some ⟨a.1, bytes, sender⟩

def exec (w : World) : Event → World
  | .call o => { w with server := w.server.exec o }
  | .turn endpoint now pressed arrivals =>
    let packets := arrivals.filterMap (w.packet inetNtop server endpoint)
    { w with
      clients := Function.update w.clients endpoint
        ((w.clients endpoint).turn inetNtop server now pressed packets).2 }

def run (events : List Event) : World := events.foldl (exec inetNtop server) {}

end World

section Frames

theorem parseFields_frame {s : State} {n : ℕ} (hs : s.Inside n) (hn : n < 2 ^ 31)
    (hoccupied : 0 ≤ s.occupied ∧ s.occupied ≤ 3) : parseFields s.frame = some (83, s.view, []) := by
  obtain ⟨hleft, hright, hx, hy, hscore, hscore', hsum⟩ := hs
  dsimp only [width, height, paddleHeight] at hleft hright hx hy
  have hbound : (intBound : ℤ) = 2147483648 := rfl
  have hsequence (l : List UInt8) : Scanning.unsigned sequenceBound
      (32 :: (Decimal.text s.sequence.toNat ++ 32 :: l)) = some (s.sequence.toNat, 32 :: l) :=
    Scanning.unsigned_text (UInt64.toNat_lt _) (Scanning.ends_blank l)
  have hnumber {v : ℤ} (hlow : 0 ≤ v) (hhigh : v < 2147483648) (l : List UInt8) :
      Scanning.signed intBound (32 :: (Scanning.intText v ++ 32 :: l)) = some (v, 32 :: l) :=
    Scanning.signed_text (by omega) (by omega) (Scanning.ends_blank l)
  have hlast : Scanning.signed intBound (32 :: Scanning.intText s.occupied) = some (s.occupied, []) := by
    have hread := @Scanning.signed_text [] intBound s.occupied (by omega) (by omega) Scanning.ends_nil
    rwa [List.append_nil] at hread
  have htag : Scanning.character s.frame = some (83, 32 :: (Decimal.text s.sequence.toNat ++
      (32 :: Scanning.intText s.leftY ++ (32 :: Scanning.intText s.rightY ++ (32 :: Scanning.intText s.ballX ++
      (32 :: Scanning.intText s.ballY ++ (32 :: Scanning.intText s.leftScore ++
      (32 :: Scanning.intText s.rightScore ++ 32 :: Scanning.intText s.occupied)))))))) := rfl
  simp only [List.cons_append] at htag
  unfold parseFields
  simp only [htag, Option.bind_some, hsequence, hnumber hleft.1 (by omega), hnumber hright.1 (by omega),
    hnumber (Int.le_of_lt hx.1) (by omega), hnumber hy.1 (by omega), hnumber hscore (by omega),
    hnumber hscore' (by omega), hlast, UInt64.ofNat_toNat]
  rfl

theorem frame_length {s : State} {n : ℕ} (hs : s.Inside n) (hn : n < 2 ^ 31)
    (hoccupied : 0 ≤ s.occupied ∧ s.occupied ≤ 3) : s.frame.length ≤ 128 := by
  obtain ⟨hleft, hright, hx, hy, hscore, hscore', hsum⟩ := hs
  dsimp only [width, height, paddleHeight] at hleft hright hx hy
  have hsequence : (Decimal.text s.sequence.toNat).length ≤ 19 + 1 :=
    Scanning.text_length 19 (Nat.lt_of_lt_of_le (UInt64.toNat_lt _) (by decide))
  have hnumber {v : ℤ} (hlow : 0 ≤ v) (hhigh : v < 10000000000) : (Scanning.intText v).length ≤ 9 + 1 :=
    Scanning.intText_length 9 hlow (by simpa using hhigh)
  have hleft := hnumber hleft.1 (by omega)
  have hright := hnumber hright.1 (by omega)
  have hx := hnumber (Int.le_of_lt hx.1) (by omega)
  have hy := hnumber hy.1 (by omega)
  have hscores := And.intro (hnumber hscore (by omega)) (hnumber hscore' (by omega))
  have hseats := hnumber hoccupied.1 (by omega)
  have htag : (ascii "S ").length = 2 := rfl
  simp only [State.frame, List.length_append, List.length_cons, htag]
  omega

/-- A client takes a snapshot if it has none that is as new. -/
theorem parseState_frame {s : State} {n : ℕ} (hs : s.Inside n) (hn : n < 2 ^ 31)
    (hoccupied : 0 ≤ s.occupied ∧ s.occupied ≤ 3) (out : View) :
    parseState s.frame out = if s.sequence ≤ out.sequence then none else some s.view := by
  have hlength := frame_length hs hn hoccupied
  have htag : s.frame.take 2 = ascii "S " := rfl
  have hshort : ¬((128 < s.frame.length || s.frame.take 2 ≠ ascii "S ") = true) := by
    rw [htag]
    simpa using hlength
  unfold parseState
  rw [if_neg hshort, parseFields_frame hs hn hoccupied]
  dsimp only
  rw [if_neg]
  · rfl
  · obtain ⟨hleft, hright, hx, hy, hscore, hscore', -⟩ := hs
    dsimp only [width, height, paddleHeight] at hleft hright hx hy
    have hskip : Scanning.skip [] = [] := rfl
    simp only [State.view, hskip, ne_eq, not_true_eq_false, false_or]
    omega

namespace Server

theorem parseState_published {s : Server} (hs : s.Regular) (hfew : s.published.length < 2 ^ 31) {p : State}
    (hp : p ∈ s.published) (out : View) :
    parseState p.frame out = if p.sequence ≤ out.sequence then none else some p.view := by
  obtain ⟨k, hk⟩ := List.getElem?_of_mem hp
  obtain ⟨-, hinside, hoccupied⟩ := hs.fair.published k p hk
  have hlength := (List.getElem?_eq_some_iff.mp hk).1
  exact parseState_frame hinside (by omega) hoccupied out

/-- Whatever has happened, a client reads from a snapshot what the server has written, if it
has none that is as new. -/
theorem run_frames (ops : List Op) (hfew : (run ops).published.length < 2 ^ 31) {p : State}
    (hp : p ∈ (run ops).published) (out : View) :
    parseState p.frame out = if p.sequence ≤ out.sequence then none else some p.view :=
  parseState_published (regular_run ops) hfew hp out

/-- The snapshot after the first `J`. -/
theorem run_frames_first : parseState (ascii "S 1 4 4 12 6 0 0 1") {} = some ⟨1, 4, 4, 12, 6, 0, 0, 1⟩ := by
  let player : Sockaddr := .inet 1 (dotted 127 0 0 1)
  let first : State := { ({} : State) with sequence := 1, occupied := 1 }
  have hp : first ∈ (run [.start 2302 true, .poll [(ascii "J", player)]]).published := by decide +kernel
  have hread := run_frames _ (by decide +kernel) hp {}
  rw [show first.frame = ascii "S 1 4 4 12 6 0 0 1" by decide +kernel] at hread
  exact hread

end Server

end Frames

section Clients

variable {ps qs : List State} {c : Client}

/-- Of these states a client has drawn some, in their order since it last lost the
connection. -/
structure Honest (ps : List State) (c : Client) : Prop where
  dirty : c.dirty = true → ∃ p ∈ ps, c.screen = p.view
  drawn : ∀ v ∈ c.drawn, ∃ p ∈ ps, v = p.view
  since : c.since ≤ c.drawn.length
  rising : (c.drawn.drop c.since).Pairwise fun v u => v.sequence < u.sequence
  below : ∀ v ∈ c.drawn.drop c.since, v.sequence ≤ c.screen.sequence ∧
    (c.dirty = true → v.sequence < c.screen.sequence)

/-- The states are such that a client takes their frames. -/
def Legible (ps : List State) : Prop :=
  ∀ p ∈ ps, ∀ out, parseState p.frame out = if p.sequence ≤ out.sequence then none else some p.view

/-- What the server sends when it has published these states. -/
def Sends (ps : List State) (bytes : List UInt8) : Prop :=
  bytes ∈ answers ∨ ∃ p ∈ ps, bytes = p.frame

namespace Honest

theorem mono (hc : Honest ps c) (hsub : ps ⊆ qs) : Honest qs c where
  dirty hdirty := by
    obtain ⟨p, hp, hscreen⟩ := hc.dirty hdirty
    exact ⟨p, hsub hp, hscreen⟩
  drawn v hv := by
    obtain ⟨p, hp, heq⟩ := hc.drawn v hv
    exact ⟨p, hsub hp, heq⟩
  since := hc.since
  rising := hc.rising
  below := hc.below

/-- A newer state comes to the screen. -/
theorem show_view (hc : Honest ps c) {p : State} (hp : p ∈ ps) (hnew : c.screen.sequence < p.sequence) (now : ℤ) :
    Honest ps { c with screen := p.view, dirty := true, lastSnapshot := now } where
  dirty _ := ⟨p, hp, rfl⟩
  drawn := hc.drawn
  since := hc.since
  rising := hc.rising
  below v hv := by
    have hless : v.sequence < p.sequence := UInt64.lt_of_le_of_lt (hc.below v hv).1 hnew
    exact ⟨UInt64.le_of_lt hless, fun _ => hless⟩

theorem receive (hc : Honest ps c) (hps : Legible ps) (inetNtop : Family → List UInt8 → String)
    (server : Sockaddr) {packet : Packet}
    (hpacket : Client.trusts inetNtop server packet.sender = true → Sends ps packet.bytes) :
    Honest ps (c.receive inetNtop server packet) := by
  unfold Client.receive
  split
  · exact hc
  · rename_i htrusts
    have htrusts : Client.trusts inetNtop server packet.sender = true := by
      simp only [Bool.or_eq_true, not_or, Bool.not_eq_true, Bool.not_eq_false'] at htrusts
      exact htrusts.1
    split
    · exact ⟨hc.dirty, hc.drawn, hc.since, hc.rising, hc.below⟩
    · rename_i hfirst
      split
      · exact ⟨hc.dirty, hc.drawn, hc.since, hc.rising, hc.below⟩
      · rename_i hsecond
        split
        · exact ⟨hc.dirty, hc.drawn, hc.since, hc.rising, hc.below⟩
        · rename_i hfull
          rcases hpacket htrusts with hanswer | ⟨p, hp, hframe⟩
          · unfold answers at hanswer
            simp only [List.mem_cons, List.not_mem_nil, or_false] at hanswer
            rcases hanswer with heq | heq | heq
            · exact absurd heq hfirst
            · exact absurd heq hsecond
            · exact absurd heq hfull
          · rw [hframe, hps p hp c.screen]
            by_cases hold : p.sequence ≤ c.screen.sequence
            · rw [if_pos hold]
              exact hc
            · rw [if_neg hold]
              exact hc.show_view hp (UInt64.not_le.mp hold) packet.now

theorem rejoin (hc : Honest ps c) (hclean : c.player ≠ 0 → c.dirty = false) (now : ℤ) :
    Honest ps (c.rejoin now) := by
  unfold Client.rejoin
  split
  · rename_i hlost
    have hdirty : c.dirty ≠ true := by
      rw [hclean hlost.1]
      exact Bool.false_ne_true
    refine ⟨fun h => absurd h hdirty, hc.drawn, Nat.le_refl _, ?_, ?_⟩
    · rw [List.drop_length]
      exact .nil
    · rw [List.drop_length]
      exact List.forall_mem_nil _
  · exact hc

theorem draw (hc : Honest ps c) : Honest ps c.draw := by
  unfold Client.draw
  split
  · rename_i hdraws
    refine ⟨nofun, fun v hv => ?_, ?_, ?_, fun v hv => ⟨?_, nofun⟩⟩
    · rcases List.mem_append.mp hv with hv | hv
      · exact hc.drawn v hv
      · rw [List.mem_singleton.mp hv]
        exact hc.dirty hdraws.2
    · rw [List.length_append]
      exact Nat.le_add_right_of_le hc.since
    · rw [List.drop_append_of_le_length hc.since, List.pairwise_append]
      refine ⟨hc.rising, List.pairwise_singleton _ _, fun v hv u hu => ?_⟩
      rw [List.mem_singleton.mp hu]
      exact (hc.below v hv).2 hdraws.2
    · rw [List.drop_append_of_le_length hc.since] at hv
      rcases List.mem_append.mp hv with hv | hv
      · exact (hc.below v hv).1
      · rw [List.mem_singleton.mp hv]
        exact UInt64.le_refl _
  · exact hc

end Honest

theorem timers_eq (now : ℤ) (c : Client) : ∃ lastJoin lastHeartbeat,
    (c.timers now).2 = { c with lastJoin, lastHeartbeat } := by
  unfold Client.timers
  split
  · exact ⟨now, c.lastHeartbeat, rfl⟩
  · split
    · exact ⟨c.lastJoin, now, rfl⟩
    · exact ⟨c.lastJoin, c.lastHeartbeat, rfl⟩

theorem keys_eq (left : ℕ) (pressed : List ℤ) (c : Client) : ∃ running direction,
    (Client.keys left pressed c).2 = { c with running, direction } := by
  induction left generalizing pressed c with
  | zero => exact ⟨c.running, c.direction, rfl⟩
  | succ left ih =>
    cases pressed with
    | nil => exact ⟨c.running, c.direction, rfl⟩
    | cons k ks =>
      unfold Client.keys
      split
      · exact ⟨c.running, c.direction, rfl⟩
      · split
        · exact ⟨false, c.direction, rfl⟩
        · dsimp only
          generalize (if k = 119 ∨ k = 87 then -1 else if k = 115 ∨ k = 83 then 1
            else if k = 120 ∨ k = 88 then 0 else c.direction : ℤ) = next
          by_cases hsent : next ≠ c.direction ∧ c.player ≠ 0
          · rw [if_pos hsent]
            exact ih ks { c with direction := next }
          · rw [if_neg hsent]
            exact ih ks c

theorem draw_clean (c : Client) (hplayer : c.draw.player ≠ 0) : c.draw.dirty = false := by
  unfold Client.draw at hplayer ⊢
  split at hplayer
  · rename_i hdraws
    rw [if_pos hdraws]
  · rename_i hkeeps
    rw [if_neg hkeeps]
    rw [not_and, Bool.not_eq_true] at hkeeps
    exact hkeeps hplayer

/-- What a turn of the main loop keeps. -/
theorem Honest.turn (hc : Honest ps c) (hclean : c.player ≠ 0 → c.dirty = false) (hps : Legible ps)
    (inetNtop : Family → List UInt8 → String) (server : Sockaddr) (now : ℤ) (pressed : List ℤ)
    (packets : List Packet)
    (hpackets : ∀ p ∈ packets, Client.trusts inetNtop server p.sender = true → Sends ps p.bytes) :
    let after := (c.turn inetNtop server now pressed packets).2
    Honest ps after ∧ (after.player ≠ 0 → after.dirty = false) := by
  intro after
  have hafter : after = (c.turn inetNtop server now pressed packets).2 := rfl
  unfold Client.turn at hafter
  split at hafter
  · rw [hafter]
    exact ⟨hc, hclean⟩
  · have hrejoined := hc.rejoin hclean now
    have hrest : (c.rejoin now).player ≠ 0 → (c.rejoin now).dirty = false := by
      unfold Client.rejoin
      split
      · exact fun h => absurd rfl h
      · exact hclean
    obtain ⟨lastJoin, lastHeartbeat, htimers⟩ := timers_eq now (c.rejoin now)
    obtain ⟨running, direction, hkeys⟩ := keys_eq 8 pressed ((c.rejoin now).timers now).2
    rw [htimers] at hkeys
    dsimp only at hafter
    rw [htimers, hkeys] at hafter
    have hready : Honest ps { c.rejoin now with lastJoin, lastHeartbeat, running, direction } :=
      ⟨hrejoined.dirty, hrejoined.drawn, hrejoined.since, hrejoined.rising, hrejoined.below⟩
    split at hafter
    · rw [hafter]
      exact ⟨hready, hrest⟩
    · rw [hafter]
      refine ⟨Honest.draw ?_, draw_clean _⟩
      exact List.foldlRecOn packets _ hready fun t ht p hp => ht.receive hps inetNtop server (hpackets p hp)

end Clients

namespace World

variable (inetNtop : Family → List UInt8 → String) (server : Sockaddr)

/-- What the clients have of the snapshots, as long as the server can count its goals. -/
structure Agrees (w : World) : Prop where
  regular : w.server.Regular
  clients : w.server.published.length < 2 ^ 31 → ∀ e, Honest w.server.published (w.clients e) ∧
    ((w.clients e).player ≠ 0 → (w.clients e).dirty = false)

theorem packet_sends {w : World} (hw : w.server.Regular) {e : Sockaddr} {a : ℤ × Arrival} {p : Packet}
    (hp : w.packet inetNtop server e a = some p) (htrusts : Client.trusts inetNtop server p.sender = true) :
    Sends w.server.published p.bytes := by
  obtain ⟨now, k | ⟨bytes, sender⟩⟩ := a
  · unfold packet at hp
    dsimp only at hp
    split at hp
    · rename_i d hd
      split at hp
      · cases hp
        exact hw.fair.sent d (List.mem_of_getElem? hd)
      · cases hp
    · cases hp
  · unfold packet at hp
    dsimp only at hp
    split at hp
    · cases hp
    · rename_i hstray
      cases hp
      exact absurd htrusts hstray

theorem Agrees.exec {w : World} (hw : w.Agrees) (x : Event) : (w.exec inetNtop server x).Agrees := by
  cases x with
  | call o =>
    have hgrows := Server.exec_published w.server o
    refine ⟨hw.regular.exec o, fun hfew e => ?_⟩
    have hbefore : w.server.published.length < 2 ^ 31 := Nat.lt_of_le_of_lt hgrows.length_le hfew
    obtain ⟨hclient, hclean⟩ := hw.clients hbefore e
    exact ⟨hclient.mono hgrows.subset, hclean⟩
  | turn endpoint now pressed arrivals =>
    refine ⟨hw.regular, fun hfew e => ?_⟩
    show Honest w.server.published (Function.update w.clients endpoint _ e) ∧
      ((Function.update w.clients endpoint _ e).player ≠ 0 → (Function.update w.clients endpoint _ e).dirty = false)
    rcases eq_or_ne e endpoint with rfl | hne
    · rw [Function.update_self]
      obtain ⟨hclient, hclean⟩ := hw.clients hfew e
      refine hclient.turn hclean (fun _ => Server.parseState_published hw.regular hfew) inetNtop server now pressed _ fun p hp => ?_
      obtain ⟨a, -, ha⟩ := List.mem_filterMap.mp hp
      exact packet_sends inetNtop server hw.regular ha
    · rw [Function.update_of_ne hne]
      exact hw.clients hfew e

theorem agrees_run (events : List Event) : (run inetNtop server events).Agrees := by
  refine List.foldlRecOn events _ ⟨Server.regular_run [], fun _ e => ?_⟩ fun w hw x _ => hw.exec inetNtop server x
  exact ⟨⟨nofun, nofun, Nat.le_refl _, .nil, nofun⟩, fun h => absurd rfl h⟩

/-- The snapshots of a server have different numbers. -/
theorem published_injective {s : Server} (hs : s.Regular) (hfew : s.published.length < 2 ^ 31) {p q : State}
    (hp : p ∈ s.published) (hq : q ∈ s.published) (heq : p.sequence = q.sequence) : p = q := by
  obtain ⟨k, hk⟩ := List.getElem?_of_mem hp
  obtain ⟨j, hj⟩ := List.getElem?_of_mem hq
  have hsequence := (hs.fair.published k p hk).1.symm.trans (heq.trans (hs.fair.published j q hj).1)
  have hklength := (List.getElem?_eq_some_iff.mp hk).1
  have hjlength := (List.getElem?_eq_some_iff.mp hj).1
  have hnumber := congrArg UInt64.toNat hsequence
  rw [UInt64.toNat_ofNat_of_lt' (by rw [UInt64.size]; omega),
    UInt64.toNat_ofNat_of_lt' (by rw [UInt64.size]; omega)] at hnumber
  obtain rfl : k = j := by omega
  exact Option.some.inj (hk.symm.trans hj)

/-- Whatever is lost, comes twice or in another order, the clients draw what the server has
published, in its order as long as they do not lose the connection, and never two different
boards for one moment of the game. -/
theorem run_agreement (events : List Event)
    (hfew : (run inetNtop server events).server.published.length < 2 ^ 31) :
    let w := run inetNtop server events
    (∀ e, ∀ v ∈ (w.clients e).drawn, ∃ p ∈ w.server.published, v = p.view) ∧
      (∀ e, ((w.clients e).drawn.drop (w.clients e).since).Pairwise fun v u => v.sequence < u.sequence) ∧
      ∀ e f, ∀ v ∈ (w.clients e).drawn, ∀ u ∈ (w.clients f).drawn, v.sequence = u.sequence → v = u := by
  intro w
  obtain ⟨hregular, hclients⟩ := agrees_run inetNtop server events
  refine ⟨fun e => (hclients hfew e).1.drawn, fun e => (hclients hfew e).1.rising, fun e f v hv u hu heq => ?_⟩
  obtain ⟨p, hp, rfl⟩ := (hclients hfew e).1.drawn v hv
  obtain ⟨q, hq, rfl⟩ := (hclients hfew f).1.drawn u hu
  rw [published_injective hregular hfew hp hq heq]

/-- Two players get the second snapshot, one of them before the first one and with a forged
one behind it. -/
theorem run_agreement_reordered :
    let inetNtop : Family → List UInt8 → String := fun _ bytes =>
      if bytes = [127, 0, 0, 1] then "127.0.0.1" else "127.0.0.2"
    let server : Sockaddr := .inet 2302 (dotted 127 0 0 1)
    let a : Sockaddr := .inet 1 (dotted 127 0 0 1)
    let b : Sockaddr := .inet 2 (dotted 127 0 0 1)
    let events : List Event := [.call (.start 2302 true), .call (.poll [(ascii "J", a), (ascii "J", b)]),
      .turn a 1 [] [(2, .sent 0), (3, .sent 3), (4, .sent 1),
        (5, .stray (ascii "S 9 0 0 1 1 7 0 3") (.inet 2302 (dotted 127 0 0 2)))],
      .turn b 6 [] [(7, .sent 4), (8, .sent 2)]]
    let w := run inetNtop server events
    (w.clients a).drawn ≠ [] ∧ (w.clients b).drawn ≠ [] ∧
      ∀ v ∈ (w.clients a).drawn, ∀ u ∈ (w.clients b).drawn, v = u := by
  intro inetNtop server a b events w
  obtain ⟨-, -, hagree⟩ := run_agreement inetNtop server events (by decide +kernel)
  have hsequence : ∀ v ∈ (w.clients a).drawn, ∀ u ∈ (w.clients b).drawn, v.sequence = u.sequence := by
    decide +kernel
  exact ⟨by decide +kernel, by decide +kernel, fun v hv u hu => hagree a b v hv u hu (hsequence v hv u hu)⟩

end World

end Aeon.Pong
