import Aeon.ChatServer
import Aeon.Library.Delimiter

/-!
# Who says and who hears what

There is one history of what has been said.  A client hears a part of it without a gap,
from when it comes until it is retired, and what a client says are the lines of its
stream, however that stream is cut into reads.
-/

namespace Aeon.Chat

open Search Delimiter ClientServer

/-- A line that the server takes, with its line feed. -/
def legal (max : ℕ) (line : List UInt8) : Bool := !line.contains 0 && decide (line.length ≤ max + 1)

/-- The lines of a stream that are said. -/
def lines (max : ℕ) (stream : List UInt8) : List (List UInt8) :=
  (((split [10] stream).1.takeWhile (legal max)).map fun line => strip line.dropLast).filter (· ≠ [])

/-- What the others hear of an entry. -/
def Entry.frame : Entry → List UInt8
  | .joined _ => []
  | .said m => m.frame

/-- The clients that have been given a number. -/
def guests (log : List Entry) : List ℕ := log.filterMap fun
  | .joined id => some id
  | .said _ => none

def said (id : ℕ) (log : List Entry) : List (List UInt8) := log.filterMap fun
  | .joined _ => none
  | .said m => if m.sender = id then some m.line else none

/-- A client hears the greeting and what follows it in the history, all of it while the
client is registered. -/
def Heard (s : Server) (id : ℕ) : Prop :=
  ((s.record id).conn.accepted = [] ∧ id ∉ s.registered) ∨
    ∃ before heard missed, s.log = before ++ .joined id :: (heard ++ missed) ∧
      (s.record id).conn.accepted = greeting (s.record id).data.id ++ heard.flatMap Entry.frame ∧
      (id ∈ s.registered → missed = [])

/-- What a client has said, when `stream` is what its handler has worked on. -/
structure Spoken (max : ℕ) (s : Server) (id : ℕ) (stream : List UInt8) : Prop where
  first : said id s.log <+: lines max stream
  all : id ∈ s.registered → said id s.log = lines max stream
  legal : id ∈ s.registered → ∀ line ∈ (split [10] stream).1, legal max line = true
  rest : id ∈ s.registered → 0 ∉ (split [10] stream).2 ∧ (split [10] stream).2.length ≤ max
  pending : id ∈ s.registered → (s.record id).data.pendingLine = (split [10] stream).2

/-- The numbers are given in the order in which the clients come, and each message bears
that of its sender. -/
structure Named (s : Server) : Prop where
  next : s.nextId = UInt64.ofNat ((guests s.log).length + 1)
  order : (guests s.log).Pairwise (· < ·)
  made : ∀ id ∈ guests s.log, id < s.made
  number : ∀ k id, (guests s.log)[k]? = some id → (s.record id).data.id = UInt64.ofNat (k + 1)
  registered : ∀ id ∈ s.registered, id ∈ guests s.log
  sender : ∀ m, .said m ∈ s.log → m.sender ∈ guests s.log ∧ m.id = (s.record m.sender).data.id

/-- What holds between any two steps of a handler, when `stream` is what the handlers
have worked on. -/
structure Talk (limits : Limits) (stream : ℕ → List UInt8) (s : Server) : Prop where
  sound : s.Sound limits.maxClients
  heard : ∀ id, Heard s id
  spoken : ∀ id, Spoken limits.maxLineBytes s id (stream id)
  named : Named s

section Lines

variable {max : ℕ} {stream : List UInt8}

theorem lines_append (max : ℕ) (stream more : List UInt8) : lines max stream <+: lines max (stream ++ more) := by
  unfold lines
  rw [split_append (by simp)]
  refine List.IsPrefix.filter _ (List.IsPrefix.map _ ?_)
  rw [List.takeWhile_append]
  split
  · rename_i hall
    rw [List.takeWhile_eq_self_iff.mpr fun line hline => by
      have hprefix := List.takeWhile_prefix (legal max) (l := (split [10] stream).1)
      have heq := hprefix.eq_of_length hall
      rw [← heq] at hline
      exact List.mem_takeWhile_imp hline]
    exact List.prefix_append _ _
  · exact List.prefix_rfl

/-- A byte that ends no line says nothing. -/
theorem lines_concat {c : UInt8} (hc : c ≠ 10) : lines max (stream ++ [c]) = lines max stream := by
  rw [lines, split_concat_ne hc]
  rfl

theorem legal_feed (hlegal : ∀ line ∈ (split [10] stream).1, legal max line = true)
    (hrest : 0 ∉ (split [10] stream).2 ∧ (split [10] stream).2.length ≤ max) :
    ∀ line ∈ (split [10] (stream ++ [10])).1, legal max line = true := by
  rw [split_concat_self]
  intro line hline
  rcases List.mem_append.mp hline with hline | hline
  · exact hlegal line hline
  · rw [List.mem_singleton.mp hline]
    simp [legal, hrest.1, hrest.2]

/-- A line feed says what is pending. -/
theorem lines_feed (hlegal : ∀ line ∈ (split [10] stream).1, legal max line = true)
    (hrest : 0 ∉ (split [10] stream).2 ∧ (split [10] stream).2.length ≤ max) :
    lines max (stream ++ [10]) =
      lines max stream ++ if strip (split [10] stream).2 = [] then [] else [strip (split [10] stream).2] := by
  unfold lines
  rw [List.takeWhile_eq_self_iff.mpr (legal_feed hlegal hrest), List.takeWhile_eq_self_iff.mpr hlegal,
    split_concat_self, List.map_append, List.filter_append]
  congr 1
  by_cases hempty : strip (split [10] stream).2 = []
  · simp [hempty]
  · simp [hempty]

end Lines

section Keeping

variable {limits : Limits} {stream : ℕ → List UInt8} {max : ℕ} {s s' : Server} {id : ℕ}

/-- A client hears nothing of those who come later. -/
theorem Heard.extend (hs : Heard s id) (more : List Entry) (hmore : more.flatMap Entry.frame = [])
    (hlog : s'.log = s.log ++ more)
    (haccepted : (s'.record id).conn.accepted = (s.record id).conn.accepted)
    (hnumber : (s'.record id).data.id = (s.record id).data.id)
    (hregistered : id ∈ s'.registered → id ∈ s.registered) : Heard s' id := by
  unfold Heard at hs ⊢
  rw [hlog, haccepted, hnumber]
  rcases hs with ⟨hnone, hgone⟩ | ⟨before, heard, missed, hsplit, hall, hlive⟩
  · exact .inl ⟨hnone, fun hid => hgone (hregistered hid)⟩
  · by_cases hid : id ∈ s.registered
    · refine .inr ⟨before, heard ++ more, [], ?_, ?_, fun _ => rfl⟩
      · rw [hsplit, hlive hid, List.append_nil, List.append_nil, List.append_assoc, List.cons_append]
      · rw [hall, List.flatMap_append, hmore, List.append_nil]
    · refine .inr ⟨before, heard, missed ++ more, ?_, hall, fun hid' => absurd (hregistered hid') hid⟩
      rw [hsplit, List.append_assoc, List.cons_append, List.append_assoc]

theorem Heard.keep (hs : Heard s id) (hlog : s'.log = s.log)
    (haccepted : (s'.record id).conn.accepted = (s.record id).conn.accepted)
    (hnumber : (s'.record id).data.id = (s.record id).data.id)
    (hregistered : id ∈ s'.registered → id ∈ s.registered) : Heard s' id :=
  hs.extend [] rfl (hlog.trans (List.append_nil _).symm) haccepted hnumber hregistered

theorem Spoken.keep {stream : List UInt8} (hs : Spoken max s id stream)
    (hlog : said id s'.log = said id s.log)
    (hpending : (s'.record id).data.pendingLine = (s.record id).data.pendingLine)
    (hregistered : id ∈ s'.registered → id ∈ s.registered) : Spoken max s' id stream where
  first := hlog ▸ hs.first
  all hid := hlog ▸ hs.all (hregistered hid)
  legal hid := hs.legal (hregistered hid)
  rest hid := hs.rest (hregistered hid)
  pending hid := hpending.trans (hs.pending (hregistered hid))

/-- Nothing is said for what comes after a client is retired. -/
theorem Spoken.late {stream : List UInt8} (hs : Spoken max s id stream) (more : List UInt8)
    (hlog : said id s'.log = said id s.log)
    (hgone : id ∉ s'.registered) : Spoken max s' id (stream ++ more) where
  first := hlog ▸ hs.first.trans (lines_append max stream more)
  all hid := absurd hid hgone
  legal hid := absurd hid hgone
  rest hid := absurd hid hgone
  pending hid := absurd hid hgone

theorem Named.keep (hs : Named s) (hnext : s'.nextId = s.nextId) (hlog : s'.log = s.log)
    (hmade : s.made ≤ s'.made)
    (hnumber : ∀ id ∈ guests s.log, (s'.record id).data.id = (s.record id).data.id)
    (hregistered : ∀ id ∈ s'.registered, id ∈ s.registered) : Named s' where
  next := by rw [hnext, hlog, hs.next]
  order := hlog ▸ hs.order
  made id hid := Nat.lt_of_lt_of_le (hs.made id (hlog ▸ hid)) hmade
  number k id hk := by
    rw [hlog] at hk
    rw [hnumber id (List.mem_of_getElem? hk)]
    exact hs.number k id hk
  registered id hid := hlog ▸ hs.registered id (hregistered id hid)
  sender m hm := by
    obtain ⟨hsender, hid⟩ := hs.sender m (hlog ▸ hm)
    rw [hlog, hnumber m.sender hsender]
    exact ⟨hsender, hid⟩

/-- Nothing is said, and nobody comes. -/
theorem Talk.keep (hs : Talk limits stream s) {t : ClientServer Peer} (hsound : t.Sound limits.maxClients)
    (haccepted : ∀ id, (t.record id).conn.accepted = (s.record id).conn.accepted)
    (hdata : ∀ id, (t.record id).data = (s.record id).data)
    (hregistered : ∀ id ∈ t.registered, id ∈ s.registered) (hmade : s.made ≤ t.made) :
    Talk limits stream { s with toClientServer := t } where
  sound := hsound
  heard id := (hs.heard id).keep rfl (haccepted id) (congrArg Peer.id (hdata id)) (hregistered id)
  spoken id := (hs.spoken id).keep rfl (congrArg Peer.pendingLine (hdata id)) (hregistered id)
  named := hs.named.keep rfl rfl hmade (fun id _ => congrArg Peer.id (hdata id)) hregistered

theorem Talk.quiet (hs : Talk limits stream s) {t : ClientServer Peer} (hquiet : s.Quiet t)
    (hsound : t.Sound limits.maxClients) : Talk limits stream { s with toClientServer := t } :=
  hs.keep hsound hquiet.accepted hquiet.data hquiet.registered (Nat.le_of_eq hquiet.made.symm)

end Keeping

section Sending

variable {limits : Limits} {s : Server} {id : ℕ}

theorem handles_send (frame : List UInt8) : Handler (send frame) where
  retired p hretire := by
    show (p.retire || _) = true
    rw [hretire, Bool.true_or]
  written p := .step frame .refl

theorem send_cases (frame : List UInt8) (p : Record) :
    ((send frame p).conn.accepted = p.conn.accepted ++ frame ∧ (send frame p).retire = p.retire) ∨
    ((send frame p).conn.accepted = p.conn.accepted ∧ (send frame p).retire = true) := by
  unfold send Connection.queueWrite
  dsimp only
  split
  · rename_i hok
    exact .inl ⟨rfl, by rw [hok, Bool.not_true, Bool.or_false]⟩
  · rename_i hfail
    rw [Bool.not_eq_true] at hfail
    exact .inr ⟨rfl, by rw [hfail, Bool.not_false, Bool.or_true]⟩

theorem handles_pending (line : List UInt8) :
    Handler fun p : Record => { p with data := { p.data with pendingLine := line } } :=
  ⟨fun _ hretire => hretire, fun _ => .refl⟩

namespace Server

variable (sender : ℕ) (line : List UInt8)

theorem broadcast_peers : (s.broadcast sender line).peers = s.peers := (eachLive_frame _ _).1

theorem broadcast_made : (s.broadcast sender line).made = s.made := (eachLive_frame _ _).2.2

variable (hs : s.Sound limits.maxClients)

include hs

theorem broadcast_sound : (s.broadcast sender line).Sound limits.maxClients := hs.eachLive (handles_send _)

theorem broadcast_record : (s.broadcast sender line).record id =
    if id ∈ s.registered then send (s.message sender line).frame (s.record id) else s.record id := by
  have hrecord := eachLive_record (f := send (s.message sender line).frame) hs.peers_nodup id
  simp only [hs.mem_registered]
  exact hrecord

theorem broadcast_data : ((s.broadcast sender line).record id).data = (s.record id).data := by
  rw [broadcast_record sender line hs]
  split <;> rfl

theorem broadcast_received :
    ((s.broadcast sender line).record id).conn.received = (s.record id).conn.received := by
  rw [broadcast_record sender line hs]
  split <;> rfl

theorem broadcast_cases (id : ℕ) :
    (id ∈ s.registered ∧ ((s.broadcast sender line).record id).conn.accepted =
      (s.record id).conn.accepted ++ (s.message sender line).frame) ∨
    (id ∉ (s.broadcast sender line).registered ∧
      ((s.broadcast sender line).record id).conn.accepted = (s.record id).conn.accepted) := by
  rw [(broadcast_sound sender line hs).mem_registered, broadcast_record sender line hs, broadcast_peers]
  by_cases hid : id ∈ s.registered
  · rw [if_pos hid]
    rcases send_cases (s.message sender line).frame (s.record id) with
      ⟨haccepted, -⟩ | ⟨haccepted, hretire⟩
    · exact .inl ⟨hid, haccepted⟩
    · exact .inr ⟨fun h => absurd h.2 (by rw [hretire]; exact Bool.noConfusion), haccepted⟩
  · rw [if_neg hid]
    exact .inr ⟨fun h => hid (hs.mem_registered.mpr h), rfl⟩

theorem broadcast_registered (hid : id ∈ (s.broadcast sender line).registered) : id ∈ s.registered := by
  rcases broadcast_cases sender line hs id with ⟨hbefore, -⟩ | ⟨hgone, -⟩
  · exact hbefore
  · exact absurd hid hgone

/-- A line is heard by every client that stays. -/
theorem broadcast_heard (hheard : Heard s id) : Heard (s.broadcast sender line) id := by
  unfold Heard at hheard ⊢
  rw [broadcast_data sender line hs, show (s.broadcast sender line).log =
    s.log ++ [.said (s.message sender line)] from rfl]
  rcases broadcast_cases sender line hs id with ⟨hbefore, haccepted⟩ | ⟨hgone, haccepted⟩
  · rw [haccepted]
    rcases hheard with ⟨-, hgone⟩ | ⟨before, heard, missed, hsplit, hall, hlive⟩
    · exact absurd hbefore hgone
    · refine .inr ⟨before, heard ++ [.said (s.message sender line)], [], ?_, ?_, fun _ => rfl⟩
      · rw [hsplit, hlive hbefore, List.append_nil, List.append_nil, List.append_assoc, List.cons_append]
      · rw [hall, List.flatMap_append, List.flatMap_singleton, List.append_assoc]
        rfl
  · rw [haccepted]
    rcases hheard with ⟨hnone, -⟩ | ⟨before, heard, missed, hsplit, hall, -⟩
    · exact .inl ⟨hnone, hgone⟩
    · refine .inr ⟨before, heard, missed ++ [.said (s.message sender line)], ?_, hall,
        fun hid => absurd hid hgone⟩
      rw [hsplit, List.append_assoc, List.cons_append, List.append_assoc]

theorem broadcast_named (hnamed : Named s) (hsender : sender ∈ s.registered) :
    Named (s.broadcast sender line) := by
  have hguests : guests (s.broadcast sender line).log = guests s.log := by
    show guests (s.log ++ [_]) = _
    simp [guests]
  have hnumber (id : ℕ) : ((s.broadcast sender line).record id).data.id = (s.record id).data.id :=
    congrArg Peer.id (broadcast_data sender line hs)
  constructor
  · rw [hguests]
    exact hnamed.next
  · rw [hguests]
    exact hnamed.order
  · rw [hguests, broadcast_made]
    exact hnamed.made
  · intro k id hk
    rw [hnumber]
    exact hnamed.number k id (hguests ▸ hk)
  · rw [hguests]
    exact fun id hid => hnamed.registered id (broadcast_registered sender line hs hid)
  · intro m hm
    rw [hguests, hnumber]
    rcases List.mem_append.mp hm with hold | hnew
    · exact hnamed.sender m hold
    · rw [Entry.said.inj (List.mem_singleton.mp hnew)]
      exact ⟨hnamed.registered sender hsender, rfl⟩

end Server

end Sending

section Receiving

variable {limits : Limits} {stream : ℕ → List UInt8} {s : Server} {sender : ℕ}

/-- What a client sends after it is retired, or to be retired. -/
theorem Talk.late (hs : Talk limits stream s) {t : ClientServer Peer} (hquiet : s.Quiet t)
    (hsound : t.Sound limits.maxClients) (hgone : sender ∉ t.registered) (more : List UInt8) :
    Talk limits (Function.update stream sender (stream sender ++ more)) { s with toClientServer := t } := by
  have hkept := hs.quiet hquiet hsound
  refine ⟨hkept.sound, hkept.heard, fun id => ?_, hkept.named⟩
  rcases eq_or_ne id sender with rfl | hne
  · rw [Function.update_self]
    exact (hs.spoken id).late more rfl hgone
  · rw [Function.update_of_ne hne]
    exact hkept.spoken id

theorem setPending_keeps {α : Type} (g : Record → α) (line : List UInt8)
    (hg : ∀ p : Record, g { p with data := { p.data with pendingLine := line } } = g p) (id : ℕ) :
    g ((s.setPending sender line).record id) = g (s.record id) := turn_keeps _ sender g hg id

theorem setPending_line (hid : sender ∈ s.peers) (line : List UInt8) :
    ((s.setPending sender line).record sender).data.pendingLine = line :=
  congrArg (fun p : Record => p.data.pendingLine) (turn_record_self hid)

/-- A client speaks, and what is pending of it changes. -/
theorem Talk.setPending (hsound : s.Sound limits.maxClients) (hheard : ∀ id, Heard s id) (hnamed : Named s)
    (hothers : ∀ id ≠ sender, Spoken limits.maxLineBytes s id (stream id)) {line more : List UInt8}
    (hsender : Spoken limits.maxLineBytes (s.setPending sender line) sender more) :
    Talk limits (Function.update stream sender more) (s.setPending sender line) := by
  have hnumber (id : ℕ) : ((s.setPending sender line).record id).data.id = (s.record id).data.id :=
    setPending_keeps (·.data.id) line (fun _ => rfl) id
  have haccepted (id : ℕ) :
      ((s.setPending sender line).record id).conn.accepted = (s.record id).conn.accepted :=
    setPending_keeps (·.conn.accepted) line (fun _ => rfl) id
  have hregistered (id : ℕ) (hid : id ∈ (s.setPending sender line).registered) : id ∈ s.registered :=
    turn_registered _ sender _ hid
  refine ⟨hsound.turn (handles_pending line), fun id => ?_, fun id => ?_, ?_⟩
  · exact (hheard id).keep rfl (haccepted id) (hnumber id) (hregistered id)
  · rcases eq_or_ne id sender with rfl | hne
    · rwa [Function.update_self]
    · rw [Function.update_of_ne hne]
      refine (hothers id hne).keep rfl ?_ (hregistered id)
      exact congrArg (fun p : Record => p.data.pendingLine) (turn_record_ne hne)
  · exact hnamed.keep rfl rfl (Nat.le_of_eq (turn_made _ sender _).symm) (fun id _ => hnumber id) hregistered

/-- A line feed. -/
theorem Talk.feed (hs : Talk limits stream s) (hid : sender ∈ s.registered) :
    let line := strip (s.record sender).data.pendingLine
    Talk limits (Function.update stream sender (stream sender ++ [10]))
      ((if line = [] then s else s.broadcast sender line).setPending sender []) := by
  intro line
  have hspoken := hs.spoken sender
  have hpeer := (hs.sound.mem_registered.mp hid).1
  have hline : line = strip (split [10] (stream sender)).2 := congrArg strip (hspoken.pending hid)
  have hsaid := lines_feed (hspoken.legal hid) (hspoken.rest hid)
  rw [← hline, ← hspoken.all hid] at hsaid
  have hspoken' {t : Server} (hpeer : sender ∈ t.peers)
      (hlog : said sender t.log = lines limits.maxLineBytes (stream sender ++ [10])) :
      Spoken limits.maxLineBytes (t.setPending sender []) sender (stream sender ++ [10]) :=
    { first := ⟨[], by rw [List.append_nil]; exact hlog⟩
      all := fun _ => hlog
      legal := fun _ => legal_feed (hspoken.legal hid) (hspoken.rest hid)
      rest := fun _ => by
        rw [split_concat_self]
        exact ⟨List.not_mem_nil, Nat.zero_le _⟩
      pending := fun _ => by rw [setPending_line hpeer, split_concat_self] }
  split
  · rename_i hempty
    rw [if_pos hempty, List.append_nil] at hsaid
    exact Talk.setPending hs.sound hs.heard hs.named (fun id _ => hs.spoken id) (hspoken' hpeer hsaid.symm)
  · rename_i hempty
    rw [if_neg hempty] at hsaid
    have hsound := hs.sound
    refine Talk.setPending (Server.broadcast_sound sender line hsound)
      (fun id => Server.broadcast_heard sender line hsound (hs.heard id))
      (Server.broadcast_named sender line hsound hs.named hid) (fun id hne => ?_) (hspoken' ?_ ?_)
    · refine (hs.spoken id).keep ?_ ?_ (Server.broadcast_registered sender line hsound)
      · show said id (s.log ++ [.said (s.message sender line)]) = _
        simp [said, Server.message, hne.symm]
      · exact congrArg Peer.pendingLine (Server.broadcast_data sender line hsound)
    · rwa [Server.broadcast_peers]
    · show said sender (s.log ++ [.said (s.message sender line)]) = _
      rw [hsaid]
      simp [said, Server.message]

/-- A byte of a line. -/
theorem Talk.push (hs : Talk limits stream s) (hid : sender ∈ s.registered) {c : UInt8} (hnul : c ≠ 0)
    (hfeed : c ≠ 10) (hroom : (s.record sender).data.pendingLine.length < limits.maxLineBytes) :
    Talk limits (Function.update stream sender (stream sender ++ [c]))
      (s.setPending sender ((s.record sender).data.pendingLine ++ [c])) := by
  have hspoken := hs.spoken sender
  have hpending := hspoken.pending hid
  have hpeer := (hs.sound.mem_registered.mp hid).1
  have hsaid := (hspoken.all hid).trans (lines_concat hfeed).symm
  obtain ⟨hclean, -⟩ := hspoken.rest hid
  refine Talk.setPending hs.sound hs.heard hs.named (fun id _ => hs.spoken id) ?_
  refine ⟨⟨[], by rw [List.append_nil]; exact hsaid⟩, fun _ => hsaid, fun _ => ?_, fun _ => ?_, fun _ => ?_⟩
  · rw [split_concat_ne hfeed]
    exact hspoken.legal hid
  · rw [split_concat_ne hfeed, List.mem_append, not_or, List.mem_singleton, List.length_append, ← hpending]
    rw [← hpending] at hclean
    exact ⟨⟨hclean, hnul.symm⟩, hroom⟩
  · rw [setPending_line hpeer, split_concat_ne hfeed, hpending]

namespace Server

theorem receiveByte_talk (hs : Talk limits stream s) (hpeer : sender ∈ s.peers) (c : UInt8) :
    Talk limits (Function.update stream sender (stream sender ++ [c])) (receiveByte limits sender s c) := by
  have hretired : (s.retire sender).Sound limits.maxClients := hs.sound.turn handles_retire
  have hgone : sender ∉ (s.retire sender).registered := fun hid => by
    have hretire : ((s.retire sender).record sender).retire = true :=
      congrArg PeerRecord.retire (turn_record_self hpeer)
    exact Bool.false_ne_true ((hretired.mem_registered.mp hid).2.symm.trans hretire)
  unfold receiveByte
  dsimp only
  split
  · rename_i hretire
    refine hs.late (.refl _) hs.sound (fun hid => ?_) [c]
    rw [(hs.sound.mem_registered.mp hid).2] at hretire
    cases hretire
  · rename_i hlive
    have hid := hs.sound.mem_registered.mpr ⟨hpeer, Bool.eq_false_iff.mpr hlive⟩
    split
    · exact hs.late (.retire _ _) hretired hgone [c]
    · rename_i hnul
      split
      · rename_i hfeed
        rw [hfeed]
        exact hs.feed hid
      · rename_i hfeed
        split
        · exact hs.late (.retire _ _) hretired hgone [c]
        · rename_i hroom
          exact hs.push hid hnul hfeed (Nat.lt_of_not_le hroom)

theorem receiveByte_frame (limits : Limits) (s : Server) (sender : ℕ) (c : UInt8) :
    (receiveByte limits sender s c).peers = s.peers ∧
      (receiveByte limits sender s c).running = s.running := by
  have hretire := And.intro (turn_peers s.toClientServer sender fun p => { p with retire := true })
    (turn_running s.toClientServer sender fun p => { p with retire := true })
  have hset (t : Server) (line : List UInt8) := And.intro
    (turn_peers t.toClientServer sender fun p => { p with data := { p.data with pendingLine := line } })
    (turn_running t.toClientServer sender fun p => { p with data := { p.data with pendingLine := line } })
  unfold receiveByte
  dsimp only
  split
  · exact ⟨rfl, rfl⟩
  · split
    · exact hretire
    · split
      · split
        · exact hset s []
        · obtain ⟨hpeers, hrunning, -⟩ := eachLive_frame s.toClientServer
            (send (s.message sender (strip (s.record sender).data.pendingLine)).frame)
          exact ⟨(hset _ []).1.trans hpeers, (hset _ []).2.trans hrunning⟩
      · split
        · exact hretire
        · exact hset s _

theorem receiveByte_received (hs : s.Sound limits.maxClients) (sender : ℕ) (c : UInt8) (id : ℕ) :
    ((receiveByte limits sender s c).record id).conn.received = (s.record id).conn.received := by
  have hretire := (Quiet.retire s.toClientServer sender).received id
  have hset (t : Server) (line : List UInt8) :
      ((t.setPending sender line).record id).conn.received = (t.record id).conn.received :=
    setPending_keeps (·.conn.received) line (fun _ => rfl) id
  unfold receiveByte
  dsimp only
  split
  · rfl
  · split
    · exact hretire
    · split
      · split
        · exact hset s []
        · exact (hset _ []).trans (broadcast_received sender _ hs)
      · split
        · exact hretire
        · exact hset s _

/-- A whole read: what has been worked on grows by it, and nothing else. -/
theorem foldl_talk (hs : Talk limits stream s) (hpeer : sender ∈ s.peers) (bytes : List UInt8) :
    Talk limits (Function.update stream sender (stream sender ++ bytes))
        (bytes.foldl (receiveByte limits sender) s) ∧
      (bytes.foldl (receiveByte limits sender) s).running = s.running ∧
      ∀ id, ((bytes.foldl (receiveByte limits sender) s).record id).conn.received =
        (s.record id).conn.received := by
  induction bytes generalizing s stream with
  | nil =>
    rw [List.append_nil, Function.update_eq_self]
    exact ⟨hs, rfl, fun _ => rfl⟩
  | cons c bytes ih =>
    obtain ⟨hpeers, hrunning⟩ := receiveByte_frame limits s sender c
    obtain ⟨htalk, hrun, hreceived⟩ := ih (receiveByte_talk hs hpeer c) (hpeers ▸ hpeer)
    rw [Function.update_self, Function.update_idem, List.append_assoc, List.singleton_append] at htalk
    exact ⟨htalk, hrun.trans hrunning, fun id =>
      (hreceived id).trans (receiveByte_received hs.sound sender c id)⟩

end Server

end Receiving

section Running

variable {limits : Limits} {h : ℕ → Host} {s : Server}

/-- What holds between any two calls of the handlers: they have worked on all that has
been received. -/
def Good (limits : Limits) (s : Server) : Prop := Talk limits (fun id => (s.record id).conn.received) s

theorem Good.quiet (hs : Good limits s) {t : ClientServer Peer} (hquiet : s.Quiet t)
    (hsound : t.Sound limits.maxClients) : Good limits { s with toClientServer := t } := by
  have htalk := Talk.quiet hs hquiet hsound
  rwa [← funext hquiet.received] at htalk

/-- Nothing is said by who has not been there. -/
theorem Spoken.fresh {max id : ℕ} (hlog : said id s.log = [])
    (hpending : (s.record id).data.pendingLine = []) : Spoken max s id [] where
  first := by rw [hlog]; exact List.nil_prefix
  all _ := by rw [hlog]; rfl
  legal _ := nofun
  rest _ := ⟨List.not_mem_nil, Nat.zero_le _⟩
  pending _ := hpending

theorem Named.fresh (hs : Named s) : s.made ∉ guests s.log := fun hid => Nat.lt_irrefl _ (hs.made _ hid)

theorem Named.silent (hs : Named s) : said s.made s.log = [] := by
  refine List.filterMap_eq_nil_iff.mpr fun e he => ?_
  cases e with
  | joined id => rfl
  | said m =>
    refine if_neg fun heq : m.sender = s.made => hs.fresh ?_
    rw [← heq]
    exact (hs.sender m he).1

/-- The next number is given. -/
theorem Named.welcome {t : Server} (hs : Named s) (hnext : t.nextId = s.nextId + 1)
    (hlog : t.log = s.log ++ [.joined s.made]) (hmade : t.made = s.made + 1)
    (hself : (t.record s.made).data.id = s.nextId)
    (hnumber : ∀ id ≠ s.made, (t.record id).data.id = (s.record id).data.id)
    (hregistered : ∀ id ∈ t.registered, id ∈ s.registered ++ [s.made]) : Named t := by
  have hguests : guests t.log = guests s.log ++ [s.made] := by
    rw [hlog]
    simp [guests]
  constructor
  · rw [hnext, hs.next, hguests, List.length_append, List.length_singleton, ← UInt64.ofNat_one,
      ← UInt64.ofNat_add]
  · rw [hguests]
    refine List.pairwise_append.mpr ⟨hs.order, List.pairwise_singleton _ _, fun id hid other hother => ?_⟩
    rw [List.mem_singleton.mp hother]
    exact hs.made id hid
  · intro id hid
    rw [hmade]
    rcases List.mem_append.mp (hguests ▸ hid) with hid | hid
    · exact Nat.lt_succ_of_lt (hs.made id hid)
    · rw [List.mem_singleton.mp hid]
      exact Nat.lt_succ_self _
  · intro k id hk
    rw [hguests, List.getElem?_append] at hk
    split at hk
    · have hid := List.mem_of_getElem? hk
      rw [hnumber id fun heq => hs.fresh (heq ▸ hid)]
      exact hs.number k id hk
    · rename_i hlength
      obtain ⟨hbound, hget⟩ := List.getElem?_eq_some_iff.mp hk
      rw [List.length_singleton] at hbound
      rw [List.getElem_singleton] at hget
      rw [← hget, hself, hs.next, show k = (guests s.log).length by omega]
  · intro id hid
    rw [hguests]
    rcases List.mem_append.mp (hregistered id hid) with hid | hid
    · exact List.mem_append_left _ (hs.registered id hid)
    · exact List.mem_append_right _ hid
  · intro m hm
    have hold : .said m ∈ s.log := by simpa [hlog] using hm
    obtain ⟨hsender, hid⟩ := hs.sender m hold
    rw [hguests, hnumber m.sender fun heq => hs.fresh (heq ▸ hsender)]
    exact ⟨List.mem_append_left _ hsender, hid⟩

namespace Server

theorem refused_good (hs : Good limits s) {t : ClientServer Peer} (hsound : t.Sound limits.maxClients)
    (haccepted : (t.record s.made).conn.accepted = []) (hreceived : (t.record s.made).conn.received = [])
    (hpending : (t.record s.made).data.pendingLine = [])
    (hne : ∀ id ≠ s.made, t.record id = s.record id) (hregistered : t.registered = s.registered)
    (hmade : s.made ≤ t.made) : Good limits { s with toClientServer := t } where
  sound := hsound
  heard id := by
    rcases eq_or_ne id s.made with rfl | hid
    · refine .inl ⟨haccepted, fun hid => hs.named.fresh (hs.named.registered _ ?_)⟩
      exact hregistered ▸ hid
    · exact (hs.heard id).keep rfl (by rw [hne id hid]) (by rw [hne id hid]) (hregistered ▸ ·)
  spoken id := by
    rcases eq_or_ne id s.made with rfl | hid
    · dsimp only
      rw [hreceived]
      exact .fresh hs.named.silent hpending
    · dsimp only
      rw [hne id hid]
      exact (hs.spoken id).keep rfl (by rw [hne id hid]) (hregistered ▸ ·)
  named := hs.named.keep rfl rfl hmade
    (fun id hid => by rw [hne id fun heq => hs.named.fresh (heq ▸ hid)]) fun id hid => hregistered ▸ hid

/-- The greeting is the first that a client hears. -/
theorem welcomed_good (hs : Good limits s) {t : ClientServer Peer} (hsound : t.Sound limits.maxClients)
    {c : Connection} (haccepted : c.accepted = []) (hreceived : c.received = [])
    (hself : t.record s.made = { conn := c, data := { id := s.nextId } })
    (hne : ∀ id ≠ s.made, t.record id = s.record id)
    (hregistered : t.registered = s.registered ++ [s.made]) (hmade : t.made = s.made + 1)
    (hpeer : s.made ∈ t.peers) :
    Good limits { s with
      toClientServer := t.turn s.made (send (greeting s.nextId))
      nextId := s.nextId + 1
      log := s.log ++ [.joined s.made] } := by
  have hgreeted : (t.turn s.made (send (greeting s.nextId))).Sound limits.maxClients :=
    hsound.turn (handles_send _)
  have hrecord := turn_record_self (f := send (greeting s.nextId)) hpeer
  rw [hself] at hrecord
  have hother (id : ℕ) (hid : id ≠ s.made) :
      (t.turn s.made (send (greeting s.nextId))).record id = s.record id := by
    rw [turn_record_ne hid, hne id hid]
  have hsub (id : ℕ) (hid : id ∈ (t.turn s.made (send (greeting s.nextId))).registered) :
      id ∈ s.registered ++ [s.made] := hregistered ▸ turn_registered t s.made _ hid
  have hsub' (id : ℕ) (hne : id ≠ s.made)
      (hid : id ∈ (t.turn s.made (send (greeting s.nextId))).registered) : id ∈ s.registered :=
    (List.mem_append.mp (hsub id hid)).resolve_right fun heq => hne (List.mem_singleton.mp heq)
  have hsaid (id : ℕ) : said id (s.log ++ [.joined s.made]) = said id s.log := by
    simp [said]
  refine ⟨hgreeted, fun id => ?_, fun id => ?_, ?_⟩
  · rcases eq_or_ne id s.made with rfl | hid
    · unfold Heard
      dsimp only
      rw [hrecord]
      rcases send_cases (greeting s.nextId) { conn := c, data := { id := s.nextId } } with
        ⟨hall, -⟩ | ⟨hnone, hretire⟩
      · refine .inr ⟨s.log, [], [], rfl, ?_, fun _ => rfl⟩
        rw [hall, haccepted]
        exact (List.append_nil _).symm
      · refine .inl ⟨hnone.trans haccepted, fun hid => ?_⟩
        have hlive := (hgreeted.mem_registered.mp hid).2
        rw [hrecord, hretire] at hlive
        cases hlive
    · exact (hs.heard id).extend [.joined s.made] rfl rfl (by rw [hother id hid]) (by rw [hother id hid])
        (hsub' id hid)
  · rcases eq_or_ne id s.made with rfl | hid
    · dsimp only
      have hnone : (send (greeting s.nextId) { conn := c, data := { id := s.nextId } }).conn.received = [] :=
        hreceived
      rw [hrecord, hnone]
      exact .fresh ((hsaid _).trans hs.named.silent) (congrArg (·.data.pendingLine) hrecord)
    · dsimp only
      rw [hother id hid]
      exact (hs.spoken id).keep (hsaid id) (by rw [hother id hid]) (hsub' id hid)
  · refine hs.named.welcome rfl rfl ((turn_made t s.made _).trans hmade) ?_ (fun id hid => ?_) hsub
    · rw [hrecord]
      rfl
    · rw [hother id hid]

theorem arrive_good (hs : Good limits s) (hrun : s.running = true) (peer : Incoming) :
    Good limits (s.arrive limits h peer) ∧ (s.arrive limits h peer).running = true := by
  have hsound := hs.sound.enroll (h := h) { id := s.nextId } peer limits.maxQueuedBytes hrun
  have hrunning := (s.enroll_running (h := h) limits.maxClients limits.maxQueuedBytes peer
    { id := s.nextId }).trans hrun
  unfold arrive
  dsimp only
  rcases hs.sound.enroll_cases (h := h) peer.1 { id := s.nextId } limits.maxQueuedBytes with
    ⟨c, -, -, haccepted, hreceived, heq⟩ | ⟨-, heq⟩
  · rw [heq] at hsound hrunning ⊢
    refine ⟨refused_good hs hsound ?_ ?_ ?_ (fun id => adopt_ne peer.1 _ c) rfl (Nat.le_succ _), hrunning⟩
    · rw [adopt_self]
      exact haccepted
    · rw [adopt_self]
      exact hreceived
    · rw [adopt_self]
  · rw [heq] at hsound hrunning ⊢
    refine ⟨welcomed_good hs hsound (c := ((Connection.ofAccepted peer.1).setMaxQueuedBytes _).2) rfl rfl
      (adopt_self peer.1 _ _) (fun id => adopt_ne peer.1 _ _) rfl rfl ?_, ?_⟩
    · exact List.mem_append_right _ (List.mem_singleton_self _)
    · exact (turn_running _ _ _).trans hrunning

theorem receive_good (hs : Good limits s) {id : ℕ} (hid : id ∈ s.registered) (bytes : List UInt8) :
    Good limits ((s.lift (·.receive id bytes)).receive limits id bytes) ∧
      ((s.lift (·.receive id bytes)).receive limits id bytes).running = s.running := by
  have hpeer := (hs.sound.mem_registered.mp hid).1
  have hgiven : Talk limits (fun id => (s.record id).conn.received) (s.lift (·.receive id bytes)) :=
    Talk.keep hs (hs.sound.receive hid bytes)
      (setRecord_keeps s.toClientServer id (fun p : Record => p.conn.accepted) rfl)
      (setRecord_keeps s.toClientServer id (fun p : Record => p.data) rfl) (fun _ h => h) (Nat.le_refl _)
  obtain ⟨htalk, hrun, hreceived⟩ := foldl_talk hgiven hpeer bytes
  have hpeer' : id ∈ (s.lift (·.receive id bytes)).peers := hpeer
  unfold receive
  rw [if_pos hpeer']
  refine ⟨?_, hrun⟩
  unfold Good
  rw [show (fun other => ((bytes.foldl (receiveByte limits id) (s.lift (·.receive id bytes))).record
    other).conn.received) = _ from funext fun other => ?_]
  · exact htalk
  · rw [hreceived other]
    show ((s.setRecord id _).record other).conn.received = _
    rcases eq_or_ne other id with rfl | hne
    · rw [setRecord_self, Function.update_self]
    · rw [setRecord_ne _ hne, Function.update_of_ne hne]

theorem event_good (hs : Good limits s) (hrun : s.running = true) (e : Event) :
    Good limits (event limits h s e) ∧ (event limits h s e).running = true := by
  unfold event
  split
  · rename_i arrivals
    refine List.foldlRecOn (motive := fun s => Good limits s ∧ s.running = true) _ _ ⟨hs, hrun⟩ ?_
    exact fun s hs peer _ => arrive_good hs.1 hs.2 peer
  · rename_i id bytes
    split
    · rename_i hid
      obtain ⟨hgood, hrunning⟩ := receive_good hs hid bytes
      exact ⟨hgood, hrunning.trans hrun⟩
    · exact ⟨hs, hrun⟩
  · rename_i id
    split
    · rename_i hid
      exact ⟨hs.quiet (.hangUp _ id) (hs.sound.hangUp hid), (hangUp_running _ id).trans hrun⟩
    · exact ⟨hs, hrun⟩
  · rename_i id
    split
    · exact ⟨hs.quiet (.retire _ id) (hs.sound.turn handles_retire), (retire_running _ id).trans hrun⟩
    · exact ⟨hs, hrun⟩
  · rename_i id
    split
    · rename_i hid
      have hkeep : Handler fun p : Record => p := ⟨fun _ hretire => hretire, fun _ => .refl⟩
      exact ⟨hs.quiet (.flush _ id (fun _ => rfl) (fun _ => rfl) fun _ => rfl) (hs.sound.flush hid hkeep),
        (flush_running _ id _).trans hrun⟩
    · exact ⟨hs, hrun⟩

theorem setPolling_good (hs : Good limits s) (b : Bool) : Good limits (s.setPolling b) :=
  hs.quiet ⟨fun _ => rfl, fun _ => rfl, fun _ => rfl, fun _ hid => hid, rfl⟩ (hs.sound.polling b)

theorem events_good (hs : Good limits s) (hrun : s.running = true) (events : List Event) :
    Good limits ((events.foldl (event limits h) (s.setPolling true)).setPolling false) := by
  have hevents := List.foldlRecOn (motive := fun s => Good limits s ∧ s.running = true) events
    (event limits h) (b := s.setPolling true) ⟨setPolling_good hs true, hrun⟩
    fun s hs e _ => event_good hs.1 hs.2 e
  exact setPolling_good hevents.1 false

theorem exec_good (hs : Good limits s) (o : Op) : Good limits (exec limits h s o) := by
  cases o with
  | start address listens =>
    unfold exec start
    dsimp only
    split
    · exact hs
    · rename_i hstart
      simp only [Bool.or_eq_true, not_or, Bool.not_eq_true] at hstart
      exact hs.quiet (.restart _) (hs.sound.restart hstart.1.1.1.1.1.1)
  | poll events =>
    unfold exec poll
    dsimp only
    split
    · exact hs
    · rename_i hrun
      simp only [Bool.or_eq_true, not_or, Bool.not_eq_true, Bool.not_eq_false'] at hrun
      have hafter := events_good (h := h) hs hrun.1 events
      exact hafter.quiet (.reap _) hafter.sound.reap.1
  | stop => exact hs.quiet (.stop _) hs.sound.stop

theorem run_good (limits : Limits) (h : ℕ → Host) (ops : List Op) : Good limits (run limits h ops) := by
  refine List.foldlRecOn ops _ ⟨sound_idle _, fun id => ?_, fun id => ?_, ?_⟩ fun s hs o _ => exec_good hs o
  · exact .inl ⟨rfl, List.not_mem_nil⟩
  · exact .fresh rfl rfl
  · exact ⟨rfl, .nil, nofun, nofun, nofun, nofun⟩

theorem receiveByte_log (s : Server) (sender : ℕ) (c : UInt8) :
    s.log <+: (receiveByte limits sender s c).log := by
  unfold receiveByte
  dsimp only
  split
  · exact List.prefix_rfl
  · split
    · exact List.prefix_rfl
    · split
      · split
        · exact List.prefix_rfl
        · exact List.prefix_append _ _
      · split <;> exact List.prefix_rfl

theorem arrive_log (s : Server) (peer : Incoming) : s.log <+: (s.arrive limits h peer).log := by
  unfold arrive
  dsimp only
  split
  · exact List.prefix_rfl
  · split <;> exact List.prefix_append _ _

theorem event_log (s : Server) (e : Event) : s.log <+: (event limits h s e).log := by
  unfold event
  split
  · exact List.foldlRecOn (motive := fun t : Server => s.log <+: t.log) _ _ List.prefix_rfl
      fun t ht peer _ => ht.trans (t.arrive_log peer)
  · split
    · unfold receive
      split
      · exact List.foldlRecOn (motive := fun t : Server => s.log <+: t.log) _ _ List.prefix_rfl
          fun t ht c _ => ht.trans (t.receiveByte_log _ c)
      · exact List.prefix_rfl
    · exact List.prefix_rfl
  all_goals split <;> exact List.prefix_rfl

theorem exec_log (s : Server) (o : Op) : s.log <+: (exec limits h s o).log := by
  cases o with
  | start address listens =>
    unfold exec start
    dsimp only
    split <;> exact List.prefix_rfl
  | poll events =>
    unfold exec poll
    dsimp only
    split
    · exact List.prefix_rfl
    · exact List.foldlRecOn (motive := fun t : Server => s.log <+: t.log) events (event limits h)
        (b := s.setPolling true) List.prefix_rfl fun t ht e _ => ht.trans (t.event_log e)
  | stop => exact List.prefix_rfl

/-- The history only grows. -/
theorem run_log (limits : Limits) (h : ℕ → Host) (ops more : List Op) :
    (run limits h ops).log <+: (run limits h (ops ++ more)).log := by
  unfold run
  rw [List.foldl_append]
  exact List.foldlRecOn (motive := fun t : Server => _ <+: t.log) more (exec limits h) List.prefix_rfl
    fun t ht o _ => ht.trans (t.exec_log o)

/-- Whatever happens, all clients hear one history, which only grows.  What has been
written for a client is the greeting and the first of what follows its arrival there, all
of it while the client is registered, and the transport takes it without a gap. -/
theorem run_heard (limits : Limits) (h : ℕ → Host) (ops : List Op) (id : ℕ) :
    let s := run limits h ops
    let c := (s.record id).conn
    (∀ more, s.log <+: (run limits h (ops ++ more)).log) ∧ handed c.calls <+: c.accepted ∧
      ((c.accepted = [] ∧ id ∉ s.registered) ∨
        ∃ before heard missed, s.log = before ++ .joined id :: (heard ++ missed) ∧
          c.accepted = greeting (s.record id).data.id ++ heard.flatMap Entry.frame ∧
          (id ∈ s.registered → missed = [])) :=
  ⟨run_log limits h ops, (run_good limits h ops).sound.delivers id, (run_good limits h ops).heard id⟩

/-- Whatever happens, what a client says in the history are the first of the lines of its
stream, and all of them while it is registered, when what is pending is less than a line. -/
theorem run_spoken (limits : Limits) (h : ℕ → Host) (ops : List Op) (id : ℕ) :
    let s := run limits h ops
    let stream := (s.record id).conn.received
    said id s.log <+: lines limits.maxLineBytes stream ∧
      (id ∈ s.registered → said id s.log = lines limits.maxLineBytes stream ∧
        (s.record id).data.pendingLine = (split [10] stream).2 ∧
        (s.record id).data.pendingLine.length ≤ limits.maxLineBytes) := by
  intro s stream
  have hspoken := (run_good limits h ops).spoken id
  refine ⟨hspoken.first, fun hid => ⟨hspoken.all hid, hspoken.pending hid, ?_⟩⟩
  rw [hspoken.pending hid]
  exact (hspoken.rest hid).2

theorem exec_registered (hs : Good limits s) (o : Op) (hlive : s.registered = s.peers) :
    (exec limits h s o).registered = (exec limits h s o).peers := by
  cases o with
  | start address listens =>
    unfold exec start
    dsimp only
    split <;> exact hlive
  | poll events =>
    unfold exec poll
    dsimp only
    split
    · exact hlive
    · rename_i hrun
      simp only [Bool.or_eq_true, not_or, Bool.not_eq_true, Bool.not_eq_false'] at hrun
      exact (events_good hs hrun.1 events).sound.reap.2
  | stop => exact ClientServer.stop_registered hlive

/-- Whatever happens, the server keeps nothing of a client that is gone. -/
theorem run_tidy (limits : Limits) (h : ℕ → Host) (ops : List Op) :
    Orderly limits.maxClients (run limits h ops).toClientServer := by
  have hrun : Good limits (run limits h ops) ∧ (run limits h ops).registered = (run limits h ops).peers := by
    refine List.foldlRecOn (motive := fun s => Good limits s ∧ s.registered = s.peers) ops _
      ⟨run_good limits h [], rfl⟩ ?_
    exact fun s hs o _ => ⟨exec_good hs.1 o, exec_registered hs.1 o hs.2⟩
  exact hrun.1.sound.orderly hrun.2

end Server

end Running

end Aeon.Chat
