import Aeon.HttpAnswers

/-!
# What the server sends on a connection

However the bytes of a client are cut into reads, and whatever happens to the other
clients, the server queues the answers to the stream of that client in their order,
all of them while it keeps the client.
-/

namespace Aeon.Http

open Search Delimiter ClientServer

/-- The responses queued on a connection are the first of its answers, and all of them
until the client is retired. -/
structure Follows (max : ℕ) (p : Record) (sent : List Response) : Prop where
  accepted : p.conn.accepted = sent.flatMap Response.text
  first : sent <+: answers max p.conn.received
  all : p.retire = false → sent = answers max p.conn.received
  closing : p.retire = false → (p.data.closing = true ↔ Closes max p.conn.received)
  incoming : p.retire = false → p.data.closing = false →
    p.data.incoming = (split blankLine p.conn.received).2

/-- What handling the frames of a stream does to a record. -/
structure Handled (max : ℕ) (frames : List (List UInt8)) (rest : List UInt8) (p p' : Record)
    (sent : List Response) : Prop where
  accepted : p'.conn.accepted = p.conn.accepted ++ sent.flatMap Response.text
  received : p'.conn.received = p.conn.received
  first : sent <+: reply max frames rest
  all : p'.retire = false → sent = reply max frames rest
  closing : p'.retire = false → (p'.data.closing = true ↔ Ended max frames rest)
  incoming : p'.retire = false → p'.data.closing = false → p'.data.incoming = rest

section Records

variable {limits : Limits} {p : Record} {r : Response}

/-- A response is queued, or the client is retired and nothing is queued. -/
theorem sendResponse_cases (r : Response) (p : Record) :
    (∃ c, sendResponse r p = { p with conn := c, retire := true } ∧
      c.accepted = p.conn.accepted ∧ c.received = p.conn.received) ∨
    ∃ c, sendResponse r p =
        { p with conn := c, data := { p.data with closing := p.data.closing || r.close } } ∧
      c.accepted = p.conn.accepted ++ r.text ∧ c.received = p.conn.received := by
  have haccepted : (p.conn.queueWrite r.text).2.accepted =
      if (p.conn.queueWrite r.text).1 then p.conn.accepted ++ r.text else p.conn.accepted := rfl
  unfold sendResponse
  dsimp only
  cases hw : (p.conn.queueWrite r.text).1 with
  | false =>
    rw [hw, if_neg Bool.false_ne_true] at haccepted
    exact .inl ⟨_, rfl, haccepted, rfl⟩
  | true =>
    rw [hw, if_pos rfl] at haccepted
    exact .inr ⟨_, rfl, haccepted, rfl⟩

theorem respond_open {raw : List UInt8} (h : (respond raw).close = false) : (parse raw).error = 0 := by
  by_contra herror
  rw [respond, respondTo, if_pos herror] at h
  cases h

/-- A request that keeps the connection open has a first line and a blank one. -/
theorem Kept.length {max : ℕ} {raw : List UInt8} (h : Kept max raw) : 18 ≤ raw.length := by
  obtain ⟨r, extra, hr, rfl, -, -⟩ := parse_sound (respond_open h.2)
  have htarget : r.target ≠ [] := fun hnil => by
    have habsolute := hr.absolute
    rw [hnil] at habsolute
    cases habsolute
  have hpos := List.length_pos_iff.mpr htarget
  have hmethod : 3 ≤ r.method.length := by
    unfold Request.method
    split <;> decide
  have hversion : r.version.length = 8 := by
    unfold Request.version
    split <;> rfl
  have hcrlf : crlf.length = 2 := rfl
  simp only [Request.text, List.length_append, List.length_cons, List.length_nil, hversion, hcrlf]
  omega

theorem receiveLoop_done {left : ℕ} (h : p.retire = true ∨ p.data.closing = true) :
    receiveLoop limits left p = p := by
  have hdone : (p.retire || p.data.closing) = true := by
    rwa [Bool.or_eq_true]
  cases left <;> rw [receiveLoop, if_pos hdone]

theorem receiveLoop_none {left : ℕ} (hlive : p.retire = false) (hopen : p.data.closing = false)
    (hnone : find blankLine p.data.incoming = none) : receiveLoop limits left p =
      if limits.maxHeaderBytes < p.data.incoming.length then sendResponse tooLarge p else p := by
  cases left <;> simp [receiveLoop, hlive, hopen, hnone]

/-- The loop takes the next frame. -/
theorem receiveLoop_frame {left : ℕ} (hlive : p.retire = false) (hopen : p.data.closing = false)
    {raw rest : List UInt8} (hraw : Frame blankLine raw) (hin : p.data.incoming = raw ++ rest) :
    receiveLoop limits (left + 1) p = if limits.maxHeaderBytes < raw.length then sendResponse tooLarge p
      else receiveLoop limits left
        (handleRequest raw { p with data := { p.data with incoming := rest } }) := by
  have hfind : find blankLine p.data.incoming = some (raw.length - 4) :=
    hin ▸ hraw.find blankLine_ne_nil rest
  have hlength : raw.length - 4 + 4 = raw.length := Nat.sub_add_cancel hraw.length_le
  rw [receiveLoop, hlive, hopen, hfind]
  dsimp only
  rw [Bool.or_self, if_neg Bool.false_ne_true, hlength, hin, List.take_left, List.drop_left]

section Frames

variable {frames : List (List UInt8)} {rest : List UInt8}

/-- The last response of a connection, or none if the queue is full. -/
theorem sendResponse_handled {max : ℕ} (hclose : r.close = true) (hreply : reply max frames rest = [r])
    (hended : Ended max frames rest) : ∃ sent, Handled max frames rest p (sendResponse r p) sent := by
  rcases sendResponse_cases r p with ⟨c, heq, haccepted, hreceived⟩ | ⟨c, heq, haccepted, hreceived⟩
  · rw [heq]
    exact ⟨[], by simp [haccepted], hreceived, List.nil_prefix, nofun, nofun, nofun⟩
  · rw [heq]
    refine ⟨[r], by simp [haccepted], hreceived, by rw [hreply], fun _ => hreply.symm,
      fun _ => iff_of_true ?_ hended, fun _ hopen => ?_⟩
    · simp [hclose]
    · simp [hclose] at hopen

theorem Handled.cons {max : ℕ} {raw : List UInt8} {p' p'' : Record} {sent : List Response}
    (hkept : Kept max raw) (haccepted : p'.conn.accepted = p.conn.accepted ++ (respond raw).text)
    (hreceived : p'.conn.received = p.conn.received) (h : Handled max frames rest p' p'' sent) :
    Handled max (raw :: frames) rest p p'' (respond raw :: sent) := by
  have hreply : reply max (raw :: frames) rest = respond raw :: reply max frames rest := by
    rw [reply, if_pos hkept, kept_response hkept]
  have hended : Ended max (raw :: frames) rest ↔ Ended max frames rest := by
    rw [← not_iff_not, not_ended, not_ended]
    exact and_congr_left fun _ => by
      rw [List.forall_mem_cons]
      exact and_iff_right hkept
  refine ⟨?_, h.received.trans hreceived, ?_, fun hretire => ?_,
    fun hretire => (h.closing hretire).trans hended.symm, h.incoming⟩
  · rw [h.accepted, haccepted]
    simp
  · rw [hreply, List.cons_prefix_cons]
    exact ⟨rfl, h.first⟩
  · rw [hreply, h.all hretire]

/-- The loop ends with a frame after which the connection is not kept. -/
theorem receiveLoop_last (left : ℕ) {raw : List UInt8} (hlong : ¬limits.maxHeaderBytes < raw.length)
    (hkept : ¬Kept limits.maxHeaderBytes raw) : ∃ sent, Handled limits.maxHeaderBytes (raw :: frames) rest p
      (receiveLoop limits left (sendResponse (respond raw)
        { p with data := { p.data with incoming := frames.flatten ++ rest } })) sent := by
  have hresponse : response limits.maxHeaderBytes raw = respond raw := if_neg hlong
  have hclose : (respond raw).close = true := by
    by_contra hopen
    exact hkept ⟨Nat.le_of_not_lt hlong, Bool.eq_false_iff.mpr hopen⟩
  have hended : Ended limits.maxHeaderBytes (raw :: frames) rest :=
    .inl ⟨raw, List.mem_cons_self, hkept⟩
  obtain ⟨sent, hsent⟩ := sendResponse_handled (r := respond raw)
    (p := { p with data := { p.data with incoming := frames.flatten ++ rest } }) hclose
    (by rw [reply, if_neg hkept, hresponse]) hended
  refine ⟨sent, ?_⟩
  rw [receiveLoop_done]
  · exact ⟨hsent.accepted, hsent.received, hsent.first, hsent.all, hsent.closing, hsent.incoming⟩
  · rw [or_iff_not_imp_left, Bool.not_eq_true]
    exact fun hretire => (hsent.closing hretire).mpr hended

/-- The loop handles all frames that have arrived when it may handle so many. -/
theorem receiveLoop_handled (limits : Limits) (left : ℕ) (hlive : p.retire = false) (hopen : p.data.closing = false)
    (hframes : ∀ raw ∈ frames, Frame blankLine raw) (hrest : find blankLine rest = none)
    (hin : p.data.incoming = frames.flatten ++ rest)
    (hroom : ∀ kept raw more, frames = kept ++ raw :: more →
      (∀ f ∈ kept, Kept limits.maxHeaderBytes f) → kept.length < left) :
    ∃ sent, Handled limits.maxHeaderBytes frames rest p (receiveLoop limits left p) sent := by
  induction frames generalizing left p with
  | nil =>
    rw [List.flatten_nil, List.nil_append] at hin
    rw [receiveLoop_none hlive hopen (hin ▸ hrest), hin]
    split
    · rename_i hlong
      exact sendResponse_handled rfl (if_pos hlong) (.inr hlong)
    · rename_i hshort
      have hnot : ¬Ended limits.maxHeaderBytes [] rest := not_ended.mpr ⟨List.forall_mem_nil _, Nat.le_of_not_lt hshort⟩
      have hreply : reply limits.maxHeaderBytes [] rest = [] := if_neg hshort
      refine ⟨[], by simp, rfl, List.nil_prefix, fun _ => hreply.symm, fun _ => iff_of_false ?_ hnot,
        fun _ _ => hin⟩
      rw [hopen]
      exact Bool.false_ne_true
  | cons raw frames ih =>
    cases left with
    | zero => exact absurd (hroom [] raw frames rfl (List.forall_mem_nil _)) (Nat.lt_irrefl 0)
    | succ left =>
      have hraw := hframes raw List.mem_cons_self
      rw [List.flatten_cons, List.append_assoc] at hin
      rw [receiveLoop_frame hlive hopen hraw hin]
      by_cases hlong : limits.maxHeaderBytes < raw.length
      · rw [if_pos hlong]
        have hnot : ¬Kept limits.maxHeaderBytes raw := fun hkept => Nat.not_lt.mpr hkept.1 hlong
        refine sendResponse_handled rfl ?_ (.inl ⟨raw, List.mem_cons_self, hnot⟩)
        rw [reply, if_neg hnot, response, if_pos hlong]
      · rw [if_neg hlong, handleRequest]
        by_cases hkept : Kept limits.maxHeaderBytes raw
        · rcases sendResponse_cases (respond raw)
              { p with data := { p.data with incoming := frames.flatten ++ rest } } with
            ⟨c, heq, haccepted, hreceived⟩ | ⟨c, heq, haccepted, hreceived⟩
          · rw [heq, receiveLoop_done (.inl rfl)]
            exact ⟨[], by simp [haccepted], hreceived, List.nil_prefix, Bool.noConfusion, Bool.noConfusion,
              Bool.noConfusion⟩
          · rw [heq]
            obtain ⟨sent, hsent⟩ := ih left (p := { p with
                conn := c
                data := { p.data with
                  incoming := frames.flatten ++ rest
                  closing := p.data.closing || (respond raw).close } })
              hlive (by simp [hopen, hkept.2]) (fun f hf => hframes f (List.mem_cons_of_mem _ hf)) rfl
              fun kept f more hparts hall => Nat.lt_of_succ_lt_succ <|
                hroom (raw :: kept) f more (by rw [hparts]; rfl) <|
                  List.forall_mem_cons.mpr ⟨hkept, hall⟩
            exact ⟨_, hsent.cons hkept haccepted hreceived⟩
        · exact receiveLoop_last left hlong hkept

/-- A read is too short for more requests than one event may handle. -/
theorem room {max : ℕ} {rest rest' : List UInt8} {bytes : Read} (hnone : find blankLine rest = none)
    (hsplit : split blankLine (rest ++ bytes) = (frames, rest')) {kept more : List (List UInt8)}
    {raw : List UInt8} (hparts : frames = kept ++ raw :: more) (hkept : ∀ f ∈ kept, Kept max f) :
    kept.length < maxPipelinedPerEvent := by
  have hbytes : (bytes : List UInt8).length ≤ 256 := bytes.property
  have hlengths (kept : List (List UInt8)) (hkept : ∀ f ∈ kept, Kept max f) :
      18 * kept.length ≤ kept.flatten.length := by
    induction kept with
    | nil => exact Nat.le_refl _
    | cons f kept ih =>
      have hf := (hkept f List.mem_cons_self).length
      have hmore := ih fun g hg => hkept g (List.mem_cons_of_mem _ hg)
      simp only [List.length_cons, List.flatten_cons, List.length_append]
      omega
  cases kept with
  | nil => decide
  | cons f kept =>
    -- the first of them has all of the earlier bytes
    rw [List.cons_append] at hparts
    have hfirst := rest_lt blankLine_ne_nil hnone (hparts ▸ hsplit)
    obtain ⟨-, -, hflat⟩ := (split_eq_iff blankLine_ne_nil).mp hsplit
    have hlength := congrArg List.length hflat
    have hothers := hlengths kept fun g hg => hkept g (List.mem_cons_of_mem _ hg)
    rw [hparts] at hlength
    simp only [List.flatten_cons, List.flatten_append, List.length_append] at hlength
    show kept.length + 1 < 32
    omega

end Frames

/-- `receive` with nothing to do. -/
theorem Follows.ignore {max : ℕ} {sent : List Response} (hp : Follows max p sent) {bytes : List UInt8}
    (hdone : p.retire = true ∨ p.data.closing = true ∨ bytes = []) :
    Follows max { p with conn := { p.conn with received := p.conn.received ++ bytes } } sent := by
  by_cases hnil : bytes = []
  · subst hnil
    simpa using hp
  · have hclosed (hretire : p.retire = false) : p.data.closing = true ∧ Closes max p.conn.received := by
      have hclosing : p.data.closing = true := by
        rcases hdone with hretired | hclosing | hempty
        · rw [hretire] at hretired
          cases hretired
        · exact hclosing
        · exact absurd hempty hnil
      exact ⟨hclosing, (hp.closing hretire).mp hclosing⟩
    refine ⟨hp.accepted, hp.first.trans (answers_append _ _ _), fun hretire => ?_, fun hretire => ?_,
      fun hretire hopen => ?_⟩
    · exact (hp.all hretire).trans (answers_closed bytes (hclosed hretire).2).1.symm
    · exact iff_of_true (hclosed hretire).1 (answers_closed bytes (hclosed hretire).2).2
    · rw [show p.data.closing = false from hopen] at hclosed
      exact absurd (hclosed hretire).1 Bool.false_ne_true

/-- The loop takes an open connection on from where it is. -/
theorem Follows.handled {max : ℕ} {sent more : List Response} {p' p'' : Record} {bytes : List UInt8}
    (hp : Follows max p sent) (hlive : p.retire = false) (hopen : p.data.closing = false)
    (h : Handled max (split blankLine (p.data.incoming ++ bytes)).1
      (split blankLine (p.data.incoming ++ bytes)).2 p' p'' more)
    (haccepted : p'.conn.accepted = p.conn.accepted)
    (hreceived : p'.conn.received = p.conn.received ++ bytes) : Follows max p'' (sent ++ more) := by
  have hnot : ¬Closes max p.conn.received := fun hclosed => by
    rw [(hp.closing hlive).mpr hclosed] at hopen
    cases hopen
  obtain ⟨hanswers, hcloses⟩ := answers_open bytes hnot
  rw [← hp.incoming hlive hopen, ← hp.all hlive] at hanswers
  rw [← hp.incoming hlive hopen] at hcloses
  have hrest : (split blankLine (p.conn.received ++ bytes)).2 =
      (split blankLine (p.data.incoming ++ bytes)).2 := by
    rw [split_append blankLine_ne_nil, ← hp.incoming hlive hopen]
  refine ⟨?_, ?_, fun hretire => ?_, fun hretire => ?_, fun hretire hstill => ?_⟩
  · rw [h.accepted, haccepted, hp.accepted, List.flatMap_append]
  · rw [h.received, hreceived, hanswers]
    exact (List.prefix_append_right_inj sent).mpr h.first
  · rw [h.received, hreceived, hanswers, h.all hretire]
    rfl
  · rw [h.received, hreceived, hcloses]
    exact h.closing hretire
  · rw [h.received, hreceived, hrest]
    exact h.incoming hretire hstill

/-- One event hands received bytes to `receive`. -/
theorem Follows.receive {sent : List Response} (hp : Follows limits.maxHeaderBytes p sent) (now : ℕ)
    (bytes : Read) : ∃ sent, Follows limits.maxHeaderBytes (Http.receive limits now bytes
      { p with conn := { p.conn with received := p.conn.received ++ bytes } }) sent := by
  unfold Http.receive
  dsimp only
  split
  · rename_i hdone
    refine ⟨sent, hp.ignore ?_⟩
    simpa only [Bool.or_eq_true, List.isEmpty_iff, or_assoc] using hdone
  · rename_i hwork
    simp only [Bool.or_eq_true, not_or, Bool.not_eq_true] at hwork
    obtain ⟨⟨hlive, hopen⟩, -⟩ := hwork
    have hspec := split_spec blankLine_ne_nil (p.data.incoming ++ bytes)
    have hnone : find blankLine p.data.incoming = none := by
      rw [hp.incoming hlive hopen]
      exact (split_spec blankLine_ne_nil _).2.1
    obtain ⟨more, hmore⟩ := receiveLoop_handled limits maxPipelinedPerEvent
      (p := { p with
        conn := { p.conn with received := p.conn.received ++ bytes }
        data := { p.data with lastActivity := now, incoming := p.data.incoming ++ bytes } })
      hlive hopen hspec.1 hspec.2.1 hspec.2.2.symm
      fun kept raw more hparts hkept => room hnone (Prod.ext hparts rfl) rfl hkept
    have hfollows := hp.handled hlive hopen hmore rfl rfl
    revert hmore hfollows
    generalize receiveLoop limits maxPipelinedPerEvent _ = p'
    intro hmore hfollows
    refine ⟨sent ++ more, ?_⟩
    by_cases hclosing : p'.data.closing = true
    · rw [if_pos hclosing, if_neg (by simp [hclosing])]
      exact ⟨hfollows.accepted, hfollows.first, hfollows.all, hfollows.closing, fun _ hopen => by
        rw [show p'.data.closing = false from hopen] at hclosing
        cases hclosing⟩
    · rw [if_neg hclosing, if_neg]
      · exact hfollows
      -- the loop has left no more than the limit
      · rintro hlong
        simp only [Bool.and_eq_true, Bool.not_eq_true', decide_eq_true_eq] at hlong
        obtain ⟨⟨hlive, hopen⟩, hlong⟩ := hlong
        rw [hmore.incoming hlive hopen] at hlong
        exact hclosing ((hmore.closing hlive).mpr (.inr hlong))

end Records

/-- A record of the server at any time. -/
def Answered (max : ℕ) (p : Record) : Prop := ∃ sent, Follows max p sent

theorem lasting_answered (max : ℕ) : Lasting (Answered max) where
  conn p c haccepted hreceived := by
    rintro ⟨sent, hp⟩
    refine ⟨sent, haccepted.trans hp.accepted, ?_, fun hretire => ?_, fun hretire => ?_,
      fun hretire hopen => ?_⟩
    · rw [hreceived]
      exact hp.first
    · rw [hreceived]
      exact hp.all hretire
    · rw [hreceived]
      exact hp.closing hretire
    · rw [hreceived]
      exact hp.incoming hretire hopen
  retire p := by
    rintro ⟨sent, hp⟩
    exact ⟨sent, hp.accepted, hp.first, nofun, nofun, nofun⟩

theorem answered_fresh (max now : ℕ) (peer : Socket) :
    Answered max { conn := .ofAccepted peer, data := { lastActivity := now } } := by
  have hnone : ¬Closes max [] := not_ended.mpr ⟨nofun, Nat.zero_le _⟩
  refine ⟨[], rfl, List.nil_prefix, fun _ => (reply_open hnone).symm, fun _ => ?_, fun _ _ => rfl⟩
  exact iff_of_false Bool.false_ne_true hnone

theorem answered_drained {max : ℕ} (p : Record) (hp : Answered max p) : Answered max (drained p) := by
  unfold drained
  split
  · exact (lasting_answered max).retire p hp
  · exact hp

theorem handles_sendResponse (r : Response) : Handler (sendResponse r) where
  retired p hretire := by
    unfold sendResponse
    dsimp only
    split
    · rfl
    · exact hretire
  written p := by
    unfold sendResponse
    dsimp only
    split <;> exact .step _ .refl

theorem handles_receiveLoop (limits : Limits) (left : ℕ) : Handler (receiveLoop limits left) where
  retired p hretire := by
    rw [receiveLoop_done (.inl hretire)]
    exact hretire
  written p := by
    induction left generalizing p with
    | zero =>
      unfold receiveLoop
      split
      · exact .refl
      · split
        · split
          · exact (handles_sendResponse _).written p
          · exact .refl
        · split <;> exact (handles_sendResponse _).written p
    | succ left ih =>
      unfold receiveLoop
      split
      · exact .refl
      · split
        · split
          · exact (handles_sendResponse _).written p
          · exact .refl
        · split
          · exact (handles_sendResponse _).written p
          · refine Connection.Written.trans ?_ (ih _)
            exact (handles_sendResponse _).written
              { p with data := { p.data with incoming := p.data.incoming.drop _ } }

theorem handles_receive (limits : Limits) (now : ℕ) (data : List UInt8) :
    Handler (Http.receive limits now data) where
  retired p hretire := by
    rw [Http.receive, hretire]
    exact hretire
  written p := by
    have hloop := (handles_receiveLoop limits maxPipelinedPerEvent).written
      { p with data := { p.data with lastActivity := now, incoming := p.data.incoming ++ data } }
    unfold Http.receive
    dsimp only
    split
    · exact .refl
    · revert hloop
      generalize receiveLoop limits maxPipelinedPerEvent _ = p'
      intro hloop
      refine hloop.trans ?_
      split
      · split
        · exact (handles_sendResponse _).written { p' with data := { p'.data with incoming := [] } }
        · exact .refl
      · split
        · exact (handles_sendResponse _).written p'
        · exact .refl

theorem handles_drained : Handler drained where
  retired p hretire := by
    unfold drained
    split
    · rfl
    · exact hretire
  written p := by
    unfold drained
    split <;> exact .refl

namespace Server

variable {limits : Limits} {h : ℕ → Host} {s : Server}

/-- What holds of the server between any two calls of its handlers. -/
structure Good (limits : Limits) (s : Server) : Prop where
  sound : s.Sound limits.maxClients
  answered : s.Every (Answered limits.maxHeaderBytes)

theorem enroll_good (hs : Good limits s) (hrun : s.running = true) (peer : Incoming) (now : ℕ) :
    let r := s.enroll h limits.maxClients limits.maxQueuedBytes peer { lastActivity := now }
    Good limits r.2 ∧ r.2.running = true := by
  have hevery := hs.answered.enroll (h := h) (lasting_answered _) limits.maxClients limits.maxQueuedBytes
    peer.1 (answered_fresh _ now peer.1)
  exact ⟨⟨hs.sound.enroll _ peer _ hrun, hevery⟩, (s.enroll_running _ _ peer.1 _).trans hrun⟩

theorem event_good (hs : Good limits s) (hrun : s.running = true) (e : Event) :
    Good limits (event limits h s e) ∧ (event limits h s e).running = true := by
  have hlasting := lasting_answered limits.maxHeaderBytes
  obtain ⟨hsound, hevery⟩ := hs
  unfold event
  split
  · rename_i arrivals now
    exact List.foldlRecOn (motive := fun s => Good limits s ∧ s.running = true) _ _
      ⟨⟨hsound, hevery⟩, hrun⟩ fun s hs peer _ => enroll_good hs.1 hs.2 peer now
  · rename_i id bytes now
    split
    · rename_i hid
      refine ⟨⟨(hsound.receive hid bytes).turn (handles_receive limits now bytes), ?_⟩,
        (turn_running _ id _).trans hrun⟩
      exact hevery.receive_turn (hsound.mem_registered.mp hid).1
        fun p hp => hp.elim fun sent hsent => hsent.receive now bytes
    · exact ⟨⟨hsound, hevery⟩, hrun⟩
  · rename_i id
    split
    · exact ⟨⟨hsound.hangUp ‹_›, hevery.hangUp hlasting id⟩, (s.hangUp_running id).trans hrun⟩
    · exact ⟨⟨hsound, hevery⟩, hrun⟩
  · rename_i id
    split
    · exact ⟨⟨hsound.turn handles_retire, hevery.retire hlasting id⟩, (s.retire_running id).trans hrun⟩
    · exact ⟨⟨hsound, hevery⟩, hrun⟩
  · rename_i id
    split
    · exact ⟨⟨hsound.flush ‹_› handles_drained, hevery.flush hlasting id answered_drained⟩,
        (s.flush_running id _).trans hrun⟩
    · exact ⟨⟨hsound, hevery⟩, hrun⟩

theorem expire_good (hs : Good limits s) (now : ℕ) : Good limits (expire limits now s) := by
  unfold expire
  split
  · exact ⟨hs.sound.retireWhere _ _, hs.answered.retireWhere (lasting_answered _) _ _⟩
  · exact hs

theorem events_good (hs : Good limits s) (hrun : s.running = true) (events : List Event) :
    Good limits ({ events.foldl (event limits h) { s with polling := true } with
      polling := false } : Server) := by
  have hevents := List.foldlRecOn (motive := fun s => Good limits s ∧ s.running = true) events
    (event limits h) (b := { s with polling := true }) ⟨⟨hs.sound.polling true, hs.answered⟩, hrun⟩
    fun s hs e _ => event_good hs.1 hs.2 e
  exact ⟨hevents.1.sound.polling false, hevents.1.answered⟩

theorem exec_good (hs : Good limits s) (o : Op) : Good limits (exec limits h s o) := by
  have hlasting := lasting_answered limits.maxHeaderBytes
  cases o with
  | start address listens =>
    unfold exec start
    dsimp only
    split
    · exact hs
    · rename_i hstart
      simp only [Bool.or_eq_true, not_or, Bool.not_eq_true] at hstart
      exact ⟨hs.sound.restart hstart.1.1.1.1.1.1.1, hs.answered.closeOwnedPeers hlasting⟩
  | poll events now throws =>
    unfold exec poll
    dsimp only
    split
    · exact hs
    · rename_i hrun
      simp only [Bool.or_eq_true, not_or, Bool.not_eq_true, Bool.not_eq_false'] at hrun
      have hafter := events_good (h := h) hs hrun.1 events
      split
      · exact ⟨hafter.sound.reap.1, hafter.answered.reap hlasting⟩
      · exact ⟨(expire_good hafter now).sound.reap.1, (expire_good hafter now).answered.reap hlasting⟩
  | stop => exact ⟨hs.sound.stop, hs.answered.stop hlasting⟩

theorem run_good (limits : Limits) (h : ℕ → Host) (ops : List Op) : Good limits (run limits h ops) := by
  refine List.foldlRecOn ops _ ⟨sound_idle _, fun id => ?_⟩ fun s hs o _ => exec_good hs o
  exact answered_fresh _ 0 {}

theorem Good.answers (hs : Good limits s) (id : ℕ) :
    ∃ sent unsent, Http.answers limits.maxHeaderBytes (s.record id).conn.received = sent ++ unsent ∧
      (s.record id).conn.accepted = sent.flatMap Response.text ∧
      handed (s.record id).conn.calls <+: (s.record id).conn.accepted ∧
      (id ∈ s.registered → unsent = []) := by
  obtain ⟨sent, hsent⟩ := hs.answered id
  obtain ⟨unsent, hunsent⟩ := hsent.first
  refine ⟨sent, unsent, hunsent.symm, hsent.accepted, hs.sound.delivers id, fun hid => ?_⟩
  have hall := hsent.all (hs.sound.mem_registered.mp hid).2
  rw [← hunsent] at hall
  exact List.self_eq_append_right.mp hall

/-- Whatever happens, the responses on a connection are the first of the answers to what
has been received on it, and all of them while the client is registered. -/
theorem run_answers (limits : Limits) (h : ℕ → Host) (ops : List Op) (id : ℕ) :
    let c := ((run limits h ops).record id).conn
    ∃ sent unsent, Http.answers limits.maxHeaderBytes c.received = sent ++ unsent ∧
      c.accepted = sent.flatMap Response.text ∧ handed c.calls <+: c.accepted ∧
      (id ∈ (run limits h ops).registered → unsent = []) := (run_good limits h ops).answers id

theorem exec_registered (hs : Good limits s) (o : Op) (hlive : s.registered = s.peers) :
    (exec limits h s o).registered = (exec limits h s o).peers := by
  cases o with
  | start address listens =>
    unfold exec start
    dsimp only
    split
    · exact hlive
    · exact hlive
  | poll events now throws =>
    unfold exec poll
    dsimp only
    split
    · exact hlive
    · rename_i hrun
      simp only [Bool.or_eq_true, not_or, Bool.not_eq_true, Bool.not_eq_false'] at hrun
      have hafter := events_good (h := h) hs hrun.1 events
      split
      · exact hafter.sound.reap.2
      · exact (expire_good hafter now).sound.reap.2
  | stop => exact ClientServer.stop_registered hlive

theorem run_registered (limits : Limits) (h : ℕ → Host) (ops : List Op) :
    (run limits h ops).registered = (run limits h ops).peers := by
  have hrun : Good limits (run limits h ops) ∧ (run limits h ops).registered = (run limits h ops).peers := by
    refine List.foldlRecOn (motive := fun s => Good limits s ∧ s.registered = s.peers) ops _
      ⟨run_good limits h [], rfl⟩ ?_
    exact fun s hs o _ => ⟨exec_good hs.1 o, exec_registered hs.1 o hs.2⟩
  exact hrun.2

/-- Whatever happens, nothing leaks and no client is lost track of. -/
theorem run_settled (limits : Limits) (h : ℕ → Host) (ops : List Op) :
    Orderly limits.maxClients (run limits h ops) :=
  (run_good limits h ops).sound.orderly (run_registered limits h ops)

end Server

end Aeon.Http
