import Aeon.NoticeScopes
import Aeon.PollEffects
import Aeon.SessionPrograms

/-!
# The notices of a session in every program

A program connects a TLS socket, queues writes, shuts down, closes and polls, with
handlers that do not connect it.  Whatever the peer and OpenSSL answer, each session
is told of as `Underway` and `Over` say.
-/

namespace Aeon

open Program Reentrant EventWorld EventLoop SslEventSocket

/-- A new descriptor belongs to no session. -/
theorem Socket.create_told (h : Host) (family : Family) (s : Socket) :
    (∀ id, noticesOf id (s.create h family).2.log = noticesOf id s.log) ∧
      (∀ ev ∈ s.log, ev ∈ (s.create h family).2.log) ∧
      ((s.create h family).2.sockfd ≠ none → ownerOf (s.create h family).2.log = none) := by
  obtain ⟨hfd, hlog⟩ := s.create_log h family
  have hreopened : History.Extends (fun ev => ev.untold = true) s.log
      (s.log ++ s.sockfd.toList.map .reopened) := ⟨_, rfl, by simp [Event.untold]⟩
  obtain ⟨howner, hnotices⟩ := untold_extends hreopened
  rw [hfd, hlog, ← List.append_assoc]
  cases h.socket s.tick with
  | none => exact ⟨by simpa using hnotices, fun ev hev => by simp [hev], by simp⟩
  | some fd =>
    refine ⟨fun id => ?_, fun ev hev => by simp [hev], fun _ => ?_⟩
    · exact (noticesOf_snoc id _ _).trans (by simpa [Event.told] using hnotices id)
    · exact ownerOf_snoc _ _

namespace Noted

variable {α : Type} {h : LoopHost} {cb : EventNote → Code EventWorld Unit}
variable {id first first' : ℕ} {F G : Option ℕ → Prop} {w : EventWorld}

theorem weaken (hw : Noted id first F w) (hfirst : first' ≤ first) (hFG : ∀ fd, F fd → G fd) :
    Noted id first' G w :=
  ⟨⟨hfirst.trans hw.1.le, fun i o ho => (hw.1.each i o ho).imp fun s hs hi =>
    (hs hi).imp (hFG s.sockfd)⟩, hw.2⟩

/-- A function of the socket. -/
theorem call {f : EventObject → α × EventObject} {G : α → Option ℕ → Prop}
    (hf : ∀ s, Account .underway F s → ∃ t, (f (.tls s)).2 = .tls t ∧
      Account .underway (G (f (.tls s)).1) t) (hcls : ∀ o, (f o).2.cls = o.cls) :
    Triple (Noted id first F) (EventWorld.call id f) (fun a => Noted id (id + 1) (G a))
      fun _ => Noted id first F := by
  intro w hw
  unfold EventWorld.call
  cases ho : w.find id with
  | none => exact hw
  | some o =>
    refine ⟨⟨?_, fun i o' hi => ?_⟩, hw.2.forward (.store ho (hcls o))⟩
    · exact (List.length_set ..).symm ▸ Nat.succ_le_of_lt (lt_of_find ho)
    rcases find_store hi with ⟨rfl, rfl⟩ | ⟨hne, -⟩
    · by_cases hclass : o.cls = .tls
      · obtain ⟨s, rfl⟩ := EventObject.exists_of_cls hclass
        obtain ⟨t, ht, haccount⟩ := hf s (hw.1.each i _ ho rfl)
        rw [ht]
        exact fun _ => haccount
      · exact .of_cls ((hcls o).symm ▸ hclass)
    · cases o' with
      | tls s => exact fun heq => absurd heq hne
      | _ => trivial

/-- The account of a socket that may have any session. -/
abbrev Live (id : ℕ) : EventWorld → Prop := Noted id 0 Attached

/-- The socket has been made, and it has no session. -/
abbrev Idle (id : ℕ) : EventWorld → Prop := Noted id (id + 1) fun _ => False

theorem Idle.live {w : EventWorld} (hw : Idle id w) : Live id w :=
  hw.weaken (Nat.zero_le _) fun _ hfalse => hfalse.elim

section Dialled

variable (hclose : ∀ tick, (h.objects id).tls.close tick = 0) (hcb : Respectful id cb)

/-- What a function that keeps the socket idle may leave when it halts. -/
theorem Idle.keeps {m : Code EventWorld α} (hm : Keeps (Idle id) m) :
    Triple (Idle id) m (fun _ => Idle id) fun _ => Live id :=
  (keeps_iff.mp hm).mono (fun _ hw => hw) (fun _ _ hw => hw) fun _ _ hw => Idle.live hw

/-- The functions of the base class keep the socket idle. -/
theorem Idle.base {f : Socket → α × Socket}
    (hf : ∀ s : Socket, (∀ id, noticesOf id (f s).2.log = noticesOf id s.log) ∧
      (∀ ev ∈ s.log, ev ∈ (f s).2.log) ∧
      ((f s).2.sockfd ≠ none → (f s).2.sockfd = s.sockfd ∧ (f s).2.log = s.log ∨ ownerOf (f s).2.log = none)) :
    Keeps (Idle id) (EventWorld.call id (EventObject.onSocket f)) := by
  refine keeps_iff.mpr (Noted.call (G := fun _ _ => False) (fun s hs => ⟨_, rfl, ?_⟩)
    (EventObject.onSocket_cls f))
  obtain ⟨hnotices, hkept, howner⟩ := hf s.toSocket
  have hnone : s.session = none := hs.none_of fun hfalse => hfalse
  refine hs.dialled hnone hnotices hkept fun hopen => ?_
  rcases howner hopen with ⟨hfd, hlog⟩ | hnew
  · exact (congr_arg ownerOf hlog).trans (hs.unowned hnone (hfd ▸ hopen))
  · exact hnew

include hclose hcb

theorem Idle.preserves : This.Preserves (h.objects id).tls.toHost (this h cb id) (Idle id) (Idle id) where
  weaken _ hw := hw
  run f hf := Idle.base fun s => ⟨fun k => by rw [(hf s).1], fun ev hev => (hf s).1 ▸ hev,
    fun _ => .inl ⟨(hf s).2, (hf s).1⟩⟩
  create family hf := by
    refine keeps_iff.mp (Idle.base fun s => ?_)
    rw [(hf s).1, (hf s).2]
    obtain ⟨hnotices, hkept, howner⟩ := Socket.create_told (h.objects id).tls.toHost family s
    exact ⟨hnotices, hkept, fun hopen => .inr (howner hopen)⟩
  close := keeps_iff.mp ((Noted.scope hclose (.dialled id)).close
    (fun n => hcb.keeps n _ (.noted _ _ (.dialled id))) id)

/-- A close leaves no session. -/
theorem Live.close : Triple (Live id) (EventLoop.close h cb id) (fun _ => Idle id) fun _ => Live id := by
  have hscope := (Noted.scope hclose (.dialled id)).toScoped
  have hidle (n : EventNote) : Keeps (Idle id) (cb n) := hcb.keeps n _ (.noted _ _ (.dialled id))
  refine Triple.bind (Q := fun _ => Idle id) (Noted.call (G := fun _ _ => False) (fun s hs => ?_) ?_)
    fun closed => ?_
  · exact ⟨_, rfl, (hs.close hclose fun hfd => hfd rfl).1⟩
  · exact fun o => ObjectStep.cls (e := h.objects id) (.close o)
  · refine Idle.keeps ((Keeps.whenever (hidle _)).bind fun _ => ?_)
    exact (hscope.callAny fun o => .closeOwnedPeers o).bind fun _ => .pure _

/-- The program connects the socket. -/
theorem Live.connectTls (target : TlsTarget) : Keeps (Live id) (connectTls h cb id target) := by
  have hlive := (Noted.scope hclose (.live id)).toScoped
  have hidle := (Noted.scope hclose (.dialled id)).toScoped
  have hhandlers (n : EventNote) : Keeps (Live id) (cb n) := hcb.keeps n _ (.noted _ _ (.live id))
  refine keeps_iff.mpr ?_
  unfold EventLoop.connectTls
  refine Triple.bind (Q := fun _ => Live id) (keeps_iff.mp (hlive.callSame fun o => ?_)) fun server => ?_
  · cases o <;> rfl
  split
  · refine keeps_iff.mp ((hlive.setError _).bind fun _ => .pure _)
  · rename_i identity _
    have hrest : Triple (Idle id) (do
        let _ ← EventWorld.call id
          (EventObject.onSocket (Socket.setBlocking (h.objects id).tls.toHost true))
        let ok ← EventLoop.tcpConnect h cb id target.tcp
        if !ok then return false
        else
          let started ← EventWorld.call id
            (EventObject.onTls (SslEventSocket.startClient (h.objects id).tls identity) (false, false))
          Code.whenever started.2 (EventLoop.fire cb id .close)
          return started.1) (fun _ => Live id) fun _ => Live id := by
      refine (Idle.keeps (hidle.callSocket (Socket.aside_setBlocking _ true))).bind fun _ => ?_
      refine (Idle.keeps (Scoped.tcpConnect (Idle.preserves hclose hcb) _)).bind fun ok => ?_
      refine .ite (fun _ => .ret fun _ hw => Idle.live hw) fun _ => ?_
      refine Triple.bind (Q := fun _ => Live id) ?_ fun started => ?_
      · refine (Noted.call (G := fun _ => Attached) (fun s hs => ?_) (EventObject.onTls_cls _ _)).mono
          (fun _ hw => hw) (fun _ _ hw => hw.weaken (Nat.zero_le _) fun _ hfd => hfd) fun _ _ hw => Idle.live hw
        exact ⟨_, rfl, hs.startClient hclose identity (hs.none_of fun hfalse => hfalse)⟩
      · exact keeps_iff.mp ((Keeps.whenever (hhandlers _)).bind fun _ => .pure _)
    -- a socket that is not busy has no session
    refine Triple.bind (Q := fun busy w => if busy then Live id w else Idle id w) ?_ fun busy => ?_
    · refine (Noted.call (G := fun busy => if busy then Attached else fun _ => False) (fun s hs => ?_)
        fun o => ?_).post fun busy w hw => ?_
      · refine ⟨s, rfl, ?_⟩
        show Account .underway (if (s.session.isSome || s.connected) = true then Attached else _) s
        split
        · exact hs
        · rename_i hquiet
          obtain ⟨hnone, -⟩ : s.session = none ∧ s.connected = false := by simpa using hquiet
          exact hs.ended hnone
      · cases o <;> rfl
      · cases busy with
        | true => exact hw.weaken (Nat.zero_le _) fun _ hfd => hfd
        | false => exact hw
    · cases busy with
      | true => exact (Live.close hclose hcb).bind fun _ => hrest
      | false => exact hrest

end Dialled

end Noted

section Programs

/-- What a handler may do: anything to other objects, and to the socket `id` what an
application may do at any time.  It does not connect, write to, destroy or deregister
the socket. -/
def MayHandle (id : ℕ) (w : EventWorld) (o : EventOp) : Prop := o.Within (· ≠ id) w

/-- The program itself may connect the socket too. -/
def MayDrive (id : ℕ) (w : EventWorld) (o : EventOp) : Prop :=
  MayHandle id w o ∨ ∃ target, o = .connectTls id target

/-- A handler does not throw.  It may wait in a `poll` of its own, if it is not called
from another one. -/
def MayHalt (w : EventWorld) (e : Halt) : Prop := e = .waiting ∧ w.polling = false

/-- The traces of all sessions of an object. -/
structure SslEventSocket.Traced (s : SslEventSocket) : Prop where
  live : ∀ k, s.session = some k → ∃ ready, Underway ready (noticesOf k s.log)
  ended : ∀ k < s.nextSession, s.session ≠ some k → Over (noticesOf k s.log)
  unstarted : ∀ k, s.nextSession ≤ k → noticesOf k s.log = []
  silent : ∀ k, (∀ ev ∈ s.log, ev.completes k = false) →
    ∀ n ∈ noticesOf k s.log, n ≠ .connect ∧ n.moves = false

theorem Underway.silent {ready : Bool} {ns : List Notice} (h : Underway ready ns)
    (hno : .connect ∉ ns) : ns = [] := by
  cases h with
  | waiting => rfl
  | connected => simp at hno

theorem Over.silent {ns : List Notice} (h : Over ns) (hno : .connect ∉ ns) :
    ∀ n ∈ ns, n.moves = false := by
  cases h with
  | closed told =>
    obtain rfl := told.silent fun hmem => hno (List.mem_append_left _ hmem)
    simp [Notice.moves]
  | failed code told =>
    obtain rfl := told.silent fun hmem => hno (List.mem_append_left _ hmem)
    simp [Notice.moves]

theorem SslEventSocket.Account.traced {s : SslEventSocket} (h : Account .underway Attached s) :
    s.Traced where
  live k hk := ⟨s.tlsReady, (h.live k hk).2.2.1⟩
  ended := h.past
  unstarted := h.fresh
  silent k hk := by
    have hno : .connect ∉ noticesOf k s.log := by
      intro hmem
      obtain ⟨ev, hev, hcompletes⟩ := h.completed k hmem
      simp [hk ev hev] at hcompletes
    intro n hn
    refine ⟨fun heq => hno (heq ▸ hn), ?_⟩
    by_cases hlive : s.session = some k
    · have htold : Underway s.tlsReady (noticesOf k s.log) := (h.live k hlive).2.2.1
      simp [htold.silent hno] at hn
    · rcases Nat.lt_or_ge k s.nextSession with hlt | hge
      · exact (h.past k hlt hlive).silent hno n hn
      · simp [h.fresh k hge] at hn

variable {h : LoopHost} {fuel id : ℕ} {cb : EventNote → Code EventWorld Unit} {w : EventWorld}

theorem Respectful.of_realizable (hclose : ∀ tick, (h.objects id).tls.close tick = 0)
    (real : Realizable (system h fuel) (MayHandle id) MayHalt cb) : Respectful id cb := by
  have hreturns {cb : EventNote → Code EventWorld Unit}
      (ends : ∀ n t e, (cb n t).1 = .error e → MayHalt t e) (n : EventNote) (t : EventWorld) (e : Halt)
      (hlock : t.polling = true) : (cb n t).1 ≠ .error e := by
    intro he
    simp [(ends n t e he).2] at hlock
  refine ⟨fun n I hI t => ?_, hreturns real.ends⟩
  refine (real.steps n t).within (R := fun a b => ∀ I, Respected id I → I a → I b)
    (fun _ _ _ ha => ha) (fun _ _ _ hab hbc I hI ha => hbc I hI (hab I hI ha)) ?_ I hI
  intro o cb ends hcb t ho I hI
  have hcb' : Respectful id cb := ⟨fun n I hI u => hcb n u I hI, hreturns ends⟩
  exact hI.exec hclose hcb'.recording o ho

/-- In every program that connects a TLS socket and else uses it only as its handlers
may, and for all answers of OpenSSL and of `poll`: each session is told of by at most
one connect, then news of application data, and when it has ended by at most one error
and exactly one close after them, and by nothing until another connection is opened.
A session whose handshake has not completed is told of no connect and no data.  And
the handlers of the socket are called with these notices, in this order. -/
theorem session_traces {s : SslEventSocket} (hclose : h.ClosesSucceed)
    (hw : Run (system h fuel) (MayDrive id) (MayHandle id) MayHalt {} w)
    (hs : w.find id = some (.tls s)) : s.Traced ∧ s.told = callsOn id w.calls := by
  have hcloses (tick : ℕ) : (h.objects id).tls.close tick = 0 := (hclose id tick).1
  have hlive : Noted.Live id w := by
    refine hw.keeps (fun o cb real t ho ht => ?_) ⟨⟨Nat.zero_le _, fun i o hi => ?_⟩, fun t ht => ?_⟩
    · have hcb := (Respectful.of_realizable hcloses real).recording
      rcases ho with ho | ⟨target, rfl⟩
      · exact (Respected.noted 0 Attached (.live id)).exec hcloses hcb o ho ht
      · exact keeps_only ((Noted.Live.connectTls hcloses hcb target).bind fun _ => .pure ()) t ht
    · simp [EventWorld.find] at hi
    · simp at ht
  exact ⟨(hlive.1.each id _ hs rfl).traced, told_calls hw hs⟩

/-- A peer whose stream breaks off after its first byte. -/
def truncatedHost : LoopHost := .same ⟨{ TlsHost.steady with
  sslRead := fun tick _ => if tick < 20 then { ret := 1, data := [65] } else { ret := -1, code := .other } },
  .steady⟩ { pollin := true, pollout := true }

/-- The program queues a byte, and the stream breaks off. -/
def brokenOff : List EventOp := connected ++ [.call 0 (.queueWrite (some [1])), .poll 0, .poll 0]

theorem session_traces_truncated : ∃ s, (after truncatedHost 1 brokenOff).find 0 = some (.tls s) ∧
    noticesOf 0 s.log = [.connect, .data [65], .drain, .error sslErrorIo, .close] ∧ s.Traced ∧
      s.told = callsOn 0 (after truncatedHost 1 brokenOff).calls := by
  obtain ⟨s, hs, hp⟩ := exists_of_tlsIs 0 (w := after truncatedHost 1 brokenOff)
    (p := fun s => noticesOf 0 s.log = [.connect, .data [65], .drain, .error sslErrorIo, .close])
    (by decide +kernel)
  have hdrives : ∀ o ∈ brokenOff, ∀ t, MayDrive 0 t o := by
    simp [brokenOff, connected, MayDrive, MayHandle, EventOp.Within]
  have hrun : Run (system truncatedHost 1) (MayDrive 0) (MayHandle 0) MayHalt {}
      (after truncatedHost 1 brokenOff) := Run.start.script brokenOff hdrives
  exact ⟨s, hs, of_decide_eq_true hp, session_traces (fun _ _ => ⟨rfl, rfl⟩) hrun hs⟩

end Programs

end Aeon
