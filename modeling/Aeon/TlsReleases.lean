import Aeon.TlsAccounts

/-!
# What the TLS objects give back

Every `SSL` object and every reference to an `SSL_CTX` that the library makes is
given back once, in every run in which no event object connects again while its
destructor closes it.
-/

namespace Aeon

open History Lifetimes Ledger

variable {κ : Type}

namespace TlsWorld

variable {w : TlsWorld κ} {id i : ℕ} {o o' : TlsObject κ} {h : TlsHosts κ}

section Beginnings

variable {new : Prop} {e : TlsHost} {s : SslEventSocket} {c : SslSocket κ}

/-- The history of an object from its beginning on. -/
def Begins (new : Prop) (a : Trail) : Prop := Trail.Grows new ⟨[], {}⟩ a

theorem Begins.leads {a : Trail} (ha : Begins new a) : Leads Event.lifetime {} a.log a.slot := by
  obtain ⟨es, hlog, hleads, -⟩ := ha
  rw [hlog]
  exact hleads

theorem Begins.makes {a : Trail} (ha : Begins new a) {n : ℕ} (hn : .sslNew n ∈ a.log) : new := by
  obtain ⟨es, hlog, -, hnew⟩ := ha
  rw [hlog] at hn
  exact hnew n hn

/-- A socket that only opens a descriptor. -/
theorem begins_construct (h : Host) (tick : ℕ) :
    Begins new ⟨(Socket.construct h tick).log, {}⟩ := by
  unfold Socket.construct
  split
  · exact .refl _
  · rename_i fd _
    have hopened : Begins new ⟨[.opened fd], {}⟩ := Trail.Grows.idle (.opened fd) rfl rfl rfl
    dsimp only
    split
    · exact hopened
    · exact hopened

theorem begins_adopt (h : Host) (tick fd : ℕ) : Begins new ⟨(Socket.adopt h tick fd).log, {}⟩ := by
  unfold Socket.adopt
  dsimp only
  split
  · exact .refl _
  · exact .refl _

/-- An event object makes its socket nonblocking, or gives it up. -/
theorem begins_eventSocket {h : Host} {base : Socket} (hbase : Begins new ⟨base.log, {}⟩) :
    Begins new ⟨(EventSocket.construct h base).log, {}⟩ := by
  have hmode : (base.setBlocking h false).2.log = base.log := (setBlocking_frame false base).2.1
  unfold EventSocket.construct
  split
  · exact hbase
  · dsimp only
    split
    · show Begins new ⟨(base.setBlocking h false).2.log, {}⟩
      rw [hmode]
      exact hbase
    · refine Trail.Grows.trans hbase (.close h (base.setBlocking h false).2 ?_ rfl rfl rfl)
      exact hmode.symm

theorem setAll_follows {h : SslHost} (setters : List PlainSetter) (c : SslSocket κ) :
    SslSocket.Follows new c (c.setAll h setters).2 := by
  induction setters generalizing c with
  | nil => exact .refl c
  | cons setter setters ih =>
    have hset : SslSocket.Follows new c { c with toSocket := (setter.run h.toHost c.toSocket).2 } :=
      .onSocket (fun s => (Socket.aside_run h.toHost setter s).log) c
    unfold SslSocket.setAll
    dsimp only
    split
    · exact hset.trans (ih _)
    · exact hset

theorem setAll_session {h : SslHost} (setters : List PlainSetter) (c : SslSocket κ) :
    (c.setAll h setters).2.session = c.session := by
  induction setters generalizing c with
  | nil => rfl
  | cons setter setters ih =>
    unfold SslSocket.setAll
    dsimp only
    split
    · exact ih _
    · rfl

/-- A peer is accepted with the one `SSL` object that its handshake makes. -/
theorem accepted_follows {h : SslHost} (timeoutMs : Int) (blocking : Bool) (store : Option κ)
    (hnone : c.session = none) :
    SslSocket.Follows (store.isSome = true) c (c.accepted h timeoutMs blocking store).2 := by
  have hmade : SslSocket.Follows (store.isSome = true) c
      (c.createAcceptedSocket h timeoutMs store).2 := by
    have hset : SslSocket.Follows (store.isSome = true) c (c.setAll h
        [.blocking true, .readTimeout timeoutMs, .writeTimeout timeoutMs]).2 := setAll_follows _ c
    have hsession := setAll_session (h := h)
      [.blocking true, .readTimeout timeoutMs, .writeTimeout timeoutMs] c
    unfold SslSocket.createAcceptedSocket
    dsimp only
    generalize c.setAll h [.blocking true, .readTimeout timeoutMs, .writeTimeout timeoutMs] = timed
      at hset hsession
    split
    · exact hset
    · have hshaken := hset.trans (SslSocket.Follows.performServerHandshake (h := h) timed.2 store id
        (hsession.trans hnone))
      split
      · exact hshaken
      · exact hshaken.trans (setAll_follows _ _)
  unfold SslSocket.accepted
  dsimp only
  split
  · exact hmade.trans (setAll_follows _ _)
  · exact hmade

/-- The same for an event object, which has its own reference. -/
theorem acceptedEvent_begins (retained : Bool) (fd : ℕ) (timeoutMs : Int) :
    Begins (retained = true) (SslEventSocket.accepted e retained fd timeoutMs).2.trail ∧
      (SslEventSocket.accepted e retained fd timeoutMs).2.hasCtx = retained := by
  have hbase : Begins (retained = true)
      ⟨(EventSocket.construct e.toHost (.adopt e.toHost 0 fd)).log, {}⟩ :=
    begins_eventSocket (begins_adopt e.toHost 0 fd)
  unfold SslEventSocket.accepted
  dsimp only
  generalize EventSocket.construct e.toHost (.adopt e.toHost 0 fd) = base at hbase
  let s₀ : SslEventSocket :=
    { toEventSocket := base, serverSide := true, verifyMode := .off, hasCtx := retained }
  have hadopted : SslEventSocket.Follows s₀ (SslEventSocket.adoptAccepted e retained base) := by
    unfold SslEventSocket.adoptAccepted
    dsimp only
    split
    · exact .same rfl rfl
    · split
      · exact .initSession true s₀
      · exact (SslEventSocket.Follows.initSession true s₀).trans (.same rfl rfl)
  have htimed (s : SslEventSocket) :
      SslEventSocket.Follows s (s.setHandshakeTimeout e timeoutMs).2 := by
    unfold SslEventSocket.setHandshakeTimeout
    split
    · exact .same rfl rfl
    · dsimp only
      split <;> exact .same rfl rfl
  split
  · exact ⟨Trail.Grows.trans hbase hadopted.trail, hadopted.hasCtx⟩
  · have hset := hadopted.trans (htimed _)
    split
    · exact ⟨Trail.Grows.trans hbase hset.trail, hset.hasCtx⟩
    · have hmode := hset.trans (.base (Socket.aside_setBlocking e.toHost false _).log)
      exact ⟨Trail.Grows.trans hbase hmode.trail, hmode.hasCtx⟩

theorem find_beginDestroy {ctx : Option ℕ} {s : SslEventSocket}
    (hs : w.find id = .event ctx false s) :
    (w.beginDestroy h id).find id = .event ctx true (s.close (h.events id).tls).2 := by
  unfold TlsWorld.beginDestroy
  rw [hs]
  exact (find_store (lt_of_find hs nofun)).trans (if_pos rfl)

end Beginnings

namespace Inv

theorem newClient (hw : Inv w) (made : Bool) (tick : ℕ) (shared : Option ℕ) :
    Inv (w.newClient h made tick shared) := by
  have hbegins (host : SslHost) (ctx : Option ℕ) (owns : Bool) : Begins False
      (SslSocket.construct (κ := κ) host tick ctx owns).trail := by
    have hlog : (SslSocket.construct (κ := κ) host tick ctx owns).log =
        (Socket.construct host.toHost tick).log := by
      unfold SslSocket.construct
      cases ctx <;> rfl
    show Begins False ⟨(SslSocket.construct host tick ctx owns).log, {}⟩
    rw [hlog]
    exact begins_construct _ tick
  unfold TlsWorld.newClient
  cases shared with
  | some ctx =>
    dsimp only
    split
    · have hnew := hbegins (h.blocking w.objects.length) (some ctx) false
      refine hw.add trivial ⟨_, hnew.leads, rfl⟩ (fun r hr => ?_) fun n hn => ?_
      · cases hr
      · exact (hnew.makes hn).elim
    · exact hw
  | none =>
    refine (hw.newCtx made).add trivial ⟨_, (hbegins _ _ _).leads, rfl⟩ (fun r hr => ?_)
      fun n hn => ?_
    · cases made with
      | false => cases hr
      | true =>
        obtain rfl := Option.some.inj hr
        exact hw.contexts
    · exact ((hbegins _ _ _).makes hn).elim

theorem newServer (hw : Inv w) (made : Bool) : Inv (w.newServer made) := by
  refine (hw.newCtx made).add trivial ⟨{}, .nil _, rfl⟩ (fun r hr => ?_) nofun
  cases made with
  | false => cases hr
  | true =>
    obtain rfl := Option.some.inj hr
    exact hw.contexts

theorem newEventServer (hw : Inv w) (made : Bool) : Inv (w.newEventServer made) := by
  refine (hw.newCtx made).add trivial ⟨{}, .nil _, rfl⟩ (fun r hr => ?_) nofun
  cases made with
  | false => cases hr
  | true =>
    obtain rfl := Option.some.inj hr
    exact hw.contexts

theorem newEvent (hw : Inv w) (made : Bool) : Inv (w.newEvent h made) := by
  have hbegins (e : TlsHost) : Begins False
      ⟨(EventSocket.construct e.toHost (.construct e.toHost 0)).log, {}⟩ :=
    begins_eventSocket (begins_construct e.toHost 0)
  cases made with
  | false =>
    refine hw.add rfl ⟨_, (hbegins _).leads, rfl⟩ (fun r hr => ?_) fun n hn => ?_
    · cases hr
    · exact ((hbegins _).makes hn).elim
  | true =>
    refine (hw.newCtx true).add rfl ⟨_, (hbegins _).leads, rfl⟩ (fun r hr => ?_) fun n hn => ?_
    · obtain rfl := Option.some.inj hr
      exact hw.contexts
    · exact ((hbegins _).makes hn).elim

/-- A peer that is accepted makes its `SSL` object from the context of its server. -/
theorem accept (hw : Inv w) (server fd : ℕ) (held : κ) (blocking : Bool) :
    Inv (w.accept h server fd held blocking) := by
  unfold TlsWorld.accept
  split
  · rename_i ctx timeoutMs hs
    dsimp only
    have hadopted : Begins (ctx.isSome = true)
        (SslSocket.adopt (κ := κ) (h.blocking w.objects.length) 0 fd ctx).trail :=
      begins_adopt _ 0 fd
    have hfollows := accepted_follows (h := h.blocking w.objects.length) timeoutMs blocking
      (ctx.map fun _ => held)
      (c := SslSocket.adopt (h.blocking w.objects.length) 0 fd ctx) rfl
    generalize (SslSocket.adopt (h.blocking w.objects.length) 0 fd ctx).accepted
      (h.blocking w.objects.length) timeoutMs blocking (ctx.map fun _ => held) = made at hfollows
    have hbegins : Begins (ctx.isSome = true) made.2.trail :=
      hadopted.trans (hfollows.trail.mono fun hmade => by rwa [Option.isSome_map] at hmade)
    have hadded : Inv (w.add (.peer server made.2)) := by
      refine hw.add trivial ⟨_, hbegins.leads, rfl⟩ (fun r hr => ?_) fun n _ r hr => .inr ?_
      · cases hr
      · have hctx : made.2.ctx = ctx := hfollows.ctx
        obtain ⟨m, hm, rfl⟩ := Option.map_eq_some_iff.mp hr
        rw [hs]
        exact congr_arg (Option.map _) (hctx.symm.trans hm)
    split
    · exact hadded
    · exact hadded.destroyPeer _
  · exact hw

/-- An event object that is accepted makes its `SSL` object from its own reference. -/
theorem acceptEvent (hw : Inv w) (server fd : ℕ) (retained : Bool) :
    Inv (w.acceptEvent h server fd retained) := by
  unfold TlsWorld.acceptEvent
  split
  · rename_i ctx timeoutMs hs
    dsimp only
    have hnoted : Inv (w.note (ctx.toList.map fun n => TlsEvent.upRef ⟨server, n⟩)) := by
      cases hctx : ctx with
      | none =>
        show Inv { w with log := w.log ++ [] }
        rw [List.append_nil]
        exact hw
      | some n =>
        refine hw.upRef ?_
        rw [hs, hctx]
        rfl
    obtain ⟨hbegins, hhas⟩ := acceptedEvent_begins (e := (h.events w.objects.length).tls)
      (if retained then ctx else none).isSome fd timeoutMs
    generalize SslEventSocket.accepted (h.events w.objects.length).tls
      (if retained then ctx else none).isSome fd timeoutMs = made at hbegins hhas
    have hadded : Inv ((w.note (ctx.toList.map fun n => .upRef ⟨server, n⟩)).add
        (.event (if retained then ctx else none) false made.2)) := by
      refine hnoted.add hhas ⟨_, hbegins.leads, rfl⟩ (fun r hr => ?_) fun n _ r hr => .inl hr
      obtain ⟨m, hm, rfl⟩ := Option.map_eq_some_iff.mp hr
      split at hm
      · refine hw.supplied_le (r := ⟨server, m⟩) ?_
        rw [hs]
        exact congr_arg (Option.map _) hm
      · cases hm
    split
    · exact hadded
    · refine (hadded.beginDestroy _).finishDestroy fun ctx' s hfind => ?_
      have hnew : ((w.note (ctx.toList.map fun n => .upRef ⟨server, n⟩)).add
          (.event (if retained then ctx else none) false made.2)).find w.objects.length =
          .event (if retained then ctx else none) false made.2 := (find_add _ _).trans (if_pos rfl)
      rw [find_beginDestroy hnew] at hfind
      cases hfind
      exact (SslEventSocket.Follows.close made.2).2
  · exact hw

theorem destroyEventServer (hw : Inv w) (id : ℕ) : Inv (w.destroyEventServer id) := by
  unfold TlsWorld.destroyEventServer
  split
  · rename_i ctx timeoutMs hs
    have hid := lt_of_find hs nofun
    refine (hw.release id).forget id ?_ ?_
    · rw [find_release hid, if_pos rfl]
      exact TlsObject.forgetCtx_ref _ id
    · rw [find_release hid, if_pos rfl, hs]
      exact fun _ hk => hk
  · exact hw

end Inv

/-- A destructor of an event object comes to the end of its close, with all that
handlers have done there, when the object has no session. -/
def EndsIdle (w : TlsWorld κ) : TlsOp κ → Prop
  | .finishDestroy id => ∀ ctx s, w.find id = .event ctx true s → s.session = none
  | _ => True

theorem Inv.exec (hw : Inv w) (op : TlsOp κ) (hop : EndsIdle w op) : Inv (w.exec h op) := by
  cases op with
  | newClient made tick shared => exact hw.newClient made tick shared
  | call id held c => exact hw.call id held c
  | destroyClient id => exact hw.destroyClient id
  | newServer made => exact hw.newServer made
  | setHandshakeTimeout id milliseconds => exact hw.setHandshakeTimeout id milliseconds
  | accept server fd held blocking => exact hw.accept server fd held blocking
  | closePeers server => exact hw.closePeers server
  | removePeer id => exact hw.removePeer id
  | destroyServer id => exact hw.destroyServer id
  | newEvent made => exact hw.newEvent made
  | event id a ha => exact hw.entry id ha
  | beginDestroy id => exact hw.beginDestroy id
  | finishDestroy id => exact hw.finishDestroy hop
  | newEventServer made => exact hw.newEventServer made
  | acceptEvent server fd retained => exact hw.acceptEvent server fd retained
  | destroyEventServer id => exact hw.destroyEventServer id

theorem Reaches.inv (hw : Reaches h EndsIdle w) : Inv w := by
  induction hw with
  | start supplied =>
    refine ⟨⟨0, .nil 0, Multiset.nodup_zero, fun r => ?_⟩, fun id => ⟨{}, .nil _, rfl⟩,
      fun id => trivial, nofun, fun r => Nat.zero_le 1, nofun, Nat.le_refl supplied⟩
    exact ⟨fun hr => absurd hr (Multiset.notMem_zero r), nofun⟩
  | step op _ hop ih => exact ih.exec op hop

end TlsWorld

/-- The `SSL` object that an object has. -/
def TlsObject.live : TlsObject κ → Option ℕ
  | client c | peer _ c => c.session.map SslSession.id
  | event _ _ s => s.session
  | server .. | eventServer .. | gone => none

theorem TlsObject.Holds.live {o : TlsObject κ} {k : Slot} (hk : o.Holds k) : k.live = o.live := by
  cases o with
  | client c | peer owner c | event ctx dying s =>
    rw [show k = _ from hk]
    rfl
  | server | eventServer | gone => exact hk

namespace TlsWorld

/-- The books are straight.  An object makes every `SSL` object once and frees it
once, but for the one that it has; it uses and frees only what is there, and
closes no descriptor while there is one.  A reference is acquired once and
released once, but for those that objects hold; a context is used and referred to
only through a reference that is held, and none of the caller's is released. -/
structure Accounted (w : TlsWorld κ) : Prop where
  created : ∀ id n, created Event.lifetime n (history id w.log) ≤ 1 ∧
    created Event.lifetime n (history id w.log) =
      freed Event.lifetime n (history id w.log) + if (w.find id).live = some n then 1 else 0
  used : ∀ id, Always (fun before ev => ∀ n, ev.lifetime = .use n ∨ ev.lifetime = .free n →
    Lifetimes.created Event.lifetime n before = 1 ∧ freed Event.lifetime n before = 0)
    (history id w.log)
  left : ∀ id, Always (fun before ev => ∀ fd, ev = .closed fd → ∀ n,
    Lifetimes.created Event.lifetime n before = freed Event.lifetime n before) (history id w.log)
  acquired : ∀ r, w.log.count (.acquired r) ≤ 1 ∧ w.log.count (.acquired r) =
    w.log.count (.released r) + if (w.find r.holder).ref r.holder = some r then 1 else 0
  via : Always (fun before ev => ∀ r, ev = .upRef r ∨ (∃ id n, ev = .did id (some r) (.sslNew n)) →
    before.count (.acquired r) = 1 ∧ before.count (.released r) = 0) w.log
  supplied : ∀ r, .released r ∈ w.log → w.supplied ≤ r.ctx

theorem acquired_eq (r : ContextRef) (log : List TlsEvent) :
    Settles.acquired TlsEvent.account r log = log.count (.acquired r) := by
  refine List.countP_congr fun ev _ => ?_
  cases ev with
  | did id via ev => cases via <;> cases ev <;> simp [TlsEvent.account]
  | _ => simp [TlsEvent.account]

theorem released_eq (r : ContextRef) (log : List TlsEvent) :
    Settles.released TlsEvent.account r log = log.count (.released r) := by
  refine List.countP_congr fun ev _ => ?_
  cases ev with
  | did id via ev => cases via <;> cases ev <;> simp [TlsEvent.account]
  | _ => simp [TlsEvent.account]

theorem Inv.references (hw : Inv w) (r : ContextRef) : w.log.count (.acquired r) =
    w.log.count (.released r) + if (w.find r.holder).ref r.holder = some r then 1 else 0 := by
  obtain ⟨held, hsettles, hnodup, hheld⟩ := hw.ledger
  have hcount := hsettles.count_eq r
  rw [acquired_eq, released_eq, Multiset.count_zero, Multiset.count_eq_of_nodup hnodup] at hcount
  rw [← if_congr (hheld r) rfl rfl]
  omega

/-- What is used is held. -/
theorem Inv.uses (hw : Inv w) : Always (fun before ev => ∀ r, ev.account = .use r →
    before.count (.acquired r) = 1 ∧ before.count (.released r) = 0) w.log := by
  intro before ev rest hlog r huse
  obtain ⟨held, hsettles, -, -⟩ := hw.ledger
  rw [hlog] at hsettles
  obtain ⟨middle, hbefore, hrest⟩ := hsettles.split
  have hmem : r ∈ middle := by
    cases hrest with
    | acquire r' he => cases he.symm.trans huse
    | release r' he => cases he.symm.trans huse
    | use r' he hr' =>
      cases he.symm.trans huse
      exact hr'
    | idle he => cases he.symm.trans huse
  have hpos := Multiset.count_pos.mpr hmem
  have hcount := hbefore.count_eq r
  rw [acquired_eq, released_eq, Multiset.count_zero] at hcount
  have honce := hw.once r
  rw [hlog, List.count_append] at honce
  omega

/-- In every run whose destructors of event objects end idle the books are straight. -/
theorem tls_objects_accounted (h : TlsHosts κ) (w : TlsWorld κ) (hw : Reaches h EndsIdle w) : Accounted w where
  created id n := by
    obtain ⟨k, hleads, hk⟩ := hw.inv.trails id
    obtain ⟨hnew, hbalance, -⟩ := hleads.counts n
    rw [hk.live] at hbalance
    refine ⟨?_, hbalance⟩
    rw [hnew]
    split <;> omega
  used id := by
    obtain ⟨k, hleads, -⟩ := hw.inv.trails id
    exact hleads.used
  left id := by
    obtain ⟨k, hleads, -⟩ := hw.inv.trails id
    refine hleads.left.mono fun before ev hleft fd he => hleft ?_
    rw [he]
    rfl
  acquired r := ⟨hw.inv.once r, hw.inv.references r⟩
  via := by
    refine hw.inv.uses.mono fun before ev huses r he => huses r ?_
    rcases he with rfl | ⟨id, n, rfl⟩
    · rfl
    · rfl
  supplied r hr := by
    have hpos : 0 < w.log.count (.released r) := List.count_pos_iff.mpr hr
    have hcount := hw.inv.references r
    exact (hw.inv.acquired r (List.count_pos_iff.mp (by omega))).2

section Examples

/-- Everything succeeds at once. -/
def smooth : TlsHosts Unit :=
  ⟨fun _ => .steady, fun _ => ⟨.steady, .steady⟩, ⟨(), fun _ s => some s, fun _ s => some s⟩⟩

theorem opens_create (h : Host) (family : Family) : SslEventSocket.Opens fun b =>
    { (b.create h family).2 with connected := false } := by
  intro b
  refine ⟨_, (Socket.create_log h family b).2, fun ev hev => ?_⟩
  rcases List.mem_append.mp hev with hev | hev
  · obtain ⟨fd, -, rfl⟩ := List.mem_map.mp hev
    rfl
  · obtain ⟨fd, -, rfl⟩ := List.mem_map.mp hev
    rfl

/-- A `connect` that succeeds: it opens a descriptor, and starts a session on it. -/
def connects (id : ℕ) : List (TlsOp Unit) :=
  [.event id .close trivial,
    .event id (.dial (fun b => { (b.create Host.steady .inet).2 with connected := false })
      (Socket.silent_create _ _) fun _ => rfl) (opens_create _ _),
    .event id (.start (fun b => { b.connectDone with connected := true })
      (fun _ => ⟨[], by simp, by simp [Socket.connectDone]⟩) "peer")
      fun _ => ⟨[], by simp [Socket.connectDone], by simp⟩]

def connected : TlsWorld Unit :=
  run smooth (.newEvent true :: connects 0 ++ [.beginDestroy 0])
    { supplied := 1, contexts := 1 }

theorem connected_reaches : Reaches smooth EndsIdle connected :=
  (Reaches.start 1).run _ (by simp [connects, EndsIdle])

/-- A client that connects and is destroyed. -/
theorem tls_objects_accounted_connected : Accounted (connected.exec smooth (.finishDestroy 0)) :=
  tls_objects_accounted smooth _ (.step _ connected_reaches fun ctx s hs => by
    cases hs
    rfl)

/-- The client and a handler that connects it again while its destructor closes it. -/
def reconnected : TlsWorld Unit :=
  run smooth (connects 0 ++ [.finishDestroy 0]) connected

/-- The second `SSL` object is never freed, and its descriptor is closed all the same. -/
theorem tls_objects_not_accounted : Reaches smooth (fun _ _ => True) reconnected ∧
    (reconnected.find 0).live = none ∧
    created Event.lifetime 1 (history 0 reconnected.log) = 1 ∧
    freed Event.lifetime 1 (history 0 reconnected.log) = 0 ∧
    (history 0 reconnected.log).getLast? = some (.closed 3) ∧ ¬Accounted reconnected := by
  have hreaches : Reaches smooth (fun _ _ => True) reconnected :=
    ((Reaches.start 1).run _ fun _ _ _ => trivial).run _ fun _ _ _ => trivial
  have hlive : (reconnected.find 0).live = none := by decide +kernel
  have hcreated : created Event.lifetime 1 (history 0 reconnected.log) = 1 := by decide +kernel
  have hfreed : freed Event.lifetime 1 (history 0 reconnected.log) = 0 := by decide +kernel
  refine ⟨hreaches, hlive, hcreated, hfreed, ?_, fun hbooks => ?_⟩
  · decide +kernel
  · have hbalance := (hbooks.created 0 1).2
    rw [hcreated, hfreed, hlive] at hbalance
    cases hbalance

end Examples

end TlsWorld

end Aeon
