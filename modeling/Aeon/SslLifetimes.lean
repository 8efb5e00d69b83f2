import Aeon.Library.Lifetimes
import Aeon.SslConnect

/-!
# The `SSL` objects of a blocking socket

A socket has room for one `SSL` object.  `Follows` says that a function of the
socket creates, uses and frees what is there, and closes a descriptor only when
nothing is.
-/

namespace Aeon

open Lifetimes

/-- What an event is to the `SSL` objects of a socket. -/
def Event.lifetime : Event → Act
  | .sslNew id => .create id
  | .sslFree id => .free id
  | .handshake id .. | .sslRead id .. | .sslWrite id .. | .sslShutdown id .. => .use id
  | .sslVerify (some id) _ => .use id
  | .closed _ => .leave
  | _ => .idle

/-- The history of a socket, and what its place for an `SSL` object holds. -/
structure Trail where
  log : List Event
  slot : Slot

namespace Trail

/-- The history goes on as the place allows.  An `SSL` object is made only if `new`. -/
def Grows (new : Prop) (a b : Trail) : Prop :=
  ∃ es, b.log = a.log ++ es ∧ Leads Event.lifetime a.slot es b.slot ∧ ∀ id, .sslNew id ∈ es → new

namespace Grows

variable {new : Prop} {a b c : Trail}

theorem refl (a : Trail) : Grows new a a := ⟨[], (List.append_nil _).symm, .nil _, nofun⟩

theorem same (h : b = a) : Grows new a b := by
  rw [h]
  exact refl a

theorem trans (h : Grows new a b) (h' : Grows new b c) : Grows new a c := by
  obtain ⟨es, hlog, hleads, hnew⟩ := h
  obtain ⟨es', hlog', hleads', hnew'⟩ := h'
  refine ⟨es ++ es', by rw [hlog', hlog, List.append_assoc], hleads.append hleads', fun id hid => ?_⟩
  exact (List.mem_append.mp hid).elim (hnew id) (hnew' id)

theorem mono {new' : Prop} (h : Grows new a b) (himp : new → new') : Grows new' a b :=
  let ⟨es, hlog, hleads, hnew⟩ := h
  ⟨es, hlog, hleads, fun id hid => himp (hnew id hid)⟩

theorem event (ev : Event) (hlog : b.log = a.log ++ [ev])
    (hstep : a.slot.step ev.lifetime = some b.slot) (hnew : ∀ id, ev = .sslNew id → new) :
    Grows new a b :=
  ⟨[ev], hlog, .one hstep, fun id hid => hnew id (List.mem_singleton.mp hid).symm⟩

/-- An event that has nothing to do with the `SSL` object. -/
theorem idle (ev : Event) (hlog : b.log = a.log ++ [ev]) (hslot : b.slot = a.slot)
    (hidle : ev.lifetime = .idle) : Grows new a b := by
  refine event ev hlog (by rw [hidle, hslot]; rfl) ?_
  rintro id rfl
  cases hidle

/-- A use of the `SSL` object that is there. -/
theorem use (ev : Event) {id : ℕ} (hlog : b.log = a.log ++ [ev]) (hslot : b.slot = a.slot)
    (huse : ev.lifetime = .use id) (hlive : a.slot.live = some id) : Grows new a b := by
  refine event ev hlog ?_ ?_
  · rw [huse, hslot]
    exact if_pos hlive
  · rintro i rfl
    cases huse

theorem create {id : ℕ} (hlog : b.log = a.log ++ [.sslNew id]) (hlive : a.slot.live = none)
    (hid : a.slot.next = id) (hslot : b.slot = ⟨some id, id + 1⟩) (hnew : new) : Grows new a b :=
  event _ hlog (hslot ▸ if_pos ⟨hlive, hid.symm⟩) fun _ _ => hnew

theorem free {id : ℕ} (hlog : b.log = a.log ++ [.sslFree id]) (hlive : a.slot.live = some id)
    (hslot : b.slot = ⟨none, a.slot.next⟩) : Grows new a b :=
  event _ hlog (hslot ▸ if_pos hlive) nofun

/-- `socket::close` while there is no `SSL` object. -/
theorem close (h : Host) (s : Socket) (hlog : a.log = s.log) (hlog' : b.log = (s.close h).2.log)
    (hlive : a.slot.live = none) (hslot : b.slot = a.slot) : Grows new a b := by
  cases hfd : s.sockfd with
  | none =>
    rw [Socket.close_none hfd, ← hlog] at hlog'
    exact ⟨[], by rw [hlog', List.append_nil], hslot ▸ .nil _, nofun⟩
  | some fd =>
    rw [Socket.close_log hfd, ← hlog] at hlog'
    refine event (.closed fd) hlog' ?_ nofun
    rw [hslot]
    exact if_pos hlive

end Grows

end Trail

namespace SslSocket

variable {κ : Type} {new : Prop} {o : CredentialStore κ} {h : SslHost} {c d e : SslSocket κ}

def trail (c : SslSocket κ) : Trail := ⟨c.log, c.session.map SslSession.id, c.made⟩

/-- The socket goes on from `c` to `d` with the same context. -/
structure Follows (new : Prop) (c d : SslSocket κ) : Prop where
  trail : Trail.Grows new c.trail d.trail
  ctx : d.ctx = c.ctx
  ownsCtx : d.ownsCtx = c.ownsCtx

namespace Follows

theorem refl (c : SslSocket κ) : Follows new c c := ⟨.refl _, rfl, rfl⟩

theorem trans (hcd : Follows new c d) (hde : Follows new d e) : Follows new c e :=
  ⟨hcd.trail.trans hde.trail, hde.ctx.trans hcd.ctx, hde.ownsCtx.trans hcd.ownsCtx⟩

theorem same (htrail : d.trail = c.trail) (hctx : d.ctx = c.ctx) (howns : d.ownsCtx = c.ownsCtx) :
    Follows new c d := ⟨.same htrail, hctx, howns⟩

theorem setError (hcd : Follows new c d) (code : Int) : Follows new c (d.setError code) :=
  hcd.trans (.same rfl rfl rfl)

theorem onSocket {f : Socket → Socket} (hf : ∀ s, (f s).log = s.log) (c : SslSocket κ) :
    Follows new c (c.onSocket f) :=
  .same (congr_arg (Trail.mk · _) (hf c.toSocket)) rfl rfl

theorem ticks (c : SslSocket κ) : Follows new c (c.onSocket fun s => s.ticked.ticked) :=
  onSocket (f := fun s => s.ticked.ticked) (fun _ => rfl) c

/-- An event of the `SSL` object that is there. -/
theorem use {s : SslSession κ} (hs : c.session = some s) (ev : Event) (huse : ev.lifetime = .use s.id)
    (hlog : d.log = c.log ++ [ev]) (hid : d.session.map SslSession.id = some s.id)
    (hmade : d.made = c.made) (hctx : d.ctx = c.ctx) (howns : d.ownsCtx = c.ownsCtx) :
    Follows new c d := by
  have hlive : c.trail.slot.live = some s.id := congr_arg (Option.map SslSession.id) hs
  refine ⟨.use ev hlog ?_ huse hlive, hctx, howns⟩
  show Slot.mk _ _ = Slot.mk _ _
  rw [hid, hmade, ← hlive]
  rfl

theorem sendAlert (c : SslSocket κ) : Follows new c c.sendAlert := by
  unfold SslSocket.sendAlert
  cases hs : c.session with
  | none => exact .refl c
  | some s =>
    dsimp only
    split
    · exact .use hs (.sslShutdown s.id .close 0 none) rfl rfl (congr_arg _ hs) rfl rfl rfl
    · exact .refl c

theorem freeSession (c : SslSocket κ) : Follows new c c.freeSession := by
  unfold SslSocket.freeSession
  cases hs : c.session with
  | none => exact .refl c
  | some s => exact ⟨.free rfl (congr_arg (Option.map SslSession.id) hs) rfl, rfl, rfl⟩

theorem closeBase (hnone : c.session = none) : Follows new c (c.closeBase h).2 :=
  ⟨.close h.toHost c.toSocket rfl rfl (congr_arg (Option.map SslSession.id) hnone) rfl, rfl, rfl⟩

theorem close (c : SslSocket κ) : Follows new c (c.close h).2 :=
  ((sendAlert c).trans (freeSession _)).trans (closeBase (freeSession_session _))

theorem newSession (hnew : new) (held : κ) (hnone : c.session = none) :
    Follows new c (c.newSession held) :=
  ⟨.create rfl (congr_arg (Option.map SslSession.id) hnone) rfl rfl hnew, rfl, rfl⟩

theorem attach (c : SslSocket κ) :
    Follows new c { c with session := c.session.map (.attach c.sockfd) } := by
  refine .same ?_ rfl rfl
  cases hs : c.session with
  | none => simp [SslSocket.trail, hs]
  | some s => simp [SslSocket.trail, hs, SslSession.attach]

theorem shaken (done strict verified : Bool) (c : SslSocket κ) :
    Follows new c (c.shaken done strict verified) := by
  unfold SslSocket.shaken
  cases hs : c.session with
  | none => exact .refl c
  | some s => exact .use hs (.handshake s.id done strict verified none) rfl rfl rfl rfl rfl rfl

theorem verifyAgainst (identity : String) (c : SslSocket κ) :
    Follows new c (c.verifyAgainst identity) := by
  unfold SslSocket.verifyAgainst
  cases hs : c.session with
  | none =>
    refine ⟨.idle (.sslVerify none (some identity)) rfl ?_ rfl, rfl, rfl⟩
    simp [SslSocket.trail, SslSocket.record, SslSocket.onSocket, hs]
  | some s => exact .use hs (.sslVerify (some s.id) (some identity)) rfl rfl rfl rfl rfl rfl

theorem configureVerification (identity : String) (c : SslSocket κ) :
    Follows new c (c.configureVerification h identity).2 := by
  unfold SslSocket.configureVerification
  dsimp only
  split
  · split
    · exact .same rfl rfl rfl
    · have htold : Follows new c (if h.setVerifyIdentity c.tick then c.verifyAgainst identity else c) := by
        split
        · exact verifyAgainst identity c
        · exact .refl c
      split
      · exact (htold.trans (ticks _)).setError _
      · exact htold.trans (ticks _)
  · split
    · exact .refl c
    · split <;> exact .same rfl rfl rfl

theorem configureSession (identity : String) (held : κ) (c : SslSocket κ) :
    Follows new c (c.configureSession o h identity held).2.1 := by
  unfold SslSocket.configureSession
  split
  · exact .same rfl rfl rfl
  · split
    · exact .same rfl rfl rfl
    · exact configureVerification identity c

theorem setupSsl (identity : String) (c : SslSocket κ) (store : Option κ) (hnew : store.isSome → new) :
    Follows new c (c.setupSsl o h identity store).2.1 := by
  unfold SslSocket.setupSsl
  cases store with
  | none => exact .same rfl rfl rfl
  | some held =>
    have hfree : Follows new c c.freeSession := freeSession c
    have hnone := freeSession_session c
    dsimp only
    generalize c.freeSession = d at hfree hnone
    have hmade : Follows new c ((d.onSocket fun s => s.ticked.ticked).newSession held) :=
      (hfree.trans (ticks d)).trans (newSession (hnew rfl) held hnone)
    split
    · exact hfree.trans (.same rfl rfl rfl)
    · split
      · exact (hmade.setError _).trans (freeSession _)
      · exact (hmade.trans (attach _)).trans (configureSession identity held _)

theorem performHandshake (c : SslSocket κ) : Follows new c (c.performHandshake h).2 := by
  unfold SslSocket.performHandshake
  split
  · exact .same rfl rfl rfl
  · have hshaken (done strict verified : Bool) :
        Follows new c ((c.onSocket fun s => s.ticked.ticked).shaken done strict verified) :=
      (ticks c).trans (shaken done strict verified _)
    dsimp only
    split
    · exact (hshaken _ _ _).setError _
    · split
      · exact (hshaken _ _ _).setError _
      · exact hshaken _ _ _

theorem performServerHandshake (c : SslSocket κ) (store : Option κ) (hnew : store.isSome → new)
    (hnone : c.session = none) : Follows new c (c.performServerHandshake h store).2 := by
  unfold SslSocket.performServerHandshake
  cases store with
  | none => exact .same rfl rfl rfl
  | some held =>
    dsimp only
    split
    · exact .same rfl rfl rfl
    · split
      · exact .same rfl rfl rfl
      · have hmade : Follows new c ((c.onSocket fun s => s.ticked.ticked).newSession held) :=
          (ticks c).trans (newSession (hnew rfl) held hnone)
        split
        · exact hmade.setError _
        · have hshaken := ((hmade.trans (attach _)).trans (onSocket (f := Socket.ticked) (fun _ => rfl) _)).trans
            (shaken (decide (h.sslAccept (c.tick + 2) = 1)) false false _)
          split
          · exact hshaken.setError _
          · exact hshaken.setError _

theorem dropPrevious (family : Family) (c : SslSocket κ) : Follows new c (c.dropPrevious h family) := by
  unfold SslSocket.dropPrevious
  dsimp only
  have hfirst : Follows new c (if c.session.isSome || c.connected then (c.close h).2 else c) ∧
      (if c.session.isSome || c.connected then (c.close h).2 else c).session = none := by
    split
    · exact ⟨close c, freeSession_session _⟩
    · rename_i hidle
      refine ⟨.refl c, ?_⟩
      rw [Bool.or_eq_true, not_or, Option.not_isSome_iff_eq_none] at hidle
      exact hidle.1
  generalize (if c.session.isSome || c.connected then (c.close h).2 else c) = d at hfirst
  split
  · exact hfirst.1.trans (closeBase hfirst.2)
  · exact hfirst.1

theorem openTransport (family : Family) (c : SslSocket κ) :
    Follows new c (c.openTransport h family).2 := by
  have hdrop : Follows new c (c.dropPrevious h family) := dropPrevious family c
  unfold SslSocket.openTransport
  dsimp only
  generalize c.dropPrevious h family = d at hdrop
  split
  · exact hdrop
  · split
    · exact hdrop.trans (.same rfl rfl rfl)
    · exact hdrop.trans ⟨.idle _ rfl rfl rfl, rfl, rfl⟩

theorem abandon (store : Option κ) (c : SslSocket κ) : Follows new c (c.abandon h store).client :=
  (close c).setError _

theorem connectTo (target : Sockaddr) (identity : String) (c : SslSocket κ) (store : Option κ)
    (hnew : store.isSome → new) : Follows new c (c.connectTo o h target identity store).client := by
  have hopen : Follows new c (c.openTransport h target.family).2 := openTransport target.family c
  unfold SslSocket.connectTo
  dsimp only
  generalize c.openTransport h target.family = transport at hopen
  split
  · exact hopen
  · split
    · have hticked := hopen.trans (onSocket (f := Socket.ticked) (fun _ => rfl) transport.2)
      exact (hticked.setError _).trans (close _)
    · have hlinked (u : SslSocket κ) (hlog : u.trail = transport.2.trail) (hctx : u.ctx = transport.2.ctx)
          (howns : u.ownsCtx = transport.2.ownsCtx) :
          Follows new c (u.setupSsl o h identity store).2.1 :=
        (hopen.trans (.same hlog hctx howns)).trans (setupSsl identity u store hnew)
      have hsetup := hlinked { (transport.2.onSocket Socket.ticked).onSocket (fun s => { s with
        connected := true, port := target.getPort.toNat, hostname := identity }) with
        linked := some target } rfl rfl rfl
      generalize SslSocket.setupSsl o h identity _ store = setup at hsetup
      split
      · exact hsetup.trans (abandon _ _)
      · have hshaken := hsetup.trans (performHandshake (h := h) _)
        split
        · exact hshaken.trans (abandon _ _)
        · exact hshaken.setError _

theorem connectHost (hostname : Option String) (port : Int) (c : SslSocket κ) (store : Option κ)
    (hnew : store.isSome → new) : Follows new c (c.connectHost o h hostname port store).client := by
  unfold SslSocket.connectHost
  dsimp only
  split
  · exact .same rfl rfl rfl
  · split
    · exact .same rfl rfl rfl
    · have hasked : Follows new c (({ c with
          requestedHost := hostname.getD "", portNum := port } : SslSocket κ).onSocket Socket.ticked) :=
        .same rfl rfl rfl
      exact hasked.trans (connectTo _ _ _ store hnew)

theorem readLineLoop (room : ℕ) (line : List UInt8) {c : SslSocket κ} {s : SslSession κ}
    (hs : c.session = some s) : Follows new c (c.readLineLoop h s.id room line).2 := by
  induction room generalizing line c with
  | zero => exact .refl c
  | succ room ih =>
    unfold SslSocket.readLineLoop
    dsimp only
    have hread : Follows new c
        ((c.onSocket Socket.ticked).record (.sslRead s.id (h.sslRead c.tick 1) false)) :=
      .use hs _ rfl rfl (congr_arg _ hs) rfl rfl rfl
    split
    · exact hread.setError _
    · split
      · exact hread
      · exact hread.trans (ih _ hs)

theorem write (data : List UInt8) (c : SslSocket κ) : Follows new c (c.write h data).2 := by
  unfold SslSocket.write
  cases hs : c.session with
  | none => exact .same rfl rfl rfl
  | some s =>
    dsimp only
    split
    · exact .same rfl rfl rfl
    · have hwrite : Follows new c ((c.onSocket Socket.ticked).record
          (.sslWrite s.id .direct data (h.sslWrite c.tick data.length) false 0)) :=
        .use hs _ rfl rfl (congr_arg _ hs) rfl rfl rfl
      split
      · split
        · exact hwrite.setError _
        · exact hwrite
      · exact hwrite

theorem read (buffer : Bool) (size : Int) (c : SslSocket κ) : Follows new c (c.read h buffer size).2 := by
  unfold SslSocket.read
  split
  · exact .same rfl rfl rfl
  · cases hs : c.session with
    | none => exact .same rfl rfl rfl
    | some s =>
      dsimp only
      split
      · exact .same rfl rfl rfl
      · have hread : Follows new c ((c.onSocket Socket.ticked).record
            (.sslRead s.id (h.sslRead c.tick size.toNat) false)) :=
          .use hs _ rfl rfl (congr_arg _ hs) rfl rfl rfl
        split
        · split
          · exact hread.setError _
          · exact hread
        · exact hread

theorem readLine (buffer : Bool) (size : Int) (c : SslSocket κ) :
    Follows new c (c.readLine h buffer size).2 := by
  unfold SslSocket.readLine
  split
  · exact .same rfl rfl rfl
  · cases hs : c.session with
    | none => exact .same rfl rfl rfl
    | some s =>
      dsimp only
      split
      · exact .same rfl rfl rfl
      · exact readLineLoop _ _ hs

end Follows

end SslSocket

/-- The functions of `ssl_client_socket` alone. -/
def SslCall.connects : SslCall → Bool
  | .connectStored | .connectHost .. | .connectAddress .. => true
  | _ => false

namespace SslSocket

variable {κ : Type} {o : CredentialStore κ} {h : SslHost}

/-- A call follows the `SSL` object.  One that does not connect makes none. -/
theorem exec_follows (store : Option κ) (call : SslCall) (c : SslSocket κ) :
    Follows (store.isSome ∧ call.connects = true) c (c.exec o h store call) := by
  cases call with
  | setCertificateFile path | setPrivateKeyFile path => cases path <;> exact .same rfl rfl rfl
  | setCaFile path =>
    show Follows _ c (c.setCaFile h path).2
    unfold setCaFile
    split
    · exact .same rfl rfl rfl
    · split
      · exact .same rfl rfl rfl
      · dsimp only
        split <;> exact .same rfl rfl rfl
  | setPeerVerification mode | setAllowSelfSigned allow => exact .same rfl rfl rfl
  | set setter => exact .onSocket (fun s => (Socket.aside_run h.toHost setter s).log) c
  | connectStored =>
    show Follows _ c (c.connectStored o h store).client
    unfold connectStored
    split
    · exact .same rfl rfl rfl
    · exact .connectHost _ _ c store fun hstore => ⟨hstore, rfl⟩
  | connectHost hostname port => exact .connectHost _ _ c store fun hstore => ⟨hstore, rfl⟩
  | connectAddress target =>
    show Follows _ c (c.connectAddress o h target store).client
    unfold connectAddress
    split
    · exact .same rfl rfl rfl
    · have hasked : Follows (store.isSome ∧ SslCall.connects (.connectAddress target) = true) c
          ({ c with
            requestedHost := target.getString h.inetNtop
            portNum := target.getPort.toNat } : SslSocket κ) := .same rfl rfl rfl
      exact hasked.trans (.connectTo _ _ _ store fun hstore => ⟨hstore, rfl⟩)
  | write data => exact .write data c
  | read buffer size => exact .read buffer size c
  | readLine buffer size => exact .readLine buffer size c
  | close => exact .close c

end SslSocket

end Aeon
