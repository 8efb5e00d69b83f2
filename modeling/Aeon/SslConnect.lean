import Aeon.SslSocket
import Aeon.TcpConnect

/-!
# What a connect of a TLS client leaves

A connect that comes to the transport either fails with nothing left open, or
leaves a new session with the target that was asked for.  One that fails before,
because its host name is not resolved, leaves what there was.
-/

namespace Aeon

namespace SslSocket

variable {κ : Type} {o : CredentialStore κ} {h : SslHost} {c d e : SslSocket κ}

/-- A session belongs to a connection, and a connection to a descriptor. -/
structure Sound (c : SslSocket κ) : Prop where
  session : ∀ s, c.session = some s → c.connected = true ∧ s.id < c.made
  connected : c.connected = true → c.sockfd.isSome = true

/-- What a function that works on an open connection leaves as it was. -/
structure Within (c d : SslSocket κ) : Prop where
  sockfd : d.sockfd = c.sockfd
  connected : d.connected = c.connected
  linked : d.linked = c.linked
  mode : d.verifyMode = c.verifyMode

theorem Within.refl (c : SslSocket κ) : Within c c := ⟨rfl, rfl, rfl, rfl⟩

theorem Within.trans (hcd : Within c d) (hde : Within d e) : Within c e :=
  ⟨hde.sockfd.trans hcd.sockfd, hde.connected.trans hcd.connected, hde.linked.trans hcd.linked,
    hde.mode.trans hcd.mode⟩

/-- A socket stays sound where no session is replaced. -/
theorem Sound.within (hc : Sound c) (hcd : Within c d) (hmade : c.made ≤ d.made)
    (hsession : ∀ s, d.session = some s → ∃ s', c.session = some s' ∧ s'.id = s.id) : Sound d := by
  refine ⟨fun s hs => ?_, fun hconnected => ?_⟩
  · obtain ⟨s', hs', hid⟩ := hsession s hs
    obtain ⟨hconnected, hlt⟩ := hc.session s' hs'
    exact ⟨hcd.connected.trans hconnected, hid ▸ hlt.trans_le hmade⟩
  · rw [hcd.sockfd]
    exact hc.connected (hcd.connected.symm.trans hconnected)

theorem Sound.same (hc : Sound c) (hfd : d.sockfd = c.sockfd) (hconnected : d.connected = c.connected)
    (hsession : d.session = c.session) (hmade : d.made = c.made) : Sound d := by
  refine ⟨fun s hs => ?_, fun hyes => ?_⟩
  · rw [hconnected, hmade]
    exact hc.session s (hsession ▸ hs)
  · rw [hfd]
    exact hc.connected (hconnected ▸ hyes)

theorem freeSession_session (c : SslSocket κ) : c.freeSession.session = none := by
  unfold freeSession
  cases hs : c.session with
  | none => exact hs
  | some s => rfl

theorem freeSession_within (c : SslSocket κ) : Within c c.freeSession ∧
    c.freeSession.made = c.made ∧ c.freeSession.errorCode = c.errorCode := by
  unfold freeSession
  cases c.session <;> exact ⟨⟨rfl, rfl, rfl, rfl⟩, rfl, rfl⟩

theorem sendAlert_within (c : SslSocket κ) :
    Within c c.sendAlert ∧ c.sendAlert.made = c.made ∧ c.sendAlert.errorCode = c.errorCode := by
  unfold sendAlert
  cases c.session with
  | none => exact ⟨.refl c, rfl, rfl⟩
  | some _ =>
    dsimp only
    split
    · exact ⟨⟨rfl, rfl, rfl, rfl⟩, rfl, rfl⟩
    · exact ⟨.refl c, rfl, rfl⟩

/-- Nothing is open any more. -/
structure Closed (c d : SslSocket κ) : Prop where
  session : d.session = none
  sockfd : d.sockfd = none
  connected : d.connected = false
  mode : d.verifyMode = c.verifyMode
  made : d.made = c.made
  error : c.errorCode ≠ errNone → d.errorCode ≠ errNone

theorem Closed.sound (hcd : Closed c d) : Sound d where
  session _ hs := nomatch hcd.session.symm.trans hs
  connected hconnected := absurd (hcd.connected.symm.trans hconnected) Bool.false_ne_true

theorem closeBase_closed (hnone : c.session = none) (hc : Sound c) : Closed c (c.closeBase h).2 := by
  have herror (hne : c.errorCode ≠ errNone) : (c.toSocket.close h.toHost).2.errorCode ≠ errNone := by
    unfold Socket.close
    split
    · exact hne
    · dsimp only
      split
      · rename_i hfailed
        exact translateNativeError_ne hfailed
      · exact hne
  have hoff : (c.toSocket.close h.toHost).2.connected = false := by
    unfold Socket.close
    split
    · rename_i hinvalid
      by_contra hconnected
      have hvalid := hc.connected (by simpa using hconnected)
      rw [hinvalid] at hvalid
      cases hvalid
    · dsimp only
      split <;> rfl
  exact ⟨hnone, Socket.close_sockfd .., hoff, rfl, rfl, herror⟩

theorem close_closed (hc : Sound c) : Closed c (c.close h).2 := by
  obtain ⟨halert, hmade, herror⟩ := sendAlert_within c
  obtain ⟨hfree, hmade', herror'⟩ := freeSession_within c.sendAlert
  have hnone := freeSession_session c.sendAlert
  have hsame := hmade'.trans hmade
  have hsound : Sound c.sendAlert.freeSession :=
    hc.within (halert.trans hfree) hsame.ge fun s hs => nomatch hnone.symm.trans hs
  have hclosed := closeBase_closed (h := h) hnone hsound
  exact ⟨hclosed.session, hclosed.sockfd, hclosed.connected,
    hclosed.mode.trans (halert.trans hfree).mode, hclosed.made.trans hsame,
    fun hne => hclosed.error (by rwa [herror', herror])⟩

/-- A connect begins without a session and without a connection. -/
theorem dropPrevious_spec (family : Family) (hc : Sound c) :
    (c.dropPrevious h family).session = none ∧ (c.dropPrevious h family).connected = false ∧
      (c.dropPrevious h family).verifyMode = c.verifyMode ∧
      (c.dropPrevious h family).made = c.made := by
  unfold dropPrevious
  dsimp only
  have hfirst : (if c.session.isSome || c.connected then (c.close h).2 else c).session = none ∧
      (if c.session.isSome || c.connected then (c.close h).2 else c).connected = false ∧
      (if c.session.isSome || c.connected then (c.close h).2 else c).verifyMode = c.verifyMode ∧
      (if c.session.isSome || c.connected then (c.close h).2 else c).made = c.made := by
    split
    · have hclosed := close_closed (h := h) hc
      exact ⟨hclosed.session, hclosed.connected, hclosed.mode, hclosed.made⟩
    · rename_i hidle
      simp only [Bool.or_eq_true, not_or, Bool.not_eq_true, Option.isSome_eq_false_iff,
        Option.isNone_iff_eq_none] at hidle
      exact ⟨hidle.1, hidle.2, rfl, rfl⟩
  generalize (if c.session.isSome || c.connected then (c.close h).2 else c) = d at hfirst
  obtain ⟨hsession, hconnected, hmode, hmade⟩ := hfirst
  split
  · have hclosed := closeBase_closed (h := h) hsession
      ⟨fun s hs => (nomatch hsession.symm.trans hs), fun hyes => by rw [hconnected] at hyes; cases hyes⟩
    exact ⟨hclosed.session, hclosed.connected, hclosed.mode.trans hmode, hclosed.made.trans hmade⟩
  · exact ⟨hsession, hconnected, hmode, hmade⟩

/-- A descriptor without a connection, or nothing and an error. -/
theorem openTransport_spec (family : Family) (hc : Sound c) :
    (c.openTransport h family).2.session = none ∧
      (c.openTransport h family).2.connected = false ∧
      (c.openTransport h family).2.verifyMode = c.verifyMode ∧
      (c.openTransport h family).2.made = c.made ∧
      if (c.openTransport h family).1 then (c.openTransport h family).2.sockfd.isSome = true
      else (c.openTransport h family).2.sockfd = none ∧
        (c.openTransport h family).2.errorCode ≠ errNone := by
  obtain ⟨hsession, hconnected, hmode, hmade⟩ := dropPrevious_spec (h := h) family hc
  unfold openTransport
  dsimp only
  generalize c.dropPrevious h family = d at hsession hconnected hmode hmade
  split
  · rename_i hvalid
    exact ⟨hsession, hconnected, hmode, hmade, hvalid⟩
  · rename_i hinvalid
    split
    · have hnone : d.sockfd = none := by simpa [Socket.isValidSocket] using hinvalid
      have herror : errNoSocket ≠ errNone := by decide
      exact ⟨hsession, hconnected, hmode, hmade, hnone, herror⟩
    · exact ⟨hsession, hconnected, hmode, hmade, rfl⟩

/-- What the functions that work on the live session leave: `Q` of it if they succeed,
and else an error. -/
def Ends (Q : SslSocket κ → Prop) (P : SslSocket κ → Prop) (code : Int) (d : SslSocket κ) : Prop :=
  if code = errNone then Q d else P d ∧ d.errorCode ≠ errNone

section Ends

variable {P Q : SslSocket κ → Prop} {code : Int}

theorem Ends.success (hd : Q d) : Ends Q P errNone d := hd

theorem Ends.failure (hcode : code ≠ errNone) (hd : P (d.setError code)) :
    Ends Q P code (d.setError code) := by
  unfold Ends
  rw [if_neg hcode]
  exact ⟨hd, hcode⟩

theorem Ends.mono {P' Q' : SslSocket κ → Prop} (hd : Ends Q P code d) (hQ : Q d → Q' d)
    (hP : P d → P' d) : Ends Q' P' code d := by
  unfold Ends at *
  split
  · rw [if_pos ‹_›] at hd
    exact hQ hd
  · rw [if_neg ‹_›] at hd
    exact ⟨hP hd.1, hd.2⟩

end Ends

/-- The connection of `c` with the session `s`, which may have been told and have done more. -/
structure Holds (c : SslSocket κ) (s : SslSession κ) (d : SslSocket κ) : Prop where
  within : Within c d
  made : d.made = c.made
  session : ∃ t, d.session = some t ∧ t.id = s.id ∧ t.fd = s.fd

theorem Holds.setError {s : SslSession κ} (hd : Holds c s d) (code : Int) :
    Holds c s (d.setError code) :=
  ⟨⟨hd.within.sockfd, hd.within.connected, hd.within.linked, hd.within.mode⟩, hd.made, hd.session⟩

/-- The session verifies the identity, if it is to verify. -/
def Verifies (mode : SslVerifyMode) (identity : String) (d : SslSocket κ) : Prop :=
  mode = .strict → ∀ s, d.session = some s → s.identity = some identity

theorem configureVerification_spec (identity : String) {s : SslSession κ} (hs : c.session = some s) :
    Ends (fun d => Holds c s d ∧ Verifies c.verifyMode identity d) (Holds c s)
      (c.configureVerification h identity).1 (c.configureVerification h identity).2 := by
  have hcert : sslErrorCert ≠ errNone := by decide
  have hinit : sslErrorInit ≠ errNone := by decide
  have hverify (d : SslSocket κ) (hd : Within c d) (hmade : d.made = c.made)
      (hsession : d.session = c.session.map (.verifyAgainst identity)) :
      Holds c s d ∧ Verifies c.verifyMode identity d := by
    rw [hs] at hsession
    refine ⟨⟨hd, hmade, _, hsession, rfl, rfl⟩, fun _ t ht => ?_⟩
    obtain rfl := Option.some.inj (hsession.symm.trans ht)
    rfl
  unfold configureVerification
  dsimp only
  split
  · split
    · exact .failure hcert ⟨⟨rfl, rfl, rfl, rfl⟩, rfl, s, hs, rfl, rfl⟩
    · cases hset : h.setVerifyIdentity c.tick with
      | false => exact .failure hcert ⟨⟨rfl, rfl, rfl, rfl⟩, rfl, s, hs, rfl, rfl⟩
      | true =>
        simp only [if_true]
        have htold := hverify ((c.verifyAgainst identity).onSocket fun s => s.ticked.ticked)
          ⟨rfl, rfl, rfl, rfl⟩ rfl rfl
        split
        · exact .failure hcert (htold.1.setError _)
        · exact .success htold
  · rename_i hoff
    have hany (d : SslSocket κ) : Verifies c.verifyMode identity d := fun hstrict => absurd hstrict hoff
    split
    · exact .success ⟨⟨.refl c, rfl, s, hs, rfl, rfl⟩, hany c⟩
    · split
      · exact .failure hinit ⟨⟨rfl, rfl, rfl, rfl⟩, rfl, s, hs, rfl, rfl⟩
      · exact .success ⟨⟨⟨rfl, rfl, rfl, rfl⟩, rfl, s, hs, rfl, rfl⟩, hany _⟩

theorem configureSession_spec (identity : String) (held : κ) {s : SslSession κ}
    (hs : c.session = some s) :
    Ends (fun d => Holds c s d ∧ Verifies c.verifyMode identity d) (Holds c s)
      (c.configureSession o h identity held).1 (c.configureSession o h identity held).2.1 := by
  have hcert : sslErrorCert ≠ errNone := by decide
  have hkey : sslErrorKey ≠ errNone := by decide
  unfold configureSession
  split
  · exact .failure hcert ⟨⟨rfl, rfl, rfl, rfl⟩, rfl, s, hs, rfl, rfl⟩
  · split
    · exact .failure hkey ⟨⟨rfl, rfl, rfl, rfl⟩, rfl, s, hs, rfl, rfl⟩
    · exact configureVerification_spec identity hs

/-- The connection of `c`, and every session is numbered. -/
structure Numbered (c d : SslSocket κ) : Prop where
  within : Within c d
  made : c.made ≤ d.made
  session : ∀ s, d.session = some s → s.id < d.made

/-- A new `SSL` object on the descriptor. -/
structure Renewed (c d : SslSocket κ) : Prop extends Numbered c d where
  renewed : ∃ s, d.session = some s ∧ c.made ≤ s.id ∧ s.fd = c.sockfd

theorem Renewed.holds {s : SslSession κ} (hd : Renewed c d) (hs : d.session = some s)
    (he : Holds d s e) : Renewed c e := by
  obtain ⟨t, ht, hid, hfd⟩ := he.session
  obtain ⟨s', hs', hge, hfd'⟩ := hd.renewed
  obtain rfl := Option.some.inj (hs.symm.trans hs')
  refine ⟨⟨hd.within.trans he.within, he.made ▸ hd.made, fun u hu => ?_⟩, t, ht, hid ▸ hge,
    hfd.trans hfd'⟩
  obtain rfl := Option.some.inj (ht.symm.trans hu)
  rw [hid, he.made]
  exact hd.session s hs

/-- A session that is set up is new, and verifies what it is to verify. -/
theorem setupSsl_spec (identity : String) (c : SslSocket κ) (store : Option κ)
    (hsession : ∀ s, c.session = some s → s.id < c.made) :
    Ends (fun d => Renewed c d ∧ Verifies c.verifyMode identity d) (Numbered c)
      (c.setupSsl o h identity store).1 (c.setupSsl o h identity store).2.1 := by
  have hinit : sslErrorInit ≠ errNone := by decide
  obtain ⟨hfree, hmade, -⟩ := freeSession_within c
  have hnone := freeSession_session c
  unfold setupSsl
  split
  · exact .failure hinit ⟨⟨rfl, rfl, rfl, rfl⟩, le_rfl, hsession⟩
  · rename_i held
    dsimp only
    generalize c.freeSession = d at hfree hmade hnone
    have hwithin (u : SslSocket κ) (hu : Within d u) : Within c u := hfree.trans hu
    split
    · exact .failure hinit ⟨hwithin _ ⟨rfl, rfl, rfl, rfl⟩, hmade.ge,
        fun s hs => (nomatch hnone.symm.trans hs)⟩
    · split
      · have hfreed (u : SslSocket κ) (hu : Within d u) (hcount : u.made = d.made + 1)
            (herror : u.errorCode = sslErrorInit) :
            Ends (fun d => Renewed c d ∧ Verifies c.verifyMode identity d) (Numbered c)
              sslErrorInit u.freeSession := by
          obtain ⟨hlast, hlastMade, hlastError⟩ := freeSession_within u
          unfold Ends
          rw [if_neg hinit]
          refine ⟨⟨hwithin _ (hu.trans hlast), ?_, fun s hs => ?_⟩, ?_⟩
          · rw [hlastMade, hcount, hmade]
            exact Nat.le_succ _
          · exact nomatch (freeSession_session u).symm.trans hs
          · rw [hlastError, herror]
            exact hinit
        dsimp only
        refine hfreed _ ?_ ?_ ?_
        · exact ⟨rfl, rfl, rfl, rfl⟩
        · rfl
        · rfl
      · have hnew (u : SslSocket κ) (hu : Within d u) (hcount : u.made = d.made + 1)
            (hs : u.session = some ⟨d.made, held, d.sockfd, none, false, false⟩) :
            Ends (fun d => Renewed c d ∧ Verifies c.verifyMode identity d) (Numbered c)
              (u.configureSession o h identity held).1 (u.configureSession o h identity held).2.1 := by
          have hrenewed : Renewed c u := by
            refine ⟨⟨hwithin u hu, ?_, fun s hs' => ?_⟩, _, hs, hmade.ge, hfree.sockfd⟩
            · rw [hcount, hmade]
              exact Nat.le_succ _
            · obtain rfl := Option.some.inj (hs.symm.trans hs')
              exact hcount ▸ Nat.lt_succ_self d.made
          have hmode := (hwithin u hu).mode
          refine (configureSession_spec identity held hs).mono (fun hd => ?_) fun hd => ?_
          · exact ⟨hrenewed.holds hs hd.1, hmode ▸ hd.2⟩
          · exact (hrenewed.holds hs hd).toNumbered
        exact hnew _ ⟨rfl, rfl, rfl, rfl⟩ rfl rfl

/-- The live session has shaken hands, and in strict mode it has verified the peer. -/
def Shaken (mode : SslVerifyMode) (s : SslSession κ) (d : SslSocket κ) : Prop :=
  ∃ t, d.session = some t ∧ t.identity = s.identity ∧ t.finished = true ∧
    (mode = .strict → t.verified = true)

theorem performHandshake_spec {s : SslSession κ} (hs : c.session = some s) :
    Ends (fun d => Holds c s d ∧ Shaken c.verifyMode s d) (Holds c s)
      (c.performHandshake h).1 (c.performHandshake h).2 := by
  have hcert : sslErrorCert ≠ errNone := by decide
  have hshaken (u : SslSocket κ) (hu : Within c u) (hsame : u.session = c.session)
      (hmade : u.made = c.made) (done strict verified : Bool) :
      Within c (u.shaken done strict verified) ∧ (u.shaken done strict verified).made = c.made ∧
        (u.shaken done strict verified).session =
          some { s with finished := done, verified := verified } := by
    unfold shaken
    rw [hsame.trans hs]
    exact ⟨⟨hu.sockfd, hu.connected, hu.linked, hu.mode⟩, hmade, rfl⟩
  unfold performHandshake
  rw [if_neg (by simp [hs])]
  dsimp only
  obtain ⟨hwithin, hmade, hsession⟩ := hshaken (c.onSocket fun s => s.ticked.ticked)
    ⟨rfl, rfl, rfl, rfl⟩ rfl rfl (h.sslConnect c.tick = 1) (c.verifyMode == .strict)
    (h.verifyOk (c.tick + 1))
  generalize (c.onSocket fun s => s.ticked.ticked).shaken (h.sslConnect c.tick = 1)
    (c.verifyMode == .strict) (h.verifyOk (c.tick + 1)) = u at hwithin hmade hsession
  have hholds (v : SslSocket κ) (hv : Within u v) (hcount : v.made = u.made)
      (hsame : v.session = u.session) : Holds c s v :=
    ⟨hwithin.trans hv, hcount.trans hmade, _, hsame.trans hsession, rfl, rfl⟩
  split
  · have hcode (rejected syscall : Bool) : (if rejected then sslErrorCert
        else if syscall then errNoSocket else sslErrorHandshake) ≠ errNone := by
      cases rejected <;> cases syscall <;> decide
    exact .failure (hcode _ _) (hholds _ ⟨rfl, rfl, rfl, rfl⟩ rfl rfl)
  · rename_i hret
    split
    · exact .failure hcert (hholds _ ⟨rfl, rfl, rfl, rfl⟩ rfl rfl)
    · rename_i hverified
      refine .success ⟨hholds u (.refl u) rfl rfl, _, hsession, rfl, ?_, fun hstrict => ?_⟩
      · exact decide_eq_true (not_not.mp hret)
      · simpa [hstrict] using hverified

/-- A failed connect leaves nothing open, and an error. -/
structure Refused (d : SslSocket κ) : Prop where
  session : d.session = none
  connected : d.connected = false
  sockfd : d.sockfd = none
  error : d.errorCode ≠ errNone

/-- A connect of `c` that succeeds leaves a new session with the target, whose chain
and identity are verified in strict mode. -/
structure Secured (c d : SslSocket κ) (target : Sockaddr) (identity : String) : Prop where
  connected : d.connected = true
  linked : d.linked = some target
  error : d.errorCode = errNone
  session : ∃ s fd, d.session = some s ∧ d.sockfd = some fd ∧ s.fd = some fd ∧
    s.finished = true ∧ (∀ s', c.session = some s' → s'.id < s.id) ∧
      (d.verifyMode = .strict → s.identity = some identity ∧ s.verified = true)

theorem Sound.numbered (hc : Sound c) (hconnected : c.connected = true) (hd : Numbered c d) :
    Sound d := by
  have hyes : d.connected = true := hd.within.connected.trans hconnected
  refine ⟨fun s hs => ⟨hyes, hd.session s hs⟩, fun _ => ?_⟩
  rw [hd.within.sockfd]
  exact hc.connected hconnected

theorem abandon_refused {store : Option κ} (hd : Sound d) (hne : d.errorCode ≠ errNone) :
    (d.abandon h store).ok = false ∧ Refused (d.abandon h store).client := by
  have hclosed := close_closed (h := h) hd
  exact ⟨rfl, hclosed.session, hclosed.connected, hclosed.sockfd, hne⟩

theorem Refused.sound (hd : Refused d) : Sound d where
  session _ hs := nomatch hd.session.symm.trans hs
  connected hconnected := absurd (hd.connected.symm.trans hconnected) Bool.false_ne_true

/-- What a connect that has come to the transport leaves. -/
def Settled (c : SslSocket κ) (target : Sockaddr) (identity : String) (a : Attempt κ) : Prop :=
  Sound a.client ∧ if a.ok then Secured c a.client target identity else Refused a.client

theorem Settled.refused {a : Attempt κ} {target : Sockaddr} {identity : String} (hok : a.ok = false)
    (ha : Refused a.client) : Settled c target identity a := by
  unfold Settled
  rw [hok]
  exact ⟨ha.sound, ha⟩

theorem connectTo_settled (target : Sockaddr) (identity : String) (store : Option κ) (hc : Sound c) :
    Settled c target identity (c.connectTo o h target identity store) := by
  obtain ⟨hnone, hoff, hmode, hmade, hopen⟩ := openTransport_spec (h := h) target.family hc
  unfold connectTo
  dsimp only
  generalize c.openTransport h target.family = transport at hnone hoff hmode hmade hopen
  obtain ⟨made, d⟩ := transport
  cases made with
  | false => exact .refused rfl ⟨hnone, hoff, hopen.1, hopen.2⟩
  | true =>
    have hvalid : d.sockfd.isSome = true := hopen
    simp only [Bool.not_true, Bool.false_eq_true, if_false]
    have hidle (u : SslSocket κ) (hs : u.session = none) (hv : u.sockfd = d.sockfd) : Sound u :=
      ⟨fun s hs' => (nomatch hs.symm.trans hs'), fun _ => hv ▸ hvalid⟩
    split
    · rename_i hfailed
      have hclosed := close_closed (h := h)
        (hidle ((d.onSocket Socket.ticked).setError (translateNativeError (h.connect d.tick))) hnone rfl)
      exact .refused rfl ⟨hclosed.session, hclosed.connected, hclosed.sockfd,
        hclosed.error (translateNativeError_ne hfailed)⟩
    · generalize hu : ({ (d.onSocket Socket.ticked).onSocket (fun s => { s with
        connected := true, port := target.getPort.toNat, hostname := identity }) with
        linked := some target } : SslSocket κ) = u
      have hu_spec : u.session = none ∧ u.connected = true ∧ u.sockfd = d.sockfd ∧
          u.linked = some target ∧ u.verifyMode = c.verifyMode ∧ u.made = c.made := by
        subst hu
        exact ⟨hnone, rfl, rfl, rfl, hmode, hmade⟩
      obtain ⟨hunone, huon, huvalid, hulinked, humode, humade⟩ := hu_spec
      have husound := hidle u hunone huvalid
      have hsetup := setupSsl_spec (o := o) (h := h) identity u store
        fun s hs => nomatch hunone.symm.trans hs
      clear hu
      generalize u.setupSsl o h identity store = setup at hsetup
      unfold Ends at hsetup
      split
      · rw [if_neg ‹_›] at hsetup
        obtain ⟨hno, hrefused⟩ : (setup.2.1.abandon h setup.2.2).ok = false ∧ Refused _ :=
          abandon_refused (husound.numbered huon hsetup.1) hsetup.2
        exact .refused hno hrefused
      · rename_i hset
        rw [if_pos (not_not.mp hset)] at hsetup
        obtain ⟨hrenewed, hverifies⟩ := hsetup
        obtain ⟨s, hs, hge, hfd⟩ := hrenewed.renewed
        have hshake := performHandshake_spec (h := h) hs
        generalize setup.2.1.performHandshake h = shaken at hshake
        unfold Ends at hshake
        have hnumbered {v : SslSocket κ} (hv : Holds setup.2.1 s v) : Sound v :=
          husound.numbered huon (hrenewed.holds hs hv).toNumbered
        split
        · rw [if_neg ‹_›] at hshake
          obtain ⟨hno, hrefused⟩ : (shaken.2.abandon h setup.2.2).ok = false ∧ Refused _ :=
            abandon_refused (hnumbered hshake.1) hshake.2
          exact .refused hno hrefused
        · rename_i hshook
          rw [if_pos (not_not.mp hshook)] at hshake
          obtain ⟨hholds, t, ht, hidentity, hfinished, hverified⟩ := hshake
          obtain ⟨t', ht', hid, htfd⟩ := hholds.session
          obtain rfl := Option.some.inj (ht.symm.trans ht')
          have hwithin := hrenewed.within.trans hholds.within
          obtain ⟨fd, hheld⟩ := Option.isSome_iff_exists.mp hvalid
          have hsockfd : shaken.2.sockfd = some fd := hwithin.sockfd.trans (huvalid.trans hheld)
          refine ⟨(hnumbered hholds).same rfl rfl rfl rfl, ?_⟩
          refine ⟨hwithin.connected.trans huon, hwithin.linked.trans hulinked, rfl, t, fd, ht,
            hsockfd, ?_, hfinished, fun s' hs' => ?_, fun hstrict => ⟨?_, ?_⟩⟩
          · rw [htfd, hfd, huvalid, hheld]
          · rw [hid]
            exact (hc.session s' hs').2.trans_le (humade ▸ hge)
          · exact hidentity.trans (hverifies (hwithin.mode.symm.trans hstrict) s hs)
          · exact hverified (hholds.within.mode.symm.trans hstrict)

theorem Settled.before {a : Attempt κ} {target : Sockaddr} {identity : String}
    (ha : Settled d target identity a) (hsession : d.session = c.session) :
    Settled c target identity a := by
  refine ⟨ha.1, ?_⟩
  have hend := ha.2
  split
  · rw [if_pos ‹_›] at hend
    obtain ⟨s, fd, hs, hfd, hsfd, hfinished, hlt, hstrict⟩ := hend.session
    exact ⟨hend.connected, hend.linked, hend.error, s, fd, hs, hfd, hsfd, hfinished,
      fun s' hs' => hlt s' (hsession.trans hs'), hstrict⟩
  · rw [if_neg ‹_›] at hend
    exact hend

/-- `connect(hostname, port)` and `connect(address)`. -/
inductive Request
  | host (hostname : String) (port : Int)
  | address (target : Sockaddr)

namespace Request

/-- The arguments pass the checks of the function itself. -/
def Passes : Request → Prop
  | host hostname port => hostname ≠ "" ∧ 0 < port ∧ port ≤ 65535
  | address target => target.family ≠ .other ∧ target.getPort ≠ 0

def connect (o : CredentialStore κ) (h : SslHost) (c : SslSocket κ) (store : Option κ) :
    Request → Attempt κ
  | host hostname port => c.connectHost o h (some hostname) port store
  | address target => c.connectAddress o h target store

/-- The address that is asked for, unless its name is not resolved. -/
def target (h : SslHost) (tick : ℕ) : Request → Option Sockaddr
  | host hostname port =>
    ((h.addresses tick hostname).bind Resolver.resolveInternal).map (.setPort (.ofNat port.toNat))
  | address target => some target

def identity (h : SslHost) : Request → String
  | host hostname _ => hostname
  | address target => target.getString h.inetNtop

end Request

/-- A connect whose name is not resolved changes the target of the object alone. -/
theorem connectHost_cases (hostname : Option String) (port : Int) (store : Option κ) (hc : Sound c) :
    ((c.connectHost o h hostname port store).ok = false ∧
      (c.connectHost o h hostname port store).client.session = c.session ∧
      (c.connectHost o h hostname port store).client.connected = c.connected ∧
      (c.connectHost o h hostname port store).client.sockfd = c.sockfd ∧
      (c.connectHost o h hostname port store).client.made = c.made ∧
      (c.connectHost o h hostname port store).client.errorCode ≠ errNone ∧
      (Request.Passes (.host (hostname.getD "") port) →
        (h.addresses c.tick (hostname.getD "")).bind Resolver.resolveInternal = none)) ∨
    ∃ addr, (h.addresses c.tick (hostname.getD "")).bind Resolver.resolveInternal = some addr ∧
      Settled c (addr.setPort (.ofNat port.toNat)) (hostname.getD "")
        (c.connectHost o h hostname port store) := by
  have hssl : sslError ≠ errNone := by decide
  have hhost : errNoHost ≠ errNone := by decide
  unfold connectHost
  dsimp only
  split
  · rename_i hbad
    refine .inl ⟨rfl, rfl, rfl, rfl, rfl, hssl, fun ⟨hname, hlow, hhigh⟩ => ?_⟩
    simp [hname] at hbad
    omega
  · split
    · exact .inl ⟨rfl, rfl, rfl, rfl, rfl, hhost, fun _ => ‹_›⟩
    · rename_i addr haddr
      have hstart : Sound (({ c with
          requestedHost := hostname.getD "", portNum := port } : SslSocket κ).onSocket Socket.ticked) :=
        hc.same rfl rfl rfl rfl
      exact .inr ⟨addr, haddr, (connectTo_settled _ _ store hstart).before rfl⟩

theorem connectHost_sound (hostname : Option String) (port : Int) (store : Option κ)
    (hc : Sound c) : Sound (c.connectHost o h hostname port store).client := by
  rcases connectHost_cases (o := o) (h := h) hostname port store hc with
    ⟨-, hsession, hconnected, hfd, hmade, -, -⟩ | ⟨addr, -, hsettled⟩
  · exact hc.same hfd hconnected hsession hmade
  · exact hsettled.1

theorem connectAddress_settled (target : Sockaddr) (store : Option κ) (hc : Sound c)
    (hchecks : target.family ≠ .other ∧ target.getPort ≠ 0) :
    Settled c target (target.getString h.inetNtop) (c.connectAddress o h target store) := by
  unfold connectAddress
  rw [if_neg (by simp [hchecks])]
  have hstart : Sound ({ c with
      requestedHost := target.getString h.inetNtop
      portNum := target.getPort.toNat } : SslSocket κ) := hc.same rfl rfl rfl rfl
  exact (connectTo_settled target _ store hstart).before rfl

theorem connectAddress_sound (target : Sockaddr) (store : Option κ) (hc : Sound c) :
    Sound (c.connectAddress o h target store).client := by
  by_cases hchecks : target.family ≠ .other ∧ target.getPort ≠ 0
  · exact (connectAddress_settled target store hc hchecks).1
  · unfold connectAddress
    rw [if_pos (by simpa [or_iff_not_imp_left] using hchecks)]
    exact hc.same rfl rfl rfl rfl

theorem write_sound (data : List UInt8) (hc : Sound c) : Sound (c.write h data).2 := by
  unfold write
  split
  · exact hc.same rfl rfl rfl rfl
  · dsimp only
    split
    · exact hc.same rfl rfl rfl rfl
    · split
      · split <;> exact hc.same rfl rfl rfl rfl
      · exact hc.same rfl rfl rfl rfl

theorem read_sound (buffer : Bool) (size : Int) (hc : Sound c) : Sound (c.read h buffer size).2 := by
  unfold read
  split
  · exact hc.same rfl rfl rfl rfl
  · split
    · exact hc.same rfl rfl rfl rfl
    · dsimp only
      split
      · exact hc.same rfl rfl rfl rfl
      · split
        · split <;> exact hc.same rfl rfl rfl rfl
        · exact hc.same rfl rfl rfl rfl

theorem readLine_sound (buffer : Bool) (size : Int) (hc : Sound c) :
    Sound (c.readLine h buffer size).2 := by
  have hloop (id room : ℕ) (line : List UInt8) {c : SslSocket κ} (hc : Sound c) :
      Sound (c.readLineLoop h id room line).2 := by
    induction room generalizing line c with
    | zero => exact hc
    | succ room ih =>
      unfold readLineLoop
      dsimp only
      have hread : Sound ((c.onSocket Socket.ticked).record (.sslRead id (h.sslRead c.tick 1) false)) :=
        hc.same rfl rfl rfl rfl
      split
      · exact hread.same rfl rfl rfl rfl
      · split
        · exact hread
        · exact ih _ hread
  unfold readLine
  split
  · exact hc.same rfl rfl rfl rfl
  · split
    · exact hc.same rfl rfl rfl rfl
    · split
      · exact hc.same rfl rfl rfl rfl
      · exact hloop _ _ _ hc

theorem exec_sound (store : Option κ) (call : SslCall) (hc : Sound c) :
    Sound (c.exec o h store call) := by
  cases call with
  | setCertificateFile path | setPrivateKeyFile path =>
    cases path <;> exact hc.same rfl rfl rfl rfl
  | setCaFile path =>
    show Sound (c.setCaFile h path).2
    unfold setCaFile
    split
    · exact hc.same rfl rfl rfl rfl
    · split
      · exact hc.same rfl rfl rfl rfl
      · dsimp only
        split <;> exact hc.same rfl rfl rfl rfl
  | setPeerVerification mode => exact hc.same rfl rfl rfl rfl
  | setAllowSelfSigned allow => exact hc.same rfl rfl rfl rfl
  | set setter =>
    have haside := Socket.aside_run h.toHost setter c.toSocket
    exact hc.same haside.sockfd haside.connected rfl rfl
  | connectStored =>
    show Sound (c.connectStored o h store).client
    unfold connectStored
    split
    · exact hc.same rfl rfl rfl rfl
    · exact connectHost_sound _ _ store hc
  | connectHost hostname port => exact connectHost_sound hostname port store hc
  | connectAddress target => exact connectAddress_sound target store hc
  | write data => exact write_sound data hc
  | read buffer size => exact read_sound buffer size hc
  | readLine buffer size => exact readLine_sound buffer size hc
  | close => exact (close_closed hc).sound

/-- The states of a client.  Whoever shares its context may change its credentials. -/
inductive Reaches (o : CredentialStore κ) (h : SslHost) : SslSocket κ → Prop
  | construct (tick : ℕ) (ctx : Option ℕ) (owns : Bool) : Reaches o h (construct h tick ctx owns)
  | next {c : SslSocket κ} (store : Option κ) (call : SslCall) (prior : Reaches o h c) :
      Reaches o h (c.exec o h store call)

theorem construct_sound (tick : ℕ) (ctx : Option ℕ) (owns : Bool) :
    Sound (construct h tick ctx owns : SslSocket κ) := by
  have hoff : (construct h tick ctx owns : SslSocket κ).connected = false := by
    have hbase : (Socket.construct h.toHost tick).connected = false := by
      unfold Socket.construct
      split
      · rfl
      · dsimp only
        split <;> rfl
    unfold construct
    dsimp only
    split <;> exact hbase
  exact ⟨nofun, fun hyes => absurd (hoff.symm.trans hyes) Bool.false_ne_true⟩

theorem Reaches.sound (hc : Reaches o h c) : Sound c := by
  induction hc with
  | construct tick ctx owns => exact construct_sound tick ctx owns
  | next store call _ ih => exact exec_sound store call ih

/-- A connect that fails leaves nothing, and one that succeeds leaves a new and verified
session with the target. -/
def Promise (h : SslHost) (c : SslSocket κ) (r : Request) (a : Attempt κ) : Prop :=
  (a.ok = false → Refused a.client) ∧
    (a.ok = true → ∃ target, r.target h c.tick = some target ∧
      Secured c a.client target (r.identity h))

theorem Settled.promise {r : Request} {a : Attempt κ} {target : Sockaddr}
    (hr : r.target h c.tick = some target) (ha : Settled c target (r.identity h) a) :
    Promise h c r a := by
  refine ⟨fun hno => ?_, fun hok => ⟨target, hr, ?_⟩⟩
  · simpa [Settled, hno] using ha.2
  · simpa [Settled, hok] using ha.2

/-- A connect keeps the promise if and only if the name is resolved, or there is no
descriptor that it would leave open. -/
theorem connect_promise_iff {r : Request} (hc : Reaches o h c) (hr : r.Passes) (store : Option κ) :
    Promise h c r (r.connect o h c store) ↔ (r.target h c.tick = none → c.sockfd = none) := by
  have hsound := hc.sound
  cases r with
  | address target =>
    refine iff_of_true ?_ nofun
    exact Settled.promise (r := .address target) rfl (connectAddress_settled target store hsound hr)
  | host hostname port =>
    rcases connectHost_cases (o := o) (h := h) (some hostname) port store hsound with
      ⟨hok, hsession, hconnected, hfd, -, herror, hunresolved⟩ | ⟨addr, haddr, hsettled⟩
    · have htarget : Request.target h c.tick (.host hostname port) = none :=
        congr_arg (Option.map _) (hunresolved hr)
      refine ⟨fun hpromise _ => hfd.symm.trans (hpromise.1 hok).sockfd, fun hnone => ⟨fun _ => ?_, ?_⟩⟩
      · have hclosed := hnone htarget
        have hoff : c.connected = false := by
          by_contra hyes
          have hvalid := hsound.connected (by simpa using hyes)
          rw [hclosed] at hvalid
          cases hvalid
        refine ⟨hsession.trans ?_, hconnected.trans hoff, hfd.trans hclosed, herror⟩
        by_contra hlive
        obtain ⟨s, hs⟩ := Option.ne_none_iff_exists'.mp hlive
        exact absurd (hoff.symm.trans (hsound.session s hs).1) Bool.false_ne_true
      · exact fun hyes => absurd (hok.symm.trans hyes) Bool.false_ne_true
    · have htarget : Request.target h c.tick (.host hostname port) =
          some (addr.setPort (.ofNat port.toNat)) := congr_arg (Option.map _) haddr
      refine iff_of_true (Settled.promise htarget hsettled) fun hnone => ?_
      exact nomatch htarget.symm.trans hnone

/-- Everything succeeds, and one name is known. -/
def oneName : SslHost where
  toTlsHost := .steady
  resolve _ name := if name = "peer" then some .inet else none
  sslConnect _ := 1
  sslErrorSyscall _ := false
  addresses _ name := if name = "peer" then some [.inet 0 #v[192, 0, 2, 1]] else none
  resolves _ name := by split <;> rfl
  sslAccept _ := 1
  inetNtop _ _ := "192.0.2.1"

/-- A new client, on a context of its own. -/
def freshClient : SslSocket (Option String × Option String) := construct oneName 0 (some 0) true

/-- The same with a live session. -/
def liveClient : SslSocket (Option String × Option String) :=
  freshClient.exec SslClients.lastLoaded oneName (some (none, none)) (.connectHost (some "peer") 443)

theorem connect_promise_iff_fresh :
    Promise oneName freshClient (.host "peer" 443)
        (Request.connect SslClients.lastLoaded oneName freshClient (some (none, none)) (.host "peer" 443)) ↔
      (Request.target oneName freshClient.tick (.host "peer" 443) = none → freshClient.sockfd = none) := by
  have hpasses : Request.Passes (.host "peer" 443) := ⟨by decide, by decide, by decide⟩
  exact connect_promise_iff (.construct 0 (some 0) true) hpasses (some (none, none))

/-- A name that is not resolved leaves the live session in place, under the new name. -/
theorem unresolved_keeps_session : ¬∀ (κ : Type) (o : CredentialStore κ) (h : SslHost)
    (c : SslSocket κ) (r : Request) (store : Option κ), Reaches o h c → r.Passes →
      Promise h c r (r.connect o h c store) := by
  intro hall
  have hpromise := hall _ SslClients.lastLoaded oneName liveClient (.host "gone" 443) (some (none, none))
    (.next _ _ (.construct 0 (some 0) true)) ⟨by decide, by decide, by decide⟩
  have hrefused := hpromise.1 (by decide +kernel)
  exact absurd hrefused.connected (by decide +kernel)

end SslSocket

end Aeon
