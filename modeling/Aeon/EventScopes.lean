import Aeon.EventParts

/-!
# Invariants that some objects may break

Of the objects outside `S` an invariant is kept only by what an application may do
to an object at any time, and no token of theirs is given up.  What works on the
objects in `S` keeps it.
-/

namespace Aeon

open Program Reentrant EventWorld EventLoop

/-- An invariant that the functions of the objects in `S` and of the registry keep,
while no object connects or listens. -/
structure Scoped (h : LoopHost) (S : ℕ → Prop) (I : EventWorld → Prop) : Prop where
  object : ∀ w id o o', S id → w.find id = some o → Part (h.objects id) Socket.Aside o o' → I w →
    I (w.store id o')
  ordinary : ∀ w id o o', w.find id = some o → Ordinary (h.objects id) o o' → I w →
    I (w.store id o')
  made : ∀ w o, NewObject (h.objects w.objects.length) o → I w →
    I { w with objects := w.objects ++ [some o] }
  forget : ∀ w id, S id → (∀ r ∈ w.registrations, r.active = true → r.socket ≠ id) → I w →
    I { w with objects := w.objects.set id none }
  added : ∀ w id, I w → I (add id w).2
  removed : ∀ w t, t ∈ w.sockets ++ w.udpSockets →
    (∀ id, w.registrations[t]? = some ⟨id, true⟩ → S id) → I w → I (deactivate t w)

/-- What works on an object works on one in `S`, except for the ordinary calls, and
no other object is deregistered. -/
def EventOp.Within (S : ℕ → Prop) (w : EventWorld) : EventOp → Prop
  | .destroy id | .write id _ | .connectTcp id _ | .connectTls id _ | .listen id _ _
  | .listenUdp id _ | .connectUdp id _ => S id
  | .removeAt index => ∀ t, (w.sockets ++ w.udpSockets)[index]? = some t →
    ∀ id, w.registrations[t]? = some ⟨id, true⟩ → S id
  | .removeSocket _ id => ∀ i, id = some i → S i
  | _ => True

/-- An operation of one class. -/
theorem keeps_only {I : EventWorld → Prop} {c : EventObject → Bool} {id : ℕ}
    {m : Code EventWorld Unit} (hm : Keeps I m) : Keeps I (only c id m) :=
  (Keeps.read _).bind fun _ => .ite (fun _ => hm) fun _ => .halt _

namespace Scoped

variable {α : Type} {h : LoopHost} {S : ℕ → Prop} {I J : EventWorld → Prop}
variable {cb : EventNote → Code EventWorld Unit} {fuel id : ℕ}

theorem and (hI : Scoped h S I) (hJ : Scoped h S J) : Scoped h S fun w => I w ∧ J w where
  object w id o o' hid ho hpart hw :=
    ⟨hI.object w id o o' hid ho hpart hw.1, hJ.object w id o o' hid ho hpart hw.2⟩
  ordinary w id o o' ho hpart hw :=
    ⟨hI.ordinary w id o o' ho hpart hw.1, hJ.ordinary w id o o' ho hpart hw.2⟩
  made w o hnew hw := ⟨hI.made w o hnew hw.1, hJ.made w o hnew hw.2⟩
  forget w id hid hfree hw := ⟨hI.forget w id hid hfree hw.1, hJ.forget w id hid hfree hw.2⟩
  added w id hw := ⟨hI.added w id hw.1, hJ.added w id hw.2⟩
  removed w t ht hreg hw := ⟨hI.removed w t ht hreg hw.1, hJ.removed w t ht hreg hw.2⟩

section Operations

variable (hI : Scoped h S I) (hcb : ∀ n, Keeps I (cb n))

include hI

theorem call (hid : S id) {f : EventObject → α × EventObject}
    (hf : ∀ o, Part (h.objects id) Socket.Aside o (f o).2) : Keeps I (call id f) := by
  intro w hw
  unfold EventWorld.call
  cases ho : w.find id with
  | none => exact hw
  | some o => exact hI.object w id o _ hid ho (hf o) hw

/-- An ordinary call may be about any object. -/
theorem callAny {f : EventObject → α × EventObject}
    (hf : ∀ o, Ordinary (h.objects id) o (f o).2) : Keeps I (EventWorld.call id f) := by
  intro w hw
  unfold EventWorld.call
  cases ho : w.find id with
  | none => exact hw
  | some o => exact hI.ordinary w id o _ ho (hf o) hw

theorem callSame {f : EventObject → α × EventObject} (hf : ∀ o, (f o).2 = o) :
    Keeps I (EventWorld.call id f) := hI.callAny fun o => (hf o).symm ▸ .same o

theorem callSocket {f : Socket → α × Socket} (hf : Socket.Aside fun s => (f s).2) :
    Keeps I (EventWorld.call id (EventObject.onSocket f)) :=
  hI.callAny fun o => .base (fun s => (f s).2) hf o

theorem setError (code : EventObject → Int) :
    Keeps I (EventWorld.call id fun o => ((), o.setError (code o))) :=
  hI.callAny fun o => .base (fun s => s.setError (code o)) (fun _ => ⟨rfl, rfl, rfl, le_rfl⟩) o

theorem spawn {make : NetHost → EventObject} (hmake : ∀ e, NewObject e (make e)) :
    Keeps I (EventLoop.spawn h make) := fun w hw => hI.made w _ (hmake _) hw

theorem adoptTcp (fd : ℕ) (blocking : Bool) : Keeps I (EventLoop.adoptTcp h fd blocking) := by
  intro w hw
  unfold EventLoop.adoptTcp
  rw [Code.bind_run, Code.read_run]
  dsimp only
  cases hs : acceptedTcp fd blocking (h.objects w.objects.length) with
  | none => exact hw
  | some s => exact hI.made w _ (.acceptedTcp hs) hw

theorem adoptTls (fd : ℕ) (retained : Bool) (timeoutMs : Int) :
    Keeps I (EventLoop.adoptTls h fd retained timeoutMs) := by
  intro w hw
  unfold EventLoop.adoptTls
  rw [Code.bind_run, Code.read_run]
  dsimp only
  cases hs : acceptedTls fd retained timeoutMs (h.objects w.objects.length) with
  | none => exact hw
  | some s => exact hI.made w _ (.acceptedTls hs) hw

theorem removeToken (token : Option ℕ) (w : EventWorld)
    (ht : ∀ t, token = some t → t ∈ w.sockets ++ w.udpSockets ∧
      ∀ id, w.registrations[t]? = some ⟨id, true⟩ → S id) (hw : I w) :
    I (removeToken token w).2 := by
  cases token with
  | none => exact hw
  | some t =>
    obtain ⟨hmem, hreg⟩ := ht t rfl
    exact hI.removed w t hmem hreg hw

theorem removeAt (index : ℕ) (w : EventWorld)
    (hfree : EventOp.Within S w (.removeAt index)) (hw : I w) : I (removeAt index w).2 := by
  refine hI.removeToken _ w (fun t ht => ⟨?_, hfree t ht⟩) hw
  exact List.mem_of_getElem? ht

theorem removeSocket (udp : Bool) (id : Option ℕ) (hid : ∀ i, id = some i → S i) :
    Keeps I (removeSocket udp id) := by
  intro w hw
  cases id with
  | none => exact hw
  | some id =>
    refine hI.removeToken _ w (fun t ht => ⟨?_, fun i hi => ?_⟩) hw
    · have hmem := List.mem_of_find?_eq_some ht
      cases udp with
      | true => exact List.mem_append_right _ hmem
      | false => exact List.mem_append_left _ hmem
    · have hfound : w.registrations[t]? = some ⟨id, true⟩ := by
        simpa using List.find?_some (show List.find? _ _ = some t from ht)
      obtain rfl : id = i := by simpa using hfound.symm.trans hi
      exact hid id rfl

theorem closeBase (hid : S id) : Keeps I (closeBase h id) := hI.call hid fun o => .closeBase o

include hcb

omit hI in
theorem fire (id : ℕ) (n : Notice) : Keeps I (EventLoop.fire cb id n) := hcb _

theorem close (id : ℕ) : Keeps I (EventLoop.close h cb id) := by
  refine (hI.callAny fun o => .close o).bind fun closed => ?_
  refine (Keeps.whenever (fire hcb id _)).bind fun _ => ?_
  exact (hI.callAny fun o => .closeOwnedPeers o).bind fun _ => .pure _

theorem destroy (hid : S id) : Keeps I (destroy h cb id) := by
  unfold EventLoop.destroy
  refine (hI.callSame fun _ => rfl).bind fun closes => ?_
  have hrest : Keeps I (do
      let _ ← EventLoop.closeBase h id
      let registered ← Code.read fun w => w.registrations.any fun r => r.active && r.socket == id
      if registered then Code.halt .undefined
      else Code.modify fun w => { w with objects := w.objects.set id none }) := by
    refine (hI.closeBase hid).bind fun _ w hw => ?_
    rw [Code.bind_run, Code.read_run]
    dsimp only
    split
    · exact hw
    · rename_i hreg
      refine hI.forget w id hid (fun r hr hactive hid => ?_) hw
      exact hreg (List.any_eq_true.mpr ⟨r, hr, by simp [hactive, hid]⟩)
  refine .ite (fun _ => ?_) fun _ => hrest
  exact (hI.close hcb id).bind fun _ => hrest

/-- What follows a `tcp_connect` or a `tcp_listen` that has succeeded. -/
theorem finish (hid : S id) (n : Notice) : Keeps I (do
    let set ← EventWorld.call id
      (EventObject.onSocket (Socket.setBlocking (h.objects id).tls.toHost false))
    if !set then
      let _ ← EventLoop.closeBase h id
      return false
    else
      EventLoop.fire cb id n
      return true) := by
  refine (hI.callSocket (Socket.aside_setBlocking _ false)).bind fun set => ?_
  refine .ite (fun _ => ?_) fun _ => ?_
  · exact (hI.closeBase hid).bind fun _ => .pure _
  · exact (fire hcb id n).bind fun _ => .pure _

theorem listenUdp (hid : S id) (port : Int) : Keeps I (listenUdp h cb id port) := by
  refine (hI.call hid fun o => .onUdp _ _ o).bind fun ok => .ite (fun _ => ?_) fun _ => .pure _
  refine (hI.callAny fun o => .closeOwnedPeers o).bind fun _ => ?_
  exact (fire hcb id _).bind fun _ => .pure _

theorem connectUdp (hid : S id) (target : Sockaddr) : Keeps I (connectUdp h cb id target) := by
  refine (hI.call hid fun o => .onUdp _ _ o).bind fun ok => ?_
  exact (Keeps.whenever (fire hcb id _)).bind fun _ => .pure _

theorem writeSized (hid : S id) (data : List UInt8) : Keeps I (writeSized h cb id data) := by
  refine (hI.callSame fun _ => rfl).bind fun valid => .ite (fun _ => ?_) fun _ => ?_
  · exact (hI.setError _).bind fun _ => .pure _
  · refine (hI.call hid fun o => .directWrite data o).bind fun sent => ?_
    refine (Keeps.whenever (fire hcb id _)).bind fun _ => ?_
    refine (hI.call hid fun o => .notifyWrite data _ o).bind fun _ => ?_
    exact (fire hcb id _).bind fun _ => .pure _

theorem writeText (hid : S id) (data : Option (List UInt8)) : Keeps I (writeText h cb id data) := by
  cases data with
  | none => exact .pure _
  | some data =>
    refine (hI.callSame fun _ => rfl).bind fun valid => ?_
    refine .ite (fun _ => .pure _) fun _ => .ite (fun _ => .pure _) fun _ => ?_
    exact .ite (fun _ => .pure _) fun _ => hI.writeSized hcb hid data

theorem writeString (hid : S id) (data : List UInt8) : Keeps I (writeString h cb id data) := by
  refine (hI.callSame fun _ => rfl).bind fun valid => ?_
  exact .ite (fun _ => .pure _) fun _ => hI.writeSized hcb hid data

theorem write (hid : S id) (c : WriteCall) : Keeps I (EventLoop.write h cb id c) := by
  cases c with
  | sized data => exact hI.writeSized hcb hid _
  | text data => exact hI.writeText hcb hid data
  | string data => exact hI.writeString hcb hid data
  | shiftText data => exact hI.writeText hcb hid data
  | shiftString data => exact hI.writeString hcb hid data

section Dialled

variable (hp : This.Preserves (h.objects id).tls.toHost (this h cb id) I I)

include hp

omit hI hcb in
theorem tcpConnect (target : TcpTarget) : Keeps I (EventLoop.tcpConnect h cb id target) := by
  unfold EventLoop.tcpConnect
  cases target with
  | stored => exact hp.tcpConnectStored
  | host hostname port => exact hp.tcpConnectHost hostname port
  | address family => exact hp.tcpConnectAddress family

theorem connectTcp (hid : S id) (target : TcpTarget) : Keeps I (connectTcp h cb id target) := by
  refine (tcpConnect hp target).bind fun ok => ?_
  exact .ite (fun _ => .pure _) fun _ => hI.finish hcb hid .connect

theorem listen (hid : S id) (ip : Option String) (port : Int) :
    Keeps I (EventLoop.listen h cb id ip port) := by
  refine (hp.tcpListen ip port).bind fun ok => ?_
  exact .ite (fun _ => .pure _) fun _ => hI.finish hcb hid .listen

end Dialled

/-- A `connect` of a TLS object, which leaves its socket in `M` until the session
has started. -/
theorem connectTls {M : EventWorld → Prop} (target : TlsTarget)
    (hdial : Triple I (EventLoop.tcpConnect h cb id target.tcp) (fun ok w => if ok then M w else I w)
      fun _ => I)
    (hstart : ∀ identity, Triple M (EventWorld.call id (EventObject.onTls
      (SslEventSocket.startClient (h.objects id).tls identity) (false, false))) (fun _ => I)
      fun _ => I) : Keeps I (connectTls h cb id target) := by
  have hread {β : Type} (f : SslEventSocket → β) (other : β) :
      Keeps I (EventWorld.call id (EventObject.onTls (fun s => (f s, s)) other)) :=
    hI.callSame fun o => by cases o <;> rfl
  unfold EventLoop.connectTls
  refine (hread _ _).bind fun server => ?_
  split
  · exact (hI.setError _).bind fun _ => .pure _
  · rename_i identity _
    refine (hread _ _).bind fun busy => ?_
    have hrest : Keeps I (do
        let _ ← EventWorld.call id
          (EventObject.onSocket (Socket.setBlocking (h.objects id).tls.toHost true))
        let ok ← EventLoop.tcpConnect h cb id target.tcp
        if !ok then return false
        else
          let started ← EventWorld.call id (EventObject.onTls
            (SslEventSocket.startClient (h.objects id).tls identity) (false, false))
          Code.whenever started.2 (EventLoop.fire cb id .close)
          return started.1) := by
      refine (hI.callSocket (Socket.aside_setBlocking _ true)).bind fun _ => ?_
      refine keeps_iff.mpr (hdial.bind fun ok => ?_)
      cases ok with
      | false => exact .ret fun _ hw => hw
      | true =>
        refine Triple.bind (hstart identity) fun started => keeps_iff.mp ?_
        exact (Keeps.whenever (hcb _)).bind fun _ => .pure _
    refine .ite (fun _ => ?_) fun _ => hrest
    exact (hI.close hcb id).bind fun _ => hrest

/-- Every operation within `S` keeps the invariant, when `poll` does and those that
connect or listen do. -/
theorem exec (hpoll : ∀ timeoutMs, Keeps I (poll h cb fuel timeoutMs))
    (htcp : ∀ id target, S id → Keeps I (exec h cb fuel (.connectTcp id target)))
    (htls : ∀ id target, S id → Keeps I (exec h cb fuel (.connectTls id target)))
    (hlisten : ∀ id ip port, S id → Keeps I (exec h cb fuel (.listen id ip port))) (o : EventOp)
    (w : EventWorld) (ho : o.Within S w) : I w → I (exec h cb fuel o w).2 := by
  have hvoid {β : Type} {m : Code EventWorld β} (hm : Keeps I m) :
      Keeps I (do let _ ← m) := hm.bind fun _ => .pure ()
  cases o with
  | createTcp => exact hvoid (hI.spawn fun _ => .tcp) w
  | createListener => exact hvoid (hI.spawn fun _ => .listener) w
  | createTls ctx => exact hvoid (hI.spawn fun _ => .tls ctx) w
  | createUdp server => exact hvoid (hI.spawn fun _ => .udp server) w
  | adoptTcp fd blocking => exact hI.adoptTcp fd blocking w
  | adoptTls fd retained timeoutMs => exact hI.adoptTls fd retained timeoutMs w
  | destroy id => exact hI.destroy hcb ho w
  | add id => exact hvoid (fun w hw => hI.added w id hw) w
  | removeAt index =>
    intro hw
    have hremoved := hI.removeAt index w ho hw
    show I ((EventLoop.removeAt index >>= fun _ => pure ()) w).2
    rw [Code.bind_run]
    revert hremoved
    rcases EventLoop.removeAt index w with ⟨_ | _, w'⟩ <;> exact id
  | removeSocket udp id => exact hvoid (hI.removeSocket udp id ho) w
  | close id => exact hvoid (hI.close hcb id) w
  | call id c => exact hI.callAny (fun o => .exec c o) w
  | write id c => exact keeps_only (hvoid (hI.write hcb ho c)) w
  | connectTcp id target => exact htcp id target ho w
  | connectTls id target => exact htls id target ho w
  | listen id ip port => exact hlisten id ip port ho w
  | listenUdp id port => exact keeps_only (hvoid (hI.listenUdp hcb ho port)) w
  | connectUdp id target => exact keeps_only (hvoid (hI.connectUdp hcb ho target)) w
  | poll timeoutMs => exact hvoid (hpoll timeoutMs) w

section Opening

variable (hopen : ∀ w id o o', S id → w.find id = some o → ObjectStep (h.objects id) o o' → I w →
  I (w.store id o'))

include hopen

omit hI hcb in
theorem callOpening (hid : S id) {f : EventObject → α × EventObject}
    (hf : ∀ o, ObjectStep (h.objects id) o (f o).2) : Keeps I (EventWorld.call id f) := by
  intro w hw
  unfold EventWorld.call
  cases ho : w.find id with
  | none => exact hw
  | some o => exact hopen w id o _ hid ho (hf o) hw

theorem preserves (hid : S id) :
    This.Preserves (h.objects id).tls.toHost (this h cb id) I I where
  weaken _ hw := hw
  run _ hf := callOpening hopen hid fun o => .socket _ hf o
  create family hf := keeps_iff.mp (callOpening hopen hid fun o => .create family _ hf o)
  close := keeps_iff.mp (hI.close hcb id)

/-- The same when the steps that connect or listen keep the invariant too. -/
theorem execOpening (hpoll : ∀ timeoutMs, Keeps I (poll h cb fuel timeoutMs)) (o : EventOp)
    (w : EventWorld) (ho : o.Within S w) : I w → I (EventLoop.exec h cb fuel o w).2 := by
  refine hI.exec hcb hpoll (fun id target hid => ?_) (fun id target hid => ?_)
    (fun id ip port hid => ?_) o w ho
  · have hp := hI.preserves hcb hopen hid
    exact keeps_only ((hI.connectTcp hcb hp hid target).bind fun _ => .pure ())
  · refine keeps_only ((hI.connectTls hcb (M := I) target ?_ fun identity => ?_).bind fun _ => .pure ())
    · refine (keeps_iff.mp (tcpConnect (hI.preserves hcb hopen hid) _)).post fun ok w hw => ?_
      exact (ite_self (c := ok = true) (I w)).symm ▸ hw
    · exact keeps_iff.mp (callOpening hopen hid fun o => .startClient identity o)
  · have hp := hI.preserves hcb hopen hid
    exact keeps_only ((hI.listen hcb hp hid ip port).bind fun _ => .pure ())

end Opening

end Operations

end Scoped

/-- An invariant that the questions of `poll`, its native answers and its history leave alone. -/
structure Inquiring (h : LoopHost) (I : EventWorld → Prop) : Prop where
  asked : ∀ w id o o', w.find id = some o → Question (h.objects id) o o' → I w → I (w.store id o')
  logged : ∀ w tick log, I w → I { w with tick := tick, log := log }

namespace Inquiring

variable {α : Type} {h : LoopHost} {I : EventWorld → Prop} {cb : EventNote → Code EventWorld Unit}
variable {fuel : ℕ} {p : Watch} (hI : Inquiring h I)

include hI

theorem note (e : PollEvent) : Keeps I (note e) := fun w hw => hI.logged w w.tick _ hw

/-- A native answer is used up. -/
theorem ticks {f : EventWorld → α × EventWorld}
    (hf : ∀ w, (f w).2 = { w with tick := w.tick + 1 }) : Keeps I (Code.update f) := fun w hw =>
  (hf w).symm ▸ hI.logged w (w.tick + 1) w.log hw

theorem look {token id : ℕ} {f : EventObject → α × EventObject}
    (hf : ∀ o, Question (h.objects id) o (f o).2) : Keeps I (look token id f) := by
  intro w hw
  unfold EventWorld.look EventWorld.use
  cases ho : w.find id with
  | none => exact hI.logged w w.tick _ hw
  | some o => exact hI.logged (w.store id (f o).2) w.tick _ (hI.asked w id o _ ho (hf o) hw)

/-- A question that changes nothing. -/
theorem inspect {token id : ℕ} {f : EventObject → α} :
    Keeps I (EventWorld.look token id fun o => (f o, o)) := hI.look fun o => .same o

theorem currentAnd {none : α} {f : EventObject → α × EventObject}
    (hf : ∀ o, Question (h.objects p.socket) o (f o).2) : Keeps I (currentAnd p none f) := by
  refine (Keeps.read _).bind fun active => .ite (fun _ => .pure _) fun _ => ?_
  refine hI.inspect.bind fun same => .ite (fun _ => .pure _) fun _ => hI.look hf

theorem ask {none : α} {f : NetHost → EventObject → α × EventObject}
    (hf : ∀ e o, Question e o (f e o).2) : Keeps I (ask h none f p) :=
  .ite (fun _ => .pure _) fun _ => hI.currentAnd fun o => hf _ o

theorem descriptorError (flags : Flags) : Keeps I (descriptorError h flags) :=
  .ite (fun _ => .pure _) fun _ => hI.ticks fun _ => rfl

theorem recvfrom (p : Watch) : Keeps I (recvfrom h p) := (hI.note _).bind fun _ => hI.ticks fun _ => rfl

theorem deadlineDue : Keeps I (deadlineDue h p) := by
  refine (Keeps.read _).bind fun active => .ite (fun _ => .pure _) fun _ => ?_
  exact (hI.look fun o => .pollTimeoutMs o).bind fun _ => .pure _

theorem isDue (flags : Flags) : Keeps I (isDue h p flags) :=
  .ite (fun _ => .pure _) fun _ => hI.deadlineDue

theorem watchAll (udp : Bool) (tokens : List ℕ) : Keeps I (watchAll udp tokens) := by
  induction tokens with
  | nil => exact .pure _
  | cons t ts ih =>
    refine (Keeps.read _).bind fun active => .ite (fun _ => ih) fun _ => ?_
    refine (Keeps.read _).bind fun id => hI.inspect.bind fun seen => ?_
    split
    · exact ih
    · exact ih.bind fun _ => .pure _

theorem askAny {f : NetHost → EventObject → Bool × EventObject}
    (hf : ∀ e o, Question e o (f e o).2) (ps : List Watch) : Keeps I (askAny h f ps) := by
  induction ps with
  | nil => exact .pure _
  | cons p ps ih => exact (hI.ask hf).bind fun _ => ih.bind fun _ => .pure _

theorem effectiveTimeout (ps : List Watch) (timeoutMs : Int) :
    Keeps I (effectiveTimeout h ps timeoutMs) := by
  induction ps generalizing timeoutMs with
  | nil => exact .pure _
  | cons p ps ih => exact (hI.ask fun _ o => .pollTimeoutMs o).bind fun _ => ih _

theorem pollReadable (ps : List Watch) (timeoutMs : Int) (fuel : ℕ) :
    Keeps I (pollReadable h ps timeoutMs fuel) := by
  intro w hw
  obtain ⟨tick, ht⟩ := pollReadable_ticks h ps timeoutMs fuel w
  rw [ht]
  exact hI.logged w tick w.log hw

theorem waitReady (ps : List Watch) (buffered : Bool) (timeoutMs : Int) (fuel : ℕ) :
    Keeps I (waitReady h ps buffered timeoutMs fuel) := by
  induction fuel with
  | zero => exact .halt _
  | succ fuel ih =>
    refine (hI.effectiveTimeout ps timeoutMs).bind fun effective => ?_
    refine (hI.pollReadable ps _ _).bind fun ready => ?_
    refine .ite (fun _ => .pure _) fun _ => ?_
    refine (hI.askAny (fun _ o => .pollTimeoutMs o) ps).bind fun expired => ?_
    exact .ite (fun _ => .pure _) fun _ => ih

theorem markBuffered (watched : List (Watch × Flags)) :
    Triple I (markBuffered h watched) (fun marked w => marked.map (·.1) = watched.map (·.1) ∧ I w)
      fun _ => I := by
  induction watched with
  | nil => exact .ret fun _ hw => ⟨rfl, hw⟩
  | cons p rest ih =>
    refine Triple.bind (keeps_iff.mp (hI.ask fun _ o => .pollHasBufferedInput o)) fun more => ?_
    exact ih.bind fun marked => .ret fun _ hw => ⟨congr_arg (p.1 :: ·) hw.1, hw.2⟩

theorem readiness (ps : List Watch) (buffered : Bool) (reported : List Flags) :
    Triple I (readiness h ps buffered reported) (fun watched w => watched.map (·.1) = ps ∧ I w)
      fun _ => I := by
  have hsame : (ps.zipIdx.map fun p => (p.1, reported.getD p.2 {})).map (·.1) = ps := by
    rw [List.map_map]
    exact List.zipIdx_map_fst 0 ps
  refine .ite (fun _ => ?_) fun _ => .ret fun _ hw => ⟨hsame, hw⟩
  exact (hI.markBuffered _).post fun _ _ hw => ⟨hw.1.trans hsame, hw.2⟩

/-- What `poll` does when it knows what to watch. -/
theorem afterWatch (ps : List Watch) (timeoutMs : Int)
    (hall : ∀ watched, watched.map (·.1) = ps → Keeps I (dispatchAll h cb watched)) : Keeps I (do
      let buffered ← EventLoop.askAny h EventObject.pollHasBufferedInput ps
      let ready ← EventLoop.waitReady h ps buffered timeoutMs fuel
      if ready.1 < 0 then return ready.1
      else
        let watched ← EventLoop.readiness h ps buffered ready.2.1
        if ready.1 = 0 && !buffered && !ready.2.2 then return 0
        else
          let handled ← EventLoop.dispatchAll h cb watched
          return handled : Code EventWorld Int) := by
  refine (hI.askAny (fun _ o => .pollHasBufferedInput o) ps).bind fun buffered => ?_
  refine (hI.waitReady ps buffered timeoutMs fuel).bind fun ready => .ite (fun _ => .pure _) fun _ => ?_
  refine keeps_iff.mpr ((hI.readiness ps buffered _).bind fun watched => .assume fun w hw => ?_)
  refine .ite (fun _ => .ret fun t ht => ht ▸ hw.2) fun _ => ?_
  refine Triple.pre (keeps_iff.mp ?_) fun t ht => ht ▸ hw.2
  exact (hall watched hw.1).bind fun _ => .pure _

end Inquiring

/-- Such an invariant of the objects and of the registry alone. -/
structure Scoped.Objective (h : LoopHost) (S : ℕ → Prop) (I : EventWorld → Prop) : Prop
    extends Scoped h S I, Inquiring h I where
  asked := fun w id o o' ho hquestion => toScoped.ordinary w id o o' ho hquestion.ordinary

namespace Scoped.Objective

variable {α : Type} {h : LoopHost} {S : ℕ → Prop} {I J : EventWorld → Prop}
variable {cb : EventNote → Code EventWorld Unit} {fuel : ℕ} {p : Watch}
variable (hI : Scoped.Objective h S I) (hcb : ∀ n, Keeps I (cb n))

omit hI in
theorem and (hI : Scoped.Objective h S I) (hJ : Scoped.Objective h S J) :
    Scoped.Objective h S fun w => I w ∧ J w :=
  { hI.toScoped.and hJ.toScoped with
    logged := fun w tick log hw => ⟨hI.logged w tick log hw.1, hJ.logged w tick log hw.2⟩ }

section Uses

include hI

theorem use {token id : ℕ} {e : ℕ → PollEvent} {f : EventObject → α × EventObject} (hid : S id)
    (hf : ∀ o, Part (h.objects id) Socket.Aside o (f o).2) : Keeps I (use token id e f) := by
  intro w hw
  unfold EventWorld.use
  cases ho : w.find id with
  | none => exact hI.logged w w.tick _ hw
  | some o => exact hI.logged (w.store id (f o).2) w.tick _ (hI.object w id o _ hid ho (hf o) hw)

theorem useAny {token id : ℕ} {e : ℕ → PollEvent} {f : EventObject → α × EventObject}
    (hf : ∀ o, Ordinary (h.objects id) o (f o).2) : Keeps I (EventWorld.use token id e f) := by
  intro w hw
  unfold EventWorld.use
  cases ho : w.find id with
  | none => exact hI.logged w w.tick _ hw
  | some o => exact hI.logged (w.store id (f o).2) w.tick _ (hI.ordinary w id o _ ho (hf o) hw)

end Uses

section Dispatch

variable (hp : S p.socket)

include hI hcb

theorem callback (pending : Pending) (level : CallbackLevel) (n : Notice) :
    Keeps I (callback cb pending p level n) := by
  refine (hI.note _).bind fun _ => (hcb _).bind fun _ => ?_
  exact Keeps.bind (fun w hw => hI.logged w w.tick _ hw) fun _ => hI.note _

theorem setCallback (pending : Pending) (n : Notice) : Keeps I (setCallback cb pending p n) :=
  (Keeps.read _).bind fun _ => .whenever (hI.callback hcb pending _ n)

theorem bothCallbacks (pending : Pending) (n : Notice) : Keeps I (bothCallbacks cb pending p n) :=
  (hI.callback hcb pending _ n).bind fun _ => hI.setCallback hcb pending n

theorem closeSocket (pending : Pending) : Keeps I (closeSocket h cb pending p) :=
  (hI.useAny fun o => .close o).bind fun _ => .whenever (hI.callback hcb pending _ _)

theorem reportClose (pending : Pending) : Keeps I (reportClose h cb pending p) := by
  refine (hI.note _).bind fun _ => (hI.closeSocket hcb pending).bind fun _ => ?_
  exact hI.setCallback hcb pending _

theorem closeTerminal (pending : Pending) : Keeps I (closeTerminal h cb pending p) :=
  (hI.currentAnd fun o => .same o).bind fun _ => .whenever (hI.closeSocket hcb pending)

include hp

theorem reportError (pending : Pending) (code : Int) :
    Keeps I (reportError cb pending p code) := by
  refine (hI.note _).bind fun _ => (hI.use hp fun o => .fail code o).bind fun _ => ?_
  exact hI.bothCallbacks hcb pending _

theorem setAndReportError (pending : Pending) (code : Int) :
    Keeps I (setAndReportError cb pending p code) := by
  refine (hI.useAny fun o => ?_).bind fun _ => hI.reportError hcb hp pending code
  exact .base (fun s => s.setError code) (fun _ => ⟨rfl, rfl, rfl, le_rfl⟩) o

theorem failStep (ps : List Watch) : Keeps I (failStep h cb ps p) := by
  refine hI.inspect.bind fun code => (hI.reportError hcb hp _ code).bind fun _ => ?_
  refine (Keeps.read _).bind fun active => .ite (fun _ => ?_) fun _ => .pure _
  exact hI.inspect.bind fun _ => .whenever (hI.closeSocket hcb _)

theorem dispatchListener (ps : List Watch) (flags : Flags) :
    Keeps I (dispatchListener h cb ps p flags) := by
  refine .ite (fun _ => (hI.callback hcb _ _ _).bind fun _ => .pure _) fun _ => ?_
  refine .ite (fun _ => ?_) fun _ => .pure _
  refine (hI.descriptorError flags).bind fun code => ?_
  exact (hI.setAndReportError hcb hp _ code).bind fun _ => .pure _

/-- What follows a `poll_receive`. -/
theorem afterReceive (pending : Pending) (received : IoResult × List UInt8) : Keeps I (do
    if received.1.ret > 0 then
      EventWorld.note (.event p.token (.data received.2))
      act p .count fun o => ((), o.withBase { o.base with n := received.1.ret })
      EventLoop.bothCallbacks cb pending p (.data received.2)
      return 1
    else if received.1.ret = 0 then
      EventLoop.reportClose h cb pending p
      return 1
    else if wouldBlockError received.1.errno then return 0
    else
      let code ← look p.token p.socket fun o => (o.reported received.1.errno, o)
      EventLoop.setAndReportError cb pending p code
      EventLoop.closeTerminal h cb pending p
      return 1) := by
  refine .ite (fun _ => ?_) fun _ => ?_
  · refine (hI.note _).bind fun _ => (hI.useAny fun o => ?_).bind fun _ => ?_
    · exact .base (fun s => { s with n := received.1.ret }) (fun _ => ⟨rfl, rfl, rfl, le_rfl⟩) o
    · exact (hI.bothCallbacks hcb pending _).bind fun _ => .pure _
  · refine .ite (fun _ => (hI.reportClose hcb pending).bind fun _ => .pure _) fun _ => ?_
    refine .ite (fun _ => .pure _) fun _ => hI.inspect.bind fun code => ?_
    refine (hI.setAndReportError hcb hp pending code).bind fun _ => ?_
    exact (hI.closeTerminal hcb pending).bind fun _ => .pure _

theorem dispatchRead (pending : Pending) (flags : Flags) :
    Keeps I (dispatchRead h cb pending p flags) := by
  refine hI.inspect.bind fun ready => .ite (fun _ => ?_) fun _ => .ite (fun _ => ?_) fun _ => .pure _
  · exact (hI.use hp fun o => .pollReceive o).bind fun _ => hI.afterReceive hcb hp pending _
  · refine (hI.descriptorError flags).bind fun code => ?_
    exact (hI.setAndReportError hcb hp pending code).bind fun _ => .pure _

/-- What follows a `flush_queued`. -/
theorem afterFlush (ps : List Watch) (flushed : FlushResult) : Keeps I (do
    if flushed.error ≠ 0 then
      EventLoop.setAndReportError cb ((p, false) :: later ps) p flushed.error
      EventLoop.closeTerminal h cb (later ps) p
      return 1
    else if flushed.drained then
      EventWorld.note (.event p.token .drain)
      EventLoop.bothCallbacks cb (later ps) p .drain
      return 1
    else return if flushed.bytes ≠ 0 then 1 else 0) := by
  refine .ite (fun _ => ?_) fun _ => .ite (fun _ => (hI.note _).bind fun _ => ?_) fun _ => .pure _
  · refine (hI.setAndReportError hcb hp _ _).bind fun _ => ?_
    exact (hI.closeTerminal hcb _).bind fun _ => .pure _
  · exact (hI.bothCallbacks hcb _ _).bind fun _ => .pure _

theorem dispatchQueue (ps : List Watch) (flags : Flags) :
    Keeps I (dispatchQueue h cb ps p flags) := by
  refine (hI.currentAnd fun o => .same o).bind fun ready => .ite (fun _ => .pure _) fun _ => ?_
  exact (hI.use hp fun o => .flushQueued o).bind fun _ => hI.afterFlush hcb hp ps _

theorem pollStep (ps : List Watch) (flags : Flags) : Keeps I (pollStep h cb ps p flags) := by
  refine (hI.use hp fun o => .pollStep flags o).bind fun progress => ?_
  exact (Keeps.whenever (hI.callback hcb _ _ _)).bind fun _ => .pure _

/-- What follows a `poll_step`. -/
theorem afterStep (ps : List Watch) (flags : Flags) (progress : Int) : Keeps I (do
    if progress < 0 then
      EventLoop.failStep h cb ps p
      return 1
    else if progress = 0 then return 1
    else if progress = 3 then
      EventLoop.reportClose h cb (later ps) p
      return 1
    else if progress = 2 then
      let here ← current p
      Code.whenever here (EventLoop.callback cb (later ps) p .set .connect)
      return 1
    else
      let read ← EventLoop.dispatchRead h cb ((p, false) :: later ps) p flags
      let flushed ← EventLoop.dispatchQueue h cb ps p flags
      return read + flushed) := by
  refine .ite (fun _ => (hI.failStep hcb hp ps).bind fun _ => .pure _) fun _ => ?_
  refine .ite (fun _ => .pure _) fun _ => ?_
  refine .ite (fun _ => (hI.reportClose hcb _).bind fun _ => .pure _) fun _ => ?_
  refine .ite (fun _ => ?_) fun _ => ?_
  · refine (hI.currentAnd fun o => .same o).bind fun here => ?_
    exact (Keeps.whenever (hI.callback hcb _ _ _)).bind fun _ => .pure _
  · refine (hI.dispatchRead hcb hp _ flags).bind fun read => ?_
    exact (hI.dispatchQueue hcb hp ps flags).bind fun _ => .pure _

theorem dispatchStream (ps : List Watch) (flags : Flags) :
    Keeps I (dispatchStream h cb ps p flags) :=
  (hI.pollStep hcb hp ps flags).bind fun progress => hI.afterStep hcb hp ps flags progress

theorem dispatchTcp (ps : List Watch) (flags : Flags) :
    Keeps I (dispatchTcp h cb ps p flags) := by
  refine (hI.currentAnd fun o => .same o).bind fun here => .ite (fun _ => .pure _) fun _ => ?_
  refine hI.inspect.bind fun listening => ?_
  exact .ite (fun _ => hI.dispatchListener hcb hp ps flags) fun _ => hI.dispatchStream hcb hp ps flags

theorem dispatchUdp (ps : List Watch) (flags : Flags) :
    Keeps I (dispatchUdp h cb ps p flags) := by
  refine (hI.currentAnd fun o => .same o).bind fun here => .ite (fun _ => .pure _) fun _ => ?_
  have herror (code : Int) : Keeps I (do
      EventLoop.setAndReportError cb (later ps) p code
      return 1) := (hI.setAndReportError hcb hp _ code).bind fun _ => .pure _
  refine .ite (fun _ => ?_) fun _ => .ite (fun _ => ?_) fun _ => .pure _
  · refine (hI.recvfrom p).bind fun received => .ite (fun _ => ?_) fun _ => ?_
    · refine (hI.note _).bind fun _ => (hI.use hp fun o => .datagramFrom _ _ o).bind fun _ => ?_
      exact (hI.bothCallbacks hcb _ _).bind fun _ => .pure _
    · exact .ite (fun _ => .pure _) fun _ => herror _
  · exact (hI.descriptorError flags).bind fun code => herror code

theorem dispatch (ps : List Watch) (flags : Flags) : Keeps I (dispatch h cb ps p flags) := by
  refine (hI.isDue flags).bind fun due => .ite (fun _ => .pure _) fun _ => ?_
  exact .ite (fun _ => hI.dispatchUdp hcb hp ps flags) fun _ => hI.dispatchTcp hcb hp ps flags

end Dispatch

section Poll

variable (hS : ∀ i, S i)

include hI hcb hS

theorem dispatchAll (watched : List (Watch × Flags)) : Keeps I (dispatchAll h cb watched) := by
  induction watched with
  | nil => exact .pure _
  | cons p rest ih =>
    exact (hI.dispatch hcb (hS _) _ _).bind fun _ => ih.bind fun _ => .pure _

theorem pollOwned (timeoutMs : Int) : Keeps I (pollOwned h cb fuel timeoutMs) := by
  refine (Keeps.read _).bind fun tokens => (hI.note _).bind fun _ => ?_
  refine (hI.watchAll _ _).bind fun streams => (hI.watchAll _ _).bind fun datagrams => ?_
  exact hI.afterWatch _ timeoutMs fun watched _ => hI.dispatchAll hcb hS watched

/-- An invariant of all objects that does not depend on the lock. -/
theorem poll (hlock : ∀ w polling, I w → I { w with polling := polling }) (timeoutMs : Int) :
    Keeps I (poll h cb fuel timeoutMs) := by
  refine .ite (fun _ => .pure _) fun _ => Keeps.bind (fun w hw => hlock w true hw) fun owns => ?_
  refine .ite (fun _ => .pure _) fun _ w hw => ?_
  have hend : I (EventLoop.pollOwned h cb fuel timeoutMs w).2 := hI.pollOwned hcb hS timeoutMs w hw
  have hlogged := hI.logged _ (EventLoop.pollOwned h cb fuel timeoutMs w).2.tick
    ((EventLoop.pollOwned h cb fuel timeoutMs w).2.log ++ [.finished]) hend
  exact hlock _ false hlogged

end Poll

end Scoped.Objective

end Aeon
