import Aeon.TlsWorld
import Aeon.Library.Ledger
import Mathlib.Data.Multiset.Filter

/-!
# The accounts of the TLS objects

Every object follows its `SSL` objects, and every reference to an `SSL_CTX` is in
a ledger.  Both come out even as long as no destructor of an event object ends
while the object has a session.
-/

namespace Aeon

open History Lifetimes Ledger

variable {κ : Type}

/-- What an event is to the references. -/
def TlsEvent.account : TlsEvent → Ledger.Act ContextRef
  | acquired r => .acquire r
  | released r => .release r
  | upRef r => .use r
  | did _ (some r) (.sslNew _) => .use r
  | did .. => .idle

namespace TlsObject

/-- What the place of an object for an `SSL` object holds.  One that is gone has none. -/
def Holds (k : Slot) : TlsObject κ → Prop
  | client c | peer _ c => k = c.trail.slot
  | event _ _ s => k = s.trail.slot
  | server .. | eventServer .. | gone => k.live = none

/-- An object has no reference but its own. -/
theorem holder_of_ref {o : TlsObject κ} {id : ℕ} {r : ContextRef} (hr : o.ref id = some r) :
    r.holder = id := by
  cases o with
  | client c =>
    have howned : (if c.ownsCtx then c.ctx.map (⟨id, ·⟩) else none) = some r := hr
    split at howned
    · obtain ⟨n, -, rfl⟩ := Option.map_eq_some_iff.mp howned
      rfl
    · cases howned
  | server ctx _ | event ctx _ _ | eventServer ctx _ =>
    obtain ⟨n, -, rfl⟩ := Option.map_eq_some_iff.mp hr
    rfl
  | peer | gone => cases hr

/-- There is no `SSL` object. -/
def Idle (o : TlsObject κ) : Prop := ∀ k, o.Holds k → k.live = none

theorem forgetCtx_ref (o : TlsObject κ) (id : ℕ) : o.forgetCtx.ref id = none := by
  cases o with
  | client c =>
    show (if c.ownsCtx then none else none) = none
    exact ite_self _
  | _ => rfl

theorem Idle.forgetCtx {o : TlsObject κ} (ho : o.Idle) : o.forgetCtx.Idle := by
  cases o with
  | _ => exact ho

/-- An event object knows whether it has a context. -/
def Tells : TlsObject κ → Prop
  | event ctx _ s => s.hasCtx = ctx.isSome
  | _ => True

end TlsObject

namespace TlsWorld

variable {w : TlsWorld κ} {id i : ℕ} {o o' : TlsObject κ} {h : TlsHosts κ}

theorem lt_of_find (ho : w.find id = o) (hne : o ≠ .gone) : id < w.objects.length := by
  by_contra hge
  refine hne ?_
  rw [← ho]
  simp [find, List.getElem?_eq_none (Nat.le_of_not_lt hge)]

@[simp] theorem find_set (es : List TlsEvent) (hid : id < w.objects.length) :
    ({ w with objects := w.objects.set id o, log := es } : TlsWorld κ).find i =
      if i = id then o else w.find i := by
  by_cases hi : i = id
  · subst hi
    simp [find, hid]
  · have hne : id ≠ i := fun h => hi h.symm
    simp [find, hi, List.getElem?_set_ne hne]

theorem history_append (log es : List TlsEvent) :
    history id (log ++ es) = history id log ++ history id es := List.filterMap_append

theorem history_did (es : List Event) (via : Option ContextRef) :
    history id (es.map (.did i via)) = if i = id then es else [] := by
  by_cases hi : i = id
  · subst hi
    simp [history, List.filterMap_map]
  · simp [history, List.filterMap_map, hi]

/-- What an object does is no account of a reference, but for the `SSL` objects it makes. -/
theorem settles_did {held : Multiset ContextRef} {es : List Event} {via : Option ContextRef}
    (hnew : ∀ n, .sslNew n ∈ es → ∀ r, via = some r → r ∈ held) :
    Settles TlsEvent.account held (es.map (.did id via)) held := by
  induction es with
  | nil => exact .nil held
  | cons ev es ih =>
    have hrest := ih fun n hn => hnew n (List.mem_cons_of_mem _ hn)
    by_cases hmakes : ∃ n, ev = .sslNew n
    · obtain ⟨n, rfl⟩ := hmakes
      cases via with
      | none => exact .idle rfl hrest
      | some r => exact .use r rfl (hnew n List.mem_cons_self r rfl) hrest
    · refine .idle ?_ hrest
      cases via with
      | none => rfl
      | some r =>
        cases ev with
        | sslNew n => exact absurd ⟨n, rfl⟩ hmakes
        | _ => rfl

/-- The objects hold what the ledger says that is held, and follow their `SSL` objects. -/
structure Inv (w : TlsWorld κ) : Prop where
  ledger : ∃ held : Multiset ContextRef, Settles TlsEvent.account 0 w.log held ∧ held.Nodup ∧
    ∀ r, r ∈ held ↔ (w.find r.holder).ref r.holder = some r
  trails : ∀ id, ∃ k, Leads Event.lifetime {} (history id w.log) k ∧ (w.find id).Holds k
  tells : ∀ id, (w.find id).Tells
  acquired : ∀ r, .acquired r ∈ w.log → r.holder < w.objects.length ∧ w.supplied ≤ r.ctx
  once : ∀ r, w.log.count (.acquired r) ≤ 1
  did : ∀ id via ev, .did id via ev ∈ w.log → id < w.objects.length
  contexts : w.supplied ≤ w.contexts

/-- One object goes from `w.find id` to `o'`, with the events `es`. -/
theorem Inv.put (hw : Inv w) (hid : id < w.objects.length) {es : List TlsEvent}
    (hledger : ∀ held : Multiset ContextRef, held.Nodup →
      (∀ r, r ∈ held ↔ (w.find r.holder).ref r.holder = some r) →
      ∃ held', Settles TlsEvent.account held es held' ∧ held'.Nodup ∧
        ∀ r, r ∈ held' ↔ (if r.holder = id then o' else w.find r.holder).ref r.holder = some r)
    (htrail : ∀ k, (w.find id).Holds k →
      ∃ k', Leads Event.lifetime k (history id es) k' ∧ o'.Holds k')
    (hother : ∀ i, i ≠ id → history i es = []) (htells : o'.Tells)
    (hacquired : ∀ r, .acquired r ∉ es) (hdid : ∀ i via ev, .did i via ev ∈ es → i = id) :
    Inv { w with objects := w.objects.set id o', log := w.log ++ es } where
  ledger := by
    obtain ⟨held, hsettles, hnodup, hheld⟩ := hw.ledger
    obtain ⟨held', hes, hnodup', hheld'⟩ := hledger held hnodup hheld
    refine ⟨held', hsettles.append hes, hnodup', fun r => ?_⟩
    rw [hheld' r, find_set _ hid]
  trails i := by
    obtain ⟨k, hleads, hk⟩ := hw.trails i
    rw [find_set _ hid, history_append]
    by_cases hi : i = id
    · subst hi
      obtain ⟨k', hes, hk'⟩ := htrail k hk
      rw [if_pos rfl]
      exact ⟨k', hleads.append hes, hk'⟩
    · rw [if_neg hi, hother i hi, List.append_nil]
      exact ⟨k, hleads, hk⟩
  tells i := by
    rw [find_set _ hid]
    split
    · exact htells
    · exact hw.tells i
  acquired r hr := by
    rw [List.length_set]
    exact hw.acquired r ((List.mem_append.mp hr).resolve_right (hacquired r))
  once r := by
    rw [List.count_append, List.count_eq_zero_of_not_mem (hacquired r), Nat.add_zero]
    exact hw.once r
  did i via ev hev := by
    rw [List.length_set]
    rcases List.mem_append.mp hev with hold | hnew
    · exact hw.did i via ev hold
    · exact hdid i via ev hnew ▸ hid
  contexts := hw.contexts

/-- An object does something, and keeps its reference. -/
theorem Inv.store (hw : Inv w) (hid : id < w.objects.length) {es : List Event}
    (hlog : o'.log = (w.find id).log ++ es)
    (htrail : ∀ k, (w.find id).Holds k → ∃ k', Leads Event.lifetime k es k' ∧ o'.Holds k')
    (href : o'.ref id = (w.find id).ref id) (htells : o'.Tells)
    (hnew : ∀ n, .sslNew n ∈ es → o'.via id = o'.ref id) : Inv (w.store id o') := by
  have hes : o'.log.drop (w.find id).log.length = es := by rw [hlog, List.drop_left]
  unfold TlsWorld.store
  rw [hes]
  refine hw.put hid (fun held hnodup hheld => ⟨held, ?_, hnodup, fun r => ?_⟩) (fun k hk => ?_)
    (fun i hi => ?_) htells (fun r hr => ?_) fun i via ev hev => ?_
  · refine settles_did fun n hn r hr => ?_
    rw [hnew n hn, href] at hr
    rw [hheld r, TlsObject.holder_of_ref hr]
    exact hr
  · rw [hheld r]
    split
    · rename_i hr
      rw [hr, href]
    · rfl
  · rw [history_did, if_pos rfl]
    exact htrail k hk
  · rw [history_did, if_neg fun h => hi h.symm]
  · obtain ⟨ev, -, hev⟩ := List.mem_map.mp hr
    cases hev
  · obtain ⟨ev', -, he⟩ := List.mem_map.mp hev
    cases he
    rfl

/-- `SSL_CTX_free`. -/
theorem Inv.release (hw : Inv w) (id : ℕ) : Inv (w.release id) := by
  by_cases hid : id < w.objects.length
  · have href := (w.find id).forgetCtx_ref id
    refine hw.put hid (fun held hnodup hheld => ?_) (fun k hk => ⟨k, ?_, ?_⟩) (fun i _ => ?_) ?_
      (fun r hr => ?_) fun i via ev hev => ?_
    · cases hold : (w.find id).ref id with
      | none =>
        refine ⟨held, .nil held, hnodup, fun r => ?_⟩
        rw [hheld r]
        split
        · rename_i hr
          rw [hr, hold, href]
        · rfl
      | some r =>
        have hholder := TlsObject.holder_of_ref hold
        have hmem : r ∈ held := (hheld r).mpr (hholder ▸ hold)
        refine ⟨held.erase r, ?_, hnodup.erase r, fun r' => ?_⟩
        · have hsettles : Settles TlsEvent.account (r ::ₘ held.erase r) [.released r]
              (held.erase r) := .release_one rfl
          rwa [Multiset.cons_erase hmem] at hsettles
        · rw [Multiset.Nodup.mem_erase_iff hnodup, hheld r']
          by_cases hr' : r'.holder = id
          · rw [if_pos hr', hr', href, hold]
            simp only [Option.some.injEq, reduceCtorEq, iff_false, not_and]
            exact fun hne he => hne he.symm
          · rw [if_neg hr']
            exact and_iff_right fun he => hr' (he ▸ hholder)
    · have hnil : history id (((w.find id).ref id).toList.map .released) = [] := by
        cases (w.find id).ref id <;> rfl
      rw [hnil]
      exact .nil k
    · cases ho : w.find id with
      | _ => rwa [ho] at hk
    · cases (w.find id).ref id <;> rfl
    · cases w.find id with
      | event ctx dying s => rfl
      | _ => trivial
    · obtain ⟨r', -, he⟩ := List.mem_map.mp hr
      cases he
    · obtain ⟨r', -, he⟩ := List.mem_map.mp hev
      cases he
  · have hgone : w.find id = .gone := by
      by_contra hne
      exact hid (lt_of_find rfl hne)
    have hsame : w.release id = w := by
      unfold TlsWorld.release
      rw [hgone, List.set_eq_of_length_le (Nat.le_of_not_lt hid)]
      show { w with log := w.log ++ [] } = w
      rw [List.append_nil]
    rw [hsame]
    exact hw

/-- The memory of an object without a reference and without an `SSL` object goes away. -/
theorem Inv.forget (hw : Inv w) (id : ℕ) (href : (w.find id).ref id = none)
    (hidle : (w.find id).Idle) : Inv (w.forget id) := by
  by_cases hid : id < w.objects.length
  · have hput : Inv { w with objects := w.objects.set id .gone, log := w.log ++ [] } := by
      refine hw.put hid (fun held hnodup hheld => ⟨held, .nil held, hnodup, fun r => ?_⟩)
        (fun k hk => ⟨k, .nil k, hidle k hk⟩) (fun _ _ => rfl) trivial nofun nofun
      rw [hheld r]
      split
      · rename_i hr
        rw [hr, href]
        rfl
      · rfl
    rwa [List.append_nil] at hput
  · have hsame : w.forget id = w := by
      unfold TlsWorld.forget
      rw [List.set_eq_of_length_le (Nat.le_of_not_lt hid)]
    rw [hsame]
    exact hw

@[simp] theorem find_add (o : TlsObject κ) (w : TlsWorld κ) :
    (w.add o).find i = if i = w.objects.length then o else w.find i := by
  show (w.objects ++ [o]).getD i .gone = if i = w.objects.length then o else w.objects.getD i .gone
  by_cases hi : i = w.objects.length
  · subst hi
    simp
  · rw [if_neg hi, List.getD_eq_getElem?_getD, List.getD_eq_getElem?_getD, List.getElem?_append]
    split
    · rfl
    · rename_i hge
      rw [List.getElem?_eq_none (Nat.le_of_not_lt hge),
        List.getElem?_eq_none (by simp only [List.length_singleton]; omega)]

/-- What adding an object does to the log. -/
def beginning (id : ℕ) (o : TlsObject κ) : List TlsEvent :=
  (o.ref id).toList.map .acquired ++ o.log.map (.did id (o.via id))

theorem mem_beginning {ev : TlsEvent} (hev : ev ∈ beginning id o) :
    (∃ r, ev = .acquired r ∧ o.ref id = some r) ∨ ∃ ev', ev = .did id (o.via id) ev' := by
  rcases List.mem_append.mp hev with hev | hev
  · obtain ⟨r, hr, rfl⟩ := List.mem_map.mp hev
    exact .inl ⟨r, rfl, Option.mem_toList.mp hr⟩
  · obtain ⟨ev', -, rfl⟩ := List.mem_map.mp hev
    exact .inr ⟨ev', rfl⟩

theorem history_beginning : history i (beginning id o) = if id = i then o.log else [] := by
  have hnil : history i ((o.ref id).toList.map .acquired) = [] := by
    cases o.ref id <;> rfl
  unfold beginning
  rw [history_append, hnil, List.nil_append, history_did]

theorem find_end (w : TlsWorld κ) : w.find w.objects.length = .gone := by
  by_contra hne
  exact Nat.lt_irrefl _ (lt_of_find rfl hne)

theorem Inv.silent_end (hw : Inv w) : history w.objects.length w.log = [] := by
  refine List.filterMap_eq_nil_iff.mpr fun ev hev => ?_
  cases ev with
  | did object via ev =>
    have hlt := hw.did object via ev hev
    exact if_neg (by omega)
  | _ => rfl

/-- The reference of a new object is a new one. -/
theorem Inv.ledger_add (hw : Inv w)
    (hnew : ∀ n, .sslNew n ∈ o.log → ∀ r, o.via w.objects.length = some r →
      o.ref w.objects.length = some r ∨ (w.find r.holder).ref r.holder = some r) :
    ∃ held : Multiset ContextRef,
      Settles TlsEvent.account 0 (w.log ++ beginning w.objects.length o) held ∧ held.Nodup ∧
      ∀ r, r ∈ held ↔ ((w.add o).find r.holder).ref r.holder = some r := by
  obtain ⟨held, hsettles, hnodup, hheld⟩ := hw.ledger
  unfold beginning
  cases href : o.ref w.objects.length with
  | none =>
    refine ⟨held, hsettles.append (settles_did fun n hn r hr => ?_), hnodup, fun r => ?_⟩
    · refine (hheld r).mpr ((hnew n hn r hr).resolve_left ?_)
      rw [href]
      exact nofun
    · rw [hheld r, find_add]
      split
      · rename_i hr
        rw [hr, find_end, href]
        exact Iff.rfl
      · rfl
  | some r₀ =>
    have hholder := TlsObject.holder_of_ref href
    have hfresh : r₀ ∉ held := by
      rw [hheld r₀, hholder, find_end]
      exact nofun
    refine ⟨r₀ ::ₘ held, hsettles.append (.acquire r₀ rfl (settles_did fun n hn r hr => ?_)),
      Multiset.nodup_cons.mpr ⟨hfresh, hnodup⟩, fun r => ?_⟩
    · rcases hnew n hn r hr with hown | hother
      · obtain rfl := Option.some.inj (href.symm.trans hown)
        exact Multiset.mem_cons_self _ _
      · exact Multiset.mem_cons_of_mem ((hheld r).mpr hother)
    · rw [Multiset.mem_cons, hheld r, find_add]
      by_cases hr : r.holder = w.objects.length
      · rw [if_pos hr, hr, find_end, href, Option.some.injEq]
        exact ⟨fun h => h.elim Eq.symm nofun, fun h => .inl h.symm⟩
      · rw [if_neg hr]
        exact or_iff_right fun he => hr (he ▸ hholder)

theorem Inv.once_add (hw : Inv w) (r : ContextRef) :
    (w.log ++ beginning w.objects.length o).count (.acquired r) ≤ 1 := by
  have hdid : (o.log.map (TlsEvent.did w.objects.length (o.via w.objects.length))).count
      (.acquired r) = 0 := by
    refine List.count_eq_zero_of_not_mem fun hmem => ?_
    obtain ⟨ev, -, he⟩ := List.mem_map.mp hmem
    cases he
  unfold beginning
  rw [List.count_append, List.count_append, hdid, Nat.add_zero]
  cases href : o.ref w.objects.length with
  | none => exact hw.once r
  | some r' =>
    show w.log.count (.acquired r) + [TlsEvent.acquired r'].count (.acquired r) ≤ 1
    by_cases hr : r' = r
    · have hnone : w.log.count (.acquired r) = 0 := by
        refine List.count_eq_zero_of_not_mem fun hmem => ?_
        have hlt := (hw.acquired r hmem).1
        rw [← hr, TlsObject.holder_of_ref href] at hlt
        exact Nat.lt_irrefl _ hlt
      rw [hnone, hr, List.count_singleton_self]
    · have hnone : [TlsEvent.acquired r'].count (.acquired r) = 0 :=
        List.count_eq_zero_of_not_mem (by simpa using fun h => hr h.symm)
      rw [hnone, Nat.add_zero]
      exact hw.once r

/-- A new object: it may have a reference to a context of the library, and makes
`SSL` objects only from a context that is referred to. -/
theorem Inv.add (hw : Inv w) (htells : o.Tells)
    (htrail : ∃ k, Leads Event.lifetime {} o.log k ∧ o.Holds k)
    (hctx : ∀ r, o.ref w.objects.length = some r → w.supplied ≤ r.ctx)
    (hnew : ∀ n, .sslNew n ∈ o.log → ∀ r, o.via w.objects.length = some r →
      o.ref w.objects.length = some r ∨ (w.find r.holder).ref r.holder = some r) :
    Inv (w.add o) where
  ledger := hw.ledger_add hnew
  trails i := by
    show ∃ k, Leads Event.lifetime {} (history i (w.log ++ beginning w.objects.length o)) k ∧ _
    rw [history_append, history_beginning, find_add]
    by_cases hi : i = w.objects.length
    · rw [if_pos hi.symm, if_pos hi, hi, hw.silent_end, List.nil_append]
      exact htrail
    · rw [if_neg fun h => hi h.symm, if_neg hi, List.append_nil]
      exact hw.trails i
  tells i := by
    rw [find_add]
    split
    · exact htells
    · exact hw.tells i
  acquired r hr := by
    show _ < (w.objects ++ [o]).length ∧ _
    rw [List.length_append, List.length_singleton]
    rcases List.mem_append.mp hr with hold | hnew
    · exact ⟨Nat.lt_succ_of_lt (hw.acquired r hold).1, (hw.acquired r hold).2⟩
    · rcases mem_beginning hnew with ⟨r', he, href⟩ | ⟨ev', he⟩
      · cases he
        exact ⟨by rw [TlsObject.holder_of_ref href]; exact Nat.lt_succ_self _, hctx r href⟩
      · cases he
  once := hw.once_add
  did i via ev hev := by
    show _ < (w.objects ++ [o]).length
    rw [List.length_append, List.length_singleton]
    rcases List.mem_append.mp hev with hold | hnew
    · exact Nat.lt_succ_of_lt (hw.did i via ev hold)
    · rcases mem_beginning hnew with ⟨r', he, -⟩ | ⟨ev', he⟩
      · cases he
      · cases he
        exact Nat.lt_succ_self _
  contexts := hw.contexts

/-- A call of `SSL_CTX_up_ref` on the context of a reference that is held. -/
theorem Inv.upRef (hw : Inv w) {r : ContextRef} (hr : (w.find r.holder).ref r.holder = some r) :
    Inv (w.note [.upRef r]) where
  ledger := by
    obtain ⟨held, hsettles, hnodup, hheld⟩ := hw.ledger
    have hused : Settles TlsEvent.account held [.upRef r] held := .use_one rfl ((hheld r).mpr hr)
    exact ⟨held, hsettles.append hused, hnodup, hheld⟩
  trails i := by
    show ∃ k, Leads Event.lifetime {} (history i (w.log ++ [.upRef r])) k ∧ _
    rw [history_append]
    exact (List.append_nil (history i w.log)).symm ▸ hw.trails i
  tells := hw.tells
  acquired r' hr' := hw.acquired r' ((List.mem_append.mp hr').resolve_right (by simp))
  once r' := by
    have hnone : [TlsEvent.upRef r].count (.acquired r') = 0 := rfl
    show (w.log ++ [TlsEvent.upRef r]).count _ ≤ 1
    rw [List.count_append, hnone]
    exact hw.once r'
  did i via ev hev := hw.did i via ev ((List.mem_append.mp hev).resolve_right (by simp))
  contexts := hw.contexts

theorem Inv.newCtx (hw : Inv w) (made : Bool) : Inv (w.newCtx made).2 := by
  cases made with
  | false => exact hw
  | true => exact { hw with contexts := Nat.le_succ_of_le hw.contexts }

/-- A held reference is to a context of the library. -/
theorem Inv.supplied_le (hw : Inv w) {r : ContextRef}
    (hr : (w.find r.holder).ref r.holder = some r) : w.supplied ≤ r.ctx := by
  obtain ⟨held, hsettles, -, hheld⟩ := hw.ledger
  have hcount := hsettles.count_eq r
  have hmem : 0 < held.count r := Multiset.count_pos.mpr ((hheld r).mpr hr)
  rw [Multiset.count_zero, Nat.zero_add] at hcount
  have hpos : 0 < Settles.acquired TlsEvent.account r w.log := by omega
  obtain ⟨ev, hev, hacquires⟩ := List.countP_pos_iff.mp hpos
  cases ev with
  | acquired r' =>
    obtain rfl : r' = r := of_decide_eq_true hacquires
    exact (hw.acquired r' hev).2
  | did i via ev =>
    cases via with
    | none => cases hacquires
    | some r' => cases ev <;> cases hacquires
  | _ => cases hacquires

/-- What happens to the `SSL` objects of an object is what its history says. -/
theorem trail_of_grows {new : Prop} {a b : Trail} (hgrows : Trail.Grows new a b) :
    ∃ es, b.log = a.log ++ es ∧
      (∀ k, k = a.slot → ∃ k', Leads Event.lifetime k es k' ∧ k' = b.slot) ∧
      ∀ n, .sslNew n ∈ es → new := by
  obtain ⟨es, hlog, hleads, hnew⟩ := hgrows
  exact ⟨es, hlog, fun k hk => ⟨b.slot, hk ▸ hleads, rfl⟩, hnew⟩

section Steps

variable {c d : SslSocket κ} {s t : SslEventSocket} {ctx : Option ℕ} {dying dying' : Bool}
  {owner : ℕ}

theorem Inv.client {new : Prop} (hw : Inv w) (hc : w.find id = .client c)
    (hd : SslSocket.Follows new c d) : Inv (w.store id (.client d)) := by
  obtain ⟨es, hlog, htrail, -⟩ := trail_of_grows hd.trail
  have hid := lt_of_find hc nofun
  refine hw.store hid (by rw [hc]; exact hlog) ?_ ?_ trivial fun _ _ => rfl
  · rw [hc]
    exact htrail
  · rw [hc]
    show (if d.ownsCtx then d.ctx.map _ else none) = if c.ownsCtx then c.ctx.map _ else none
    rw [hd.ownsCtx, hd.ctx]

/-- A peer makes no `SSL` object after it has been accepted. -/
theorem Inv.peer (hw : Inv w) (hc : w.find id = .peer owner c) (hd : SslSocket.Follows False c d) :
    Inv (w.store id (.peer owner d)) := by
  obtain ⟨es, hlog, htrail, hnew⟩ := trail_of_grows hd.trail
  have hid := lt_of_find hc nofun
  refine hw.store hid (by rw [hc]; exact hlog) ?_ ?_ trivial fun n hn => (hnew n hn).elim
  · rw [hc]
    exact htrail
  · rw [hc]
    rfl

theorem Inv.event (hw : Inv w) (hs : w.find id = .event ctx dying s)
    (ht : SslEventSocket.Follows s t) : Inv (w.store id (.event ctx dying' t)) := by
  obtain ⟨es, hlog, htrail, -⟩ := trail_of_grows ht.trail
  have hid := lt_of_find hs nofun
  have htells := hw.tells id
  rw [hs] at htells
  refine hw.store hid (by rw [hs]; exact hlog) ?_ ?_ (ht.hasCtx.trans htells) fun _ _ => rfl
  · rw [hs]
    exact htrail
  · rw [hs]
    rfl

/-- The histories of the objects that there are have no end: one that is closed is idle. -/
theorem idle_client (hnone : c.session = none) : (TlsObject.client c).Idle := fun k hk => by
  rw [show k = c.trail.slot from hk]
  exact congr_arg (Option.map SslSession.id) hnone

theorem idle_peer (hnone : c.session = none) : (TlsObject.peer owner c).Idle := fun k hk => by
  rw [show k = c.trail.slot from hk]
  exact congr_arg (Option.map SslSession.id) hnone

theorem idle_event (hnone : s.session = none) : (TlsObject.event (κ := κ) ctx dying s).Idle :=
  fun k hk => by
    rw [show k = s.trail.slot from hk]
    exact hnone

end Steps

@[simp] theorem find_store (hid : id < w.objects.length) :
    (w.store id o).find i = if i = id then o else w.find i := find_set _ hid

@[simp] theorem find_release (hid : id < w.objects.length) :
    (w.release id).find i = if i = id then (w.find id).forgetCtx else w.find i := find_set _ hid

section Others

variable {j : ℕ} (hi : i ≠ j)

include hi

/-- The functions of one object leave the others alone. -/
theorem find_set_ne (es : List TlsEvent) :
    ({ w with objects := w.objects.set j o, log := es } : TlsWorld κ).find i = w.find i := by
  have hne : j ≠ i := fun h => hi h.symm
  simp [find, List.getElem?_set_ne hne]

theorem find_forget_ne : (w.forget j).find i = w.find i := find_set_ne hi w.log

theorem find_close_ne : (w.close h j).find i = w.find i := by
  unfold TlsWorld.close
  split
  · exact find_set_ne hi _
  · exact find_set_ne hi _
  · rfl

theorem find_destroySocket_ne : (w.destroySocket h j).find i = w.find i := by
  unfold TlsWorld.destroySocket
  split
  · exact (find_forget_ne hi).trans (find_set_ne hi _)
  · exact (find_forget_ne hi).trans (find_set_ne hi _)
  · exact (find_forget_ne hi).trans (find_set_ne hi _)
  · exact find_forget_ne hi

theorem find_destroyPeer_ne : (w.destroyPeer h j).find i = w.find i := by
  unfold TlsWorld.destroyPeer
  split
  · exact (find_destroySocket_ne hi).trans ((find_set_ne hi _).trans (find_close_ne hi))
  · rfl

end Others

/-- What is done to the peers leaves the server alone. -/
theorem find_server_close {ctx : Option ℕ} {timeoutMs : Int}
    (hs : w.find id = .server ctx timeoutMs) (peer : ℕ) :
    (w.close h peer).find id = .server ctx timeoutMs := by
  by_cases hpeer : id = peer
  · subst hpeer
    unfold TlsWorld.close
    rw [hs]
    exact hs
  · exact (find_close_ne hpeer).trans hs

theorem find_server_destroyPeer {ctx : Option ℕ} {timeoutMs : Int}
    (hs : w.find id = .server ctx timeoutMs) (peer : ℕ) :
    (w.destroyPeer h peer).find id = .server ctx timeoutMs := by
  by_cases hpeer : id = peer
  · subst hpeer
    unfold TlsWorld.destroyPeer
    rw [hs]
    exact hs
  · exact (find_destroyPeer_ne hpeer).trans hs

theorem find_server_closePeers {ctx : Option ℕ} {timeoutMs : Int}
    (hs : w.find id = .server ctx timeoutMs) (server : ℕ) :
    (w.closePeers h server).find id = .server ctx timeoutMs :=
  List.foldlRecOn (motive := fun v : TlsWorld κ => v.find id = .server ctx timeoutMs) _ _ hs
    fun _ hv peer _ => find_server_close hv peer

namespace Inv

variable {c : SslSocket κ} {s : SslEventSocket}

theorem call (hw : Inv w) (id : ℕ) (held : κ) (call : SslCall) : Inv (w.call h id held call) := by
  unfold TlsWorld.call
  dsimp only
  split
  · rename_i s hs
    exact hw.client hs (SslSocket.exec_follows _ call s)
  · rename_i owner s hs
    split
    · exact hw
    · rename_i hconnects
      obtain ⟨htrail, hctx, howns⟩ := SslSocket.exec_follows (o := h.credentials)
        (h := h.blocking id) (s.ctx.map fun _ => held) call s
      exact hw.peer hs ⟨htrail.mono fun hnew => hconnects hnew.2, hctx, howns⟩
  · exact hw

theorem close (hw : Inv w) (id : ℕ) : Inv (w.close h id) := by
  unfold TlsWorld.close
  split
  · rename_i s hs
    have hclosed : SslSocket.Follows False s (s.close (h.blocking id)).2 := .close s
    exact hw.client hs hclosed
  · rename_i owner s hs
    exact hw.peer hs (.close s)
  · exact hw

theorem destroySocket_follows {h : SslHost} (hnone : c.session = none) :
    SslSocket.Follows False c (c.destroySocket h) ∧ (c.destroySocket h).session = none := by
  unfold SslSocket.destroySocket
  split
  · exact ⟨.closeBase hnone, hnone⟩
  · exact ⟨.refl c, hnone⟩

/-- The destructors of the base classes, once the object has no session and no context. -/
theorem destroySocket (hw : Inv w) (href : (w.find id).ref id = none) (hidle : (w.find id).Idle) :
    Inv (w.destroySocket h id) := by
  unfold TlsWorld.destroySocket
  split
  · rename_i c hc
    have hid := lt_of_find hc nofun
    rw [hc] at href hidle
    have hnone : c.session = none := Option.map_eq_none_iff.mp (hidle _ rfl)
    obtain ⟨hfollows, hkept⟩ := destroySocket_follows (h := h.blocking id) hnone
    refine (hw.client hc hfollows).forget id ?_ ?_
    · rw [find_store hid, if_pos rfl]
      show (if (c.destroySocket _).ownsCtx then (c.destroySocket _).ctx.map _ else none) = none
      rw [hfollows.ownsCtx, hfollows.ctx]
      exact href
    · rw [find_store hid, if_pos rfl]
      exact idle_client hkept
  · rename_i owner c hc
    have hid := lt_of_find hc nofun
    rw [hc] at hidle
    have hnone : c.session = none := Option.map_eq_none_iff.mp (hidle _ rfl)
    obtain ⟨hfollows, hkept⟩ := destroySocket_follows (h := h.blocking id) hnone
    refine (hw.peer hc hfollows).forget id ?_ ?_
    · rw [find_store hid, if_pos rfl]
      rfl
    · rw [find_store hid, if_pos rfl]
      exact idle_peer hkept
  · rename_i ctx dying s hs
    have hid := lt_of_find hs nofun
    rw [hs] at href hidle
    have hnone : s.session = none := hidle _ rfl
    have hfollows : SslEventSocket.Follows s
        { s with toSocket := s.toSocket.destroy (h.events id).tls.toHost } := by
      unfold Socket.destroy
      split
      · exact .closeBase hnone
      · exact .refl s
    refine (hw.event hs hfollows).forget id ?_ ?_
    · rw [find_store hid, if_pos rfl]
      exact href
    · rw [find_store hid, if_pos rfl]
      exact idle_event hnone
  · refine hw.forget id href hidle

/-- A context is given up by an object that is idle, and then the object is gone. -/
theorem disposed (hw : Inv w) (hidle : (w.find id).Idle) :
    Inv ((w.release id).destroySocket h id) := by
  by_cases hid : id < w.objects.length
  · refine (hw.release id).destroySocket ?_ ?_
    · rw [find_release hid, if_pos rfl]
      exact TlsObject.forgetCtx_ref _ id
    · rw [find_release hid, if_pos rfl]
      exact hidle.forgetCtx
  · have hgone : (w.release id).find id = .gone := by
      by_contra hne
      have hlt := lt_of_find rfl hne
      rw [TlsWorld.release, List.length_set] at hlt
      exact hid hlt
    refine (hw.release id).destroySocket ?_ ?_
    · rw [hgone]
      rfl
    · rw [hgone]
      exact fun _ hk => hk

theorem destroyClient (hw : Inv w) (id : ℕ) : Inv (w.destroyClient h id) := by
  unfold TlsWorld.destroyClient
  split
  · rename_i c hc
    have hclosed : (w.close h id).find id = .client (c.close (h.blocking id)).2 := by
      unfold TlsWorld.close
      rw [hc]
      dsimp only
      rw [find_store (lt_of_find hc nofun), if_pos rfl]
    refine (hw.close id).disposed ?_
    rw [hclosed]
    exact idle_client (SslSocket.freeSession_session _)
  · exact hw

theorem destroyPeer (hw : Inv w) (id : ℕ) : Inv (w.destroyPeer h id) := by
  unfold TlsWorld.destroyPeer
  split
  · rename_i owner c hc
    have hclosed : (w.close h id).find id = .peer owner (c.close (h.blocking id)).2 := by
      unfold TlsWorld.close
      rw [hc]
      dsimp only
      rw [find_store (lt_of_find hc nofun), if_pos rfl]
    refine (hw.close id).disposed ?_
    rw [hclosed]
    exact idle_peer (SslSocket.freeSession_session _)
  · exact hw

theorem removePeer (hw : Inv w) (id : ℕ) : Inv (w.removePeer h id) := by
  unfold TlsWorld.removePeer
  split
  · exact (hw.close id).destroyPeer id
  · exact hw

theorem closePeers (hw : Inv w) (server : ℕ) : Inv (w.closePeers h server) :=
  List.foldlRecOn _ _ hw fun _ hv peer _ => hv.close peer

theorem destroyServer (hw : Inv w) (id : ℕ) : Inv (w.destroyServer h id) := by
  unfold TlsWorld.destroyServer
  split
  · rename_i ctx timeoutMs hs
    have hclosed := find_server_closePeers (h := h) hs id
    have hreleased : ((w.closePeers h id).release id).find id = .server none timeoutMs := by
      rw [find_release (lt_of_find hclosed nofun), if_pos rfl, hclosed]
      rfl
    have hagain := find_server_closePeers (h := h) hreleased id
    have hkept := ((hw.closePeers (h := h) id).release id).closePeers (h := h) id
    dsimp only
    generalize ((w.closePeers h id).release id).closePeers h id = w' at hagain hkept
    obtain ⟨hend, hserver⟩ : Inv ((w'.peersOf id).foldl (fun w peer => w.destroyPeer h peer) w') ∧
        ((w'.peersOf id).foldl (fun w peer => w.destroyPeer h peer) w').find id =
          .server none timeoutMs :=
      List.foldlRecOn (motive := fun v : TlsWorld κ => Inv v ∧ v.find id = .server none timeoutMs)
        _ _ ⟨hkept, hagain⟩ fun _ hv peer _ =>
          ⟨hv.1.destroyPeer peer, find_server_destroyPeer hv.2 peer⟩
    refine hend.forget id ?_ ?_
    · rw [hserver]
      rfl
    · rw [hserver]
      exact fun _ hk => hk
  · exact hw

theorem setHandshakeTimeout (hw : Inv w) (id : ℕ) (milliseconds : Int) :
    Inv (w.setHandshakeTimeout id milliseconds) := by
  unfold TlsWorld.setHandshakeTimeout
  split
  · exact hw
  · split
    · rename_i ctx timeoutMs hs
      have hlog : (TlsObject.server ctx milliseconds : TlsObject κ).log =
          (w.find id).log ++ [] := by
        rw [hs]
        rfl
      refine hw.store (lt_of_find hs nofun) hlog ?_ ?_ trivial nofun
      · rw [hs]
        exact fun k hk => ⟨k, .nil k, hk⟩
      · rw [hs]
        rfl
    · rename_i ctx timeoutMs hs
      have hlog : (TlsObject.eventServer ctx milliseconds : TlsObject κ).log =
          (w.find id).log ++ [] := by
        rw [hs]
        rfl
      refine hw.store (lt_of_find hs nofun) hlog ?_ ?_ trivial nofun
      · rw [hs]
        exact fun k hk => ⟨k, .nil k, hk⟩
      · rw [hs]
        rfl
    · exact hw

theorem beginDestroy (hw : Inv w) (id : ℕ) : Inv (w.beginDestroy h id) := by
  unfold TlsWorld.beginDestroy
  split
  · rename_i ctx s hs
    exact hw.event hs (SslEventSocket.Follows.close (e := (h.events id).tls) s).1
  · exact hw

/-- The destructor of an event object ends well if the object has no session then. -/
theorem finishDestroy (hw : Inv w)
    (hend : ∀ ctx s, w.find id = .event ctx true s → s.session = none) :
    Inv (w.finishDestroy h id) := by
  unfold TlsWorld.finishDestroy
  split
  · rename_i ctx s hs
    refine hw.disposed ?_
    rw [hs]
    exact idle_event (hend ctx s hs)
  · exact hw

theorem entry (hw : Inv w) (id : ℕ) {a : SslEventSocket.Entry} (ha : a.Living) :
    Inv (TlsWorld.event h id a w) := by
  unfold TlsWorld.event
  split
  · rename_i ctx dying s hs
    obtain ⟨t, ht, hfollows⟩ := a.follows (e := h.events id) ha s
    rw [ht]
    exact hw.event hs hfollows
  · exact hw

end Inv

end TlsWorld

end Aeon
