import MessageCalls.Proofs.Executor.Courses
import MessageCalls.Proofs.World.Existence
/-!
# MessageCalls.Proofs.Executor.Housing

**Slots are pending only of accounts that exist** (`Executor.Course.housed`), as long as code writes
slots only of such. A pending slot does not bring its account into existence before it is applied,
so this is what makes an overlay and the accounts it is applied to agree on which ones exist.
-/

namespace MessageCalls

/-! ### Writes -/

namespace Overlay

/-- Every account of which a slot is pending exists, or is native. -/
def Housed (natives : NativeSet) (o : Overlay) : Prop :=
  ∀ a, o.WritesSlot a → o.present a = true ∨ natives.isNative a = true

variable {natives : NativeSet} {o p : Overlay}

theorem Housed.congr (h : Housed natives o) (hwrites : ∀ a, p.WritesSlot a ↔ o.WritesSlot a)
    (hpresent : ∀ a, o.present a = true → p.present a = true) : Housed natives p :=
  fun a hslot => (h a ((hwrites a).mp hslot)).imp_left (hpresent a)

/-- A write to anything but a slot. -/
theorem Housed.touch (h : Housed natives o) {written : ChangeSet}
    (hstorages : written.storages = o.current.storages)
    (htouches : ∀ b, o.current.touches b = true → written.touches b = true) :
    Housed natives { o with current := written } := by
  refine h.congr (fun a => ?_) fun a hpresent => ?_
  · refine exists_congr fun k => ?_
    rw [find?_eq, find?_eq, hstorages]
  · simp only [present, Bool.or_eq_true] at hpresent ⊢
    exact hpresent.imp_left (Or.imp_left (htouches a))

theorem Housed.setBalance (h : Housed natives o) (a : Address) (v : Amount) :
    Housed natives (o.setBalance a v) := by
  refine h.touch rfl fun b hb => ?_
  simp only [ChangeSet.touches, ChangeSet.contains_insert_address, Bool.or_eq_true] at hb ⊢
  grind

theorem Housed.setNonce (h : Housed natives o) (a : Address) (n : Nonce) :
    Housed natives (o.setNonce a n) := by
  refine h.touch rfl fun b hb => ?_
  simp only [ChangeSet.touches, ChangeSet.contains_insert_address, Bool.or_eq_true] at hb ⊢
  grind

theorem Housed.setCode (h : Housed natives o) (a : Address) (code : Bytes) :
    Housed natives (o.setCode a code) := by
  refine h.touch rfl fun b hb => ?_
  simp only [ChangeSet.touches, ChangeSet.contains_insert_address, Bool.or_eq_true] at hb ⊢
  grind

/-- A slot is written of an account that exists. -/
theorem Housed.setStorage (h : Housed natives o) {a : Address}
    (hexists : o.present a = true ∨ natives.isNative a = true) (k v : Word) :
    Housed natives (o.setStorage a k v) := by
  have hpresent : (o.setStorage a k v).present = o.present :=
    congrArg AccountView.present (view_setStorage o a k v)
  rintro b ⟨l, hslot⟩
  rw [hpresent]
  rw [Overlay.setStorage, find?_insert o (·.storages) rfl] at hslot
  by_cases hb : b = a
  · rw [hb]
    exact hexists
  · rw [if_neg fun hsame => hb (Slot.mk.inj hsame).1] at hslot
    exact h b ⟨l, hslot⟩

theorem Housed.transfer (h : Housed natives o) (t : Transfer) :
    Housed natives (o.transfer t).2 := by
  unfold Overlay.transfer
  split
  · exact h
  · have hdebited := h.setBalance t.source (o.balance t.source - t.value)
    dsimp only
    split
    · exact hdebited
    · exact hdebited.setBalance t.target _

theorem Housed.snapshot (h : Housed natives o) : Housed natives o.snapshot.2 := by
  have hpresent : o.snapshot.2.present = o.present :=
    congrArg AccountView.present (view_snapshot o)
  refine h.congr (fun a => exists_congr fun k => ?_) fun a => by rw [hpresent]; exact id
  rw [find?_snapshot o rfl]

theorem Housed.closeInnermost_commit (h : Housed natives o) :
    Housed natives (o.closeInnermost .commit) := by
  have hpresent : (o.closeInnermost .commit).present = o.present :=
    congrArg AccountView.present (view_closeInnermost_commit o)
  refine h.congr (fun a => exists_congr fun k => ?_) fun a => by rw [hpresent]; exact id
  rw [find?_closeInnermost_commit o (ChangeSet.getElem?_storages_merge · · _)]

/-- Only the stored state and the writes matter. -/
theorem Housed.of_eq (h : Housed natives o) (hstored : p.stored = o.stored)
    (hcurrent : p.current = o.current) (hlayers : p.layers = o.layers) : Housed natives p := by
  refine h.congr (fun a => exists_congr fun k => ?_) fun a hpresent => ?_
  · rw [find?_eq, find?_eq, hcurrent, hlayers]
  · rwa [present, hstored, hcurrent, hlayers]

end Overlay

/-! ### Runs -/

/-- If a slot is written at this moment, its account exists for the code that writes it. -/
def Moment.storesAtPresent (setting : Setting) (m : Moment) : Bool :=
  match m.act with
  | .asked (.setStorage a _ _) (.ok ()) => m.state.present setting a
  | _ => true

namespace Executor

variable {setting : Setting} {frames : List Frame} {s t u v : Executor} {moments : List Moment}

/-- Every account of which a slot is pending exists for code. -/
abbrev Housed (setting : Setting) (s : Executor) : Prop := s.accounts.Housed setting.natives

theorem Housed.closeInnermost (hs : Housed setting s) (hu : Housed setting u)
    (h : Extends s.checkpoint.2 u) (closing : Overlay.Closing) :
    (u.accounts.closeInnermost closing).Housed setting.natives := by
  have hlayers : u.accounts.layers = ⟨s.accounts.nextId, s.accounts.current⟩ :: s.accounts.layers :=
    h.layers
  cases closing with
  | commit => exact Overlay.Housed.closeInnermost_commit hu
  | restore =>
      rw [Overlay.closeInnermost_cons hlayers]
      exact Overlay.Housed.of_eq hs h.stored rfl rfl

theorem Housed.transfer {transfer : Transfer} {result : Except Failure Unit}
    (hs : Housed setting s) (h : s.transfer transfer = (result, t)) : Housed setting t := by
  rw [Housed, accounts_transfer h]
  exact Overlay.Housed.transfer hs transfer

theorem Housed.incNonce {a : Address} (hs : Housed setting s) (h : s.incNonce a = .ok t) :
    Housed setting t := by
  unfold Executor.incNonce at h
  split at h
  · next haccounts =>
      cases h
      obtain ⟨-, rfl⟩ := Overlay.incNonce_eq_ok_iff.mp haccounts
      exact Overlay.Housed.setNonce hs a _
  · cases h

theorem Housed.checkpoint (hs : Housed setting s) : Housed setting s.checkpoint.2 :=
  Overlay.Housed.snapshot hs

theorem Housed.opens (hs : Housed setting s) (h : Opens s t) : Housed setting t := by
  cases h with
  | guarded => exact hs.checkpoint
  | claimed hstatic h => exact hs.checkpoint.incNonce h

theorem Housed.ends {exit : Exit} (ht : Housed setting t) (h : Ends t u exit) :
    Housed setting u := by
  cases h with
  | reported => exact ht
  | unpaid h => exact ht.transfer h
  | collided address =>
      rw [Housed, accounts_latch]
      exact ht

theorem Housed.leave (hreliable : Reliable setting) (hs : Housed setting s) (hu : Housed setting u)
    (h : Extends s.checkpoint.2 u) (exit : Exit) (output : Bytes) (nrgLeft : Nrg) :
    Housed setting (u.leave setting s.checkpoint.1 exit output nrgLeft).2 := by
  rw [Housed, accounts_leave hreliable h]
  exact hs.closeInnermost hu h _

theorem Housed.settleOrLatch (hreliable : Reliable setting) (hs : Housed setting s)
    (hu : Housed setting u) (h : Extends s.checkpoint.2 u) (closing : Overlay.Closing) :
    Housed setting (u.settleOrLatch setting s.checkpoint.1 closing) := by
  rw [Housed, accounts_settleOrLatch hreliable h]
  exact hs.closeInnermost hu h _

/-- A request answered without a frame of its own writes at most a slot, of an account that
exists. -/
theorem Housed.answer (hs : Housed setting s) (room : Option FrameRunner) {r : Request}
    (h : r.isNested = false)
    (hstores : (⟨frames, s, .asked r (Executor.answer setting room r s).1⟩ :
      Moment).storesAtPresent setting = true) :
    Housed setting (Executor.answer setting room r s).2 := by
  cases r with
  | setStorage a key value =>
      by_cases hstatic : s.isStatic = true
      · simp only [Executor.answer, if_pos hstatic]
        exact hs
      · simp only [Executor.answer, if_neg hstatic, Moment.storesAtPresent] at hstores ⊢
        rw [present, Bool.or_eq_true] at hstores
        exact Overlay.Housed.setStorage hs hstores key value
  | log entry =>
      dsimp only [Executor.answer]
      split
      · exact hs
      · exact hs
  | call => cases h
  | create => cases h
  | _ => exact hs

/-- **Slots are pending only of accounts that exist**, if slots are written only of such. -/
theorem Course.housed (hreliable : Reliable setting) (h : Course setting frames s moments t)
    (hs : Housed setting s) (hstores : ∀ m ∈ moments, m.storesAtPresent setting = true) :
    Housed setting t := by
  induction h with
  | andThen first second ih ih' =>
      obtain ⟨hfirst, hlater⟩ := List.forall_mem_append.mp hstores
      exact ih' (ih hs hfirst) hlater
  | answered frames s room h => exact hs.answer room h (hstores _ List.mem_cons_self)
  | transfer h hpaid => exact hs.transfer hpaid
  | nonce h hclaimed => exact hs.incNonce hclaimed
  | entered hfatal hcode hstatic hdepth body ih =>
      exact ih hs (List.forall_mem_cons.mp hstores).2
  | @guarded frames s opening t u moments exit hfatal hopened body ends output nrgLeft ih =>
      obtain ⟨-, hinner⟩ := List.forall_mem_cons.mp hstores
      have hran := ih (hs.opens hopened) (List.forall_mem_append.mp hinner).1
      exact hs.leave hreliable (hran.ends ends) (hopened.extends_ends hreliable body ends) _ _ _
  | @created frames s opening paid t moments _ address exit hfatal hopened hfree hstatic hpaid body
      hmode hnone hsuccess code nrgLeft ih =>
      obtain ⟨-, hinner⟩ := List.forall_mem_cons.mp hstores
      obtain ⟨hbody, -⟩ := List.forall_mem_append.mp hinner
      have hran := ih ((hs.opens hopened).transfer hpaid) (List.forall_mem_append.mp hbody).1
      have hextends := hopened.extends_stored hreliable hstatic hpaid body hmode hnone address code
      exact hs.leave hreliable (Overlay.Housed.setCode hran address code) hextends _ _ _
  | @givenUp frames s entry h =>
      have hnoted : Housed setting (s.checkpoint.2.note entry) := hs.checkpoint
      exact hs.settleOrLatch hreliable hnoted (Unchanged.note _ entry).toExtends _
  | _ => exact hs

end Executor

end MessageCalls
