import MessageCalls.Proofs.Overlay.TwoStacks
import Mathlib.Data.List.Nodup
/-!
# MessageCalls.Proofs.Overlay.Lifetime

For how long a snapshot handle is good. What has happened to an overlay is a list of operations
with their replies, `History`, and whether a snapshot is still open is read off that list alone
(`History.Open`): it is until it is closed itself or an open one taken before it is.

An overlay looks no further than the place a handle names, where a number stands that may be
another snapshot's by now. That this is enough rests on one invariant, `Overlay.Tracks`: **the
handles of the layers are those of the open snapshots, in the order in which they were taken, and
numbers grow with that order**. `Overlay.lifetimes` puts together what follows for any operations.
-/

namespace MessageCalls

/-- The operations that were carried out, each with its reply, the latest first. -/
abbrev History := List (StoreOp × StoreReply)

/-- Operations carried out one after the other, on top of what has happened before. -/
def StoreOp.carryOut {σ : Type} (step : StoreOp → σ → StoreReply × σ) :
    List StoreOp → History × σ → History × σ
  | [], reached => reached
  | op :: ops, (past, s) => carryOut step ops ((op, (step op s).1) :: past, (step op s).2)

theorem StoreOp.carryOut_append {σ : Type} (step : StoreOp → σ → StoreReply × σ)
    (ops more : List StoreOp) (reached : History × σ) :
    carryOut step (ops ++ more) reached = carryOut step more (carryOut step ops reached) := by
  induction ops generalizing reached with
  | nil => rfl
  | cons op ops ih => exact ih _

/-- What has happened stays at the end of what will have happened. -/
theorem StoreOp.past_carryOut {σ : Type} (step : StoreOp → σ → StoreReply × σ) (ops : List StoreOp)
    (past : History) (s : σ) : ∃ later, (carryOut step ops (past, s)).1 = later ++ past := by
  induction ops generalizing past s with
  | nil => exact ⟨[], rfl⟩
  | cons op ops ih =>
      obtain ⟨later, hlater⟩ := ih ((op, (step op s).1) :: past) (step op s).2
      exact ⟨later ++ [(op, (step op s).1)], by rw [carryOut, hlater]; simp⟩

/-! ### Open snapshots -/

namespace History

/-- The handle of the snapshot that an operation took. -/
def taken? : StoreOp × StoreReply → Option Snapshot
  | (_, .taken h) => some h
  | _ => none

/-- The handle by which an operation closed a snapshot. -/
def closed? : StoreOp × StoreReply → Option Snapshot
  | (.close h _, .closed (.ok _)) => some h
  | _ => none

/-- The handles of all snapshots taken, the latest first. -/
def taken (past : History) : List Snapshot := past.filterMap taken?

/-- The handle is that of a snapshot still open: it was taken, and since then neither it nor a
snapshot taken before it and open at the time has been closed. -/
def Open : History → Snapshot → Prop
  | [], _ => False
  | deed :: past, h =>
    taken? deed = some h ∨
      Open past h ∧ ∀ g ∈ closed? deed, ¬ (g = h ∨ [h, g].Sublist (taken past) ∧ Open past g)

instance decidableOpen : (past : History) → DecidablePred past.Open
  | [], _ => .isFalse id
  | deed :: past, h =>
    have := decidableOpen past
    inferInstanceAs (Decidable (taken? deed = some h ∨
      Open past h ∧ ∀ g ∈ closed? deed, ¬ (g = h ∨ [h, g].Sublist (taken past) ∧ Open past g)))

variable {past : History} {g h : Snapshot}

/-- Writes and refused closings leave every snapshot as it is. -/
theorem open_cons_of_idle {deed : StoreOp × StoreReply} (htaken : taken? deed = none)
    (hclosed : closed? deed = none) : Open (deed :: past) h ↔ past.Open h := by
  simp [Open, htaken, hclosed]

@[simp] theorem taken_append (later past : History) :
    taken (later ++ past) = later.taken ++ past.taken :=
  List.filterMap_append

/-- A snapshot open now was open before, or has been taken since. -/
theorem Open.of_append {later : History} (hopen : Open (later ++ past) h) :
    past.Open h ∨ h ∈ later.taken := by
  induction later with
  | nil => exact .inl hopen
  | cons deed later ih =>
      rcases hopen with htaken | ⟨hearlier, -⟩
      · exact .inr (List.mem_filterMap.mpr ⟨deed, List.mem_cons_self, htaken⟩)
      · rcases ih hearlier with hpast | hlater
        · exact .inl hpast
        · obtain ⟨first, hfirst, heq⟩ := List.mem_filterMap.mp hlater
          exact .inr (List.mem_filterMap.mpr ⟨first, List.mem_cons_of_mem _ hfirst, heq⟩)

/-- The numbers grow: a snapshot taken later has the larger one. -/
def Numbered (past : History) : Prop :=
  past.taken.Pairwise fun later earlier => earlier.id < later.id

theorem Numbered.lt_of_sublist (hnum : past.Numbered) (hsub : [h, g].Sublist past.taken) :
    g.id < h.id := by
  have hpair := hnum.sublist hsub
  simpa using hpair

theorem Numbered.nodup (hnum : past.Numbered) : past.taken.Nodup :=
  hnum.imp fun hlt heq => by simp [heq] at hlt

end History

/-! ### The handles of the layers -/

namespace Overlay

/-- The handles that name the layers, innermost first. -/
def handles : List Layer → List Snapshot
  | [] => []
  | l :: rest => ⟨l.id, rest.length + 1⟩ :: handles rest

@[simp] theorem length_handles (layers : List Layer) :
    (handles layers).length = layers.length := by
  induction layers with
  | nil => rfl
  | cons l rest ih => simp [handles, ih]

/-- A handle names a place among the layers. -/
theorem depth_le_of_mem_handles {h : Snapshot} {layers : List Layer} (hmem : h ∈ handles layers) :
    h.depth ≤ layers.length := by
  induction layers with
  | nil => cases hmem
  | cons l rest ih =>
      rcases List.mem_cons.mp hmem with rfl | hrest
      · simp
      · have hle := ih hrest
        simp only [List.length_cons]
        omega

/-- A handle of a layer closes that layer and those above it, and no other handle closes
anything. -/
theorem close_spec (h : Snapshot) (closing : Closing) (o : Overlay) :
    (h ∈ handles o.layers →
      ∃ p above, o.close h closing = .ok p ∧ p.nextId = o.nextId ∧
        handles o.layers = above ++ h :: handles p.layers) ∧
    (h ∉ handles o.layers → o.close h closing = .error .unevenSnapshot) := by
  induction hlayers : o.layers generalizing o with
  | nil => exact ⟨fun hmem => (by cases hmem), fun _ => close_nil hlayers closing⟩
  | cons l rest ih =>
      have hclosed := closeInnermost_cons hlayers closing
      by_cases hdepth : h.depth = rest.length + 1
      · rw [close_innermost hlayers hdepth]
        by_cases hid : h.id = l.id
        · have heq : h = ⟨l.id, rest.length + 1⟩ := by rw [← hid, ← hdepth]
          rw [if_pos hid]
          refine ⟨fun _ => ⟨_, [], rfl, by rw [hclosed], by rw [hclosed, handles, heq]; rfl⟩, ?_⟩
          intro hnot
          exact absurd (List.mem_cons.mpr (.inl heq)) hnot
        · rw [if_neg hid]
          refine ⟨fun hmem => ?_, fun _ => rfl⟩
          rcases List.mem_cons.mp hmem with rfl | hrest
          · exact absurd rfl hid
          · have hle := depth_le_of_mem_handles hrest
            omega
      · rw [close_outer hlayers hdepth]
        obtain ⟨hin, hout⟩ := ih (o.closeInnermost closing) (by rw [hclosed])
        refine ⟨fun hmem => ?_, fun hnot => hout fun hrest => hnot (List.mem_cons_of_mem _ hrest)⟩
        rcases List.mem_cons.mp hmem with rfl | hrest
        · exact absurd rfl hdepth
        · obtain ⟨p, above, hp, hnext, heq⟩ := hin hrest
          refine ⟨p, ⟨l.id, rest.length + 1⟩ :: above, hp, ?_, by rw [handles, heq]; rfl⟩
          rw [hnext, hclosed]

/-! ### The invariant -/

/-- The layers of an overlay are the open snapshots of its past. -/
structure Tracks (past : History) (o : Overlay) : Prop where
  /-- Exactly the handles of the layers are open. -/
  opened : ∀ h, past.Open h ↔ h ∈ handles o.layers
  /-- The layers stand in the order in which the snapshots were taken. -/
  ordered : (handles o.layers).Sublist past.taken
  numbered : past.Numbered
  /-- The next number is larger than all given before. -/
  below : ∀ h ∈ past.taken, h.id < o.nextId
  /-- It is the count of the snapshots taken. -/
  counted : o.nextId.toNat = past.taken.length

namespace Tracks

variable {past : History} {o : Overlay}

/-- An operation that neither takes nor closes a snapshot, and leaves the layers, keeps track. -/
theorem idle (ht : Tracks past o) {deed : StoreOp × StoreReply} {p : Overlay}
    (htaken : History.taken? deed = none) (hclosed : History.closed? deed = none)
    (hlayers : p.layers = o.layers) (hnext : p.nextId = o.nextId) : Tracks (deed :: past) p := by
  have hsame : History.taken (deed :: past) = past.taken := by simp [History.taken, htaken]
  refine ⟨fun h => ?_, ?_, ?_, ?_, ?_⟩
  · rw [History.open_cons_of_idle htaken hclosed, hlayers, ht.opened]
  · rw [hlayers, hsame]
    exact ht.ordered
  · rw [History.Numbered, hsame]
    exact ht.numbered
  · rw [hsame, hnext]
    exact ht.below
  · rw [hsame, hnext, ht.counted]

theorem snapshot (ht : Tracks past o) (hroom : past.taken.length + 1 < 2 ^ 64) :
    Tracks ((.snapshot, .taken o.snapshot.1) :: past) o.snapshot.2 := by
  have htaken : History.taken ((.snapshot, .taken o.snapshot.1) :: past) =
      o.snapshot.1 :: past.taken := rfl
  have hnext : o.snapshot.2.nextId.toNat = o.nextId.toNat + 1 := by
    show (o.nextId + 1).toNat = _
    rw [UInt64.toNat_add, ht.counted, Nat.mod_eq_of_lt (by simpa using hroom)]
    rfl
  have hlt : ∀ h ∈ past.taken, h.id < o.snapshot.2.nextId := fun h hmem => by
    have hid := UInt64.lt_iff_toNat_lt.mp (ht.below h hmem)
    rw [UInt64.lt_iff_toNat_lt]
    omega
  refine ⟨fun h => ?_, ?_, ?_, ?_, ?_⟩
  · simp [History.Open, History.taken?, History.closed?, ht.opened, Overlay.snapshot, handles,
      eq_comm]
  · exact ht.ordered.cons_cons _
  · exact List.pairwise_cons.mpr ⟨ht.below, ht.numbered⟩
  · rw [htaken]
    intro h hmem
    rcases List.mem_cons.mp hmem with rfl | hearlier
    · rw [UInt64.lt_iff_toNat_lt, hnext]
      exact Nat.lt_succ_self _
    · exact hlt h hearlier
  · rw [hnext, htaken, ht.counted, List.length_cons]

/-- A snapshot closed takes those above it along and leaves those beneath it. -/
theorem close (ht : Tracks past o) {h : Snapshot} {closing : Closing} {p : Overlay}
    {above : List Snapshot} (hnext : p.nextId = o.nextId)
    (hsplit : handles o.layers = above ++ h :: handles p.layers) :
    Tracks ((.close h closing, .closed (.ok ())) :: past) p := by
  have htaken : History.taken ((.close h closing, .closed (.ok ())) :: past) = past.taken := rfl
  have hordered : (above ++ h :: handles p.layers).Sublist past.taken := hsplit ▸ ht.ordered
  have hnodup : (above ++ h :: handles p.layers).Nodup := ht.numbered.nodup.sublist hordered
  have hbeneath : (handles p.layers).Sublist past.taken :=
    ((List.sublist_cons_self _ _).trans (List.sublist_append_right _ _)).trans hordered
  refine ⟨fun g => ?_, htaken ▸ hbeneath, ht.numbered, ?_, ?_⟩
  · have hclosed : History.Open ((.close h closing, .closed (.ok ())) :: past) g ↔
        past.Open g ∧ ¬ (h = g ∨ [g, h].Sublist past.taken ∧ past.Open h) := by
      simp [History.Open, History.taken?, History.closed?]
    have hopen : past.Open h := by simp [ht.opened, hsplit]
    rw [hclosed, ht.opened, hsplit]
    constructor
    · rintro ⟨hmem, hnot⟩
      rcases List.mem_append.mp hmem with habove | hrest
      · -- What stands above was taken later, so it has been closed with `h`.
        refine absurd (.inr ⟨?_, hopen⟩) hnot
        exact ((List.singleton_sublist.mpr habove).append
          ((List.nil_sublist _).cons_cons h)).trans hordered
      · rcases List.mem_cons.mp hrest with rfl | hrest
        · exact absurd (.inl rfl) hnot
        · exact hrest
    · intro hmem
      refine ⟨by simp [hmem], ?_⟩
      rintro (rfl | ⟨hlater, -⟩)
      · exact absurd hmem (List.nodup_cons.mp (List.nodup_append.mp hnodup).2.1).1
      · have hearlier : [h, g].Sublist past.taken :=
          (((List.singleton_sublist.mpr hmem).cons_cons h).trans
            (List.sublist_append_right _ _)).trans hordered
        exact absurd (ht.numbered.lt_of_sublist hearlier)
          (UInt64.lt_asymm (ht.numbered.lt_of_sublist hlater))
  · rw [htaken, hnext]
    exact ht.below
  · rw [htaken, hnext, ht.counted]

/-- Every operation keeps track. -/
theorem step (ht : Tracks past o) (op : StoreOp)
    (hroom : op.isSnapshot = true → past.taken.length + 1 < 2 ^ 64) :
    Tracks ((op, (Overlay.step op o).1) :: past) (Overlay.step op o).2 := by
  cases op with
  | snapshot => exact ht.snapshot (hroom rfl)
  | close h closing =>
      obtain ⟨hin, hout⟩ := close_spec h closing o
      by_cases hmem : h ∈ handles o.layers
      · obtain ⟨p, above, hp, hnext, hsplit⟩ := hin hmem
        rw [Overlay.step, hp]
        exact ht.close hnext hsplit
      · rw [Overlay.step, hout hmem]
        exact ht.idle rfl rfl rfl rfl
  | _ => exact ht.idle rfl rfl rfl rfl

end Tracks

/-- Taking a snapshot is answered by its handle, and nothing else is. -/
theorem length_taken_step (op : StoreOp) (past : History) (o : Overlay) :
    (History.taken ((op, (step op o).1) :: past)).length =
      past.taken.length + if op.isSnapshot then 1 else 0 := by
  cases op with
  | close h closing =>
      simp only [step]
      cases o.close h closing <;> rfl
  | _ => rfl

theorem Tracks.carryOut {past : History} {o : Overlay} (ht : Tracks past o) (ops : List StoreOp)
    (hroom : past.taken.length + ops.countP StoreOp.isSnapshot < 2 ^ 64) :
    Tracks (StoreOp.carryOut Overlay.step ops (past, o)).1
      (StoreOp.carryOut Overlay.step ops (past, o)).2 := by
  induction ops generalizing past o with
  | nil => exact ht
  | cons op ops ih =>
      rw [List.countP_cons] at hroom
      refine ih (ht.step op fun hop => ?_) ?_
      · rw [hop] at hroom
        simp only [if_true] at hroom
        omega
      · rw [length_taken_step]
        omega

/-! ### The lifetime of a handle -/

/-- What has happened to an overlay over `stored`, and the overlay. Moving value and incrementing a
nonce are among the operations as the single writes they are made of. -/
def after (stored : AccountView) (ops : List StoreOp) : History × Overlay :=
  StoreOp.carryOut step ops ([], { stored })

theorem tracks_after (stored : AccountView) (ops : List StoreOp)
    (hroom : ops.countP StoreOp.isSnapshot < 2 ^ 64) :
    Tracks (after stored ops).1 (after stored ops).2 := by
  have hstart : Tracks [] ({ stored } : Overlay) :=
    ⟨fun h => by simp [History.Open, handles], .slnil, .nil, fun h hmem => (by cases hmem), rfl⟩
  exact hstart.carryOut ops (by simpa [History.taken] using hroom)

/-- The snapshots of an overlay over `stored` that has carried out `ops`. -/
structure Lifetimes (stored : AccountView) (ops : List StoreOp) : Prop where
  /-- A handle closes something exactly if its snapshot is open. -/
  accepted : ∀ h closing,
    (step (.close h closing) (after stored ops).2).1 = .closed (.ok ()) ↔
      (after stored ops).1.Open h
  /-- Any other handle is refused, and nothing whatever changes. -/
  refused : ∀ h closing, ¬ (after stored ops).1.Open h →
    step (.close h closing) (after stored ops).2 =
      (.closed (.error .unevenSnapshot), (after stored ops).2)
  /-- No number is given twice: each is larger than all before it. -/
  numbered : (after stored ops).1.Numbered
  /-- As many snapshots are counted as open as there are open ones. -/
  counted : (after stored ops).2.openSnapshots =
    (after stored ops).1.taken.countP fun h => (after stored ops).1.Open h
  /-- A store that keeps numbers and layers apart has answered alike, and is the same split in
  two. -/
  apart : StoreOp.carryOut TwoStacks.step ops ([], { stored }) =
    ((after stored ops).1, (after stored ops).2.split)
  /-- It has as many layers above the stored state as snapshots are open. -/
  layered : (StoreOp.carryOut TwoStacks.step ops ([], { stored })).2.parents.length =
    (after stored ops).2.openSnapshots
  /-- It has as many numbers of snapshots, too. -/
  stacked : (StoreOp.carryOut TwoStacks.step ops ([], { stored })).2.snapshots.length =
    (after stored ops).2.openSnapshots

/-- The open snapshots are counted by the layers. -/
theorem Tracks.countP_open {past : History} {o : Overlay} (ht : Tracks past o) :
    o.openSnapshots = past.taken.countP fun h => past.Open h := by
  have hperm : (past.taken.filter fun h => past.Open h).Perm (handles o.layers) := by
    refine (List.perm_ext_iff_of_nodup (ht.numbered.nodup.filter _)
      (ht.numbered.nodup.sublist ht.ordered)).mpr fun h => ?_
    rw [List.mem_filter, decide_eq_true_eq, ht.opened]
    exact ⟨And.right, fun hmem => ⟨ht.ordered.subset hmem, hmem⟩⟩
  rw [List.countP_eq_length_filter, hperm.length_eq, length_handles, openSnapshots]

theorem carryOut_split (ops : List StoreOp) (past : History) (o : Overlay) :
    StoreOp.carryOut TwoStacks.step ops (past, o.split) =
      ((StoreOp.carryOut step ops (past, o)).1, (StoreOp.carryOut step ops (past, o)).2.split) := by
  induction ops generalizing past o with
  | nil => rfl
  | cons op ops ih => rw [StoreOp.carryOut, TwoStacks.step_split, ih, StoreOp.carryOut]

/-- What is refused is refused for want of an open snapshot. -/
theorem Tracks.close_eq {past : History} {o : Overlay} (ht : Tracks past o) (h : Snapshot)
    (closing : Closing) :
    (past.Open h → (Overlay.step (.close h closing) o).1 = .closed (.ok ())) ∧
      (¬ past.Open h →
        Overlay.step (.close h closing) o = (.closed (.error .unevenSnapshot), o)) := by
  obtain ⟨hin, hout⟩ := close_spec h closing o
  rw [← ht.opened] at hin hout
  refine ⟨fun hopen => ?_, fun hnot => by rw [Overlay.step, hout hnot]⟩
  obtain ⟨p, above, hp, -, -⟩ := hin hopen
  rw [Overlay.step, hp]

/-- **The lifetime of a handle.** Over any stored state and after any operations with fewer than
`2 ^ 64` snapshots among them, closing by a handle succeeds exactly if its snapshot is still open,
is refused without any effect otherwise, numbers are never given twice, and the layers are as many
as the open snapshots. Whatever is carried out then, a handle whose snapshot has been closed is
refused. -/
theorem lifetimes (stored : AccountView) (ops more : List StoreOp)
    (hroom : (ops ++ more).countP StoreOp.isSnapshot < 2 ^ 64) :
    Lifetimes stored ops ∧
      ∀ h ∈ (after stored ops).1.taken, ¬ (after stored ops).1.Open h →
        ¬ (after stored (ops ++ more)).1.Open h ∧
          ∀ closing, step (.close h closing) (after stored (ops ++ more)).2 =
            (.closed (.error .unevenSnapshot), (after stored (ops ++ more)).2) := by
  have hops : ops.countP StoreOp.isSnapshot < 2 ^ 64 := by
    rw [List.countP_append] at hroom
    omega
  have ht := tracks_after stored ops hops
  have htmore := tracks_after stored (ops ++ more) hroom
  have happart : StoreOp.carryOut TwoStacks.step ops ([], { stored }) =
      ((after stored ops).1, (after stored ops).2.split) := carryOut_split ops [] { stored }
  refine ⟨⟨fun h closing => ?_, fun h closing => (ht.close_eq h closing).2, ht.numbered,
    ht.countP_open, happart, ?_, ?_⟩, fun h hmem hnot => ?_⟩
  · by_cases hopen : (after stored ops).1.Open h
    · exact iff_of_true ((ht.close_eq h closing).1 hopen) hopen
    · refine iff_of_false ?_ hopen
      rw [(ht.close_eq h closing).2 hopen]
      simp
  · rw [happart]
    exact List.length_map _
  · rw [happart, length_snapshots_split]
    rfl
  · -- Taken again, `h` would stand twice among the snapshots taken.
    have hclosed : ¬ (after stored (ops ++ more)).1.Open h := fun hopen => by
      obtain ⟨later, hlater⟩ := StoreOp.past_carryOut step more (after stored ops).1
        (after stored ops).2
      have hpast : (after stored (ops ++ more)).1 = later ++ (after stored ops).1 := by
        rw [after, StoreOp.carryOut_append]
        exact hlater
      have hnodup := htmore.numbered.nodup
      rw [hpast] at hopen
      rw [hpast, History.taken_append] at hnodup
      rcases hopen.of_append with hearlier | hagain
      · exact hnot hearlier
      · exact (List.nodup_append.mp hnodup).2.2 h hagain h hmem rfl
    exact ⟨hclosed, fun closing => (htmore.close_eq h closing).2 hclosed⟩

/-- An outer snapshot is committed over an inner one, and a new one then stands at its depth: the
stale handles of both stay refused. -/
theorem lifetimes_of_reused_depth :
    let ops : List StoreOp := [.snapshot, .setBalance 1 7, .snapshot, .close ⟨0, 1⟩ .commit]
    let more : List StoreOp := [.close ⟨1, 0⟩ .restore, .snapshot, .close ⟨7, 1⟩ .commit]
    let stored : AccountView :=
      ⟨fun _ => 5, fun _ => 0, fun _ => [], fun _ => 0, fun _ _ => 0, fun _ => false⟩
    (ops ++ more).countP StoreOp.isSnapshot < 2 ^ 64 ∧ Lifetimes stored ops ∧
      (after stored ops).1.taken = [⟨1, 2⟩, ⟨0, 1⟩] ∧
      (after stored (ops ++ more)).1.taken = [⟨2, 1⟩, ⟨1, 2⟩, ⟨0, 1⟩] ∧
      (after stored (ops ++ more)).1.Open ⟨2, 1⟩ ∧
      ∀ closing, step (.close ⟨0, 1⟩ closing) (after stored (ops ++ more)).2 =
        (.closed (.error .unevenSnapshot), (after stored (ops ++ more)).2) := by
  intro ops more stored
  have hroom : (ops ++ more).countP StoreOp.isSnapshot < 2 ^ 64 := by decide
  obtain ⟨hlife, hever⟩ := lifetimes stored ops more hroom
  have htaken : (after stored ops).1.taken = [⟨1, 2⟩, ⟨0, 1⟩] := by decide +kernel
  have hclosed : ¬ (after stored ops).1.Open ⟨0, 1⟩ := by decide +kernel
  refine ⟨hroom, hlife, htaken, by decide +kernel, by decide +kernel, ?_⟩
  exact (hever ⟨0, 1⟩ (by rw [htaken]; simp) hclosed).2

end Overlay

end MessageCalls
