import MessageCalls.Proofs.Account.Keys
import MessageCalls.Proofs.Overlay.Lifetime
import MessageCalls.Proofs.World.Applying
/-!
# MessageCalls.Proofs.Overlay.Flattening

All pending writes in one change set. There are three ways to come by what a key holds: to flatten
the layers, the outermost first, so that a later one overwrites what an earlier one left; to merge
each layer into the one beneath, the innermost first, until a single one remains; and to walk from
the innermost layer outwards until one has the key.

**All three give the same, for every key** (`Overlay.flattened`): the value in the innermost layer
that has one. So a commit, which merges a few of the layers, leaves the flattened writes alone,
whichever open snapshot it closes.
-/

namespace MessageCalls

/-! ### Entry by entry -/

namespace ChangeSet

/-- The entries of a newer change set are inserted one after the other. -/
def extend (older newer : ChangeSet) : ChangeSet where
  balances := older.balances.insertMany newer.balances.toList
  nonces := older.nonces.insertMany newer.nonces.toList
  codes := older.codes.insertMany newer.codes.toList
  storages := older.storages.insertMany newer.storages.toList

/-- Of two maps the inserted one is asked first. -/
theorem getElem?_insertMany_toList {κ α : Type} [DecidableEq κ] [Ord κ] [Std.TransOrd κ]
    [Std.LawfulEqOrd κ] (m n : Std.ExtTreeMap κ α) (k : κ) :
    (m.insertMany n.toList)[k]? = n[k]?.or m[k]? := by
  cases hk : n[k]? with
  | some v =>
      exact Std.ExtTreeMap.getElem?_insertMany_list_of_mem Std.ReflCmp.compare_self
        Std.ExtTreeMap.distinct_keys_toList (Std.ExtTreeMap.mem_toList_iff_getElem?_eq_some.mpr hk)
  | none =>
      rw [Std.ExtTreeMap.getElem?_insertMany_list_of_contains_eq_false]
      · rfl
      · rw [Std.ExtTreeMap.map_fst_toList_eq_keys]
        simp [Std.ExtTreeMap.mem_iff_isSome_getElem?, hk]

/-- Inserting entries is merging. -/
theorem extend_eq_merge (older newer : ChangeSet) : older.extend newer = older.merge newer := by
  refine ext_get? fun k => ?_
  rw [get?_merge]
  cases k <;> exact getElem?_insertMany_toList _ _ _

end ChangeSet

/-! ### Numbers and layers apart -/

namespace TwoStacks

/-- All pending writes: each layer extends what was flattened before, the outermost first. -/
def changes (t : TwoStacks) : ChangeSet :=
  (t.current :: t.parents).reverse.foldl ChangeSet.extend .empty

theorem length_parents_popLayer (t : TwoStacks) (closing : Overlay.Closing) :
    (t.popLayer closing).parents.length = t.parents.length - 1 := by
  unfold popLayer
  split
  · next h => simp [h]
  · next h => simp [h]

/-- The innermost layer is merged into the one beneath, for as long as there is one beneath. -/
def collapse (t : TwoStacks) : TwoStacks :=
  if t.parents.isEmpty then t else collapse (t.popLayer .commit)
termination_by t.parents.length
decreasing_by
  next h =>
    have hpos := List.length_pos_iff.mpr (by simpa using h)
    rw [length_parents_popLayer]
    omega

/-- What is handed over at the end. The layers are merged if a snapshot is open; otherwise there is
one, which is taken for all that is pending. -/
def deconstruct (t : TwoStacks) : ChangeSet :=
  if t.snapshots.isEmpty then t.current else t.collapse.current

end TwoStacks

namespace Overlay

variable {o : Overlay}

/-! ### Layers -/

/-- The writes of the layers, innermost first. -/
def written (o : Overlay) : List ChangeSet := o.current :: o.layers.map (·.beneath)

theorem find?_eq_findSome? (o : Overlay) {α : Type} (f : ChangeSet → Option α) :
    o.find? f = o.written.findSome? f := by
  rw [find?_eq, written, List.findSome?_cons, List.findSome?_map]
  cases f o.current <;> rfl

/-- **What was flattened is what a walk finds.** -/
theorem get?_changes (o : Overlay) (k : ChangeKey) : o.changes.get? k = o.find? (·.get? k) := by
  have hlayers : ∀ layers : List Layer,
      (layers.foldr (fun l older => ChangeSet.merge older l.beneath) .empty).get? k =
        layers.findSome? fun l => l.beneath.get? k := by
    intro layers
    induction layers with
    | nil => simp
    | cons l rest ih =>
        rw [List.foldr_cons, ChangeSet.get?_merge, ih, List.findSome?_cons]
        cases l.beneath.get? k <;> rfl
  rw [changes, ChangeSet.get?_merge, hlayers, find?_eq]

/-- Overlays in which every walk finds the same have the same writes pending. -/
theorem changes_congr {p : Overlay} (h : ∀ k, p.find? (·.get? k) = o.find? (·.get? k)) :
    p.changes = o.changes := by
  refine ChangeSet.ext_get? fun k => ?_
  rw [get?_changes, get?_changes, h]

theorem changes_closeMany_commit (o : Overlay) (count : Nat) :
    (o.closeMany .commit count).changes = o.changes :=
  changes_congr fun k => find?_closeMany_commit o (fun _ _ => ChangeSet.get?_merge _ _ k) count

/-- **Merging all layers gives the flattened writes.** -/
theorem changes_eq_finish (o : Overlay) : o.changes = o.finish := by
  refine ChangeSet.ext_get? fun k => ?_
  rw [get?_changes, World.find?_eq_finish o fun _ _ => ChangeSet.get?_merge _ _ k]

/-! ### The same of numbers and layers apart -/

theorem finish_closeInnermost {l : Layer} {rest : List Layer} (h : o.layers = l :: rest) :
    (o.closeInnermost .commit).finish = o.finish := by
  have hclosed := closeInnermost_cons h .commit
  rw [finish, finish, h, List.length_cons, closeMany, hclosed]

/-- Only the layers count for collapsing, not the numbers of the snapshots. -/
theorem current_collapse {t : TwoStacks} (hcurrent : t.current = o.current)
    (hparents : t.parents = o.layers.map (·.beneath)) : t.collapse.current = o.finish := by
  induction hlayers : o.layers generalizing o t with
  | nil =>
      rw [TwoStacks.collapse, if_pos (by simp [hparents, hlayers]), hcurrent, finish, hlayers]
      rfl
  | cons l rest ih =>
      have hclosed := closeInnermost_cons hlayers .commit
      rw [TwoStacks.collapse, if_neg (by simp [hparents, hlayers]), ← finish_closeInnermost hlayers]
      rw [hlayers, List.map_cons] at hparents
      refine ih ?_ ?_ ?_
      · simp [TwoStacks.popLayer, hparents, hclosed, hcurrent]
      · simp [TwoStacks.popLayer, hparents, hclosed]
      · rw [hclosed]

theorem deconstruct_split (o : Overlay) : o.split.deconstruct = o.finish := by
  unfold TwoStacks.deconstruct
  split
  · next h =>
    have hlayers : o.layers = [] := by simpa [split] using h
    rw [finish, hlayers]
    rfl
  · exact current_collapse rfl rfl

theorem changes_split (o : Overlay) : o.split.changes = o.changes := by
  have hmerge : ChangeSet.extend = ChangeSet.merge :=
    funext fun older => funext (ChangeSet.extend_eq_merge older)
  simp [TwoStacks.changes, split, changes, hmerge, List.foldl_reverse, List.foldr_map]

/-! ### Flattening, merging and walking -/

/-- Flattening the layers of an overlay, merging them and walking through them agree. -/
structure Flattened (o : Overlay) : Prop where
  /-- The writes that remain when every open snapshot is committed are the flattened ones. -/
  finished : o.changes = o.finish
  /-- A key is there exactly if some layer has it. -/
  named : ∀ k, (o.changes.get? k).isSome = true ↔ ∃ c ∈ o.written, (c.get? k).isSome = true
  /-- Its value is the one in the innermost layer that has it. -/
  innermost : ∀ k v, o.changes.get? k = some v ↔
    ∃ above c beneath, o.written = above ++ c :: beneath ∧ c.get? k = some v ∧
      ∀ d ∈ above, d.get? k = none
  /-- That is what a walk through the layers finds. -/
  found : ∀ k, o.find? (·.get? k) = o.changes.get? k
  balance : ∀ a, o.balance a = (o.changes.balances[a]?).getD (o.stored.balance a)
  nonce : ∀ a, o.nonce a = (o.changes.nonces[a]?).getD (o.stored.nonce a)
  code : ∀ a, o.code a = (o.changes.codes[a]?).getD (o.stored.code a)
  storage : ∀ a k, o.storage a k = (o.changes.storages[Slot.mk a k]?).getD (o.stored.storage a k)
  /-- A commit by any open handle leaves the flattened writes alone. -/
  committed : ∀ s, o.isOpen s = true → ∃ p, o.close s .commit = .ok p ∧ p.changes = o.changes
  /-- A store that keeps numbers and layers apart hands over what it has flattened, after any
  operations, and has flattened the same. -/
  apart : ∀ past ops,
    (StoreOp.carryOut TwoStacks.step ops (past, o.split)).2.deconstruct =
        (StoreOp.carryOut TwoStacks.step ops (past, o.split)).2.changes ∧
      (StoreOp.carryOut TwoStacks.step ops (past, o.split)).2.changes =
        (StoreOp.carryOut step ops (past, o)).2.changes

/-- **Flattening agrees with merging and with walking**, whatever the layers hold and however many
snapshots are open. -/
theorem flattened (o : Overlay) : Flattened o := by
  have hfound := get?_changes o
  constructor
  case finished => exact changes_eq_finish o
  case named =>
    intro k
    rw [hfound, find?_eq_findSome?, List.findSome?_isSome_iff]
  case innermost =>
    intro k v
    rw [hfound, find?_eq_findSome?, List.findSome?_eq_some_iff]
  case found => exact fun k => (hfound k).symm
  case balance =>
    intro a
    exact congrArg (Option.getD · _) (hfound (.balance a)).symm
  case nonce =>
    intro a
    exact congrArg (Option.getD · _) (hfound (.nonce a)).symm
  case code =>
    intro a
    exact congrArg (Option.getD · _) (hfound (.code a)).symm
  case storage =>
    intro a k
    exact congrArg (Option.getD · _) (hfound (.slot ⟨a, k⟩)).symm
  case committed =>
    intro s hopen
    exact ⟨_, if_pos hopen, changes_closeMany_commit o _⟩
  case apart =>
    intro past ops
    rw [carryOut_split, deconstruct_split, changes_split, changes_eq_finish]
    exact ⟨rfl, rfl⟩

/-- Each of three layers writes the same balance, and only the outermost one a nonce. -/
example :
    let stored : AccountView :=
      ⟨fun _ => 5, fun _ => 0, fun _ => [], fun _ => 0, fun _ _ => 0, fun _ => false⟩
    let outermost := (({ stored } : Overlay).setBalance 1 7).setNonce 1 3
    let o := (outermost.snapshot.2.setBalance 1 8).snapshot.2.setBalance 1 9
    [o.changes, o.finish, o.split.changes].map (fun c => c.balances[(1 : Address)]?) =
        [some 9, some 9, some 9] ∧
      o.changes.nonces[(1 : Address)]? = some 3 := by
  decide +kernel

end Overlay

end MessageCalls
