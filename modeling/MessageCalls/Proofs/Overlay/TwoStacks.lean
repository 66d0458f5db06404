import MessageCalls.Proofs.Overlay.CopyStore
/-!
# MessageCalls.Proofs.Overlay.TwoStacks

In an overlay the number of an open snapshot and the writes beneath it are one layer. Here they
are kept apart, in a stack of numbers and a chain of change sets of which neither knows the other:
taking a snapshot grows both, and closing pops both until enough numbers are gone. **The two
never get out of step** (`TwoStacks.step_split`): the store is at all times an overlay whose layers
are split in two, so both are as long as there are open snapshots.
-/

namespace MessageCalls

/-- A store that keeps the numbers of the open snapshots apart from the writes beneath them. -/
structure TwoStacks where
  /-- The state that is only read. -/
  stored : AccountView
  /-- The numbers of the open snapshots, the innermost last. -/
  snapshots : List UInt64 := []
  /-- The innermost layer of writes. -/
  current : ChangeSet := {}
  /-- The layers above the stored state that were put aside, innermost first. -/
  parents : List ChangeSet := []
  /-- The number of the next snapshot. -/
  nextId : UInt64 := 0

namespace TwoStacks

/-- A snapshot is taken. -/
def snapshot (t : TwoStacks) : Snapshot × TwoStacks :=
  (⟨t.nextId, t.snapshots.length + 1⟩,
    { t with
      snapshots := t.snapshots ++ [t.nextId]
      current := .empty
      parents := t.current :: t.parents
      nextId := t.nextId + 1 })

/-- The innermost layer is merged into the one beneath or dropped, if there is one beneath. -/
def popLayer (t : TwoStacks) (closing : Overlay.Closing) : TwoStacks :=
  match t.parents with
  | [] => t
  | parent :: rest =>
    let current := match closing with
      | .commit => parent.merge t.current
      | .restore => parent
    { t with current, parents := rest }

@[simp] theorem snapshots_popLayer (t : TwoStacks) (closing : Overlay.Closing) :
    (t.popLayer closing).snapshots = t.snapshots := by
  unfold popLayer
  split <;> rfl

/-- A number and a layer are popped for as long as there are more than `index` numbers. -/
def closeDownTo (t : TwoStacks) (closing : Overlay.Closing) (index : Nat) : TwoStacks :=
  if index < t.snapshots.length then
    closeDownTo ({ t with snapshots := t.snapshots.dropLast }.popLayer closing) closing index
  else t
termination_by t.snapshots.length
decreasing_by
  rw [snapshots_popLayer, List.length_dropLast]
  omega

/-- A snapshot is closed, if its number stands where its depth says. -/
def close (t : TwoStacks) (s : Snapshot) (closing : Overlay.Closing) : Except Abort TwoStacks :=
  if s.depth = 0 then .error .unevenSnapshot
  else if t.snapshots[s.depth - 1]? ≠ some s.id then .error .unevenSnapshot
  else .ok (t.closeDownTo closing (s.depth - 1))

/-- The store carries out one operation. -/
def step (op : StoreOp) (t : TwoStacks) : StoreReply × TwoStacks :=
  match op with
  | .setBalance a v => (.written, { t with current.balances := t.current.balances.insert a v })
  | .setNonce a n => (.written, { t with current.nonces := t.current.nonces.insert a n })
  | .setCode a code => (.written, { t with current.codes := t.current.codes.insert a code })
  | .setStorage a k w =>
    (.written, { t with current.storages := t.current.storages.insert ⟨a, k⟩ w })
  | .snapshot => (.taken t.snapshot.1, t.snapshot.2)
  | .close handle closing =>
    match t.close handle closing with
    | .ok t => (.closed (.ok ()), t)
    | .error cause => (.closed (.error cause), t)

end TwoStacks

namespace Overlay

/-- The numbers of the layers, apart from their writes. -/
def split (o : Overlay) : TwoStacks where
  stored := o.stored
  snapshots := (o.layers.map (·.id)).reverse
  current := o.current
  parents := o.layers.map (·.beneath)
  nextId := o.nextId

@[simp] theorem length_snapshots_split (o : Overlay) :
    o.split.snapshots.length = o.layers.length := by
  simp [split]

end Overlay

namespace TwoStacks

/-- Popping a number and a layer closes the innermost snapshot. -/
theorem popLayer_split {o : Overlay} (h : o.layers ≠ []) (closing : Overlay.Closing) :
    { o.split with snapshots := o.split.snapshots.dropLast }.popLayer closing =
      (o.closeInnermost closing).split := by
  obtain ⟨stored, current, layers, nextId⟩ := o
  cases layers with
  | nil => exact absurd rfl h
  | cons l rest => cases closing <;> simp [popLayer, Overlay.split, Overlay.closeInnermost]

theorem closeDownTo_split (o : Overlay) (closing : Overlay.Closing) (index : Nat) :
    o.split.closeDownTo closing index =
      (o.closeMany closing (o.layers.length - index)).split := by
  induction hlayers : o.layers generalizing o with
  | nil =>
      rw [closeDownTo, if_neg (by simp [hlayers])]
      simp [Overlay.closeMany]
  | cons l rest ih =>
      rw [closeDownTo]
      by_cases hmore : index < o.split.snapshots.length
      · have hclosed := Overlay.closeInnermost_cons hlayers closing
        have hcount : (l :: rest).length - index = (rest.length - index) + 1 := by
          rw [Overlay.length_snapshots_split, hlayers, List.length_cons] at hmore
          rw [List.length_cons]
          omega
        rw [if_pos hmore, popLayer_split (by simp [hlayers]), ih _ (by rw [hclosed]), hcount,
          Overlay.closeMany]
      · rw [if_neg hmore]
        rw [Overlay.length_snapshots_split, hlayers] at hmore
        rw [show (l :: rest).length - index = 0 by omega, Overlay.closeMany]

theorem close_split (o : Overlay) (s : Snapshot) (closing : Overlay.Closing) :
    o.split.close s closing = (o.close s closing).map Overlay.split := by
  have hplace : o.split.snapshots[s.depth - 1]? =
      o.layers.reverse[s.depth - 1]?.map (·.id) := by
    simp [Overlay.split, ← List.map_reverse]
  rw [close, Overlay.close, Overlay.isOpen, hplace, closeDownTo_split]
  by_cases hzero : s.depth = 0
  · simp [hzero, Except.map]
  · by_cases hid : o.layers.reverse[s.depth - 1]?.map (·.id) = some s.id
    · simp [hzero, hid, Except.map]
    · simp [hzero, hid, Except.map]

/-- **Numbers and layers stay in step**: the store that keeps them apart answers each operation as
an overlay does, and is left as that overlay split in two. -/
theorem step_split (op : StoreOp) (o : Overlay) :
    step op o.split = ((Overlay.step op o).1, (Overlay.step op o).2.split) := by
  cases op with
  | snapshot => simp [step, Overlay.step, snapshot, Overlay.snapshot, Overlay.split]
  | close handle closing =>
      simp only [step, Overlay.step, close_split]
      cases o.close handle closing with
      | error cause => rfl
      | ok o' => rfl
  | _ => rfl

end TwoStacks

end MessageCalls
