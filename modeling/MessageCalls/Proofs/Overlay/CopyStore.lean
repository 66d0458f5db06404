import MessageCalls.Proofs.Overlay.Closing
import MessageCalls.Proofs.Overlay.Readings
/-!
# MessageCalls.Proofs.Overlay.CopyStore

An overlay never copies its state: a snapshot starts an empty layer, and closing one drops or
merges layers. This module compares it with the store one would write down first, `CopyStore`,
which keeps the full readings and **saves a copy of all of them at every snapshot**.

The main theorem is `Overlay.observe_eq_observe_copyStore`: whatever operations are carried out,
with whatever handles, both stores give the same replies and the same readings after each of them.
It rests on one simulation relation, `Overlay.Simulates`: the readings agree, and the copy saved
for an open snapshot is what the overlay would read if its layers ended just beneath that snapshot.
-/

namespace MessageCalls

/-! ## Operations and what they answer -/

/-- An operation on pending account state. -/
inductive StoreOp
  /-- A balance is written. -/
  | setBalance (a : Address) (v : Amount)
  /-- A nonce is written. -/
  | setNonce (a : Address) (n : Nonce)
  /-- A code is written. -/
  | setCode (a : Address) (code : Bytes)
  /-- A storage slot is written. -/
  | setStorage (a : Address) (k w : Word)
  /-- A snapshot is taken. -/
  | snapshot
  /-- A snapshot is restored or committed, by any handle whatever. -/
  | close (handle : Snapshot) (closing : Overlay.Closing)

/-- What an operation answers. -/
inductive StoreReply
  /-- The value was written. -/
  | written
  /-- A snapshot was taken. -/
  | taken (handle : Snapshot)
  /-- A snapshot was closed, or the handle refused. -/
  | closed (result : Except Abort Unit)

namespace StoreOp

/-- The operation takes a snapshot. -/
def isSnapshot : StoreOp → Bool
  | snapshot => true
  | _ => false

/-- Operations carried out one after the other by a store: the reply to each, and all readings
after it. -/
def observe {σ : Type} (step : StoreOp → σ → StoreReply × σ) (view : σ → AccountView) :
    List StoreOp → σ → List (StoreReply × AccountView)
  | [], _ => []
  | op :: ops, s =>
    let (reply, s) := step op s
    (reply, view s) :: observe step view ops s

theorem observe_cons {σ : Type} (step : StoreOp → σ → StoreReply × σ) (view : σ → AccountView)
    (op : StoreOp) (ops : List StoreOp) (s : σ) :
    observe step view (op :: ops) s =
      ((step op s).1, view (step op s).2) :: observe step view ops (step op s).2 := rfl

end StoreOp

/-- An overlay carries out one operation. -/
def Overlay.step (op : StoreOp) (o : Overlay) : StoreReply × Overlay :=
  match op with
  | .setBalance a v => (.written, o.setBalance a v)
  | .setNonce a n => (.written, o.setNonce a n)
  | .setCode a code => (.written, o.setCode a code)
  | .setStorage a k w => (.written, o.setStorage a k w)
  | .snapshot => (.taken o.snapshot.1, o.snapshot.2)
  | .close handle closing =>
    match o.close handle closing with
    | .ok o => (.closed (.ok ()), o)
    | .error cause => (.closed (.error cause), o)

/-! ## The store that copies -/

/-- The full state at the moment of a snapshot that is still open. -/
structure SavedCopy where
  /-- The number of snapshots taken before this one. -/
  number : Nat
  /-- The readings at that moment. -/
  view : AccountView

/-- A store that keeps one full state, and a copy of it for every open snapshot. -/
structure CopyStore where
  /-- The current state. -/
  current : AccountView
  /-- The saved copies, latest first. -/
  saved : List SavedCopy := []
  /-- The number of snapshots taken so far. -/
  taken : Nat := 0

namespace CopyStore

/-- The copy saved for the open snapshot that a handle names, and the copies saved before it. A
handle names a snapshot by its number and by the number of snapshots open with it. -/
def opened? (handle : Snapshot) : List SavedCopy → Option (SavedCopy × List SavedCopy)
  | [] => none
  | copy :: rest =>
    if handle.depth = rest.length + 1 ∧ handle.id.toNat = copy.number then some (copy, rest)
    else opened? handle rest

/-- The current state is copied. -/
def snapshot (c : CopyStore) : Snapshot × CopyStore :=
  (⟨UInt64.ofNat c.taken, c.saved.length + 1⟩,
    { c with saved := ⟨c.taken, c.current⟩ :: c.saved, taken := c.taken + 1 })

/-- An open snapshot is closed. Its copy and all later ones are dropped; a restore makes its copy
the current state. A handle that names no open snapshot changes nothing. -/
def close (c : CopyStore) (handle : Snapshot) (closing : Overlay.Closing) :
    Except Abort CopyStore :=
  match opened? handle c.saved, closing with
  | none, _ => .error .unevenSnapshot
  | some (_, earlier), .commit => .ok { c with saved := earlier }
  | some (copy, earlier), .restore => .ok { c with current := copy.view, saved := earlier }

/-- The store carries out one operation. -/
def step (op : StoreOp) (c : CopyStore) : StoreReply × CopyStore :=
  match op with
  | .setBalance a v => (.written, { c with current := c.current.setBalance a v })
  | .setNonce a n => (.written, { c with current := c.current.setNonce a n })
  | .setCode a code => (.written, { c with current := c.current.setCode a code })
  | .setStorage a k w => (.written, { c with current := c.current.setStorage a k w })
  | .snapshot => (.taken c.snapshot.1, c.snapshot.2)
  | .close handle closing =>
    match c.close handle closing with
    | .ok c => (.closed (.ok ()), c)
    | .error cause => (.closed (.error cause), c)

end CopyStore

/-! ## The simulation -/

namespace Overlay

/-- The copies that the layers of an overlay stand for: what it would read if its layers ended
just beneath each open snapshot. -/
def savedCopies (stored : AccountView) : List Layer → List SavedCopy
  | [] => []
  | l :: rest =>
    ⟨l.id.toNat, ({ stored, current := l.beneath, layers := rest } : Overlay).view⟩ ::
      savedCopies stored rest

/-- The overlay and the store that copies stand for the same state. -/
structure Simulates (o : Overlay) (c : CopyStore) : Prop where
  view : o.view = c.current
  saved : savedCopies o.stored o.layers = c.saved
  taken : o.nextId.toNat = c.taken

theorem length_savedCopies (stored : AccountView) (layers : List Layer) :
    (savedCopies stored layers).length = layers.length := by
  induction layers with
  | nil => rfl
  | cons l rest ih => rw [savedCopies, List.length_cons, List.length_cons, ih]

/-- A handle beyond the innermost place names no copy. -/
theorem opened?_eq_none {handle : Snapshot} :
    ∀ {saved : List SavedCopy}, saved.length < handle.depth →
      CopyStore.opened? handle saved = none
  | [], _ => rfl
  | copy :: rest, h => by
      rw [List.length_cons] at h
      rw [CopyStore.opened?, if_neg (by omega), opened?_eq_none (by omega)]

/-- Closing `o` ends as the look-up of the handle among the copies says: with a refusal, or with an
overlay that stands for the earlier copies. -/
def ClosesAs (o : Overlay) (closing : Closing) :
    Option (SavedCopy × List SavedCopy) → Except Abort Overlay → Prop
  | none, result => result = .error .unevenSnapshot
  | some (copy, earlier), result =>
    ∃ o', result = .ok o' ∧ savedCopies o'.stored o'.layers = earlier ∧ o'.nextId = o.nextId ∧
      o'.view = match closing with
        | .commit => o.view
        | .restore => copy.view

/-- Closing the innermost snapshot by its own handle. -/
theorem closesAs_innermost {o : Overlay} {l : Layer} {rest : List Layer} (h : o.layers = l :: rest)
    (closing : Closing) :
    o.ClosesAs closing
      (some (⟨l.id.toNat, ({ stored := o.stored, current := l.beneath, layers := rest } :
        Overlay).view⟩, savedCopies o.stored rest))
      (.ok (o.closeInnermost closing)) := by
  have hclosed := closeInnermost_cons h closing
  refine ⟨_, rfl, by rw [hclosed], by rw [hclosed], ?_⟩
  cases closing with
  | commit => exact view_closeInnermost_commit o
  | restore => rw [hclosed]; rfl

/-- What closing an outer snapshot does can be said of the overlay whose innermost snapshot is
already closed: a commit keeps its readings, and a restore does not look at them. -/
theorem ClosesAs.of_closeInnermost {o : Overlay} {closing : Closing}
    {found : Option (SavedCopy × List SavedCopy)} {result : Except Abort Overlay}
    (hnext : (o.closeInnermost closing).nextId = o.nextId)
    (h : (o.closeInnermost closing).ClosesAs closing found result) :
    o.ClosesAs closing found result := by
  cases found with
  | none => exact h
  | some copies =>
      obtain ⟨o', hresult, hsaved, hid, hview⟩ := h
      refine ⟨o', hresult, hsaved, hid.trans hnext, ?_⟩
      cases closing with
      | commit => exact hview.trans (view_closeInnermost_commit o)
      | restore => exact hview

/-- Closing by a handle finds the same snapshot in both stores, and what remains of the overlay
stands for what remains of the copies. -/
theorem closesAs_close (handle : Snapshot) (closing : Closing) (o : Overlay) :
    o.ClosesAs closing (CopyStore.opened? handle (savedCopies o.stored o.layers))
      (o.close handle closing) := by
  induction hlayers : o.layers generalizing o with
  | nil => exact close_nil hlayers closing
  | cons l rest ih =>
      -- The depth of a handle tells its place, so only there its number is compared.
      rw [savedCopies, CopyStore.opened?, length_savedCopies]
      by_cases hdepth : handle.depth = rest.length + 1
      · rw [close_innermost hlayers hdepth]
        by_cases hid : handle.id = l.id
        · rw [if_pos ⟨hdepth, by rw [hid]⟩, if_pos hid]
          exact closesAs_innermost hlayers closing
        · rw [if_neg (fun h => hid (UInt64.toNat_inj.mp h.2)), if_neg hid,
            opened?_eq_none (by rw [length_savedCopies, hdepth]; omega)]
          exact rfl
      · have hclosed := closeInnermost_cons hlayers closing
        have hinner := ih (o.closeInnermost closing) (by rw [hclosed])
        have hstored : (o.closeInnermost closing).stored = o.stored := by rw [hclosed]
        rw [hstored] at hinner
        rw [if_neg (fun h => hdepth h.1), close_outer hlayers hdepth]
        exact hinner.of_closeInnermost (by rw [hclosed])

namespace Simulates

variable {o : Overlay} {c : CopyStore}

/-- A snapshot saves the readings that it finds. -/
theorem snapshot (h : o.Simulates c) (hroom : c.taken + 1 < 2 ^ 64) :
    o.snapshot.1 = c.snapshot.1 ∧ o.snapshot.2.Simulates c.snapshot.2 := by
  have hlength : o.layers.length = c.saved.length := by
    rw [← h.saved, length_savedCopies]
  refine ⟨?_, (view_snapshot o).trans h.view, ?_, ?_⟩
  · rw [Overlay.snapshot, CopyStore.snapshot, hlength, ← h.taken, UInt64.ofNat_toNat]
  · show _ :: savedCopies o.stored o.layers = _ :: c.saved
    rw [h.saved, h.taken, ← h.view]
    rfl
  · show (o.nextId + 1).toNat = c.taken + 1
    rw [UInt64.toNat_add, h.taken, Nat.mod_eq_of_lt (by simpa using hroom)]
    rfl

/-- A handle is accepted by both stores or by neither, and they go on standing for the same
state. -/
theorem close (h : o.Simulates c) (handle : Snapshot) (closing : Closing) :
    (Overlay.step (.close handle closing) o).1 = (CopyStore.step (.close handle closing) c).1 ∧
      (Overlay.step (.close handle closing) o).2.Simulates
        (CopyStore.step (.close handle closing) c).2 := by
  have hspec := closesAs_close handle closing o
  rw [h.saved] at hspec
  simp only [Overlay.step, CopyStore.step, CopyStore.close]
  cases hopened : CopyStore.opened? handle c.saved with
  | none =>
      rw [hopened] at hspec
      rw [show o.close handle closing = .error .unevenSnapshot from hspec]
      exact ⟨rfl, h⟩
  | some found =>
      rw [hopened] at hspec
      obtain ⟨o', hclose, hsaved, hnext, hview⟩ := hspec
      rw [hclose]
      cases closing with
      | commit => exact ⟨rfl, hview.trans h.view, hsaved, (congrArg _ hnext).trans h.taken⟩
      | restore => exact ⟨rfl, hview, hsaved, (congrArg _ hnext).trans h.taken⟩

/-- One operation keeps the simulation and is answered alike. -/
theorem step (h : o.Simulates c) (op : StoreOp)
    (hroom : op.isSnapshot = true → c.taken + 1 < 2 ^ 64) :
    (Overlay.step op o).1 = (CopyStore.step op c).1 ∧
      (Overlay.step op o).2.Simulates (CopyStore.step op c).2 := by
  cases op with
  | setBalance a v =>
      exact ⟨rfl, by rw [Overlay.step, view_setBalance, h.view]; rfl, h.saved, h.taken⟩
  | setNonce a n =>
      exact ⟨rfl, by rw [Overlay.step, view_setNonce, h.view]; rfl, h.saved, h.taken⟩
  | setCode a code =>
      exact ⟨rfl, by rw [Overlay.step, view_setCode, h.view]; rfl, h.saved, h.taken⟩
  | setStorage a k w =>
      exact ⟨rfl, by rw [Overlay.step, view_setStorage, h.view]; rfl, h.saved, h.taken⟩
  | snapshot =>
      obtain ⟨hhandle, hsim⟩ := h.snapshot (hroom rfl)
      exact ⟨congrArg StoreReply.taken hhandle, hsim⟩
  | close handle closing => exact h.close handle closing

end Simulates

/-- Every snapshot counts once. -/
theorem taken_step (op : StoreOp) (c : CopyStore) :
    (CopyStore.step op c).2.taken = c.taken + if op.isSnapshot then 1 else 0 := by
  cases op with
  | close handle closing =>
      simp only [CopyStore.step, CopyStore.close]
      cases CopyStore.opened? handle c.saved <;> cases closing <;> rfl
  | _ => rfl

/-- Any number of operations keep the simulation: it is enough that the numbers of the snapshots
do not run out. -/
theorem Simulates.observe {o : Overlay} {c : CopyStore} (h : o.Simulates c) (ops : List StoreOp)
    (hroom : c.taken + ops.countP StoreOp.isSnapshot < 2 ^ 64) :
    StoreOp.observe Overlay.step Overlay.view ops o =
      StoreOp.observe CopyStore.step CopyStore.current ops c := by
  induction ops generalizing o c with
  | nil => rfl
  | cons op ops ih =>
      rw [List.countP_cons] at hroom
      obtain ⟨hreply, hsim⟩ := h.step op fun hop => by rw [hop] at hroom; simp at hroom; omega
      have hlater := ih hsim (by rw [taken_step]; omega)
      rw [StoreOp.observe_cons, StoreOp.observe_cons, hreply, hlater, hsim.view]

/-- **An overlay is a store that copies everything at every snapshot.** Over any stored state and
for any operations that take fewer than `2 ^ 64` snapshots, restoring and committing by whatever
handles, each reply and all readings after it are the same; and so are the first readings. -/
theorem observe_eq_observe_copyStore (stored : AccountView) (ops : List StoreOp)
    (hroom : ops.countP StoreOp.isSnapshot < 2 ^ 64) :
    ({ stored } : Overlay).view = stored ∧
      StoreOp.observe Overlay.step Overlay.view ops { stored } =
        StoreOp.observe CopyStore.step CopyStore.current ops { current := stored } := by
  have hstart : ({ stored } : Overlay).Simulates { current := stored } :=
    ⟨rfl, rfl, rfl⟩
  exact ⟨rfl, hstart.observe ops (by simpa using hroom)⟩

/-- An outer snapshot committed over an open one, its stale handle and that of the inner one, and
a forged handle to a snapshot taken since. -/
theorem observe_stale_handles :
    let ops : List StoreOp := [.snapshot, .setBalance 1 7, .snapshot, .setStorage 1 2 3,
      .close ⟨0, 1⟩ .commit, .snapshot, .setBalance 1 9, .close ⟨0, 1⟩ .restore,
      .close ⟨1, 2⟩ .commit, .close ⟨2, 0⟩ .restore, .close ⟨2, 1⟩ .restore]
    let stored : AccountView :=
      ⟨fun _ => 5, fun _ => 0, fun _ => [], fun _ => 0, fun _ _ => 0, fun _ => false⟩
    ops.countP StoreOp.isSnapshot < 2 ^ 64 ∧
      ({ stored } : Overlay).view = stored ∧
      StoreOp.observe Overlay.step Overlay.view ops { stored } =
        StoreOp.observe CopyStore.step CopyStore.current ops { current := stored } ∧
      (StoreOp.observe Overlay.step Overlay.view ops { stored }).map Prod.fst =
        [.taken ⟨0, 1⟩, .written, .taken ⟨1, 2⟩, .written, .closed (.ok ()), .taken ⟨2, 1⟩,
          .written, .closed (.error .unevenSnapshot), .closed (.error .unevenSnapshot),
          .closed (.error .unevenSnapshot), .closed (.ok ())] := by
  intro ops stored
  have hroom : ops.countP StoreOp.isSnapshot < 2 ^ 64 := by decide
  obtain ⟨hstart, hsame⟩ := observe_eq_observe_copyStore stored ops hroom
  exact ⟨hroom, hstart, hsame, rfl⟩

end Overlay

end MessageCalls
