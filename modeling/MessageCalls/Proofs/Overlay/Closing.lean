import MessageCalls.Account.Overlay
/-!
# MessageCalls.Proofs.Overlay.Closing

Closing a snapshot, one layer at a time. `Overlay.close` looks a handle up by its place and then
closes as many layers as stand above that place; here the same is said as a recursion on the
layers, innermost first: **a handle either names the innermost snapshot, or is left to the overlay
without it** (`Overlay.close_innermost`, `Overlay.close_outer`).
-/

namespace MessageCalls.Overlay

variable {o : Overlay} {l : Layer} {rest : List Layer} {s : Snapshot}

/-- Closing the innermost of some open snapshots. -/
theorem closeInnermost_cons (h : o.layers = l :: rest) (closing : Closing) :
    o.closeInnermost closing =
      { o with
        current := match closing with
          | .commit => l.beneath.merge o.current
          | .restore => l.beneath
        layers := rest } := by
  cases closing <;> simp only [closeInnermost, h]

/-- A handle that names an open snapshot has a place among the layers. -/
theorem depth_of_isOpen (h : o.isOpen s = true) : 1 ≤ s.depth ∧ s.depth ≤ o.layers.length := by
  simp only [isOpen, Bool.and_eq_true, decide_eq_true_eq] at h
  obtain ⟨hzero, hid⟩ := h
  have hbound : s.depth - 1 < o.layers.reverse.length := by
    cases hget : o.layers.reverse[s.depth - 1]? with
    | none => simp [hget] at hid
    | some l => exact (List.getElem?_eq_some_iff.mp hget).1
  rw [List.length_reverse] at hbound
  omega

/-- Away from its place, the innermost snapshot does not matter to a handle. -/
theorem isOpen_closeInnermost (h : o.layers = l :: rest) (hdepth : s.depth ≠ rest.length + 1)
    (closing : Closing) : (o.closeInnermost closing).isOpen s = o.isOpen s := by
  have hlayers : (o.closeInnermost closing).layers = rest := by
    rw [closeInnermost_cons h]
  rw [isOpen, isOpen, hlayers, h, List.reverse_cons]
  by_cases hzero : s.depth = 0
  · simp [hzero]
  · by_cases hin : s.depth ≤ rest.length
    · rw [List.getElem?_append_left (by rw [List.length_reverse]; omega)]
    · rw [List.getElem?_eq_none (by rw [List.length_reverse]; omega),
        List.getElem?_eq_none (by simp only [List.length_append, List.length_reverse,
          List.length_singleton]; omega)]

/-! ### Closing layer by layer -/

/-- No snapshot is open, so no handle names one. -/
theorem close_nil (h : o.layers = []) (closing : Closing) :
    o.close s closing = .error .unevenSnapshot := by
  rw [close, if_neg]
  simp [isOpen, h]

/-- The handle stands at the place of the innermost snapshot: it names that one or none. -/
theorem close_innermost (h : o.layers = l :: rest) (hdepth : s.depth = rest.length + 1)
    (closing : Closing) :
    o.close s closing =
      if s.id = l.id then .ok (o.closeInnermost closing) else .error .unevenSnapshot := by
  have hopen : o.isOpen s = decide (s.id = l.id) := by
    simp [isOpen, h, hdepth, eq_comm]
  have hcount : o.layers.length - (s.depth - 1) = 1 := by
    simp [h, hdepth]
  rw [close, hopen, hcount, closeMany, closeMany]
  simp only [decide_eq_true_eq]

/-- The handle stands at another place: the innermost snapshot is closed on the way, and the
handle names a snapshot of what remains or none. -/
theorem close_outer (h : o.layers = l :: rest) (hdepth : s.depth ≠ rest.length + 1)
    (closing : Closing) :
    o.close s closing = (o.closeInnermost closing).close s closing := by
  rw [close, close, isOpen_closeInnermost h hdepth]
  by_cases hopen : o.isOpen s = true
  · have hlayers : (o.closeInnermost closing).layers = rest := by
      rw [closeInnermost_cons h]
    have hplace := depth_of_isOpen hopen
    have hcount : o.layers.length - (s.depth - 1) = rest.length - (s.depth - 1) + 1 := by
      rw [h, List.length_cons] at hplace ⊢
      omega
    rw [if_pos hopen, if_pos hopen, hcount, hlayers, closeMany]
  · rw [if_neg hopen, if_neg hopen]

/-! ### Closing a snapshot beneath others -/

variable {above : List Layer}

/-- The snapshot that a handle names is closed together with those above it. -/
theorem close_buried (h : o.layers = above ++ l :: rest) (hdepth : s.depth = rest.length + 1)
    (hid : s.id = l.id) (closing : Closing) :
    o.close s closing = .ok (o.closeMany closing (above.length + 1)) := by
  have hplace : o.layers.reverse[s.depth - 1]? = some l := by
    rw [h, hdepth]
    simp
  have hopen : o.isOpen s = true := by
    rw [isOpen, hplace, hid, hdepth]
    simp
  have hcount : o.layers.length - (s.depth - 1) = above.length + 1 := by
    rw [h, hdepth, List.length_append, List.length_cons]
    omega
  rw [close, if_pos hopen, hcount]

/-- Only a handle that names an open snapshot closes anything. -/
theorem buried_of_close {p : Overlay} {closing : Closing} (h : o.close s closing = .ok p) :
    ∃ above l rest, o.layers = above ++ l :: rest ∧ s.depth = rest.length + 1 ∧
      p = o.closeMany closing (above.length + 1) := by
  rw [close] at h
  split at h
  · next hopen =>
      cases h
      obtain ⟨hpos, hbound⟩ := depth_of_isOpen hopen
      have hplace : o.layers.length - s.depth < o.layers.length := by omega
      refine ⟨o.layers.take (o.layers.length - s.depth), o.layers[o.layers.length - s.depth],
        o.layers.drop (o.layers.length - s.depth + 1), ?_, ?_, ?_⟩
      · rw [← List.drop_eq_getElem_cons hplace, List.take_append_drop]
      · rw [List.length_drop]
        omega
      · rw [List.length_take]
        congr 1
        omega
  · cases h

theorem layers_closeMany (h : o.layers = above ++ l :: rest) (closing : Closing) :
    (o.closeMany closing (above.length + 1)).layers = rest := by
  induction above generalizing o with
  | nil => rw [List.length_nil, closeMany, closeMany, closeInnermost_cons h]
  | cons l' above ih =>
      have hlayers : (o.closeInnermost closing).layers = above ++ l :: rest := by
        rw [closeInnermost_cons h]
        rfl
      rw [List.length_cons, closeMany, ih hlayers]

/-- A restore brings back the writes that were put aside, whatever was left open above. -/
theorem closeMany_restore (h : o.layers = above ++ l :: rest) :
    o.closeMany .restore (above.length + 1) = { o with current := l.beneath, layers := rest } := by
  induction above generalizing o with
  | nil => rw [List.length_nil, closeMany, closeMany, closeInnermost_cons h]
  | cons l' above ih =>
      have hclosed := closeInnermost_cons h .restore
      have hlayers : (o.closeInnermost .restore).layers = above ++ l :: rest := by
        rw [hclosed]
        rfl
      rw [List.length_cons, closeMany, ih hlayers, hclosed]

/-! ### What a restore depends on -/

theorem closeMany_nextId (o : Overlay) (id : UInt64) (closing : Closing) (count : Nat) :
    ({ o with nextId := id } : Overlay).closeMany closing count =
      { o.closeMany closing count with nextId := id } := by
  induction count generalizing o with
  | zero => rfl
  | succ count ih =>
      have hclosed : ({ o with nextId := id } : Overlay).closeInnermost closing =
          { o.closeInnermost closing with nextId := id } := by
        unfold closeInnermost
        dsimp only
        split <;> rfl
      rw [closeMany, closeMany, hclosed, ih]

/-- A restore gives back what stands beneath the snapshot: the writes made since, and the number
that the next snapshot would have, do not matter to it. -/
theorem close_restore_congr {p : Overlay} (hstored : p.stored = o.stored)
    (hlayers : p.layers = o.layers) (s : Snapshot) :
    p.close s .restore = (o.close s .restore).map fun q => { q with nextId := p.nextId } := by
  have hsame : p.isOpen s = o.isOpen s := by rw [isOpen, isOpen, hlayers]
  rw [close, close, hsame, hlayers]
  by_cases hopen : o.isOpen s = true
  · rw [if_pos hopen, if_pos hopen]
    obtain ⟨hpos, hbound⟩ := depth_of_isOpen hopen
    cases hl : o.layers with
    | nil =>
        rw [hl, List.length_nil] at hbound
        omega
    | cons l rest =>
        have hcount : (l :: rest).length - (s.depth - 1) = rest.length - (s.depth - 1) + 1 := by
          rw [hl, List.length_cons] at hbound
          rw [List.length_cons]
          omega
        have hclosed : p.closeInnermost .restore =
            { o.closeInnermost .restore with nextId := p.nextId } := by
          rw [closeInnermost_cons hl, closeInnermost_cons (hlayers.trans hl), hstored]
        rw [hcount, closeMany, closeMany, hclosed, closeMany_nextId]
        rfl
  · rw [if_neg hopen, if_neg hopen]
    rfl

end MessageCalls.Overlay
