import MessageCalls.Proofs.Executor.Rollback
/-!
# MessageCalls.Proofs.Executor.Entries

What the operations of the machine write into its journal, seen through a function that picks some
of the entries (`Executor.picked`). Events are announced, frames are handed over and snapshots are
closed in one place each; all else are records that only remark on the run. **A function that picks
no such record sees only these three**, so each operation needs a single lemma here for events,
frames and closings alike.
-/

namespace MessageCalls.Executor

variable {α : Type} {f : Entry → Option α} {setting : Setting} {s t u : Executor}

/-- What a function picks out of the journal. -/
def picked (f : Entry → Option α) (s : Executor) : List α := s.journal.toList.filterMap f

theorem picked_note (f : Entry → Option α) (s : Executor) (entry : Entry) :
    (s.note entry).picked f = s.picked f ++ (f entry).toList := by
  simp only [picked, note, Array.toList_push, List.filterMap_append, List.filterMap_cons,
    List.filterMap_nil]
  cases f entry <;> rfl

/-- An entry is not picked. -/
theorem picked_skip {entry : Entry} (h : f entry = none) (s : Executor) :
    (s.note entry).picked f = s.picked f := by
  rw [picked_note, h, Option.toList_none, List.append_nil]

/-- What is picked when a snapshot is closed: the record of the attempt, which a refusal lacks. -/
def pickedClosing (f : Entry → Option α) (setting : Setting) (closing : Overlay.Closing)
    (id : UInt64) : List α :=
  if setting.refuses closing id then [] else (f (.record (.closing closing id))).toList

section Remarks

variable (hf : ∀ r : Record, (Entry.record r).isRemark = true → f (.record r) = none)

include hf

theorem picked_latch (s : Executor) (cause : Abort) : (s.latch cause).picked f = s.picked f := by
  unfold latch
  split
  · rfl
  · exact picked_skip (hf _ rfl) s

theorem picked_checkpoint (s : Executor) : s.checkpoint.2.picked f = s.picked f :=
  picked_skip (hf _ rfl) _

theorem picked_transfer {transfer : Transfer} {result : Except Failure Unit}
    (h : s.transfer transfer = (result, t)) : t.picked f = s.picked f := by
  unfold Executor.transfer at h
  split at h <;> cases h
  · exact picked_skip (hf _ rfl) _
  · rfl

/-- The exit that counts is announced. -/
theorem picked_announce (s : Executor) (exit : Exit) (output : Bytes) :
    (s.announce exit output).picked f =
      s.picked f ++ (f (.event (.exit exit output))).toList := by
  have hnoted := picked_note f s (.event (.exit exit output))
  unfold announce
  split
  · rw [picked_latch hf, hnoted]
  · exact hnoted

theorem Ends.picked_eq {exit : Exit} (h : Ends t u exit) : u.picked f = t.picked f := by
  cases h with
  | reported => rfl
  | unpaid h => exact picked_transfer hf h
  | collided address =>
      rw [picked_latch hf]
      exact picked_skip (hf _ rfl) t

end Remarks

theorem picked_incNonce {a : Address} (h : s.incNonce a = .ok t) : t.picked f = s.picked f := by
  unfold incNonce at h
  split at h <;> cases h
  rfl

/-! ### Closing a snapshot -/

theorem picked_close (s : Executor) (handle : Snapshot) (closing : Overlay.Closing) :
    (s.close setting handle closing).2.picked f =
      s.picked f ++ pickedClosing f setting closing handle.id := by
  unfold close pickedClosing
  by_cases hrefused : setting.refuses closing handle.id = true
  · rw [if_pos hrefused, if_pos hrefused, List.append_nil]
  · rw [if_neg hrefused, if_neg hrefused]
    dsimp only
    split <;> exact picked_note f s _

theorem picked_settle (setting : Setting) (s : Executor) (point : Checkpoint)
    (closing : Overlay.Closing) :
    (s.settle setting point closing).2.picked f =
      s.picked f ++ pickedClosing f setting closing point.handle.id := by
  cases closing with
  | commit => exact picked_close s _ _
  | restore => exact picked_close _ _ _

section Remarks

variable (hf : ∀ r : Record, (Entry.record r).isRemark = true → f (.record r) = none)

include hf

theorem picked_settleOrLatch (setting : Setting) (s : Executor) (point : Checkpoint)
    (closing : Overlay.Closing) :
    (s.settleOrLatch setting point closing).picked f =
      s.picked f ++ pickedClosing f setting closing point.handle.id := by
  have hsettled := picked_settle (f := f) setting s point closing
  unfold settleOrLatch
  split
  · next h => rwa [h] at hsettled
  · next h =>
      rw [h] at hsettled
      rw [picked_latch hf, hsettled]

theorem picked_leave (setting : Setting) (s : Executor) (point : Checkpoint) (exit : Exit)
    (output : Bytes) (nrgLeft : Nrg) :
    (s.leave setting point exit output nrgLeft).2.picked f =
      s.picked f ++ (f (.event (.exit (s.finalExit exit) output))).toList ++
        pickedClosing f setting (if (s.finalExit exit).isSuccess then .commit else .restore)
          point.handle.id := by
  have hsettled := picked_settle (f := f) setting
    (s.announce (s.finalExit exit) output) point
    (if (s.finalExit exit).isSuccess then .commit else .restore)
  rw [picked_announce hf] at hsettled
  rw [leave_eq]
  split
  · next h => rwa [h] at hsettled
  · next h =>
      rw [h] at hsettled
      rw [picked_latch hf, hsettled]

end Remarks

end MessageCalls.Executor
