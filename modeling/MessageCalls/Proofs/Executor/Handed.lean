import MessageCalls.Proofs.Executor.Entries
/-!
# MessageCalls.Proofs.Executor.Handed

**The chronicle misses no run of the interpreter** (`Executor.Activity.handed_eq`). The machine
itself puts an entry into its journal whenever it hands a frame to the interpreter; these entries
are the code and the frames of the moments at which code begins to run, in the same order.
-/

namespace MessageCalls.Executor

variable {setting : Setting} {frames : List Frame} {s t u : Executor} {moments : List Moment}

/-- The code and the frames handed to the interpreter so far. -/
def handed (s : Executor) : List (Bytes × Frame) := s.journal.toList.filterMap Entry.frame?

theorem frame?_of_isRemark (entry : Entry) (h : entry.isRemark = true) : entry.frame? = none := by
  unfold Entry.isRemark at h
  simp_all

/-! ### What hands nothing to the interpreter -/

theorem handed_note {entry : Entry} (h : entry.isRemark = true) (s : Executor) :
    (s.note entry).handed = s.handed := picked_skip (frame?_of_isRemark entry h) s

theorem handed_note_frame (s : Executor) (code : Bytes) (frame : Frame) (depth : Nat)
    (isStatic : Bool) :
    (s.note (.frame code frame depth isStatic)).handed = s.handed ++ [(code, frame)] :=
  picked_note Entry.frame? s _

theorem pickedClosing_frame? (setting : Setting) (closing : Overlay.Closing) (id : UInt64) :
    pickedClosing Entry.frame? setting closing id = [] := ite_self []

theorem handed_record (s : Executor) (r : Record) : (s.record r).handed = s.handed :=
  picked_skip (f := Entry.frame?) rfl s

theorem handed_settleOrLatch (s : Executor) (point : Checkpoint) (closing : Overlay.Closing) :
    (s.settleOrLatch setting point closing).handed = s.handed := by
  have hpicked := picked_settleOrLatch (fun _ => frame?_of_isRemark _) setting s point closing
  rwa [pickedClosing_frame?, List.append_nil] at hpicked

theorem handed_leave (s : Executor) (point : Checkpoint) (exit : Exit) (output : Bytes)
    (nrgLeft : Nrg) : (s.leave setting point exit output nrgLeft).2.handed = s.handed := by
  have hpicked := picked_leave (fun _ => frame?_of_isRemark _) setting s point exit output nrgLeft
  rw [pickedClosing_frame?, List.append_nil] at hpicked
  exact hpicked.trans (List.append_nil _)

theorem handed_checkpoint (s : Executor) : s.checkpoint.2.handed = s.handed := handed_record _ _

/-! ### What the chronicle tells of it -/

theorem entered?_leaveChronicle (point : Checkpoint) (exit : Exit) (output : Bytes) (nrgLeft : Nrg)
    (s : Executor) :
    (leaveChronicle setting frames point exit output nrgLeft s).filterMap Moment.entered? = [] := by
  cases exit <;> rfl

/-- **The frames handed to the interpreter** are those of the moments at which code begins to
run. -/
theorem Activity.handed_eq (h : Activity setting frames s moments t) :
    t.handed = s.handed ++ moments.filterMap Moment.entered? := by
  induction h with
  | andThen first second ih ih' => rw [ih', ih, List.filterMap_append, List.append_assoc]
  | note frames s entry h => rw [handed_note h, List.filterMap_nil, List.append_nil]
  | transfer h hpaid =>
      rw [List.filterMap_nil, List.append_nil]
      exact picked_transfer (fun _ => frame?_of_isRemark _) hpaid
  | nonce h hclaimed =>
      rw [List.filterMap_nil, List.append_nil]
      exact picked_incNonce hclaimed
  | @entered frames s t moments code frame hfatal hcode hstatic hdepth body ih =>
      rw [handed_note_frame] at ih
      show t.handed = s.handed ++ (code, frame) :: moments.filterMap Moment.entered?
      rw [ih, List.append_assoc]
      rfl
  | @guarded frames s t u moments exit hfatal opening body ends output nrgLeft ih =>
      have hended : u.handed = t.handed := ends.picked_eq fun _ => frame?_of_isRemark _
      rw [handed_leave, hended, ih, handed_checkpoint]
      show _ = s.handed ++ (moments ++ _).filterMap Moment.entered?
      rw [List.filterMap_append, entered?_leaveChronicle, List.append_nil]
  | @givenUp frames s entry h =>
      rw [handed_settleOrLatch, handed_note h, handed_checkpoint]
      exact (List.append_nil _).symm
  | _ => exact (List.append_nil _).symm

end MessageCalls.Executor
