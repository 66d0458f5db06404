import MessageCalls.Proofs.Executor.Course
/-!
# MessageCalls.Proofs.Executor.Kept

What is left of a run: the moments none of whose frames is left with a failure (`live`). **The
frames around a stretch of a run keep all of what it keeps, or nothing**
(`Executor.Course.livesTogether`), so what a frame that succeeds keeps is what was kept inside it
(`Executor.kept_frame`), and a failure keeps nothing.
-/

namespace MessageCalls

/-- None of the frames that are open at first is left with a failure. -/
def survives (moments : List Moment) : Bool := (enclosing 0 moments).all fun m => !m.isFailure

/-- The moments none of whose frames is left with a failure. -/
def live : List Moment → List Moment
  | [] => []
  | m :: later => if survives later then m :: live later else live later

theorem live_sublist (moments : List Moment) : (live moments).Sublist moments := by
  induction moments with
  | nil => exact .slnil
  | cons m later ih =>
      rw [live]
      split
      · exact ih.cons_cons m
      · exact ih.cons m

/-- What is picked from the moments none of whose frames is left with a failure. -/
def kept {β : Type} (f : Moment → Option β) (moments : List Moment) : List β :=
  (live moments).filterMap f

/-- What comes after some moments keeps all that they keep, or nothing of it. -/
def LivesTogether (moments : List Moment) : Prop :=
  ∀ later, live (moments ++ later) = (if survives later then live moments else []) ++ live later

theorem livesTogether_nil : LivesTogether [] := by
  intro later
  simp [live]

theorem livesTogether_singleton (m : Moment) : LivesTogether [m] := by
  intro later
  have hown : survives [] = true := rfl
  by_cases h : survives later = true
  · simp [live, h, hown]
  · simp [live, h]

theorem LivesTogether.append {moments moments' : List Moment} (h : LivesTogether moments)
    (h' : LivesTogether moments')
    (hsurvives : ∀ later, survives (moments' ++ later) = survives later) :
    LivesTogether (moments ++ moments') := by
  intro later
  have hown : survives moments' = true := by
    rw [← List.append_nil moments', hsurvives]
    rfl
  rw [List.append_assoc, h, h', h, hsurvives, hown]
  by_cases hlater : survives later = true <;> simp [hlater]

/-- What is picked is a request, with its answer. -/
def OfRequests {β : Type} (f : Moment → Option β) : Prop :=
  ∀ m, (∀ r answer, m.act ≠ .asked r answer) → f m = none

section Kept

variable {β : Type} {f : Moment → Option β}

theorem kept_cons_of_eq_none {m : Moment} (h : f m = none) (later : List Moment) :
    kept f (m :: later) = kept f later := by
  by_cases hlater : survives later = true <;> simp [kept, live, hlater, h]

theorem kept_cons {m : Moment} {later : List Moment} (h : survives later = true) :
    kept f (m :: later) = (f m).toList ++ kept f later := by
  cases hm : f m <;> simp [kept, live, h, hm]

theorem LivesTogether.kept_append {moments : List Moment} (h : LivesTogether moments)
    (later : List Moment) :
    kept f (moments ++ later) =
      (if survives later then kept f moments else []) ++ kept f later := by
  rw [kept, h, List.filterMap_append]
  split <;> rfl

end Kept

namespace Executor

variable {setting : Setting} {frames : List Frame} {s t u : Executor} {moments : List Moment}

theorem Course.survives_append (h : Course setting frames s moments t) (later : List Moment) :
    survives (moments ++ later) = survives later := by
  rw [survives, h.enclosing_append, survives]

theorem survives_course (h : Course setting frames s moments t) : survives moments = true := by
  rw [← List.append_nil moments, h.survives_append]
  rfl

section Leaving

variable (point : Checkpoint) (exit : Exit) (output : Bytes) (nrgLeft : Nrg)

theorem survives_leaveChronicle (later : List Moment) :
    survives (leaveChronicle setting frames point exit output nrgLeft u ++ later) =
      ((u.leave setting point exit output nrgLeft).1.isSuccess && survives later) := by
  rw [survives, (enclosing_leaveChronicle point exit output nrgLeft u later).1, List.all_cons,
    survives]
  exact congrArg (· && _) (Bool.not_not _)

/-- The end of a frame by itself. -/
theorem survives_leaving :
    survives (leaveChronicle setting frames point exit output nrgLeft u) =
      (u.leave setting point exit output nrgLeft).1.isSuccess := by
  rw [← List.append_nil (leaveChronicle ..), survives_leaveChronicle]
  exact Bool.and_true _

theorem livesTogether_leaveChronicle :
    LivesTogether (leaveChronicle setting frames point exit output nrgLeft u) := by
  intro later
  let outcome := (u.leave setting point exit output nrgLeft).1
  have hleft : ∀ later, survives (⟨frames, u, .left outcome⟩ :: later) =
      (outcome.isSuccess && survives later) := by
    intro later
    simp [survives, enclosing, Moment.isFailure]
  have hsettled : ∀ closing result later,
      survives (⟨frames, u, .settled closing result⟩ :: later) = survives later :=
    fun _ _ _ => rfl
  have hnone : survives [] = true := rfl
  unfold leaveChronicle
  cases exit <;> cases hsuccess : outcome.isSuccess <;> cases hlater : survives later <;>
    simp [raisedBy, live, outcome, hleft, hsettled, hnone, hsuccess, hlater]

/-- What comes after a frame keeps all that the frame keeps, or nothing of it. -/
theorem livesTogether_frame (opening : Executor) (h : LivesTogether moments)
    (hsurvives : ∀ later, survives (moments ++ later) = survives later) :
    LivesTogether (⟨frames, opening, .opened⟩ ::
      (moments ++ leaveChronicle setting frames point exit output nrgLeft u)) := by
  intro later
  have hleave : LivesTogether (leaveChronicle setting frames point exit output nrgLeft u) :=
    livesTogether_leaveChronicle point exit output nrgLeft
  rw [List.cons_append, List.append_assoc, live, live, h, h, hleave, hsurvives, hsurvives,
    survives_leaveChronicle, survives_leaving]
  cases (u.leave setting point exit output nrgLeft).1.isSuccess <;> cases survives later <;> simp

/-- A frame that succeeds keeps what was kept inside it, and a failure keeps nothing. -/
theorem kept_frame {β : Type} {f : Moment → Option β} (hf : OfRequests f) (opening : Executor)
    (h : LivesTogether moments) :
    kept f (⟨frames, opening, .opened⟩ ::
        (moments ++ leaveChronicle setting frames point exit output nrgLeft u)) =
      if (u.leave setting point exit output nrgLeft).1.isSuccess then kept f moments else [] := by
  have hleaving : kept f (leaveChronicle setting frames point exit output nrgLeft u) = [] := by
    refine List.filterMap_eq_nil_iff.mpr fun m hm => hf m fun r answer hact => ?_
    have hmem := (live_sublist _).subset hm
    rw [leaveChronicle, List.mem_append] at hmem
    rcases hmem with hraised | hend
    · cases exit <;> simp [raisedBy] at hraised
      rw [hraised] at hact
      cases hact
    · simp only [List.mem_cons, List.not_mem_nil, or_false] at hend
      rcases hend with rfl | rfl <;> cases hact
  rw [kept_cons_of_eq_none (hf _ fun _ _ h => by cases h), h.kept_append, hleaving,
    List.append_nil, survives_leaving]

end Leaving

/-- **What comes after a course keeps all that the course keeps, or nothing of it.** -/
theorem Course.livesTogether (h : Course setting frames s moments t) : LivesTogether moments := by
  induction h with
  | andThen first second ih ih' => exact ih.append ih' second.survives_append
  | answered frames s room h => exact livesTogether_singleton _
  | asked frames s room h => exact livesTogether_singleton _
  | native hfatal a => exact livesTogether_singleton _
  | @entered frames s t moments code frame hfatal hcode hstatic hdepth body ih =>
      exact (livesTogether_singleton ⟨frames, s.inside frame, .entered code frame⟩).append ih
        body.survives_append
  | guarded hfatal hopened body ends output nrgLeft ih =>
      exact livesTogether_frame _ _ output nrgLeft _ ih body.survives_append
  | created hfatal hopened hfree hstatic hpaid body hmode hnone hsuccess code nrgLeft ih =>
      refine livesTogether_frame _ _ code nrgLeft _
        (ih.append (livesTogether_singleton _) fun later => rfl) fun later => ?_
      rw [List.append_assoc]
      exact body.survives_append _
  | givenUp h => exact livesTogether_singleton _
  | _ => exact livesTogether_nil

theorem Course.kept_append {β : Type} {f : Moment → Option β}
    (h : Course setting frames s moments t) {later : List Moment}
    (hlater : survives later = true) :
    kept f (moments ++ later) = kept f moments ++ kept f later := by
  rw [h.livesTogether.kept_append, if_pos hlater]

end Executor

end MessageCalls
