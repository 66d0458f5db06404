import MessageCalls.Proofs.Executor.Courses
/-!
# MessageCalls.Proofs.Executor.StoredCode

What a course does to the codes of accounts. **No code is stored where there is code already**
(`Executor.Course.spares`), with one exception: the address of a creation is checked when its frame
is let in, its code is stored when the init code has run, and in between another creation may have
stored code at the same address (`Executor.Course.checked`).

So the code that a creation stores lasts until a frame around it is undone or a creation around it
stores code at the same address (`Executor.Course.lasting`).
-/

namespace MessageCalls

/-- None of the frames that are open at first is left with a failure, and none of them stores code
at the address. -/
def Undisturbed (a : Address) (moments : List Moment) : Prop :=
  ∀ m ∈ enclosing 0 moments, m.isFailure = false ∧ ∀ code, m.act ≠ .deposited a code

/-- The code of an account stays while it is undisturbed: at every later moment, and, if it is
undisturbed to the end, so that `after` holds. -/
structure Lasts (a : Address) (code : Bytes) (later : List Moment) (after : Prop) : Prop where
  throughout : ∀ between m rest, later = between ++ m :: rest → Undisturbed a between →
    m.state.accounts.code a = code
  atEnd : Undisturbed a later → after

/-- All codes that are stored at some moment stay from then on while they are undisturbed. -/
def Lasting (after : Address → Bytes → Prop) : List Moment → Prop
  | [] => True
  | m :: later =>
    (∀ a code, m.act = .deposited a code → code ≠ [] → Lasts a code later (after a code)) ∧
      Lasting after later

/-- A creation stores code at an address, in some state and after some moments: its frame, the
innermost one still open, was let in while the address was free. If there is code all the same,
then a creation inside that frame has stored some. -/
inductive CheckedFree (a : Address) : List Moment → Executor → Prop
  | intro {outer inside : List Moment} {m : Moment} {s : Executor} (hopened : m.isOpened = true)
      (henclosing : enclosing 0 inside = [])
      (hbalanced : inside.countP Moment.isOpened = inside.countP Moment.isLeft)
      (hfree : m.state.isTaken a = false)
      (hcode : s.accounts.code a = [] ∨ ∃ m' ∈ inside, ∃ code, m'.act = .deposited a code) :
      CheckedFree a (outer ++ m :: inside) s

/-- Whenever code is stored, which is after some moments before, the address has been checked. -/
def Checked : List Moment → List Moment → Prop
  | _, [] => True
  | before, m :: later =>
    (∀ a code, m.act = .deposited a code → CheckedFree a before m.state) ∧
      Checked (before ++ [m]) later

theorem checked_append {before moments later : List Moment} :
    Checked before (moments ++ later) ↔
      Checked before moments ∧ Checked (before ++ moments) later := by
  induction moments generalizing before with
  | nil => simp [Checked]
  | cons m moments ih =>
      rw [List.cons_append, Checked, Checked, ih, and_assoc, List.append_assoc]
      rfl

/-- Nothing is to be checked where no code is stored. -/
theorem checked_of_none {moments : List Moment}
    (h : ∀ m ∈ moments, ∀ a code, m.act ≠ .deposited a code) (before : List Moment) :
    Checked before moments := by
  induction moments generalizing before with
  | nil => trivial
  | cons m moments ih =>
      obtain ⟨hm, hmoments⟩ := List.forall_mem_cons.mp h
      exact ⟨fun a code hact => absurd hact (hm a code), ih hmoments _⟩

theorem Checked.at {before moments between later : List Moment} {m : Moment} {a : Address}
    {code : Bytes} (h : Checked before moments) (hsplit : moments = between ++ m :: later)
    (hact : m.act = .deposited a code) : CheckedFree a (before ++ between) m.state := by
  subst hsplit
  obtain ⟨-, hm, -⟩ := checked_append.mp h
  exact hm a code hact

theorem Lasting.at {after : Address → Bytes → Prop} {moments before later : List Moment}
    {m : Moment} {a : Address} {code : Bytes} (h : Lasting after moments)
    (hsplit : moments = before ++ m :: later) (hact : m.act = .deposited a code)
    (hsome : code ≠ []) : Lasts a code later (after a code) := by
  subst hsplit
  induction before with
  | nil => exact h.1 a code hact hsome
  | cons first before ih => exact ih h.2

theorem enclosing_cons {m : Moment} (h : m.isOpened = false) (later : List Moment) :
    enclosing 0 (m :: later) = enclosing 0 [m] ++ enclosing 0 later := by
  obtain ⟨frames, state, act⟩ := m
  cases act with
  | opened => cases h
  | _ => rfl

theorem undisturbed_nil (a : Address) : Undisturbed a [] := by
  intro m hm
  cases hm

theorem undisturbed_cons {a : Address} {m : Moment} (h : m.isOpened = false)
    (later : List Moment) :
    Undisturbed a (m :: later) ↔ Undisturbed a [m] ∧ Undisturbed a later := by
  unfold Undisturbed
  rw [enclosing_cons h later, List.forall_mem_append]

theorem lasts_nil {a : Address} {code : Bytes} {after : Prop} (h : after) :
    Lasts a code [] after := by
  refine ⟨fun between m rest hsplit => ?_, fun _ => h⟩
  exact absurd hsplit.symm (by simp)

/-- The code lasts through a moment if it lasts from there on, unless the moment disturbs it. -/
theorem Lasts.cons {a : Address} {code : Bytes} {m : Moment} {later : List Moment} {after : Prop}
    (hopened : m.isOpened = false) (hcode : m.state.accounts.code a = code)
    (h : Undisturbed a [m] → Lasts a code later after) : Lasts a code (m :: later) after := by
  refine ⟨fun between m' rest hsplit hbetween => ?_, fun hall => ?_⟩
  · cases between with
    | nil =>
        rw [List.nil_append, List.cons.injEq] at hsplit
        rw [← hsplit.1]
        exact hcode
    | cons first between =>
        rw [List.cons_append, List.cons.injEq] at hsplit
        obtain ⟨rfl, hsplit⟩ := hsplit
        obtain ⟨hfirst, hlater⟩ := (undisturbed_cons hopened between).mp hbetween
        exact (h hfirst).throughout between m' rest hsplit hlater
  · obtain ⟨hfirst, hlater⟩ := (undisturbed_cons hopened later).mp hall
    exact (h hfirst).atEnd hlater

namespace Executor

variable {setting : Setting} {frames : List Frame} {s t u : Executor} {moments : List Moment}
  {a : Address} {code : Bytes}

/-! ### Where code is stored -/

theorem code_setCode (s : Executor) (b : Address) (code : Bytes) (a : Address) :
    (s.updateAccounts fun o => o.setCode b code).accounts.code a =
      if a = b then code else s.accounts.code a := by
  have hview := congrArg AccountView.code (Overlay.view_setCode (o := s.accounts) b code)
  exact (congrFun hview a).trans (Function.update_apply ..)

theorem code_eq_nil_of_isTaken (h : s.isTaken a = false) : s.accounts.code a = [] := by
  unfold isTaken at h
  simp_all

theorem code_leave (hreliable : Reliable setting) (h : Extends s.checkpoint.2 u) (exit : Exit)
    (output : Bytes) (nrgLeft : Nrg) :
    (u.leave setting s.checkpoint.1 exit output nrgLeft).2.accounts.code =
      if (u.leave setting s.checkpoint.1 exit output nrgLeft).1.isSuccess then u.accounts.code
      else s.accounts.code := by
  rcases leave_cases hreliable h exit output nrgLeft with
    ⟨hsuccess, hview, -⟩ | ⟨hfailed, hunchanged⟩
  · rw [hsuccess]
    exact congrArg AccountView.code hview
  · rw [hfailed]
    exact hunchanged.spared.code

theorem code_answer (room : Option FrameRunner) {r : Request} (h : r.isNested = false) :
    (answer setting room r s).2.accounts.code = s.accounts.code := by
  cases r with
  | log entry =>
      dsimp only [answer]
      split <;> rfl
  | setStorage a key value =>
      dsimp only [answer]
      split <;> rfl
  | call => cases h
  | create => cases h
  | _ => rfl

theorem of_mem_leaveChronicle {point : Checkpoint} {exit : Exit} {output : Bytes} {nrgLeft : Nrg}
    {m : Moment} (h : m ∈ leaveChronicle setting frames point exit output nrgLeft u) :
    m.state = u ∧ ∀ a code, m.act ≠ .deposited a code := by
  unfold leaveChronicle at h
  cases exit <;> simp [raisedBy] at h <;> rcases h with rfl | rfl | rfl <;> simp

theorem code_frame (hreliable : Reliable setting) (h : Extends s.checkpoint.2 u)
    {opening : Executor} (hopening : opening.accounts.code a = s.accounts.code a)
    (hmoments : ∀ m ∈ moments, m.state.accounts.code a = s.accounts.code a)
    (hended : u.accounts.code a = s.accounts.code a) (exit : Exit) (output : Bytes)
    (nrgLeft : Nrg) :
    (∀ m ∈ ⟨frames, opening, .opened⟩ ::
        (moments ++ leaveChronicle setting frames s.checkpoint.1 exit output nrgLeft u),
      m.state.accounts.code a = s.accounts.code a) ∧
      (u.leave setting s.checkpoint.1 exit output nrgLeft).2.accounts.code a =
        s.accounts.code a := by
  refine ⟨List.forall_mem_cons.mpr ⟨hopening, List.forall_mem_append.mpr ⟨hmoments, ?_⟩⟩, ?_⟩
  · intro m hm
    rw [(of_mem_leaveChronicle hm).1, hended]
  · rw [code_leave hreliable h]
    split
    · exact hended
    · rfl

/-- **Only creations change a code**: where a course stores none at an address, the code there is
the same at all of its moments. -/
theorem Course.code_eq (hreliable : Reliable setting) (h : Course setting frames s moments t)
    (hnone : ∀ m ∈ moments, ∀ code, m.act ≠ .deposited a code) :
    (∀ m ∈ moments, m.state.accounts.code a = s.accounts.code a) ∧
      t.accounts.code a = s.accounts.code a := by
  induction h with
  | rest frames s => simp
  | andThen first second ih ih' =>
      obtain ⟨hfirst, hlater⟩ := List.forall_mem_append.mp hnone
      obtain ⟨hmoments, hmiddle⟩ := ih hfirst
      obtain ⟨hmoments', hend⟩ := ih' hlater
      rw [hmiddle] at hmoments' hend
      exact ⟨List.forall_mem_append.mpr ⟨hmoments, hmoments'⟩, hend⟩
  | note frames s entry h => simp
  | answered frames s room h =>
      exact ⟨List.forall_mem_singleton.mpr rfl, congrFun (code_answer room h) a⟩
  | asked frames s room h => simp
  | native hfatal b => simp
  | transfer h hpaid => exact ⟨by simp, congrFun (spared_transfer hpaid).code a⟩
  | nonce h hclaimed => exact ⟨by simp, congrFun (spared_incNonce hclaimed).code a⟩
  | entered hfatal hcode hstatic hdepth body ih =>
      obtain ⟨hmoments, hend⟩ := ih (List.forall_mem_cons.mp hnone).2
      exact ⟨List.forall_mem_cons.mpr ⟨rfl, hmoments⟩, hend⟩
  | @guarded frames s opening t u moments exit hfatal hopened body ends output nrgLeft ih =>
      have hopening : opening.accounts.code a = s.accounts.code a := congrFun hopened.spared.code a
      obtain ⟨hmoments, hmiddle⟩ :=
        ih (List.forall_mem_append.mp (List.forall_mem_cons.mp hnone).2).1
      have hended : u.accounts.code a = s.accounts.code a := by
        rw [ends.spared.code, hmiddle, hopening]
      exact code_frame hreliable (hopened.extends_ends hreliable body ends) hopening
        (fun m hm => (hmoments m hm).trans hopening) hended exit output nrgLeft
  | @created frames s opening paid t moments _ address exit hfatal hopened hfree hstatic hpaid body
      hmode hlatched hsuccess code nrgLeft ih =>
      have hopening : opening.accounts.code a = s.accounts.code a := congrFun hopened.spared.code a
      have hpaying : paid.accounts.code a = s.accounts.code a := by
        rw [(spared_transfer hpaid).code, hopening]
      have hinner := (List.forall_mem_append.mp (List.forall_mem_cons.mp hnone).2).1
      obtain ⟨hran, hstored⟩ := List.forall_mem_append.mp hinner
      obtain ⟨hmoments, hmiddle⟩ := ih hran
      have hother : a ≠ address := by
        rintro rfl
        exact List.forall_mem_singleton.mp hstored code rfl
      have hextends :=
        hopened.extends_stored hreliable hstatic hpaid body hmode hlatched address code
      refine code_frame hreliable hextends hopening
        (List.forall_mem_append.mpr ⟨fun m hm => (hmoments m hm).trans hpaying,
          List.forall_mem_singleton.mpr (hmiddle.trans hpaying)⟩) ?_ exit code nrgLeft
      rw [code_setCode, if_neg hother, hmiddle, hpaying]
  | @givenUp frames s entry h =>
      have hsettles := settlesAs_givenUp hreliable s entry
      exact ⟨List.forall_mem_singleton.mpr (congrFun (spared_checkpoint s).code a),
        congrFun (hsettles.restored rfl).spared.code a⟩

/-- **No code is stored where there is code already.** -/
theorem Course.spares (hreliable : Reliable setting) (h : Course setting frames s moments t)
    (hcode : s.accounts.code a ≠ []) : ∀ m ∈ moments, ∀ code, m.act ≠ .deposited a code := by
  induction h with
  | rest frames s => simp
  | andThen first second ih ih' =>
      have hfirst := ih hcode
      have hmiddle := (first.code_eq hreliable hfirst).2
      exact List.forall_mem_append.mpr ⟨hfirst, ih' (by rwa [hmiddle])⟩
  | entered hfatal hcode hstatic hdepth body ih =>
      exact List.forall_mem_cons.mpr ⟨fun code h => (by cases h), ih hcode⟩
  | guarded hfatal hopened body ends output nrgLeft ih =>
      have hran := ih (by rwa [hopened.spared.code])
      exact List.forall_mem_cons.mpr ⟨fun code h => (by cases h),
        List.forall_mem_append.mpr ⟨hran, fun m hm => (of_mem_leaveChronicle hm).2 a⟩⟩
  | @created frames s opening paid t moments _ address exit hfatal hopened hfree hstatic hpaid body
      hmode hlatched hsuccess stored nrgLeft ih =>
      have hopening : opening.accounts.code a ≠ [] := by rwa [hopened.spared.code]
      have hran := ih (by rwa [(spared_transfer hpaid).code])
      -- The address of the creation was free, so it is another one.
      have hother : address ≠ a := by
        rintro rfl
        exact hopening (code_eq_nil_of_isTaken hfree)
      have hstored : ∀ code, Act.deposited address stored ≠ .deposited a code := by
        intro code h
        exact hother (Act.deposited.inj h).1
      exact List.forall_mem_cons.mpr ⟨fun code h => (by cases h),
        List.forall_mem_append.mpr ⟨List.forall_mem_append.mpr
          ⟨hran, List.forall_mem_singleton.mpr hstored⟩,
            fun m hm => (of_mem_leaveChronicle hm).2 a⟩⟩
  | _ => simp

/-- **Code found before a course stays throughout.** -/
theorem Course.code_kept (hreliable : Reliable setting) (h : Course setting frames s moments t)
    (hcode : s.accounts.code a ≠ []) :
    (∀ m ∈ moments, m.state.accounts.code a = s.accounts.code a) ∧
      t.accounts.code a = s.accounts.code a :=
  h.code_eq hreliable (h.spares hreliable hcode)

/-! ### Code that has been stored -/

theorem Course.undisturbed_append (h : Course setting frames s moments t) (later : List Moment) :
    Undisturbed a (moments ++ later) ↔ Undisturbed a later := by
  rw [Undisturbed, h.enclosing_append, Undisturbed]

/-- Code that is there before a course lasts through it. -/
theorem Course.lasts (hreliable : Reliable setting) (h : Course setting frames s moments t)
    (hcode : s.accounts.code a = code) (hsome : code ≠ []) {later : List Moment} {after : Prop}
    (hlater : Lasts a code later after) : Lasts a code (moments ++ later) after := by
  subst hcode
  obtain ⟨hmoments, -⟩ := h.code_kept hreliable hsome
  refine ⟨fun between m rest hsplit hbetween => ?_, fun hall => ?_⟩
  · rcases List.append_eq_append_iff.mp hsplit with ⟨between', rfl, hlast⟩ | ⟨inside, rfl, hlast⟩
    · exact hlater.throughout between' m rest hlast ((h.undisturbed_append _).mp hbetween)
    · cases inside with
      | nil =>
          rw [List.append_nil] at h
          have hnow : Undisturbed a [] := undisturbed_nil a
          exact hlater.throughout [] m rest hlast.symm hnow
      | cons first inside =>
          rw [List.cons_append, List.cons.injEq] at hlast
          obtain ⟨rfl, -⟩ := hlast
          exact hmoments m (List.mem_append_right _ (List.mem_cons_self ..))
  · exact hlater.atEnd ((h.undisturbed_append _).mp hall)

/-- Code that is there when a frame is left lasts, unless the frame is left with a failure. -/
theorem lasts_leaveChronicle {point : Checkpoint} {exit : Exit} {output : Bytes} {nrgLeft : Nrg}
    (hcode : u.accounts.code a = code) {later : List Moment} {after : Prop}
    (hlater : (u.leave setting point exit output nrgLeft).1.isSuccess = true →
      Lasts a code later after) :
    Lasts a code (leaveChronicle setting frames point exit output nrgLeft u ++ later) after := by
  have hleft : Lasts a code
      (⟨frames, u, .left (u.leave setting point exit output nrgLeft).1⟩ :: later) after := by
    refine .cons rfl hcode fun hundisturbed => hlater ?_
    have hfailure := (hundisturbed _ (List.mem_singleton.mpr rfl)).1
    simpa [Moment.isFailure] using hfailure
  cases exit with
  | aborted cause => exact .cons rfl hcode fun _ => .cons rfl hcode fun _ => hleft
  | _ => exact .cons rfl hcode fun _ => hleft

theorem lasting_leaveChronicle {after : Address → Bytes → Prop} {later : List Moment}
    (h : Lasting after later) (point : Checkpoint) (exit : Exit) (output : Bytes) (nrgLeft : Nrg) :
    Lasting after (leaveChronicle setting frames point exit output nrgLeft u ++ later) := by
  have hleft : ∀ state outcome, Lasting after (⟨frames, state, .left outcome⟩ :: later) :=
    fun _ _ => ⟨by simp, h⟩
  cases exit with
  | aborted cause => exact ⟨by simp, by simp, hleft _ _⟩
  | _ => exact ⟨by simp, hleft _ _⟩

/-- What is there when a frame has come to its end lasts if it lasts after the frame. -/
theorem lasts_of_left (hreliable : Reliable setting) (h : Extends s.checkpoint.2 u) {exit : Exit}
    {output : Bytes} {nrgLeft : Nrg} {later : List Moment} {after : Prop}
    (hcode : u.accounts.code a = code)
    (hend : (u.leave setting s.checkpoint.1 exit output nrgLeft).2.accounts.code a = code →
      Lasts a code later after) :
    Lasts a code
      (leaveChronicle setting frames s.checkpoint.1 exit output nrgLeft u ++ later) after := by
  refine lasts_leaveChronicle hcode fun hsuccess => hend ?_
  rw [code_leave hreliable h, if_pos hsuccess, hcode]

/-- **What a course stores lasts**, if it lasts after the course. -/
theorem Course.lasting (hreliable : Reliable setting) (h : Course setting frames s moments t)
    {after : Address → Bytes → Prop} {later : List Moment} (hlater : Lasting after later)
    (hend : ∀ a code, t.accounts.code a = code → code ≠ [] → Lasts a code later (after a code)) :
    Lasting after (moments ++ later) := by
  induction h generalizing later with
  | andThen first second ih ih' =>
      rw [List.append_assoc]
      refine ih (ih' hlater hend) fun a code hcode hsome => ?_
      have hkept := (second.code_kept hreliable (by rwa [hcode])).2
      exact second.lasts hreliable hcode hsome (hend a code (hkept.trans hcode) hsome)
  | answered frames s room h => exact ⟨by simp, hlater⟩
  | asked frames s room h => exact ⟨by simp, hlater⟩
  | native hfatal b => exact ⟨by simp, hlater⟩
  | entered hfatal hcode hstatic hdepth body ih => exact ⟨by simp, ih hlater hend⟩
  | @guarded frames s opening t u moments exit hfatal hopened body ends output nrgLeft ih =>
      refine ⟨by simp, ?_⟩
      rw [List.append_eq, List.append_assoc]
      have hextends := hopened.extends_ends hreliable body ends
      refine ih (lasting_leaveChronicle hlater _ _ _ _) fun a code hcode hsome => ?_
      refine lasts_of_left hreliable hextends ?_ fun h => hend a code h hsome
      rw [ends.spared.code, hcode]
  | @created frames s opening paid t moments _ address exit hfatal hopened hfree hstatic hpaid body
      hmode hlatched hsuccess stored nrgLeft ih =>
      refine ⟨by simp, ?_⟩
      rw [List.append_eq, List.append_assoc, List.append_assoc]
      have hextends :=
        hopened.extends_stored hreliable hstatic hpaid body hmode hlatched address stored
      have hleft : ∀ b code,
          (t.updateAccounts fun o => o.setCode address stored).accounts.code b = code →
          code ≠ [] → Lasts b code (leaveChronicle setting frames s.checkpoint.1 exit stored nrgLeft
            (t.updateAccounts fun o => o.setCode address stored) ++ later) (after b code) := by
        intro b code hcode hsome
        exact lasts_of_left hreliable hextends hcode fun h => hend b code h hsome
      refine ih ⟨fun b code hact hsome => ?_, lasting_leaveChronicle hlater _ _ _ _⟩
        fun b code hcode hsome => .cons rfl hcode fun hundisturbed => ?_
      · cases hact
        exact hleft address stored (by rw [code_setCode, if_pos rfl]) hsome
      · -- The code is stored at another address, since it would disturb the code here.
        have hother : b ≠ address := by
          rintro rfl
          exact (hundisturbed _ (List.mem_singleton.mpr rfl)).2 stored rfl
        exact hleft b code (by rw [code_setCode, if_neg hother, hcode]) hsome
  | givenUp h => exact ⟨by simp, hlater⟩
  | _ => exact hlater

/-! ### The check of the address -/

/-- **Whenever code is stored, the address has been checked**: it was free when the frame of the
creation was let in. -/
theorem Course.checked (hreliable : Reliable setting) (h : Course setting frames s moments t)
    (before : List Moment) : Checked before moments := by
  induction h generalizing before with
  | andThen first second ih ih' => exact checked_append.mpr ⟨ih before, ih' _⟩
  | answered frames s room h => exact ⟨by simp, trivial⟩
  | asked frames s room h => exact ⟨by simp, trivial⟩
  | native hfatal b => exact ⟨by simp, trivial⟩
  | entered hfatal hcode hstatic hdepth body ih => exact ⟨by simp, ih _⟩
  | guarded hfatal hopened body ends output nrgLeft ih =>
      refine ⟨by simp, checked_append.mpr ⟨ih _, checked_of_none ?_ _⟩⟩
      exact fun m hm => (of_mem_leaveChronicle hm).2
  | @created frames s opening paid t moments _ address exit hfatal hopened hfree hstatic hpaid body
      hmode hlatched hsuccess stored nrgLeft ih =>
      refine ⟨by simp, checked_append.mpr ⟨checked_append.mpr ⟨ih _, ?_, trivial⟩,
        checked_of_none (fun m hm => (of_mem_leaveChronicle hm).2) _⟩⟩
      intro b code hact
      cases hact
      rw [List.append_assoc]
      have henclosing : enclosing 0 moments = [] := by
        rw [← List.append_nil moments, body.enclosing_append]
        rfl
      refine .intro rfl henclosing body.activity.balanced hfree ?_
      by_cases hinside : ∃ m ∈ moments, ∃ code, m.act = .deposited address code
      · exact Or.inr hinside
      · have hnone : ∀ m ∈ moments, ∀ code, m.act ≠ .deposited address code := by
          intro m hm code hact
          exact hinside ⟨m, hm, code, hact⟩
        have hfound := code_eq_nil_of_isTaken hfree
        rw [← (spared_transfer hpaid).code] at hfound
        exact Or.inl ((body.code_eq hreliable hnone).2.trans hfound)
  | givenUp h => exact ⟨by simp, trivial⟩
  | _ => trivial

end Executor

end MessageCalls
