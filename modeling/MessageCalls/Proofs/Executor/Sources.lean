import MessageCalls.Proofs.Executor.Refusals
/-!
# MessageCalls.Proofs.Executor.Sources

Where the fatal conditions of a run come from. **A condition that is met was reported by code that
ran before, or is one of the two that the machine can meet itself**
(`Executor.sourced_requestChronicle`): the address of a creation is taken, or a balance overflows.
So whatever else is latched was signalled by the interpreter.

What code reports is not among the moments of a chronicle. It is what the machine answers when the
program of the frame is carried out in the state in which the frame begins to run, provided that
the room for nested frames is what the depth of that state leaves.
-/

namespace MessageCalls

/-- The exit that the code which begins to run reports in the end. -/
def Moment.reported? (setting : Setting) (m : Moment) : Option Exit :=
  match m.act with
  | .entered code frame =>
    let s := m.state.note (.frame code frame m.state.tx.depth m.state.isStatic)
    some (s.perform setting (setting.interpreter code frame)).1.exit
  | _ => none

namespace Executor

/-- A fatal condition has its source among some moments, or in the machine itself. -/
def HasSource (setting : Setting) (moments : List Moment) (cause : Abort) : Prop :=
  cause = .addressCollision ∨ cause = .balanceOverflow ∨
    ∃ m ∈ moments, m.reported? setting = some (.aborted cause)

/-- Every condition that is met has its source. -/
def Sourced (setting : Setting) (moments : List Moment) : Prop :=
  ∀ m ∈ moments, ∀ cause, m.raised? = some cause → HasSource setting moments cause

/-- An exit that tells a fatal condition tells one with a source among some moments. -/
def ExitSourced (setting : Setting) (moments : List Moment) (exit : Exit) : Prop :=
  ∀ cause, exit.abort? = some cause → HasSource setting moments cause

variable {setting : Setting} {frames : List Frame} {s t : Executor}
  {moments first later : List Moment}

theorem HasSource.mono {cause : Abort} (h : HasSource setting first cause) (hsub : first ⊆ later) :
    HasSource setting later cause := by
  obtain hcollision | hoverflow | ⟨m, hm, hreported⟩ := h
  · exact Or.inl hcollision
  · exact Or.inr (Or.inl hoverflow)
  · exact Or.inr (Or.inr ⟨m, hsub hm, hreported⟩)

theorem ExitSourced.mono {exit : Exit} (h : ExitSourced setting first exit)
    (hsub : first ⊆ later) : ExitSourced setting later exit :=
  fun cause hcause => (h cause hcause).mono hsub

theorem eq_aborted_of_abort? {exit : Exit} {cause : Abort} (h : exit.abort? = some cause) :
    exit = .aborted cause := by
  cases exit <;> cases h
  rfl

theorem exitSourced_of_abort? {exit : Exit} (h : exit.abort? = none) :
    ExitSourced setting moments exit := by
  intro cause hcause
  rw [h] at hcause
  cases hcause

theorem sourced_nil : Sourced setting [] := by simp [Sourced]

theorem Sourced.append (hfirst : Sourced setting first) (hlater : Sourced setting later) :
    Sourced setting (first ++ later) := by
  intro m hm cause hcause
  rcases List.mem_append.mp hm with hm | hm
  · exact (hfirst m hm cause hcause).mono (List.subset_append_left _ _)
  · exact (hlater m hm cause hcause).mono (List.subset_append_right _ _)

theorem Sourced.cons {m : Moment} (hm : m.raised? = none) (h : Sourced setting later) :
    Sourced setting (m :: later) := by
  have hfirst : Sourced setting [m] := by
    intro m' hm' cause hcause
    rw [List.mem_singleton.mp hm', hm] at hcause
    cases hcause
  exact hfirst.append h

/-! ### Leaving a frame -/

theorem raised?_leaveChronicle {point : Checkpoint} {exit : Exit} {output : Bytes} {nrgLeft : Nrg}
    {m : Moment} (hm : m ∈ leaveChronicle setting frames point exit output nrgLeft s)
    {cause : Abort} (hcause : m.raised? = some cause) : exit.abort? = some cause := by
  cases exit with
  | aborted met =>
      rcases List.mem_cons.mp hm with rfl | hm
      · exact hcause
      · rcases List.mem_cons.mp hm with rfl | hm
        · cases hcause
        · rw [List.mem_singleton.mp hm] at hcause
          cases hcause
  | _ =>
      rcases List.mem_cons.mp hm with rfl | hm
      · cases hcause
      · rw [List.mem_singleton.mp hm] at hcause
        cases hcause

/-- A frame is left with an exit whose condition has its source in what was done in the frame. -/
theorem Sourced.leave (h : Sourced setting moments) {exit : Exit}
    (hexit : ExitSourced setting moments exit) (point : Checkpoint) (output : Bytes)
    (nrgLeft : Nrg) (s : Executor) :
    Sourced setting (moments ++ leaveChronicle setting frames point exit output nrgLeft s) := by
  intro m hm cause hcause
  have hsource : HasSource setting moments cause := by
    rcases List.mem_append.mp hm with hm | hm
    · exact h m hm cause hcause
    · exact hexit cause (raised?_leaveChronicle hm hcause)
  exact hsource.mono (List.subset_append_left _ _)

/-- Value that cannot move lets the machine meet no other condition than an overflow. -/
theorem exitSourced_of_transfer {transfer : Transfer} {failure : Failure}
    (h : s.transfer transfer = (.error failure, t)) : ExitSourced setting moments failure.exit := by
  unfold Executor.transfer Overlay.transfer at h
  by_cases hshort : s.accounts.balance transfer.source < transfer.value
  · rw [if_pos hshort] at h
    cases h
    exact exitSourced_of_abort? rfl
  · rw [if_neg hshort] at h
    dsimp only at h
    split at h
    · cases h
    · next hmoved =>
        split at hmoved
        · cases hmoved
          cases h
          exact fun cause hcause => Or.inr (Or.inl (Option.some.inj hcause).symm)
        · cases hmoved

/-! ### Depositing code -/

theorem sourced_depositChronicle (setting : Setting) (frames : List Frame) (address : Address)
    (result : FrameResult) (s : Executor) :
    Sourced setting (depositChronicle setting frames address result s) := by
  unfold depositChronicle
  split
  · split
    · exact sourced_nil.cons rfl
    · exact sourced_nil
  · exact sourced_nil

/-- A deposit can only halt a frame that succeeded. -/
theorem ExitSourced.deposit {result : FrameResult} (h : ExitSourced setting moments result.exit)
    (address : Address) (s : Executor) :
    ExitSourced setting moments (Executor.deposit setting address result s).1.exit := by
  unfold Executor.deposit
  split
  · split
    · exact h
    · exact exitSourced_of_abort? rfl
  · exact h

/-! ### Frames -/

/-- What a frame reports has its source in the moments that its recorder lists. The machine runs it
with as much room as its depth leaves. -/
def SourcedFrame (setting : Setting) (room : Nat) (runner : FrameRunner)
    (recorder : FrameRecorder) : Prop :=
  ∀ (frames : List Frame) (code : Bytes) (frame : Frame) (s : Executor),
    s.room setting + 1 = room →
      Sourced setting (recorder frames code frame s) ∧
        ExitSourced setting (recorder frames code frame s) (runner code frame s).1.exit

section Frame

variable {room : Nat} {runner : FrameRunner} {recorder : FrameRecorder}
  (hframes : SourcedFrame setting room runner recorder)

include hframes

theorem sourced_enter (frames : List Frame) (code : Bytes) {frame : Frame}
    (hdepth : frame.depth = s.tx.depth + 1) (hroom : s.room setting = room) (hpos : 0 < room) :
    Sourced setting (enterChronicle recorder frames code frame s) ∧
      ExitSourced setting (enterChronicle recorder frames code frame s)
        (enter runner code frame s).1.exit := by
  unfold enterChronicle enter
  by_cases hcode : code.isEmpty = true
  · rw [if_pos hcode, if_pos hcode]
    exact ⟨sourced_nil, exitSourced_of_abort? rfl⟩
  · rw [if_neg hcode, if_neg hcode]
    have hinside : (s.inside frame).room setting + 1 = room := by
      show setting.config.callStackLimit.toNat - frame.depth + 1 = room
      unfold Executor.room at hroom
      omega
    exact hframes frames code frame (s.inside frame) hinside

theorem sourced_answerCall (frames : List Frame) (c : Call) (hroom : s.room setting = room)
    (hpos : 0 < room) :
    Sourced setting (answerCallChronicle setting recorder frames c s) ∧
      ExitSourced setting (answerCallChronicle setting recorder frames c s)
        (answerCall setting runner c s).1.exit := by
  unfold answerCallChronicle answerCall
  cases hnative : setting.natives.run c.codeAddress c.input c.nrg.limit c.identity with
  | some result =>
      refine ⟨sourced_nil.cons rfl, exitSourced_of_abort? ?_⟩
      -- A native contract returns or halts.
      cases result <;> rfl
  | none => exact sourced_enter hframes frames _ rfl hroom hpos

theorem sourced_createAt (frames : List Frame) {point : Checkpoint} {creator address : Address}
    {init : Bytes} {nrg : Budget} {value : Amount} (hroom : s.room setting = room)
    (hpos : 0 < room) :
    Sourced setting (createAtChronicle setting runner recorder frames point creator address init nrg
      value s) := by
  unfold createAtChronicle
  by_cases htaken : s.isTaken address = true
  · rw [if_pos htaken]
    have hcollision : ExitSourced setting [] (.aborted .addressCollision) :=
      fun cause hcause => Or.inl (Option.some.inj hcause).symm
    exact sourced_nil.leave hcollision _ _ _ _
  · rw [if_neg htaken]
    dsimp only
    cases hpaid : s.transfer ⟨creator, address, value⟩ with
    | mk result paid =>
        cases result with
        | error failure => exact sourced_nil.leave (exitSourced_of_transfer hpaid) _ _ _ _
        | ok done =>
            obtain ⟨htx, -, -⟩ := transfer_fields hpaid
            have hpaidRoom : paid.room setting = room := by
              rw [← hroom, Executor.room, Executor.room, htx]
            have hdepth : (initFrame creator address value nrg (s.tx.depth + 1)).depth =
                paid.tx.depth + 1 := by
              rw [htx]
              rfl
            generalize initFrame creator address value nrg (s.tx.depth + 1) = frame at hdepth ⊢
            obtain ⟨hentered, hexit⟩ := sourced_enter hframes frames init hdepth hpaidRoom hpos
            have hdeposited := sourced_depositChronicle setting frames address
              (enter runner init frame paid).1 (enter runner init frame paid).2
            have hfinal := hexit.deposit address (enter runner init frame paid).2
            exact (hentered.append hdeposited).leave
              (hfinal.mono (List.subset_append_left _ _)) _ _ _ _

end Frame

/-! ### Requests -/

theorem room_congr (h : t.tx.depth = s.tx.depth) : t.room setting = s.room setting := by
  rw [Executor.room, Executor.room, h]

theorem pos_of_runner {room : Nat} {runner : FrameRunner}
    (h : Executor.runner setting room = some runner) : 0 < room := by
  cases room with
  | zero => cases h
  | succ room => exact Nat.succ_pos room

theorem sourced_claimChronicle (setting : Setting) (frames : List Frame) (creator : Address)
    (s : Executor) : Sourced setting (claimChronicle setting frames creator s) := by
  unfold claimChronicle
  split
  · exact sourced_nil
  · dsimp only
    split
    · exact sourced_nil.cons rfl
    · exact sourced_nil

theorem tx_claimNonce {creator : Address} {point : Checkpoint}
    (h : claimNonce setting creator s = (.ok point, t)) : t.tx = s.tx := by
  unfold claimNonce at h
  split at h
  · cases hinc : s.incNonce creator with
    | error halt => simp [hinc] at h
    | ok claimed =>
        simp only [hinc] at h
        cases h
        exact (incNonce_fields hinc).1
  · cases hinc : s.checkpoint.2.incNonce creator with
    | error halt => simp [hinc] at h
    | ok claimed =>
        simp only [hinc] at h
        cases h
        exact (incNonce_fields hinc).1

section Room

variable {room : Nat}
  (hframes : ∀ runner, Executor.runner setting room = some runner →
    SourcedFrame setting room runner (recorder setting room))

include hframes

theorem sourced_carryOut {c : Call} (hroom : s.room setting = room) :
    Sourced setting (carryOutChronicle setting (Executor.runner setting room)
      (recorder setting room) frames c s) := by
  unfold carryOutChronicle
  dsimp only
  cases hpre : (s.note (.event (.call c))).preflight (Executor.runner setting room) c.payer
      c.value with
  | error failure => exact sourced_nil
  | ok runner =>
      obtain ⟨-, hrunner⟩ := fatal_of_preflight hpre
      refine Sourced.cons rfl ?_
      cases hpaid : (s.note (.event (.call c))).checkpoint.2.pay c.transfer with
      | mk result paid =>
          cases result with
          | error failure =>
              obtain ⟨-, hresult, -⟩ | ⟨tr, -, htransfer⟩ := pay_cases hpaid
              · cases hresult
              · exact sourced_nil.leave (exitSourced_of_transfer htransfer) _ _ _ _
          | ok done =>
              have hpaidRoom : paid.room setting = room := by
                rw [← hroom, Executor.room, (pay_fields hpaid).1]
                rfl
              obtain ⟨hanswered, hexit⟩ := sourced_answerCall (hframes runner hrunner) frames c
                hpaidRoom (pos_of_runner hrunner)
              exact hanswered.leave hexit _ _ _ _

theorem sourced_callChronicle {kind : CallKind} {caller : Identity} {target : Address}
    {input : Bytes} {nrg : Budget} {value : Amount} (hroom : s.room setting = room) :
    Sourced setting (callChronicle setting (Executor.runner setting room) (recorder setting room)
      frames kind caller target input nrg value s) := by
  unfold callChronicle
  split
  · exact sourced_nil
  · exact sourced_carryOut hframes hroom

theorem sourced_createChronicle {caller : Identity} {scheme : AddressScheme} {init : Bytes}
    {nrg : Budget} {value : Amount} (hroom : s.room setting = room) :
    Sourced setting (createChronicle setting (Executor.runner setting room) (recorder setting room)
      frames caller scheme init nrg value s) := by
  unfold createChronicle
  by_cases hstatic : s.isStatic = true
  · rw [if_pos hstatic]
    exact sourced_nil
  · rw [if_neg hstatic]
    dsimp only
    cases hpre : s.preflight (Executor.runner setting room) caller.address value with
    | error failure => exact sourced_nil
    | ok runner =>
        obtain ⟨-, hrunner⟩ := fatal_of_preflight hpre
        dsimp only
        generalize s.newAddress scheme = address
        generalize hevent : Entry.event (.create caller.address address scheme value init nrg.limit)
          = event
        cases hclaim : claimNonce setting caller.address (s.note event) with
        | mk result t =>
            cases result with
            | error halt => exact sourced_claimChronicle setting frames _ _
            | ok point =>
                have htx : t.tx = (s.note event).tx := tx_claimNonce hclaim
                have hclaimed : t.room setting = room :=
                  (room_congr (congrArg TxContext.depth htx)).trans hroom
                exact (sourced_createAt (hframes runner hrunner) frames hclaimed
                  (pos_of_runner hrunner)).cons rfl

theorem sourced_request (frames : List Frame) (r : Request) (hroom : s.room setting = room) :
    Sourced setting (requestChronicle setting (Executor.runner setting room)
      (recorder setting room) frames r s) := by
  unfold requestChronicle
  refine Sourced.cons rfl ?_
  cases r with
  | call kind caller target input nrg value => exact sourced_callChronicle hframes hroom
  | create caller init nrg value => exact sourced_createChronicle hframes hroom
  | _ => exact sourced_nil

theorem sourced_chronicle (frames : List Frame) {α : Type} (p : Program α)
    (hroom : s.room setting = room) :
    Sourced setting (p.chronicle (answer setting (Executor.runner setting room))
      (requestChronicle setting (Executor.runner setting room) (recorder setting room) frames)
      s) := by
  -- Each answer is given in the state that the requests before it led to, at the same depth.
  induction p generalizing s with
  | done value => exact sourced_nil
  | ask r next ih =>
      rw [Program.chronicle]
      have hanswered := answered setting room frames s r
      have hrest : (answer setting (Executor.runner setting room) r s).2.room setting = room :=
        (room_congr hanswered.toRetains.depth).trans hroom
      exact (sourced_request hframes frames r hroom).append (ih _ hrest)

end Room

/-- **What the frames report has its source**, whatever room there is for them. -/
theorem sourcedFrame_recorder (setting : Setting) (room : Nat) :
    ∀ runner, Executor.runner setting room = some runner →
      SourcedFrame setting room runner (recorder setting room) := by
  induction room with
  | zero =>
      intro runner h
      cases h
  | succ room ih =>
      intro runner h frames code frame s hroom
      cases h
      let begun := s.note (.frame code frame s.tx.depth s.isStatic)
      have hbegun : begun.room setting = room := Nat.succ.inj hroom
      have hbody := (sourced_chronicle ih (frame :: frames) (setting.interpreter code frame)
        hbegun).cons (m := ⟨frames, s, .entered code frame⟩) rfl
      -- The machine runs the program with the room that the depth of the frame leaves.
      have hreported : (⟨frames, s, .entered code frame⟩ : Moment).reported? setting =
          some (((setting.interpreter code frame).run
            (answer setting (Executor.runner setting room)) begun).1.exit) := by
        rw [← hbegun]
        rfl
      refine ⟨hbody, fun cause hcause => Or.inr (Or.inr ⟨_, List.mem_cons_self, ?_⟩)⟩
      rw [hreported]
      exact congrArg some (eq_aborted_of_abort? hcause)

section Depth

variable (setting : Setting) (frames : List Frame) (s : Executor)

/-- **Every condition met while a request is answered has its source.** -/
theorem sourced_requestChronicle (r : Request) :
    Sourced setting (requestChronicle setting (runner setting (s.room setting))
      (recorder setting (s.room setting)) frames r s) :=
  sourced_request (sourcedFrame_recorder setting _) frames r rfl

end Depth

end Executor

end MessageCalls
