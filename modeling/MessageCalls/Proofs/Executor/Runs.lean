import MessageCalls.Proofs.Executor.Course
/-!
# MessageCalls.Proofs.Executor.Runs

**Every run is a course**, and hence an activity: answering a request does nothing but what the
rules of `Executor.Course` allow, and the moments it goes through are those of its chronicle
(`Executor.course_requestChronicle`). The proof follows the machine function by function. Calls
and creations are taken with their outcomes (`called_callWith`, `created_createWith`); the
recursion on the room is met once, in `runsAs_recorder`.
-/

namespace MessageCalls.Executor

variable {setting : Setting} {frames : List Frame} {s t : Executor}

/-! ### What moving value and claiming a nonce leave alone -/

theorem transfer_fields {transfer : Transfer} {result : Except Failure Unit}
    (h : s.transfer transfer = (result, t)) :
    t.tx = s.tx ∧ t.isStatic = s.isStatic ∧ t.fatal = s.fatal := by
  unfold Executor.transfer at h
  split at h <;> cases h <;> exact ⟨rfl, rfl, rfl⟩

theorem pay_cases {transfer : Option Transfer} {result : Except Failure Unit}
    (h : s.pay transfer = (result, t)) :
    (transfer = none ∧ result = .ok () ∧ t = s) ∨
      ∃ tr, transfer = some tr ∧ s.transfer tr = (result, t) := by
  cases transfer with
  | none => exact Or.inl ⟨rfl, (congrArg Prod.fst h).symm, (congrArg Prod.snd h).symm⟩
  | some tr => exact Or.inr ⟨tr, rfl, h⟩

theorem pay_fields {transfer : Option Transfer} {result : Except Failure Unit}
    (h : s.pay transfer = (result, t)) :
    t.tx = s.tx ∧ t.isStatic = s.isStatic ∧ t.fatal = s.fatal := by
  obtain ⟨-, -, rfl⟩ | ⟨tr, -, htransfer⟩ := pay_cases h
  · exact ⟨rfl, rfl, rfl⟩
  · exact transfer_fields htransfer

theorem incNonce_fields {a : Address} (h : s.incNonce a = .ok t) :
    t.tx = s.tx ∧ t.isStatic = s.isStatic ∧ t.fatal = s.fatal := by
  unfold incNonce at h
  split at h <;> cases h
  exact ⟨rfl, rfl, rfl⟩

/-- A call or a creation is let in only while no fatal condition is latched. -/
theorem fatal_of_preflight {room : Option FrameRunner} {payer : Address} {value : Amount}
    {runner : FrameRunner} (h : s.preflight room payer value = .ok runner) :
    s.fatal = none ∧ room = some runner := by
  unfold preflight at h
  split at h
  · cases h
  · next hfatal =>
      split at h
      · cases h
      · split at h <;> cases h
        exact ⟨hfatal, rfl⟩

/-- A fatal condition that refuses a call or a creation is latched already. -/
theorem fatal_of_preflight_eq_error {room : Option FrameRunner} {payer : Address} {value : Amount}
    {failure : Failure} (h : s.preflight room payer value = .error failure) (cause : Abort)
    (hfailure : failure = .aborted cause) : s.fatal = some cause := by
  subst hfailure
  unfold preflight at h
  split at h
  · next hfatal =>
      cases h
      exact hfatal
  · split at h
    · cases h
    · split at h <;> cases h

theorem course_pay {transfer : Option Transfer} (hstatic : s.isStatic = true → transfer = none)
    (h : s.pay transfer = (.ok (), t)) : Course setting frames s [] t := by
  obtain ⟨-, -, rfl⟩ | ⟨tr, rfl, htransfer⟩ := pay_cases h
  · exact .rest frames t
  · have hmodifies : s.isStatic = false := by
      cases hs : s.isStatic with
      | false => rfl
      | true => cases hstatic hs
    exact .transfer hmodifies htransfer

/-! ### Frames -/

/-- A runner does nothing else to a state than what its recorder lists. -/
def RunsAs (setting : Setting) (runner : FrameRunner) (recorder : FrameRecorder) : Prop :=
  ∀ (frames : List Frame) (code : Bytes) (frame : Frame) (s : Executor),
    ∃ moments, recorder frames code frame s = ⟨frames, s, .entered code frame⟩ :: moments ∧
      Course setting (frame :: frames) (s.note (.frame code frame s.tx.depth s.isStatic)) moments
        (runner code frame s).2

theorem isStatic_enter (runner : FrameRunner) (code : Bytes) (frame : Frame) :
    (enter runner code frame s).2.isStatic = s.isStatic := by
  unfold enter
  split <;> rfl

/-- The code of a new contract is stored as the init code returned it, or else the creation does not
succeed. -/
theorem deposit_cases (setting : Setting) (frames : List Frame) (address : Address)
    (result : FrameResult) (s : Executor) :
    (depositChronicle setting frames address result s = [] ∧
      (deposit setting address result s).2 = s ∧
      ((deposit setting address result s).1.exit.isSuccess = true → s.fatal ≠ none)) ∨
    (result.exit.isSuccess = true ∧ s.fatal = none ∧
      depositChronicle setting frames address result s =
        [⟨frames, s, .deposited address result.output⟩] ∧
      ∃ nrgLeft, deposit setting address result s =
        ({ result with nrgLeft }, s.updateAccounts fun o => o.setCode address result.output)) := by
  unfold depositChronicle deposit
  split
  · next h =>
      obtain ⟨hsuccess, hfatal⟩ := Bool.and_eq_true_iff.mp h
      cases setting.config.depositCode result.output.length result.nrgLeft with
      | ok nrgLeft =>
          exact Or.inr ⟨hsuccess, Option.isNone_iff_eq_none.mp hfatal, rfl, nrgLeft, rfl⟩
      | error halt => exact Or.inl ⟨rfl, rfl, fun hexit => by cases hexit⟩
  · next h =>
      refine Or.inl ⟨rfl, rfl, fun hsuccess hfatal => h ?_⟩
      rw [hsuccess, hfatal]
      rfl

section Runner

variable {runner : FrameRunner} {recorder : FrameRecorder} (hruns : RunsAs setting runner recorder)

include hruns

theorem course_enter {code : Bytes} {frame : Frame} (hfatal : s.fatal = none)
    (hstatic : s.isStatic = true → frame.isStatic = true)
    (hdepth : frame.depth = s.tx.depth + 1) :
    Course setting frames s (enterChronicle recorder frames code frame s)
      (enter runner code frame s).2 := by
  unfold enterChronicle enter
  by_cases hcode : code.isEmpty = true
  · rw [if_pos hcode, if_pos hcode]
    exact .rest frames s
  · rw [if_neg hcode, if_neg hcode]
    obtain ⟨moments, hrecorded, hbody⟩ := hruns frames code frame (s.inside frame)
    rw [hrecorded]
    exact .entered hfatal (by simpa using hcode) hstatic hdepth hbody

theorem course_answerCall {c : Call} (hfatal : s.fatal = none)
    (hstatic : s.isStatic = true → c.isStatic = true) :
    Course setting frames s (answerCallChronicle setting recorder frames c s)
      (answerCall setting runner c s).2 := by
  unfold answerCallChronicle answerCall
  cases hnative : setting.natives.run c.codeAddress c.input c.nrg.limit c.identity with
  | some result =>
      refine (Course.native hfatal c.codeAddress).before ?_
      dsimp only
      split
      · exact .note frames s _ rfl
      · exact .rest frames s
  | none => exact course_enter hruns hfatal hstatic rfl

end Runner

/-! ### Calls and creations, with their outcomes -/

section Room

variable {room : Option FrameRunner} {recorder : FrameRecorder}
  (hruns : ∀ runner, room = some runner → RunsAs setting runner recorder)

include hruns

theorem called_carryOut {c : Call}
    (hstatic : s.isStatic = true → c.transfer = none ∧ c.isStatic = true) :
    Called setting frames s (carryOutChronicle setting room recorder frames c s)
      (carryOut setting room c s).1 (carryOut setting room c s).2 := by
  unfold carryOutChronicle carryOut
  have hnoted : Noted s (s.note (.event (.call c))) := .note .refl _ rfl
  have hmode : (s.note (.event (.call c))).isStatic = s.isStatic := rfl
  have hlatched : (s.note (.event (.call c))).fatal = s.fatal := rfl
  rw [← hmode] at hstatic
  clear hmode
  -- From here on the call counts as announced, and only what that left alone is remembered.
  generalize s.note (.event (.call c)) = s₁ at *
  dsimp only
  cases hpre : s₁.preflight room c.payer c.value with
  | error failure =>
      exact .refused ((hnoted.note _ rfl).note _ rfl) failure
        (fun cause hcause => hlatched.symm.trans (fatal_of_preflight_eq_error hpre cause hcause)) _
  | ok runner =>
      obtain ⟨hfatal, hroom⟩ := fatal_of_preflight hpre
      cases hpaid : s₁.checkpoint.2.pay c.transfer with
      | mk result paid =>
          obtain ⟨-, hmode, hfatal'⟩ := pay_fields hpaid
          cases result with
          | error failure =>
              obtain ⟨-, hresult, -⟩ | ⟨tr, -, htransfer⟩ := pay_cases hpaid
              · cases hresult
              · exact .letIn hnoted (.intro hfatal _ (.rest frames _) (.unpaid htransfer) [] 0
                  (.guarded hfatal .guarded (.rest frames _) (.unpaid htransfer) [] 0)) .refl
          | ok done =>
              have hpay : Course setting frames s₁.checkpoint.2 [] paid :=
                course_pay (fun h => (hstatic h).1) hpaid
              have hanswered : Course setting frames paid
                  (answerCallChronicle setting recorder frames c paid)
                  (answerCall setting runner c paid).2 :=
                course_answerCall (hruns runner hroom) (hfatal'.trans hfatal)
                  fun h => (hstatic (hmode.symm.trans h)).2
              have hbody := hpay.after hanswered
              exact .letIn hnoted (.intro hfatal _ hbody.activity (.reported _ _) _ _
                (.guarded hfatal .guarded hbody (.reported _ _) _ _)) (.note .refl _ rfl)

/-- A message call. -/
theorem called_callWith (kind : CallKind) (caller : Identity) (target : Address) (input : Bytes)
    (nrg : Budget) (value : Amount) :
    Called setting frames s
      (callChronicle setting room recorder frames kind caller target input nrg value s)
      (callWith setting room kind caller target input nrg value s).1
      (callWith setting room kind caller target input nrg value s).2 := by
  unfold callChronicle callWith
  split
  · exact .refused .refl _ (fun cause h => by cases h) _
  · refine called_carryOut hruns fun h => ?_
    rw [CallKind.resolve, h]
    exact ⟨rfl, rfl⟩

theorem called_createAt {runner : FrameRunner} (hroom : room = some runner)
    {creator address : Address} {init : Bytes} {nrg : Budget} {value : Amount} {t : Executor}
    (hfatal : s.fatal = none) (hopened : Opens s t) (hmode : t.isStatic = false)
    (hnone : t.fatal = none) :
    Called setting frames s
      (⟨frames, t, .opened⟩ ::
        createAtChronicle setting runner recorder frames s.checkpoint.1 creator address init nrg
          value t)
      (createAt setting runner s.checkpoint.1 creator address init nrg value t).1
      (createAt setting runner s.checkpoint.1 creator address init nrg value t).2 := by
  unfold createAtChronicle createAt
  by_cases htaken : t.isTaken address = true
  · rw [if_pos htaken, if_pos htaken]
    exact .letIn .refl (.intro hfatal t hopened.activity (.collided t address) [] 0
      (.guarded hfatal hopened (.rest frames t) (.collided t address) [] 0)) .refl
  · rw [if_neg htaken, if_neg htaken]
    have hfree : t.isTaken address = false := by simpa using htaken
    dsimp only
    cases hpaid : t.transfer ⟨creator, address, value⟩ with
    | mk result paid =>
        cases result with
        | error failure =>
            exact .letIn .refl (.intro hfatal t hopened.activity (.unpaid hpaid) [] 0
              (.guarded hfatal hopened (.rest frames t) (.unpaid hpaid) [] 0)) .refl
        | ok done =>
            obtain ⟨htx, hmode', hfatal'⟩ := transfer_fields hpaid
            have hpay : Course setting frames t [] paid := .transfer hmode hpaid
            have hmodifies : paid.isStatic = false := hmode'.trans hmode
            have hdepth : (initFrame creator address value nrg (t.tx.depth + 1)).depth =
                paid.tx.depth + 1 := by
              rw [htx]
              rfl
            generalize initFrame creator address value nrg (t.tx.depth + 1) = frame at hdepth ⊢
            have hentered : Course setting frames paid
                (enterChronicle recorder frames init frame paid) (enter runner init frame paid).2 :=
              course_enter (hruns runner hroom) (hfatal'.trans hnone)
                (fun h => by rw [hmodifies] at h; cases h) hdepth
            have hleft : (enter runner init frame paid).2.isStatic = false :=
              (isStatic_enter runner init frame).trans hmodifies
            have hran := hopened.activity.after (hpay.after hentered).activity
            dsimp only
            generalize enter runner init frame paid = ended at hentered hleft hran ⊢
            rcases deposit_cases setting frames address ended.1 ended.2 with
              ⟨hchronicle, hdeposit, -⟩ | ⟨hsuccess, hlatched, hchronicle, nrgLeft, hdeposit⟩
            · rw [hchronicle, hdeposit, List.append_nil]
              exact .letIn .refl (.intro hfatal t hran (.reported _ _) _ _
                (.guarded hfatal hopened (hpay.after hentered) (.reported _ _) _ _))
                (.note .refl _ rfl)
            · rw [hchronicle, hdeposit]
              exact .letIn .refl
                (.intro hfatal t (hran.andThen (.deposit hleft hlatched address _)) (.reported _ _)
                  _ _ (.created hfatal hopened hfree hmode hpaid hentered hleft hlatched hsuccess
                    _ nrgLeft))
                (.note .refl _ rfl)

end Room

/-- A nonce is claimed in `s`, which ends in `t`: in between, in `guarded`, the checkpoint is taken
that guards the creation. -/
structure ClaimedBy (setting : Setting) (creator : Address) (s guarded t : Executor) : Prop where
  claimed : Claimed setting creator s guarded
  guarded_fields : guarded.isStatic = s.isStatic ∧ guarded.fatal = s.fatal
  fields : t.isStatic = s.isStatic ∧ t.fatal = s.fatal
  opens : s.isStatic = false → Opens guarded t

theorem claimedBy_of_claimNonce {creator : Address} {point : Checkpoint}
    (h : claimNonce setting creator s = (.ok point, t)) :
    ∃ guarded, point = guarded.checkpoint.1 ∧ ClaimedBy setting creator s guarded t := by
  unfold claimNonce at h
  split at h
  · next hpersists =>
      cases hinc : s.incNonce creator with
      | error halt => simp [hinc] at h
      | ok claimed =>
          obtain ⟨-, hmode, hfatal⟩ := incNonce_fields hinc
          simp only [hinc] at h
          cases h
          exact ⟨claimed, rfl, by rw [Claimed, if_pos hpersists, hinc], ⟨hmode, hfatal⟩,
            ⟨hmode, hfatal⟩, fun _ => .guarded⟩
  · next hpersists =>
      cases hinc : s.checkpoint.2.incNonce creator with
      | error halt => simp [hinc] at h
      | ok claimed =>
          obtain ⟨-, hmode, hfatal⟩ := incNonce_fields hinc
          simp only [hinc] at h
          cases h
          exact ⟨s, rfl, by rw [Claimed, if_neg hpersists], ⟨rfl, rfl⟩, ⟨hmode, hfatal⟩,
            fun hs => .claimed hs hinc⟩

/-- A nonce that cannot be claimed. -/
theorem created_claimNonce {creator : Address} {halt : Halt} {s₁ : Executor} (hnoted : Noted s s₁)
    (h : claimNonce setting creator s₁ = (.error halt, t)) (address : Address) (nrgLeft : Nrg) :
    Created setting frames creator s (claimChronicle setting frames creator s₁)
      (.failed (some address) (.halted halt) nrgLeft) t := by
  unfold claimNonce at h
  unfold claimChronicle
  by_cases hpersists : setting.config.noncePersistsOnFailure = true
  · rw [if_pos hpersists] at h ⊢
    cases hinc : s₁.incNonce creator with
    | error halt' =>
        simp only [hinc] at h
        cases h
        exact .unclaimed hnoted hpersists hinc (.note .refl _ rfl) address nrgLeft
    | ok claimed => simp [hinc] at h
  · rw [if_neg hpersists] at h ⊢
    cases hinc : s₁.checkpoint.2.incNonce creator with
    | error halt' =>
        simp only [hinc] at h ⊢
        cases h
        exact .givenUp hnoted (by simpa using hpersists) rfl halt address nrgLeft
    | ok claimed => simp [hinc] at h

/-- A contract creation. -/
theorem created_createWith {room : Option FrameRunner} {recorder : FrameRecorder}
    (hruns : ∀ runner, room = some runner → RunsAs setting runner recorder) (caller : Identity)
    (scheme : AddressScheme) (init : Bytes) (nrg : Budget) (value : Amount) :
    Created setting frames caller.address s
      (createChronicle setting room recorder frames caller scheme init nrg value s)
      (createWith setting room caller scheme init nrg value s).1
      (createWith setting room caller scheme init nrg value s).2 := by
  unfold createChronicle createWith
  by_cases hstatic : s.isStatic = true
  · rw [if_pos hstatic, if_pos hstatic]
    exact .refused .refl _ (fun cause h => by cases h) _
  · rw [if_neg hstatic, if_neg hstatic]
    have hmode : s.isStatic = false := by simpa using hstatic
    dsimp only
    cases hpre : s.preflight room caller.address value with
    | error failure =>
        exact .refused (.note .refl _ rfl) failure (fatal_of_preflight_eq_error hpre) _
    | ok runner =>
        obtain ⟨hfatal, hroom⟩ := fatal_of_preflight hpre
        dsimp only
        generalize s.newAddress scheme = address
        generalize hevent : Entry.event (.create caller.address address scheme value init nrg.limit)
          = event
        have hnoted : Noted s (s.note event) := .note .refl event (by rw [← hevent]; rfl)
        cases hclaim : claimNonce setting caller.address (s.note event) with
        | mk result t =>
            cases result with
            | error halt => exact created_claimNonce hnoted hclaim address _
            | ok point =>
                obtain ⟨guarded, rfl, hclaimed⟩ := claimedBy_of_claimNonce hclaim
                exact .letIn hnoted hmode hclaimed.claimed hfatal
                  (called_createAt hruns hroom (hclaimed.guarded_fields.2.trans hfatal)
                    (hclaimed.opens hmode) (hclaimed.fields.1.trans hmode)
                    (hclaimed.fields.2.trans hfatal)) address

/-! ### Requests -/

/-- **Every request is a course.** -/
theorem course_requestChronicle {room : Option FrameRunner} {recorder : FrameRecorder}
    (hruns : ∀ runner, room = some runner → RunsAs setting runner recorder) (r : Request) :
    Course setting frames s (requestChronicle setting room recorder frames r s)
      (answer setting room r s).2 := by
  cases r with
  | call kind caller target input nrg value =>
      refine (Course.asked frames s room rfl).andThen ?_
      exact (called_callWith hruns kind caller target input nrg value).course
  | create caller init nrg value =>
      refine (Course.asked frames s room rfl).andThen ?_
      exact (created_createWith hruns caller (.legacy caller.address) init nrg value).course
  | _ => exact .answered frames s room rfl

theorem course_chronicle {room : Option FrameRunner} {recorder : FrameRecorder}
    (hruns : ∀ runner, room = some runner → RunsAs setting runner recorder) {α : Type}
    (p : Program α) :
    Course setting frames s
      (p.chronicle (answer setting room) (requestChronicle setting room recorder frames) s)
      (p.run (answer setting room) s).2 := by
  -- Each answer is given in the state that the requests before it led to.
  induction p generalizing s with
  | done value => exact .rest frames s
  | ask r next ih =>
      rw [Program.chronicle, Program.run_ask]
      exact (course_requestChronicle hruns r).andThen (ih _)

/-- **A frame does nothing but what its recorder lists**, whatever room there is for it. -/
theorem runsAs_recorder (setting : Setting) (room : Nat) :
    ∀ runner, Executor.runner setting room = some runner →
      RunsAs setting runner (recorder setting room) := by
  -- A frame is run with the runner of one frame less, which there is none of in the end.
  induction room with
  | zero =>
      intro runner h
      cases h
  | succ room ih =>
      intro runner h frames code frame s
      cases h
      exact ⟨_, rfl, course_chronicle ih _⟩

section Depth

variable (setting : Setting) (room : Nat) (frames : List Frame) (s : Executor)

/-- **Every message call comes about as `Called` says**, with room for any number of frames. -/
theorem called (kind : CallKind) (caller : Identity) (target : Address) (input : Bytes)
    (nrg : Budget) (value : Amount) :
    Called setting frames s
      (callChronicle setting (runner setting room) (recorder setting room) frames kind caller target
        input nrg value s)
      (callWith setting (runner setting room) kind caller target input nrg value s).1
      (callWith setting (runner setting room) kind caller target input nrg value s).2 :=
  called_callWith (runsAs_recorder setting room) kind caller target input nrg value

/-- **Every contract creation comes about as `Created` says**, with room for any number of
frames. -/
theorem created (caller : Identity) (scheme : AddressScheme) (init : Bytes) (nrg : Budget)
    (value : Amount) :
    Created setting frames caller.address s
      (createChronicle setting (runner setting room) (recorder setting room) frames caller scheme
        init nrg value s)
      (createWith setting (runner setting room) caller scheme init nrg value s).1
      (createWith setting (runner setting room) caller scheme init nrg value s).2 :=
  created_createWith (runsAs_recorder setting room) caller scheme init nrg value

/-- **Every request is a course**, with room for any number of frames. -/
theorem coursed (r : Request) :
    Course setting frames s
      (requestChronicle setting (runner setting room) (recorder setting room) frames r s)
      (answer setting (runner setting room) r s).2 :=
  course_requestChronicle (runsAs_recorder setting room) r

/-- Every request is an activity. -/
theorem answered (r : Request) :
    Activity setting frames s
      (requestChronicle setting (runner setting room) (recorder setting room) frames r s)
      (answer setting (runner setting room) r s).2 := (coursed setting room frames s r).activity

end Depth

end MessageCalls.Executor
