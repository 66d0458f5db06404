import MessageCalls.Proofs.Executor.Creation
/-!
# MessageCalls.Proofs.Executor.Spending

What becomes of nrg. **No call and no creation hands back more than it was given**, provided that no
run of the interpreter reports more than its frame was given (`Executor.spent_everywhere`); so what
a dry run reports as used and what it reports as left make up the limit.

What is handed back is known exactly: it is what the code, the native contract or the empty code
left, less the deposit of a new contract (`Executor.CallSpends`, `Executor.CreationSpends`), and
nothing after a halt or a fatal condition, be it one of the frame itself or one latched before the
frame is left.

That an interpreter never reports too much may be shown program by program, taking for granted that
nested calls and creations keep to their limits (`Executor.thrifty_of_frugal`).
-/

namespace MessageCalls

theorem Nrg.subSaturating_le (n m : Nrg) : (subSaturating n m).toNat ≤ n.toNat := by
  rw [toNat_subSaturating]
  exact Nat.sub_le _ _

theorem NativeResult.nrgLeft_report_le (limit : Nrg) (result : NativeResult) :
    (result.report limit).nrgLeft.toNat ≤ limit.toNat := by
  cases result with
  | ok answer => exact Nrg.subSaturating_le limit answer.cost
  | error halt => exact Nat.zero_le _

/-- The answer hands back no more nrg than was given to the call or creation. -/
def Request.Keeps : (r : Request) → r.Answer → Prop
  | .call _ _ _ _ nrg _, answer => answer.nrgLeft.toNat ≤ nrg.limit.toNat
  | .create _ _ nrg _, answer => answer.nrgLeft.toNat ≤ nrg.limit.toNat
  | _, _ => True

/-- The program reports at most `limit` in the end, provided that what it calls and creates keeps to
its own limits. -/
def Program.Frugal (limit : Nrg) : Program FrameResult → Prop
  | .done result => result.nrgLeft.toNat ≤ limit.toNat
  | .ask r next => ∀ answer, r.Keeps answer → (next answer).Frugal limit

namespace Executor

variable {setting : Setting} {room : Nat} {s t u : Executor}

/-- A frame that the runner runs reports no more nrg than the frame was given. -/
def Bounded (run : FrameRunner) : Prop :=
  ∀ code frame s, (run code frame s).1.nrgLeft.toNat ≤ frame.nrg.limit.toNat

/-- No run of the interpreter reports more nrg than its frame was given. -/
def Thrifty (setting : Setting) : Prop :=
  ∀ room < setting.config.callStackLimit.toNat, Bounded (interpret setting room)

/-! ### What a frame hands back -/

/-- What is handed back when a frame is left that reported a result, while this fatal condition was
latched, if any. -/
inductive HandsBack (setting : Setting) (latched : Option Abort) (result : FrameResult) :
    CallOutcome → Prop
  | latched {cause : Abort} (hlatched : latched = some cause) :
      HandsBack setting latched result (.failed (.aborted cause) 0)
  | succeeded (hnone : latched = none) (hexit : result.exit.isSuccess = true) :
      HandsBack setting latched result ⟨.ok result.output, result.nrgLeft⟩
  | reverted (hnone : latched = none) (hexit : result.exit = .reverted) :
      HandsBack setting latched result (.failed (.reverted result.output) result.nrgLeft)
  | halted (hnone : latched = none) {cause : Halt} (hexit : result.exit = .halted cause) :
      HandsBack setting latched result (.failed (.halted cause) 0)
  | aborted (hnone : latched = none) {cause : Abort} (hexit : result.exit = .aborted cause) :
      HandsBack setting latched result (.failed (.aborted cause) 0)
  /-- The accounts refuse to close the snapshot of the frame, which is fatal. -/
  | unsettled (hunreliable : ¬ Reliable setting) (cause : Abort) :
      HandsBack setting latched result (.failed (.aborted cause) 0)

theorem outcome_leave (setting : Setting) (u : Executor) (point : Checkpoint) (exit : Exit)
    (output : Bytes) (nrgLeft : Nrg) :
    (u.leave setting point exit output nrgLeft).1 = (u.finalExit exit).outcome output nrgLeft ∨
      ∃ cause, (u.leave setting point exit output nrgLeft).1 = .failed (.aborted cause) 0 := by
  rw [leave_eq]
  split
  · exact .inl rfl
  · exact .inr ⟨_, rfl⟩

/-- Only accounts that refuse to close a snapshot keep a frame from being left as it should be. -/
theorem outcome_leave_checkpoint (hextends : Reliable setting → Extends s.checkpoint.2 u)
    (exit : Exit) (output : Bytes) (nrgLeft : Nrg) :
    (u.leave setting s.checkpoint.1 exit output nrgLeft).1 =
        (u.finalExit exit).outcome output nrgLeft ∨
      ¬ Reliable setting ∧ ∃ cause,
        (u.leave setting s.checkpoint.1 exit output nrgLeft).1 = .failed (.aborted cause) 0 := by
  by_cases hreliable : Reliable setting
  · exact .inl (leavesAs_leave hreliable (hextends hreliable) exit output nrgLeft).outcome_eq
  · exact (outcome_leave setting u s.checkpoint.1 exit output nrgLeft).imp_right
      fun hfatal => ⟨hreliable, hfatal⟩

theorem handsBack_finalExit (setting : Setting) (u : Executor) (result : FrameResult) :
    HandsBack setting u.fatal result
      ((u.finalExit result.exit).outcome result.output result.nrgLeft) := by
  unfold finalExit
  cases hfatal : u.fatal with
  | some cause => exact .latched rfl
  | none =>
      cases hexit : result.exit with
      | stopped => exact .succeeded rfl (by rw [hexit]; rfl)
      | returned => exact .succeeded rfl (by rw [hexit]; rfl)
      | reverted => exact .reverted rfl hexit
      | halted cause => exact .halted rfl hexit
      | aborted cause => exact .aborted rfl hexit

theorem handsBack_leave (hextends : Reliable setting → Extends s.checkpoint.2 u)
    (result : FrameResult) :
    HandsBack setting u.fatal result
      (u.leave setting s.checkpoint.1 result.exit result.output result.nrgLeft).1 := by
  rcases outcome_leave_checkpoint hextends result.exit result.output result.nrgLeft with
    houtcome | ⟨hunreliable, cause, houtcome⟩
  · rw [houtcome]
    exact handsBack_finalExit setting u result
  · rw [houtcome]
    exact .unsettled hunreliable cause

theorem HandsBack.nrgLeft_le {latched : Option Abort} {result : FrameResult}
    {outcome : CallOutcome} (h : HandsBack setting latched result outcome) :
    outcome.nrgLeft.toNat ≤ result.nrgLeft.toNat := by
  cases h with
  | succeeded => exact Nat.le_refl _
  | reverted => exact Nat.le_refl _
  | latched => exact Nat.zero_le _
  | halted => exact Nat.zero_le _
  | aborted => exact Nat.zero_le _
  | unsettled => exact Nat.zero_le _

theorem refund_le (failure : Failure) (limit : Nrg) :
    (failure.refund limit).toNat ≤ limit.toNat := by
  unfold Failure.refund
  split
  · exact Nat.zero_le _
  · exact Nat.le_refl _

theorem exists_interpret {run : FrameRunner} (h : runner setting room = some run) :
    ∃ below, room = below + 1 ∧ run = interpret setting below := by
  cases room with
  | zero => cases h
  | succ below =>
      cases h
      exact ⟨below, rfl, rfl⟩

/-! ### Message calls -/

/-- What a resolved call hands back, with room for so many frames. -/
inductive CallSpends (setting : Setting) (room : Nat) (c : Call) (s : Executor) :
    CallOutcome → Prop
  /-- It would move a value in static mode, which costs all of its nrg. -/
  | forbidden (hmode : s.isStatic = true) :
      CallSpends setting room c s (.failed (.halted .staticModeViolation) 0)
  /-- It is refused by the checks: for nothing, or for all of its nrg if a fatal condition is
  latched. -/
  | refused {failure : Failure}
      (h : s.preflight (runner setting room) c.payer c.value = .error failure) :
      CallSpends setting room c s (.failed failure (failure.refund c.nrg.limit))
  /-- Its target cannot hold the value, which is fatal. -/
  | unpaid {paid : Executor} {outcome : CallOutcome}
      (hpaid : (s.note (.event (.call c))).checkpoint.2.pay c.transfer =
        (.error (.aborted .balanceOverflow), paid))
      (left : HandsBack setting paid.fatal (.aborted .balanceOverflow) outcome) :
      CallSpends setting room c s outcome
  /-- It is answered by a native contract, by code, or by nobody. -/
  | answered {below : Nat} {paid answered : Executor} {inner : List Moment} {result : FrameResult}
      {outcome : CallOutcome} (hroom : room = below + 1)
      (hpaid : (s.note (.event (.call c))).checkpoint.2.pay c.transfer = (.ok (), paid))
      (answers : Answers setting below [] c paid inner result answered)
      (left : HandsBack setting answered.fatal result outcome) :
      CallSpends setting room c s outcome

theorem callSpends_carryOut (setting : Setting) (room : Nat) (c : Call) (s : Executor) :
    CallSpends setting room c s (carryOut setting (runner setting room) c s).1 := by
  cases hpre : s.preflight (runner setting room) c.payer c.value with
  | error failure =>
      rw [carryOut_of_preflight_error setting hpre]
      exact .refused hpre
  | ok run =>
      obtain ⟨below, hroom, rfl⟩ := exists_interpret (fatal_of_preflight hpre).2
      cases hpaid : (s.note (.event (.call c))).checkpoint.2.pay c.transfer with
      | mk result paid =>
          cases result with
          | error failure =>
              obtain rfl := overflow_of_pay_error
                (show (s.note (.event (.call c))).preflight _ _ _ = _ from hpre) hpaid
              rw [carryOut_of_pay_error setting hpre hpaid]
              exact .unpaid hpaid
                (handsBack_leave (fun _ => extends_pay hpaid) (.aborted .balanceOverflow))
          | ok done =>
              rw [carryOut_of_pay_ok setting hpre hpaid]
              refine .answered hroom hpaid (answers_answerCall setting below [] c paid)
                (handsBack_leave (fun hreliable => ?_) _)
              exact (extends_pay hpaid).trans
                (extends_answerCall hreliable (runsAs_interpret setting below) c)

theorem callSpends_callWith (setting : Setting) (room : Nat) (kind : CallKind) (caller : Identity)
    (target : Address) (input : Bytes) (nrg : Budget) (value : Amount) (s : Executor) :
    CallSpends setting room (kind.resolve s.isStatic caller target input nrg value) s
      (callWith setting (runner setting room) kind caller target input nrg value s).1 := by
  unfold callWith
  split
  · next hviolates =>
      simp only [Bool.and_eq_true] at hviolates
      exact .forbidden hviolates.1.1
  · exact callSpends_carryOut setting room _ s

/-! ### Creations -/

/-- What a creation hands back, with room for so many frames. -/
inductive CreationSpends (setting : Setting) (room : Nat) (caller : Identity)
    (scheme : AddressScheme) (init : Bytes) (nrg : Budget) (value : Amount) (s : Executor) :
    CreateOutcome → Prop
  /-- In static mode it costs all of its nrg. -/
  | forbidden (hmode : s.isStatic = true) :
      CreationSpends setting room caller scheme init nrg value s
        (.failed none (.halted .staticModeViolation) 0)
  /-- It is refused by the checks: for nothing, or for all of its nrg if a fatal condition is
  latched. -/
  | refused {failure : Failure}
      (h : s.preflight (runner setting room) caller.address value = .error failure) :
      CreationSpends setting room caller scheme init nrg value s
        (.failed none failure (failure.refund nrg.limit))
  /-- The nonce of its creator cannot be claimed, which costs nothing. -/
  | unclaimed (hlargest : (s.accounts.nonce caller.address).toNat = 2 ^ 64 - 1) :
      CreationSpends setting room caller scheme init nrg value s
        (.failed (some (s.newAddress scheme)) (.halted .maxNonce) nrg.limit)
  /-- Its address is taken, or the account there cannot hold the value, either of which is
  fatal. -/
  | unfounded {latched : Option Abort} {cause : Abort} {outcome : CallOutcome}
      (hcause : cause = .addressCollision ∨ cause = .balanceOverflow)
      (left : HandsBack setting latched (.aborted cause) outcome) :
      CreationSpends setting room caller scheme init nrg value s
        { outcome with address := some (s.newAddress scheme) }
  /-- Its init code runs, if there is any, and a deposit is due for what it returns. -/
  | founded {below : Nat} {point : Checkpoint} {claimed endowed u : Executor} {inner : List Moment}
      {ran : FrameResult} {outcome : CallOutcome} (hroom : room = below + 1)
      (hclaim : claimNonce setting caller.address
        (s.announceCreation caller scheme init nrg value) = (.ok point, claimed))
      (hpaid : claimed.transfer ⟨caller.address, s.newAddress scheme, value⟩ = (.ok (), endowed))
      (entered : Entered setting below [] init
        (initFrame caller.address (s.newAddress scheme) value nrg (s.tx.depth + 1)) endowed inner
        ran u)
      (left : Deployment setting.config u.fatal ran outcome ∨
        ¬ Reliable setting ∧ ∃ cause, outcome = .failed (.aborted cause) 0) :
      CreationSpends setting room caller scheme init nrg value s
        { outcome with address := some (s.newAddress scheme) }

section CreateAt

variable {below : Nat} {caller : Identity} {scheme : AddressScheme} {init : Bytes} {nrg : Budget}
  {value : Amount} {guarded claimed : Executor}

theorem creationSpends_createAt {run : FrameRunner} (hroom : room = below + 1)
    (hpre : s.preflight (runner setting room) caller.address value = .ok run)
    (hclaim : claimNonce setting caller.address
      (s.announceCreation caller scheme init nrg value) = (.ok guarded.checkpoint.1, claimed))
    (hextends : Reliable setting → Extends guarded.checkpoint.2 claimed) :
    CreationSpends setting room caller scheme init nrg value s
      { (createAt setting (interpret setting below) guarded.checkpoint.1 caller.address
          (s.newAddress scheme) init nrg value claimed).1 with
        address := some (s.newAddress scheme) } := by
  by_cases htaken : claimed.isTaken (s.newAddress scheme) = true
  · rw [createAt_of_taken _ _ _ _ _ htaken]
    have hcollided : Extends claimed (claimed.collided (s.newAddress scheme)) :=
      ((Unchanged.note claimed _).trans (.latch _ _)).toExtends
    exact .unfounded (.inl rfl)
      (handsBack_leave (fun hreliable => (hextends hreliable).trans hcollided)
        (.aborted .addressCollision))
  have hfree : claimed.isTaken (s.newAddress scheme) = false := by simpa using htaken
  cases hpaid : claimed.transfer ⟨caller.address, s.newAddress scheme, value⟩ with
  | mk result endowed =>
      cases result with
      | error failure =>
          obtain rfl := overflow_of_transfer_error
            (show (s.announceCreation caller scheme init nrg value).preflight _ _ _ = _ from hpre)
            hclaim hpaid
          rw [createAt_of_transfer_error _ _ _ _ _ hfree hpaid]
          exact .unfounded (.inr rfl)
            (handsBack_leave (fun hreliable => (hextends hreliable).trans (.transfer hpaid))
              (.aborted .balanceOverflow))
      | ok done =>
          have htx : claimed.tx = s.tx := (tx_claimNonce hclaim).trans rfl
          have hentered := entered_enter setting below [] init
            (initFrame caller.address (s.newAddress scheme) value nrg (s.tx.depth + 1)) endowed
          rw [createAt_of_transfer_ok _ _ _ _ _ hfree hpaid, htx]
          refine .founded hroom hclaim hpaid hentered ?_
          refine (outcome_leave_checkpoint (fun hreliable => ?_) _ _ _).imp_left fun houtcome => ?_
          · have hran := extends_enter (s := endowed) hreliable (runsAs_interpret setting below) init
              (initFrame caller.address (s.newAddress scheme) value nrg (s.tx.depth + 1))
            exact (((hextends hreliable).trans (.transfer hpaid)).trans hran).trans
              (extends_deposit setting _ _)
          · exact houtcome ▸ (deployment_deposit setting _ _ _).1

end CreateAt

theorem creationSpends_createWith (setting : Setting) (room : Nat) (caller : Identity)
    (scheme : AddressScheme) (init : Bytes) (nrg : Budget) (value : Amount) (s : Executor) :
    CreationSpends setting room caller scheme init nrg value s
      (createWith setting (runner setting room) caller scheme init nrg value s).1 := by
  by_cases hstatic : s.isStatic = true
  · rw [createWith_of_static setting hstatic]
    exact .forbidden hstatic
  have hmode : s.isStatic = false := by simpa using hstatic
  cases hpre : s.preflight (runner setting room) caller.address value with
  | error failure =>
      rw [createWith_of_preflight_error setting hmode hpre]
      exact .refused hpre
  | ok run =>
      obtain ⟨below, hroom, rfl⟩ := exists_interpret (fatal_of_preflight hpre).2
      cases hclaim : claimNonce setting caller.address
          (s.announceCreation caller scheme init nrg value) with
      | mk result claimed =>
          cases result with
          | error halt =>
              obtain ⟨rfl, hlargest⟩ := claimNonce_eq_error hclaim
              rw [createWith_of_claim_error setting hmode hpre hclaim]
              exact .unclaimed hlargest
          | ok point =>
              rw [createWith_of_claim_ok setting hmode hpre hclaim]
              obtain ⟨guarded, rfl, hclaimed⟩ := claimedBy_of_claimNonce hclaim
              exact creationSpends_createAt hroom hpre hclaim (hclaimed.extends_opened hmode)

/-! ### No more than was given -/

section Bounds

variable {below : Nat} {inner : List Moment} {result : FrameResult}

theorem Entered.nrgLeft_le (hbounded : Bounded (interpret setting below)) {frames : List Frame}
    {code : Bytes} {frame : Frame} (h : Entered setting below frames code frame s inner result t) :
    result.nrgLeft.toNat ≤ frame.nrg.limit.toNat := by
  cases h with
  | skipped => exact Nat.le_refl _
  | interpreted => exact hbounded code frame _

theorem Answers.nrgLeft_le (hbounded : Bounded (interpret setting below)) {frames : List Frame}
    {c : Call} (h : Answers setting below frames c s inner result t) :
    result.nrgLeft.toNat ≤ c.nrg.limit.toNat := by
  cases h with
  | native => exact NativeResult.nrgLeft_report_le c.nrg.limit _
  | code hforeign hentered => exact hentered.nrgLeft_le hbounded

theorem Deployment.nrgLeft_le {config : Config} {latched : Option Abort} {outcome : CallOutcome}
    (h : Deployment config latched result outcome) :
    outcome.nrgLeft.toNat ≤ result.nrgLeft.toNat := by
  cases h with
  | aborted => exact Nat.zero_le _
  | failed hnone hfailed =>
      cases hexit : result.exit <;> rw [hexit] at hfailed <;>
        first | exact Nat.le_refl _ | exact Nat.zero_le _
  | oversized => exact Nat.zero_le _
  | unpaid => exact Nat.zero_le _
  | deployed hnone hsuccess hfits hpaid => exact Nat.le.intro hpaid

end Bounds

section Room

variable (hbelow : ∀ below, room = below + 1 → Bounded (interpret setting below))

include hbelow

theorem CallSpends.nrgLeft_le {c : Call} {outcome : CallOutcome}
    (h : CallSpends setting room c s outcome) : outcome.nrgLeft.toNat ≤ c.nrg.limit.toNat := by
  cases h with
  | forbidden => exact Nat.zero_le _
  | refused => exact refund_le _ _
  | unpaid hpaid left => exact Nat.le_trans left.nrgLeft_le (Nat.zero_le _)
  | answered hroom hpaid answers left =>
      exact Nat.le_trans left.nrgLeft_le (answers.nrgLeft_le (hbelow _ hroom))

theorem CreationSpends.nrgLeft_le {caller : Identity} {scheme : AddressScheme} {init : Bytes}
    {nrg : Budget} {value : Amount} {outcome : CreateOutcome}
    (h : CreationSpends setting room caller scheme init nrg value s outcome) :
    outcome.nrgLeft.toNat ≤ nrg.limit.toNat := by
  cases h with
  | forbidden => exact Nat.zero_le _
  | refused => exact refund_le _ _
  | unclaimed => exact Nat.le_refl _
  | unfounded hcause left => exact Nat.le_trans left.nrgLeft_le (Nat.zero_le _)
  | founded hroom hclaim hpaid entered left =>
      rcases left with hdeployment | ⟨-, cause, rfl⟩
      · exact Nat.le_trans hdeployment.nrgLeft_le (entered.nrgLeft_le (hbelow _ hroom))
      · exact Nat.zero_le _

/-- Whatever is asked of the machine keeps to its limit. -/
theorem keeps_answer (r : Request) (s : Executor) :
    r.Keeps (answer setting (runner setting room) r s).1 := by
  cases r with
  | call kind caller target input nrg value =>
      exact (callSpends_callWith setting room kind caller target input nrg value s).nrgLeft_le
        hbelow
  | create caller init nrg value =>
      exact (creationSpends_createWith setting room caller (.legacy caller.address) init nrg value
        s).nrgLeft_le hbelow
  | _ => trivial

end Room

/-! ### Frugal programs -/

/-- A frugal program stays frugal as long as what it is answered keeps to the limits. -/
theorem nrgLeft_run_le {answer : (r : Request) → Executor → r.Answer × Executor}
    (hkeeps : ∀ (r : Request) s, r.Keeps (answer r s).1) {limit : Nrg} {p : Program FrameResult}
    (hfrugal : p.Frugal limit) (s : Executor) :
    (p.run answer s).1.nrgLeft.toNat ≤ limit.toNat := by
  induction p generalizing s with
  | done result => exact hfrugal
  | ask r next ih => exact ih _ (hfrugal _ (hkeeps r s)) _

/-- An interpreter whose programs are frugal never reports too much: by induction on the room, since
nested frames have less of it. -/
theorem bounded_of_frugal
    (hfrugal : ∀ code frame, (setting.interpreter code frame).Frugal frame.nrg.limit) :
    ∀ room, Bounded (interpret setting room)
  | 0 => fun code frame s =>
      nrgLeft_run_le (keeps_answer (by simp)) (hfrugal code frame) _
  | room + 1 => fun code frame s =>
      nrgLeft_run_le (keeps_answer (by simpa using bounded_of_frugal hfrugal room))
        (hfrugal code frame) _

theorem thrifty_of_frugal
    (hfrugal : ∀ code frame, (setting.interpreter code frame).Frugal frame.nrg.limit) :
    Thrifty setting := fun room _ => bounded_of_frugal hfrugal room

/-! ### Every call and every creation -/

/-- What is handed back for a call or a creation that is asked of the machine. -/
def Spends (setting : Setting) (s : Executor) : (r : Request) → r.Answer → Prop
  | .call kind caller target input nrg value, answer =>
    CallSpends setting (s.room setting) (kind.resolve s.isStatic caller target input nrg value) s
      answer
  | .create caller init nrg value, answer =>
    CreationSpends setting (s.room setting) caller (.legacy caller.address) init nrg value s answer
  | _, _ => True

theorem spends_answer (setting : Setting) (r : Request) (s : Executor) :
    Spends setting s r (answer setting (runner setting (s.room setting)) r s).1 := by
  cases r with
  | call => exact callSpends_callWith ..
  | create => exact creationSpends_createWith ..
  | _ => trivial

theorem Thrifty.below (h : Thrifty setting) (s : Executor) :
    ∀ below, s.room setting = below + 1 → Bounded (interpret setting below) := by
  intro below hroom
  refine h below ?_
  rw [Executor.room] at hroom
  omega

/-- **At every moment of an operation**, whatever depth it has reached, what is answered keeps to
the limit. -/
theorem spent_asked (hthrifty : Thrifty setting) {m : Moment} (hm : InFrame setting m) {r : Request}
    {given : r.Answer} (hasked : m.act = .asked r given) :
    r.Keeps given ∧ Spends setting m.state r given := by
  have hframes : m.running = m.frames := Moment.running_eq (by simp [hasked])
  have hdepth : m.state.tx.depth = m.frames.length := hframes ▸ hm.1.hosts.depth
  have hgiven : given = (answer setting (runner setting (m.state.room setting)) r m.state).1 := by
    rw [Executor.room, hdepth]
    exact hm.2.answered r given hasked
  rw [hgiven]
  exact ⟨keeps_answer (hthrifty.below m.state) r m.state, spends_answer setting r m.state⟩

/-- **No call and no creation hands back more nrg than it was given**, and what it hands back is
known exactly; what a dry run uses and what it leaves make up the limit. -/
theorem spent_everywhere (setting : Setting) (hthrifty : Thrifty setting) (s : Executor) :
    (∀ kind caller target input nrg value,
      let outcome := (call setting kind caller target input nrg value s).1
      outcome.nrgLeft.toNat ≤ nrg.limit.toNat ∧
        CallSpends setting (s.room setting)
          (kind.resolve s.isStatic caller target input nrg value) s outcome) ∧
    (∀ caller scheme init nrg value,
      let outcome := (create setting caller scheme init nrg value s).1
      outcome.nrgLeft.toNat ≤ nrg.limit.toNat ∧
        CreationSpends setting (s.room setting) caller scheme init nrg value s outcome) ∧
    (s.tx.depth = 0 → ∀ op, ∀ m ∈ operationChronicle setting s op, ∀ r given,
      m.act = .asked r given → r.Keeps given ∧ Spends setting m.state r given) ∧
    ∀ caller target value input nrg,
      let dry := (simulateCall setting caller target value input nrg s).1
      (transactCall setting caller target value input nrg s).1.nrgLeft.toNat ≤ nrg.limit.toNat ∧
        (transactCreate setting caller value input nrg s).1.nrgLeft.toNat ≤ nrg.limit.toNat ∧
        dry.nrgUsed.toNat + dry.outcome.nrgLeft.toNat = nrg.limit.toNat := by
  have hcall : ∀ (s : Executor) kind caller target input nrg value,
      (call setting kind caller target input nrg value s).1.nrgLeft.toNat ≤ nrg.limit.toNat :=
    fun s _ _ _ _ _ _ => (callSpends_callWith ..).nrgLeft_le (hthrifty.below s)
  have hcreate : ∀ (s : Executor) caller scheme init nrg value,
      (create setting caller scheme init nrg value s).1.nrgLeft.toNat ≤ nrg.limit.toNat :=
    fun s _ _ _ _ _ => (creationSpends_createWith ..).nrgLeft_le (hthrifty.below s)
  have htransact : ∀ (s : Executor) caller target value input nrg,
      (transactCall setting caller target value input nrg s).1.nrgLeft.toNat ≤ nrg.limit.toNat :=
    fun s caller target value _ nrg =>
      hcall (s.record (.transactCall caller target value nrg.limit)).start.2 ..
  refine ⟨fun _ _ _ _ _ _ => ⟨hcall .., callSpends_callWith ..⟩,
    fun _ _ _ _ _ => ⟨hcreate .., creationSpends_createWith ..⟩, ?_, ?_⟩
  · intro hdepth op m hm r given
    exact spent_asked hthrifty (inFrame_operate setting hdepth op m hm)
  · intro caller target value input nrg dry
    refine ⟨htransact .., hcreate (s.record (.transactCreate ..)).start.2 .., ?_⟩
    have hleft : dry.outcome.nrgLeft.toNat ≤ nrg.limit.toNat := htransact s.checkpoint.2 ..
    have hused : dry.nrgUsed.toNat = nrg.limit.toNat - dry.outcome.nrgLeft.toNat :=
      Nrg.toNat_subSaturating nrg.limit dry.outcome.nrgLeft
    omega

/-- A contract keeps 30 nrg, gives the rest to another one, which spends 35 and reverts, and hands
back what it gets back and 20 more; with less than 30 it halts. -/
theorem spent_everywhere_by_two_contracts :
    let interpreter : Interpreter := fun code frame =>
      if code = [2] then pure (.reverted [] (Nrg.subSaturating frame.nrg.limit 35))
      else if frame.nrg.limit < 30 then pure (.halted .outOfNrg)
      else do
        let nrg := { frame.nrg with limit := Nrg.subSaturating frame.nrg.limit 30 }
        let inner ← Program.request (.call .call frame.identity 6 [] nrg 0)
        pure (.returned [] (Nrg.addSaturating inner.nrgLeft 20))
    let setting := homesteadWith interpreter
    let s := withTwoContracts 0
    let called := (call setting .call (.external 1) 5 [] ⟨90, 1⟩ 0 s).1
    let created := (create setting (.external 1) (.fixed 9) [2] ⟨90, 1⟩ 0 s).1
    let dry := (simulateCall setting 1 5 0 [] ⟨90, 1⟩ s).1
    Thrifty setting ∧ s.tx.depth = 0 ∧ called = ⟨.ok [], 45⟩ ∧
      CallSpends setting (s.room setting)
        (CallKind.call.resolve false (.external 1) 5 [] ⟨90, 1⟩ 0) s called ∧
      created = .failed (some 9) (.reverted []) 55 ∧
      CreationSpends setting (s.room setting) (.external 1) (.fixed 9) [2] ⟨90, 1⟩ 0 s created ∧
      (∀ m ∈ operationChronicle setting s (.simulateCall 1 5 0 [] ⟨90, 1⟩), ∀ r given,
        m.act = .asked r given → r.Keeps given ∧ Spends setting m.state r given) ∧
      dry.nrgUsed = 45 ∧ dry.nrgUsed.toNat + dry.outcome.nrgLeft.toNat = 90 := by
  intro interpreter setting s called created dry
  have hfrugal : ∀ code frame, (interpreter code frame).Frugal frame.nrg.limit := by
    intro code frame
    by_cases hsecond : code = [2]
    · simp only [interpreter, if_pos hsecond]
      exact Nrg.subSaturating_le _ _
    by_cases hlittle : frame.nrg.limit < 30
    · simp only [interpreter, if_neg hsecond, if_pos hlittle]
      exact Nat.zero_le _
    · simp only [interpreter, if_neg hsecond, if_neg hlittle]
      intro inner hkeeps
      have hgiven : inner.nrgLeft.toNat ≤ (Nrg.subSaturating frame.nrg.limit 30).toNat := hkeeps
      have henough : 30 ≤ frame.nrg.limit.toNat := UInt64.not_lt.mp hlittle
      rw [Nrg.toNat_subSaturating, show (30 : Nrg).toNat = 30 from rfl] at hgiven
      show (Nrg.addSaturating inner.nrgLeft 20).toNat ≤ _
      rw [Nrg.toNat_addSaturating, show (20 : Nrg).toNat = 20 from rfl]
      omega
  have hthrifty : Thrifty setting := thrifty_of_frugal hfrugal
  obtain ⟨hcalls, hcreations, hasked, hdry⟩ := spent_everywhere setting hthrifty s
  exact ⟨hthrifty, rfl, rfl, (hcalls .call (.external 1) 5 [] ⟨90, 1⟩ 0).2, rfl,
    (hcreations (.external 1) (.fixed 9) [2] ⟨90, 1⟩ 0).2, hasked rfl _, rfl,
    (hdry 1 5 0 [] ⟨90, 1⟩).2.2⟩

end Executor

end MessageCalls
