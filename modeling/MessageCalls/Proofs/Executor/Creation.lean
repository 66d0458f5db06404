import MessageCalls.Proofs.Executor.Admission
import MessageCalls.Proofs.Executor.Sources
import MessageCalls.Proofs.Executor.StoredCode
/-!
# MessageCalls.Proofs.Executor.Creation

Contract creations from end to end. `Executor.creationRefusal?` lists the reasons for which one is
refused, in the order in which they count. **A creation is refused for the first of them that holds,
and otherwise its init code runs as the new account** (`Executor.decided_create`); what the code
returns is deployed exactly when it is small enough and its deposit can be paid
(`Executor.deployment_deposit`).
-/

namespace MessageCalls

/-! ### The deposit -/

/-- The code is small enough to be deployed. -/
def Config.Fits (config : Config) (code : Bytes) : Prop :=
  ∀ limit ∈ config.contractLimit, code.length ≤ limit.toNat

/-- What the deposit of some code costs, which 64 bits may not be enough for. -/
def Config.depositOf (config : Config) (code : Bytes) : Nat :=
  code.length * config.codeDepositNrg.toNat

/-- How the deposit of some code comes out. -/
inductive Config.Deposits (config : Config) (code : Bytes) (nrgLeft : Nrg) : Except Halt Nrg → Prop
  | oversized (h : ¬ config.Fits code) : Deposits config code nrgLeft (.error .contractLimit)
  | unpaid (hfits : config.Fits code) (h : nrgLeft.toNat < config.depositOf code) :
      Deposits config code nrgLeft (.error .outOfNrg)
  | paid {rest : Nrg} (hfits : config.Fits code)
      (h : rest.toNat + config.depositOf code = nrgLeft.toNat) :
      Deposits config code nrgLeft (.ok rest)

theorem Config.deposits (config : Config) (code : Bytes) (nrgLeft : Nrg) :
    config.Deposits code nrgLeft (config.depositCode code.length nrgLeft) := by
  have hfits : config.Fits code ↔
      ¬ (config.contractLimit.any fun limit => limit.toNat < code.length) = true := by
    unfold Fits
    cases config.contractLimit <;> simp
  unfold depositCode
  by_cases hlarge : (config.contractLimit.any fun limit => limit.toNat < code.length) = true
  · rw [if_pos hlarge]
    exact .oversized fun h => hfits.mp h hlarge
  · rw [if_neg hlarge]
    dsimp only
    split
    · next hpaid =>
        have hbound := nrgLeft.toNat_lt
        refine .paid (hfits.mpr hlarge) ?_
        rw [UInt64.toNat_ofNat', Nat.mod_eq_of_lt (by omega)]
        exact Nat.sub_add_cancel hpaid
    · next hshort => exact .unpaid (hfits.mpr hlarge) (Nat.not_le.mp hshort)

namespace Executor

variable {setting : Setting} {frames : List Frame} {s t u : Executor} {moments : List Moment}

/-- What a creation makes of the result of its init code, in the end: whether a fatal condition was
latched by then comes first. -/
inductive Deployment (config : Config) (latched : Option Abort) (ran : FrameResult) :
    CallOutcome → Prop
  | aborted {cause : Abort} (hlatched : latched = some cause) :
      Deployment config latched ran (.failed (.aborted cause) 0)
  | failed (hnone : latched = none) (hfailed : ran.exit.isSuccess = false) :
      Deployment config latched ran (ran.exit.outcome ran.output ran.nrgLeft)
  | oversized (hnone : latched = none) (hsuccess : ran.exit.isSuccess = true)
      (hlarge : ¬ config.Fits ran.output) :
      Deployment config latched ran (.failed (.halted .contractLimit) 0)
  | unpaid (hnone : latched = none) (hsuccess : ran.exit.isSuccess = true)
      (hfits : config.Fits ran.output) (hshort : ran.nrgLeft.toNat < config.depositOf ran.output) :
      Deployment config latched ran (.failed (.halted .outOfNrg) 0)
  | deployed {rest : Nrg} (hnone : latched = none) (hsuccess : ran.exit.isSuccess = true)
      (hfits : config.Fits ran.output)
      (hpaid : rest.toNat + config.depositOf ran.output = ran.nrgLeft.toNat) :
      Deployment config latched ran ⟨.ok ran.output, rest⟩

theorem outcome_of_isSuccess {exit : Exit} (h : exit.isSuccess = true) (output : Bytes)
    (nrgLeft : Nrg) : exit.outcome output nrgLeft = ⟨.ok output, nrgLeft⟩ := by
  cases exit <;> first | rfl | cases h

/-- **The code that was returned is deployed exactly if it fits and its deposit can be paid.** -/
theorem deployment_deposit (setting : Setting) (address : Address) (ran : FrameResult)
    (s : Executor) :
    let stored := deposit setting address ran s
    let outcome := (stored.2.finalExit stored.1.exit).outcome stored.1.output stored.1.nrgLeft
    Deployment setting.config s.fatal ran outcome ∧ stored.2.tx = s.tx ∧
      (outcome.isSuccess = true →
        stored.2.accounts.view = s.accounts.view.setCode address ran.output) := by
  intro stored outcome
  by_cases hpays : (ran.exit.isSuccess && s.fatal.isNone) = true
  · obtain ⟨hsuccess, hnone⟩ := Bool.and_eq_true_iff.mp hpays
    have hfatal : s.fatal = none := Option.isNone_iff_eq_none.mp hnone
    have hdeposits := setting.config.deposits ran.output ran.nrgLeft
    have hstored : stored = deposit setting address ran s := rfl
    rw [deposit, if_pos hpays] at hstored
    have hhalted : ∀ halt, stored = ({ ran with exit := .halted halt, nrgLeft := 0 }, s) →
        outcome = .failed (.halted halt) 0 := by
      intro halt hkept
      simp only [outcome, hkept, finalExit, hfatal]
      rfl
    generalize setting.config.depositCode ran.output.length ran.nrgLeft = paid at hdeposits hstored
    cases hdeposits with
    | oversized hlarge =>
        rw [hhalted _ hstored, hstored]
        exact ⟨.oversized hfatal hsuccess hlarge, rfl, fun h => by cases h⟩
    | unpaid hfits hshort =>
        rw [hhalted _ hstored, hstored]
        exact ⟨.unpaid hfatal hsuccess hfits hshort, rfl, fun h => by cases h⟩
    | @paid rest hfits hpaid =>
        have houtcome : outcome = ⟨.ok ran.output, rest⟩ := by
          have hexit : (s.updateAccounts fun o => o.setCode address ran.output).finalExit ran.exit =
              ran.exit := by
            unfold finalExit
            rw [show (s.updateAccounts _).fatal = none from hfatal]
          simp only [outcome, hstored, hexit]
          exact outcome_of_isSuccess hsuccess _ _
        rw [houtcome, hstored]
        exact ⟨.deployed hfatal hsuccess hfits hpaid, rfl, fun _ => Overlay.view_setCode ..⟩
  · have hstored : stored = (ran, s) := if_neg hpays
    have houtcome : outcome = (s.finalExit ran.exit).outcome ran.output ran.nrgLeft := by
      simp only [outcome, hstored]
    rw [houtcome, hstored]
    unfold finalExit
    cases hfatal : s.fatal with
    | some cause => exact ⟨.aborted rfl, rfl, fun h => by cases h⟩
    | none =>
        have hfailed : ran.exit.isSuccess = false := by simpa [hfatal] using hpays
        refine ⟨.failed rfl hfailed, rfl, fun h => ?_⟩
        rw [Exit.isSuccess_outcome, hfailed] at h
        cases h

/-- What becomes of a creation whose init code has run. -/
theorem leave_deposit (hreliable : Reliable setting) (h : Extends s.checkpoint.2 u)
    (address : Address) (ran : FrameResult) :
    let stored := deposit setting address ran u
    let left := stored.2.leave setting s.checkpoint.1 stored.1.exit stored.1.output stored.1.nrgLeft
    Deployment setting.config u.fatal ran left.1 ∧
      (left.1.isSuccess = true →
        left.2.accounts.view = u.accounts.view.setCode address ran.output ∧ left.2.tx = u.tx) := by
  intro stored left
  have hworked : Extends s.checkpoint.2 stored.2 := h.trans (extends_deposit setting address ran)
  have hleaves := leavesAs_leave hreliable hworked stored.1.exit stored.1.output stored.1.nrgLeft
  obtain ⟨hcomes, htx, hstored⟩ := deployment_deposit setting address ran u
  rw [← hleaves.outcome_eq] at hcomes hstored
  refine ⟨hcomes, fun hsuccess => ?_⟩
  rcases leave_cases hreliable hworked stored.1.exit stored.1.output stored.1.nrgLeft with
    ⟨-, hview, hkept⟩ | ⟨hfailed, -⟩
  · exact ⟨hview.trans (hstored hsuccess), hkept.trans htx⟩
  · exact absurd (hfailed.symm.trans hsuccess) Bool.false_ne_true

/-- A creation that returns code has stored what its init code returned, and paid for it. -/
theorem Deployment.of_result_eq_ok {config : Config} {latched : Option Abort} {ran : FrameResult}
    {outcome : CallOutcome} (h : Deployment config latched ran outcome) {code : Bytes}
    (hok : outcome.result = .ok code) :
    (ran.exit.isSuccess = true ∧ ran.output = code) ∧ config.Fits code ∧
      outcome.nrgLeft.toNat + config.depositOf code = ran.nrgLeft.toNat := by
  cases h with
  | aborted => cases hok
  | failed hnone hfailed =>
      have hsuccess := Exit.isSuccess_outcome ran.exit ran.output ran.nrgLeft
      rw [hfailed, CallOutcome.isSuccess, hok] at hsuccess
      cases hsuccess
  | oversized => cases hok
  | unpaid => cases hok
  | deployed hnone hsuccess hfits hpaid =>
      obtain rfl : ran.output = code := by simpa using hok
      exact ⟨⟨hsuccess, rfl⟩, hfits, hpaid⟩

/-- Without a fatal condition, a creation returns code exactly if its init code succeeded with it,
it fits, and its deposit can be paid from what the run has left. -/
theorem Deployment.result_eq_ok_iff {config : Config} {ran : FrameResult} {outcome : CallOutcome}
    (h : Deployment config none ran outcome) (code : Bytes) :
    outcome.result = .ok code ↔
      (ran.exit.isSuccess = true ∧ ran.output = code) ∧ config.Fits code ∧
        config.depositOf code ≤ ran.nrgLeft.toNat := by
  constructor
  · intro hok
    obtain ⟨hran, hfits, hpaid⟩ := h.of_result_eq_ok hok
    exact ⟨hran, hfits, by omega⟩
  · rintro ⟨⟨hsuccess, rfl⟩, hfits, hpaid⟩
    cases h with
    | aborted hlatched => cases hlatched
    | failed hnone hfailed => exact absurd (hfailed.symm.trans hsuccess) Bool.false_ne_true
    | oversized hnone _ hlarge => exact absurd hfits hlarge
    | unpaid hnone _ _ hshort => exact absurd hpaid (Nat.not_le.mpr hshort)
    | deployed => rfl

/-! ### The steps of a creation -/

/-- The address of a new contract is found to be taken. -/
def collided (s : Executor) (address : Address) : Executor :=
  (s.record (.collision address)).latch .addressCollision

section CreateAt

variable (setting : Setting) (run : FrameRunner) (recorder : FrameRecorder) (frames : List Frame)
  (point : Checkpoint) {creator address : Address} (init : Bytes) (nrg : Budget) {value : Amount}
  {paid : Executor} {failure : Failure}

theorem createAt_of_taken (h : s.isTaken address = true) :
    createAt setting run point creator address init nrg value s =
      (s.collided address).leave setting point (.aborted .addressCollision) [] 0 :=
  if_pos h

theorem createAtChronicle_of_taken (h : s.isTaken address = true) :
    createAtChronicle setting run recorder frames point creator address init nrg value s =
      leaveChronicle setting frames point (.aborted .addressCollision) [] 0
        (s.collided address) :=
  if_pos h

theorem createAt_of_transfer_error (h : s.isTaken address = false)
    (hpaid : s.transfer ⟨creator, address, value⟩ = (.error failure, paid)) :
    createAt setting run point creator address init nrg value s =
      paid.leave setting point failure.exit [] 0 := by
  simp only [createAt, h, hpaid]
  rfl

theorem createAtChronicle_of_transfer_error (h : s.isTaken address = false)
    (hpaid : s.transfer ⟨creator, address, value⟩ = (.error failure, paid)) :
    createAtChronicle setting run recorder frames point creator address init nrg value s =
      leaveChronicle setting frames point failure.exit [] 0 paid := by
  simp only [createAtChronicle, h, hpaid]
  rfl

theorem createAt_of_transfer_ok (h : s.isTaken address = false)
    (hpaid : s.transfer ⟨creator, address, value⟩ = (.ok (), paid)) :
    let frame := initFrame creator address value nrg (s.tx.depth + 1)
    let ran := enter run init frame paid
    let stored := deposit setting address ran.1 ran.2
    let left := stored.2.leave setting point stored.1.exit stored.1.output stored.1.nrgLeft
    createAt setting run point creator address init nrg value s =
      (left.1, left.2.record (.createFinished address s.tx.depth left.1)) := by
  simp only [createAt, h, hpaid]
  rfl

theorem createAtChronicle_of_transfer_ok (h : s.isTaken address = false)
    (hpaid : s.transfer ⟨creator, address, value⟩ = (.ok (), paid)) :
    let frame := initFrame creator address value nrg (s.tx.depth + 1)
    let ran := enter run init frame paid
    let stored := deposit setting address ran.1 ran.2
    createAtChronicle setting run recorder frames point creator address init nrg value s =
      enterChronicle recorder frames init frame paid ++
        depositChronicle setting frames address ran.1 ran.2 ++
        leaveChronicle setting frames point stored.1.exit stored.1.output stored.1.nrgLeft
          stored.2 := by
  simp only [createAtChronicle, h, hpaid]
  rfl

end CreateAt

/-- The creation is announced. -/
def announceCreation (s : Executor) (caller : Identity) (scheme : AddressScheme) (init : Bytes)
    (nrg : Budget) (value : Amount) : Executor :=
  s.note (.event (.create caller.address (s.newAddress scheme) scheme value init nrg.limit))

@[simp] theorem accounts_announceCreation (s : Executor) (caller : Identity)
    (scheme : AddressScheme) (init : Bytes) (nrg : Budget) (value : Amount) :
    (s.announceCreation caller scheme init nrg value).accounts = s.accounts := rfl

section CreateWith

variable (setting : Setting) {room : Option FrameRunner} (recorder : FrameRecorder)
  (frames : List Frame) {caller : Identity} {scheme : AddressScheme} {init : Bytes} {nrg : Budget}
  {value : Amount} {failure : Failure} {halt : Halt} {run : FrameRunner} {point : Checkpoint}

theorem createWith_of_static (h : s.isStatic = true) :
    createWith setting room caller scheme init nrg value s =
      (.failed none (.halted .staticModeViolation) 0, s) :=
  if_pos h

theorem createChronicle_of_static (h : s.isStatic = true) :
    createChronicle setting room recorder frames caller scheme init nrg value s = [] :=
  if_pos h

theorem createWith_of_preflight_error (hmode : s.isStatic = false)
    (h : s.preflight room caller.address value = .error failure) :
    createWith setting room caller scheme init nrg value s =
      (.failed none failure (failure.refund nrg.limit),
        s.record (.createRejected caller.address failure)) := by
  simp only [createWith, hmode, h]
  rfl

theorem createChronicle_of_preflight_error (hmode : s.isStatic = false)
    (h : s.preflight room caller.address value = .error failure) :
    createChronicle setting room recorder frames caller scheme init nrg value s = [] := by
  simp only [createChronicle, hmode, h]
  rfl

variable (hmode : s.isStatic = false) (h : s.preflight room caller.address value = .ok run)

include hmode h

theorem createWith_of_claim_error
    (hclaim : claimNonce setting caller.address
      (s.announceCreation caller scheme init nrg value) = (.error halt, t)) :
    createWith setting room caller scheme init nrg value s =
      (.failed (some (s.newAddress scheme)) (.halted halt) nrg.limit, t) := by
  unfold announceCreation at hclaim
  simp only [createWith, hmode, h, hclaim]
  rfl

theorem createChronicle_of_claim_error
    (hclaim : claimNonce setting caller.address
      (s.announceCreation caller scheme init nrg value) = (.error halt, t)) :
    createChronicle setting room recorder frames caller scheme init nrg value s =
      claimChronicle setting frames caller.address
        (s.announceCreation caller scheme init nrg value) := by
  unfold announceCreation at hclaim
  simp only [createChronicle, hmode, h, hclaim]
  rfl

theorem createWith_of_claim_ok
    (hclaim : claimNonce setting caller.address
      (s.announceCreation caller scheme init nrg value) = (.ok point, t)) :
    createWith setting room caller scheme init nrg value s =
      ({ (createAt setting run point caller.address (s.newAddress scheme) init nrg value t).1 with
          address := some (s.newAddress scheme) },
        (createAt setting run point caller.address (s.newAddress scheme) init nrg value t).2) := by
  unfold announceCreation at hclaim
  simp only [createWith, hmode, h, hclaim]
  rfl

theorem createChronicle_of_claim_ok
    (hclaim : claimNonce setting caller.address
      (s.announceCreation caller scheme init nrg value) = (.ok point, t)) :
    createChronicle setting room recorder frames caller scheme init nrg value s =
      ⟨frames, t, .opened⟩ ::
        createAtChronicle setting run recorder frames point caller.address (s.newAddress scheme)
          init nrg value t := by
  unfold announceCreation at hclaim
  simp only [createChronicle, hmode, h, hclaim]
  rfl

end CreateWith

/-! ### Claiming a nonce -/

/-- A nonce cannot be claimed only if it is the largest one. -/
theorem claimNonce_eq_error {creator : Address} {halt : Halt}
    (h : claimNonce setting creator s = (.error halt, t)) :
    halt = .maxNonce ∧ (s.accounts.nonce creator).toNat = 2 ^ 64 - 1 := by
  have hbound := (s.accounts.nonce creator).toNat_lt
  have hincNonce : ∀ s' : Executor, s'.accounts.nonce = s.accounts.nonce →
      s'.incNonce creator = .error halt →
      halt = .maxNonce ∧ (s.accounts.nonce creator).toNat = 2 ^ 64 - 1 := by
    intro s' hnonce hinc
    have hlargest := nonce_of_incNonce_eq_error hinc
    rw [hnonce] at hlargest
    refine ⟨?_, by omega⟩
    unfold Executor.incNonce Overlay.incNonce at hinc
    split at hinc
    · cases hinc
    · next hrefused =>
        dsimp only at hrefused
        split at hrefused <;> cases hrefused
        cases hinc
        rfl
  unfold claimNonce at h
  split at h
  · cases hinc : s.incNonce creator with
    | error halt' =>
        simp only [hinc] at h
        cases h
        exact hincNonce s rfl hinc
    | ok claimed => simp [hinc] at h
  · cases hinc : s.checkpoint.2.incNonce creator with
    | error halt' =>
        simp only [hinc] at h
        cases h
        exact hincNonce _ (congrArg AccountView.nonce (view_checkpoint s)) hinc
    | ok claimed => simp [hinc] at h

theorem ClaimedBy.extends_opened {creator : Address} (h : ClaimedBy setting creator s u t)
    (hmode : s.isStatic = false) (hreliable : Reliable setting) : Extends u.checkpoint.2 t := by
  have hopened : Activity setting [] u.checkpoint.2 [] t := (h.opens hmode).activity
  exact hopened.toExtends hreliable

theorem consults_claimChronicle (creator : Address) :
    ∀ m ∈ claimChronicle setting frames creator s, m.consults = false := by
  unfold claimChronicle
  split
  · simp
  · dsimp only
    split
    · simp [Moment.consults]
    · simp

theorem consults_depositChronicle (address : Address) (result : FrameResult) (s : Executor) :
    ∀ m ∈ depositChronicle setting frames address result s, m.consults = false := by
  rcases deposit_cases setting frames address result s with ⟨hnone, -⟩ | ⟨-, -, hone, -⟩
  · simp [hnone]
  · rw [hone]
    exact List.forall_mem_singleton.mpr rfl

/-- The address of a new contract is taken, as seen once the nonce of its creator is claimed. -/
theorem isTaken_claimed {creator : Address} (address : Address)
    (h : t.accounts.view = s.accounts.view.setNonce creator (s.accounts.nonce creator + 1)) :
    t.isTaken address = true ↔ s.accounts.code address ≠ [] ∨
      Function.update s.accounts.nonce creator (s.accounts.nonce creator + 1) address ≠ 0 := by
  have hcode : t.accounts.code = s.accounts.code := congrArg AccountView.code h
  have hnonce : t.accounts.nonce =
      Function.update s.accounts.nonce creator (s.accounts.nonce creator + 1) :=
    congrArg AccountView.nonce h
  unfold isTaken
  rw [hcode, hnonce]
  simp

theorem nonce_eq_zero_of_isTaken {a : Address} (h : s.isTaken a = false) :
    s.accounts.nonce a = 0 := by
  unfold isTaken at h
  simp_all

/-! ### What a creation comes to -/

/-- Why a creation at some address is refused, by the first reason that applies, and the nrg handed
back. -/
def creationRefusal? (setting : Setting) (s : Executor) (creator address : Address) (limit : Nrg)
    (value : Amount) : Option CreateOutcome :=
  if s.isStatic = true then
    some (.failed none (.halted .staticModeViolation) 0)
  else if let some cause := s.fatal then
    some (.failed none (.aborted cause) 0)
  else if setting.config.callStackLimit.toNat ≤ s.tx.depth then
    some (.failed none (.halted .depthExceeded) limit)
  else if (s.accounts.balance creator).toNat < value.toNat then
    some (.failed none (.halted .insufficientBalance) limit)
  else if (s.accounts.nonce creator).toNat = 2 ^ 64 - 1 then
    some (.failed (some address) (.halted .maxNonce) limit)
  else if s.accounts.code address ≠ [] ∨
      Function.update s.accounts.nonce creator (s.accounts.nonce creator + 1) address ≠ 0 then
    some (.failed (some address) (.aborted .addressCollision) 0)
  else if 2 ^ 256 ≤ (s.accounts.balance address).toNat + value.toNat then
    some (.failed (some address) (.aborted .balanceOverflow) 0)
  else none

/-- A nonce that can be incremented is not zero afterwards. -/
theorem nonce_add_one_ne_zero {n : Nonce} (h : n.toNat < 2 ^ 64 - 1) : n + 1 ≠ 0 := by
  intro hzero
  have hnext := congrArg UInt64.toNat hzero
  rw [UInt64.toNat_add, UInt64.toNat_one, Nat.mod_eq_of_lt (by omega)] at hnext
  cases hnext

/-- A creator always finds its own address taken. -/
theorem creationRefusal?_self (hmode : s.isStatic = false) (hfatal : s.fatal = none)
    (hroom : s.tx.depth < setting.config.callStackLimit.toNat) {a : Address} {value : Amount}
    (hpaid : value.toNat ≤ (s.accounts.balance a).toNat)
    (hnonce : (s.accounts.nonce a).toNat < 2 ^ 64 - 1) (limit : Nrg) :
    creationRefusal? setting s a a limit value =
      some (.failed (some a) (.aborted .addressCollision) 0) := by
  have htaken : Function.update s.accounts.nonce a (s.accounts.nonce a + 1) a ≠ 0 := by
    rw [Function.update_self]
    exact nonce_add_one_ne_zero hnonce
  simp only [creationRefusal?, hmode, hfatal]
  rw [if_neg Bool.false_ne_true, if_neg (Nat.not_le.mpr hroom), if_neg (Nat.not_lt.mpr hpaid),
    if_neg (Nat.ne_of_lt hnonce), if_pos (.inr htaken)]

/-- A contract creation is refused: nobody is asked, and nothing is left behind but the nonce of the
creator where that survives. -/
def RefusedCreation (setting : Setting) (frames : List Frame) (s : Executor) (caller : Identity)
    (scheme : AddressScheme) (init : Bytes) (nrg : Budget) (value : Amount)
    (outcome : CreateOutcome) : Prop :=
  Refused setting (fun setting => create setting caller scheme init nrg value s)
    (createChronicle setting (runner setting (s.room setting)) (recorder setting (s.room setting))
      frames caller scheme init nrg value s)
    outcome (afterFailedCreation setting s caller.address outcome.address)
    (s.fatal.or outcome.abort?)

/-- The account of a new contract is ready for its init code: the nonce of its creator is claimed,
the value has moved, and the account has neither code nor a nonce. -/
structure Endowed (s : Executor) (creator address : Address) (value : Amount) (t : Executor) :
    Prop where
  moved : (s.accounts.view.setNonce creator (s.accounts.nonce creator + 1)).Moved
    ⟨creator, address, value⟩ t.accounts.view
  vacant : t.accounts.code address = [] ∧ t.accounts.nonce address = 0
  tx : t.tx = s.tx
  isStatic : t.isStatic = false
  fatal : t.fatal = none

/-- A contract creation is let in: its init code runs, and what it returns is deployed or not. -/
inductive Founded (setting : Setting) (frames : List Frame) (s : Executor) (caller : Identity)
    (scheme : AddressScheme) (init : Bytes) (nrg : Budget) (value : Amount) :
    List Moment → CreateOutcome → Executor → Prop
  | intro {room : Nat} {opened endowed u t : Executor} {inner closing : List Moment}
      {ran : FrameResult} {outcome : CreateOutcome} (hroom : s.room setting = room + 1)
      (hendowed : Endowed s caller.address (s.newAddress scheme) value endowed)
      (entered : Entered setting room frames init
        (initFrame caller.address (s.newAddress scheme) value nrg (s.tx.depth + 1)) endowed inner
        ran u)
      (deployment : Deployment setting.config u.fatal ran outcome.toCallOutcome)
      (haddress : outcome.address = some (s.newAddress scheme))
      (ok_iff : u.fatal = none → ∀ code, outcome.result = .ok code ↔
        (ran.exit.isSuccess = true ∧ ran.output = code) ∧ setting.config.Fits code ∧
          setting.config.depositOf code ≤ ran.nrgLeft.toNat)
      (deployed : ∀ code, outcome.result = .ok code →
        outcome.nrgLeft.toNat + setting.config.depositOf code = ran.nrgLeft.toNat ∧
          t.accounts.code (s.newAddress scheme) = code)
      (hfatal : t.fatal = outcome.abort?)
      (kept : outcome.isSuccess = true →
        t.accounts.view = u.accounts.view.setCode (s.newAddress scheme) ran.output ∧ t.tx = u.tx)
      (undone : outcome.isSuccess = false →
        t.footprint = afterFailedCreation setting s caller.address outcome.address)
      (hclosing : ∀ m ∈ closing, m.consults = false) :
      Founded setting frames s caller scheme init nrg value
        (⟨frames, opened, .opened⟩ :: (inner ++ closing)) outcome t

/-- How a creation comes out that is refused for some reason, or for none. -/
inductive CreationDecided (setting : Setting) (frames : List Frame) (s : Executor)
    (caller : Identity) (scheme : AddressScheme) (init : Bytes) (nrg : Budget) (value : Amount) :
    Option CreateOutcome → Prop
  | refused {outcome : CreateOutcome}
      (h : RefusedCreation setting frames s caller scheme init nrg value outcome) :
      CreationDecided setting frames s caller scheme init nrg value (some outcome)
  | letIn
      (h : Founded setting frames s caller scheme init nrg value
        (createChronicle setting (runner setting (s.room setting))
          (recorder setting (s.room setting)) frames caller scheme init nrg value s)
        (create setting caller scheme init nrg value s).1
        (create setting caller scheme init nrg value s).2) :
      CreationDecided setting frames s caller scheme init nrg value none

section Create

variable (frames : List Frame) {caller : Identity} {scheme : AddressScheme} {init : Bytes}
  {nrg : Budget} {value : Amount}

theorem refusedCreation_of_outcome (hreliable : Reliable setting) {outcome : CreateOutcome}
    (houtcome : (create setting caller scheme init nrg value s).1 = outcome)
    (hfailed : outcome.isSuccess = false)
    (hlatched : s.fatal ≠ none →
      (create setting caller scheme init nrg value s).2.fatal = s.fatal.or outcome.abort?)
    (hsilent : ∀ m ∈ createChronicle setting (runner setting (s.room setting))
      (recorder setting (s.room setting)) frames caller scheme init nrg value s,
      m.consults = false)
    (hdeaf : ∀ interpreter natives,
      create { setting with interpreter, natives } caller scheme init nrg value s =
        create setting caller scheme init nrg value s) :
    RefusedCreation setting frames s caller scheme init nrg value outcome := by
  have hcreated := created setting (s.room setting) frames s caller scheme init nrg value
  change Created setting frames caller.address s _
    (create setting caller scheme init nrg value s).1
    (create setting caller scheme init nrg value s).2 at hcreated
  rw [houtcome] at hcreated
  refine ⟨houtcome, hcreated.footprint_eq hreliable hfailed, ?_, hsilent, hdeaf⟩
  by_cases hfatal : s.fatal = none
  · rw [hfatal, Option.none_or]
    exact (hcreated.tells hreliable hfatal).fatal_eq
  · exact hlatched hfatal

/-- In static mode nothing is created. -/
theorem refusedCreation_of_static (hreliable : Reliable setting) (hmode : s.isStatic = true) :
    RefusedCreation setting frames s caller scheme init nrg value
      (.failed none (.halted .staticModeViolation) 0) := by
  have hcreate : ∀ setting, create setting caller scheme init nrg value s =
      (.failed none (.halted .staticModeViolation) 0, s) := fun setting =>
    createWith_of_static setting hmode
  refine refusedCreation_of_outcome frames hreliable ?_ rfl (fun _ => ?_) ?_ fun _ _ => ?_
  · rw [hcreate]
  · rw [hcreate]
    exact (Option.or_none).symm
  · rw [createChronicle_of_static _ _ _ hmode]
    simp
  · rw [hcreate, hcreate]

/-- A creation that the checks refuse. -/
theorem refusedCreation_of_preflight (hreliable : Reliable setting) (hmode : s.isStatic = false)
    {failure : Failure} (hchecked : Preflight setting s caller.address value (.error failure))
    (h : s.preflight (runner setting (s.room setting)) caller.address value = .error failure) :
    RefusedCreation setting frames s caller scheme init nrg value
      (.failed none failure (failure.refund nrg.limit)) := by
  have hcreate : create setting caller scheme init nrg value s = _ :=
    createWith_of_preflight_error setting hmode h
  refine refusedCreation_of_outcome frames hreliable (congrArg Prod.fst hcreate) rfl
    (fun hfatal => ?_) ?_ fun interpreter natives => ?_
  · rw [hcreate]
    cases hchecked with
    | latched hlatched => rw [hlatched]; exact hlatched
    | crowded hnone => exact absurd hnone hfatal
    | unaffordable hnone => exact absurd hnone hfatal
  · rw [createChronicle_of_preflight_error _ _ _ hmode h]
    simp
  · have h' := preflight_eq_error_of_isSome
      (isSome_runner setting { setting with interpreter, natives } (s.room setting)) h
    exact (createWith_of_preflight_error _ hmode h').trans hcreate.symm

/-- Once its value has moved to a free address, a creation is ready for its init code. -/
theorem endowed_of_transfer {e : Entry} {creator address : Address} {point : Checkpoint}
    {claimed endowed : Executor} (hmode : s.isStatic = false) (hfatal : s.fatal = none)
    (hclaim : claimNonce setting creator (s.note e) = (.ok point, claimed))
    (hfree : claimed.isTaken address = false)
    (hpay : claimed.transfer ⟨creator, address, value⟩ = (.ok (), endowed))
    (hmoved : claimed.accounts.view.Moved ⟨creator, address, value⟩ endowed.accounts.view) :
    Endowed s creator address value endowed := by
  obtain ⟨guarded, -, hclaimed⟩ := claimedBy_of_claimNonce hclaim
  obtain ⟨htx, hpaidMode, hpaidFatal⟩ := transfer_fields hpay
  constructor
  case moved => exact (view_claimNonce hclaim).2 ▸ hmoved
  case vacant =>
    exact ⟨(congrFun hmoved.code _).trans (code_eq_nil_of_isTaken hfree),
      (congrFun hmoved.nonce _).trans (nonce_eq_zero_of_isTaken hfree)⟩
  case tx => exact htx.trans ((tx_claimNonce hclaim).trans rfl)
  case isStatic => exact hpaidMode.trans (hclaimed.fields.1.trans hmode)
  case fatal => exact hpaidFatal.trans (hclaimed.fields.2.trans hfatal)

section Passed

variable {room : Nat} {point : Checkpoint} {claimed : Executor} (hreliable : Reliable setting)
  (hmode : s.isStatic = false) (hfatal : s.fatal = none) (hroom : s.room setting = room + 1)
  (hpaid : value.toNat ≤ (s.accounts.balance caller.address).toNat)

include hreliable hmode hfatal hroom hpaid

/-- A creation whose creator has the largest nonce. -/
theorem refusedCreation_of_claim_error {halt : Halt}
    (hclaim : claimNonce setting caller.address
      (s.announceCreation caller scheme init nrg value) = (.error halt, t)) :
    RefusedCreation setting frames s caller scheme init nrg value
      (.failed (some (s.newAddress scheme)) (.halted halt) nrg.limit) := by
  have hpassed := preflight_of_passed hfatal hroom hpaid
  have hcreate := createWith_of_claim_error setting hmode hpassed hclaim
  refine refusedCreation_of_outcome frames hreliable (congrArg Prod.fst hcreate) rfl
    (fun h => absurd hfatal h) ?_ fun interpreter natives => ?_
  · rw [createChronicle_of_claim_error _ _ _ hmode hpassed hclaim]
    exact consults_claimChronicle caller.address
  · have hother : s.preflight (runner { setting with interpreter, natives } (s.room setting))
      caller.address value = .ok _ := preflight_of_passed hfatal hroom hpaid
    exact (createWith_of_claim_error _ hmode hother hclaim).trans hcreate.symm

/-- A creation that is left before its init code runs, with a fatal condition. -/
theorem refusedCreation_of_leave {cause : Abort}
    (hclaim : claimNonce setting caller.address
      (s.announceCreation caller scheme init nrg value) = (.ok point, claimed))
    (hextends : Extends claimed u) (hcause : u.finalExit (.aborted cause) = .aborted cause)
    (hleft : ∀ setting run,
      createAt setting run point caller.address (s.newAddress scheme) init nrg value claimed =
        u.leave setting point (.aborted cause) [] 0)
    (hmoments : ∀ run recorder,
      createAtChronicle setting run recorder frames point caller.address (s.newAddress scheme) init
          nrg value claimed =
        leaveChronicle setting frames point (.aborted cause) [] 0 u) :
    RefusedCreation setting frames s caller scheme init nrg value
      (.failed (some (s.newAddress scheme)) (.aborted cause) 0) := by
  have hpassed := preflight_of_passed hfatal hroom hpaid
  have hcreate := createWith_of_claim_ok setting hmode hpassed hclaim
  rw [hleft] at hcreate
  obtain ⟨guarded, rfl, hclaimed⟩ := claimedBy_of_claimNonce hclaim
  have hopens := hclaimed.extends_opened hmode hreliable
  have hleaves := leavesAs_leave hreliable (hopens.trans hextends) (.aborted cause) [] 0
  have houtcome : (u.leave setting guarded.checkpoint.1 (.aborted cause) [] 0).1 =
      .failed (.aborted cause) 0 := by
    rw [hleaves.outcome_eq, hcause]
    rfl
  refine refusedCreation_of_outcome frames hreliable ?_ rfl (fun h => absurd hfatal h) ?_
    fun interpreter natives => ?_
  · rw [create, hcreate]
    dsimp only
    rw [houtcome]
    rfl
  · rw [createChronicle_of_claim_ok _ _ _ hmode hpassed hclaim, hmoments]
    exact List.forall_mem_cons.mpr ⟨rfl, consults_leaveChronicle _ _ _ _⟩
  · have hother : s.preflight (runner { setting with interpreter, natives } (s.room setting))
      caller.address value = .ok _ := preflight_of_passed hfatal hroom hpaid
    have hcreate' := createWith_of_claim_ok { setting with interpreter, natives } hmode hother
      hclaim
    rw [hleft] at hcreate'
    exact hcreate'.trans hcreate.symm

/-- A creation at a free address whose value moves. -/
theorem founded_of_transfer {endowed : Executor}
    (hclaim : claimNonce setting caller.address
      (s.announceCreation caller scheme init nrg value) = (.ok point, claimed))
    (hfree : claimed.isTaken (s.newAddress scheme) = false)
    (hpay : claimed.transfer ⟨caller.address, s.newAddress scheme, value⟩ = (.ok (), endowed))
    (hmoved : claimed.accounts.view.Moved ⟨caller.address, s.newAddress scheme, value⟩
      endowed.accounts.view) :
    Founded setting frames s caller scheme init nrg value
      (createChronicle setting (runner setting (s.room setting)) (recorder setting (s.room setting))
        frames caller scheme init nrg value s)
      (create setting caller scheme init nrg value s).1
      (create setting caller scheme init nrg value s).2 := by
  have hcreated := created setting (s.room setting) frames s caller scheme init nrg value
  change Created setting frames caller.address s _
    (create setting caller scheme init nrg value s).1
    (create setting caller scheme init nrg value s).2 at hcreated
  have hpassed := preflight_of_passed hfatal hroom hpaid
  have hcreate := createWith_of_claim_ok setting hmode hpassed hclaim
  have hchronicle := createChronicle_of_claim_ok setting (recorder setting (s.room setting)) frames
    hmode hpassed hclaim
  have hmade := createAt_of_transfer_ok setting (interpret setting room) point init nrg hfree hpay
  have hmoments := createAtChronicle_of_transfer_ok setting (interpret setting room)
    (recorder setting (s.room setting)) frames point init nrg hfree hpay
  have hendowed := endowed_of_transfer hmode hfatal hclaim hfree hpay hmoved
  have htx : claimed.tx = s.tx := (tx_claimNonce hclaim).trans rfl
  obtain ⟨guarded, rfl, hclaimed⟩ := claimedBy_of_claimNonce hclaim
  have hentered := entered_enter setting room frames init
    (initFrame caller.address (s.newAddress scheme) value nrg (s.tx.depth + 1)) endowed
  have hextends := extends_enter (s := endowed) hreliable (runsAs_interpret setting room) init
    (initFrame caller.address (s.newAddress scheme) value nrg (s.tx.depth + 1))
  dsimp only at hmade hmoments
  rw [htx] at hmade hmoments
  generalize enter (interpret setting room) init _ endowed = ran at hmade hmoments hentered hextends
  have hopens := hclaimed.extends_opened hmode hreliable
  obtain ⟨hcomes, hkept⟩ := leave_deposit hreliable
    ((hopens.trans (.transfer hpay)).trans hextends) (s.newAddress scheme) ran.1
  generalize deposit setting (s.newAddress scheme) ran.1 ran.2 = stored
    at hmade hmoments hcomes hkept
  generalize stored.2.leave setting guarded.checkpoint.1 _ _ _ = left at *
  change create setting caller scheme init nrg value s = _ at hcreate
  rw [hmade] at hcreate
  rw [hcreate] at hcreated ⊢
  rw [hchronicle, hmoments, hroom, List.append_assoc]
  refine .intro hroom hendowed hentered hcomes rfl ?_ ?_ (hcreated.tells hreliable hfatal).fatal_eq
    hkept (fun hfailed => hcreated.footprint_eq hreliable hfailed)
    (List.forall_mem_append.mpr ⟨consults_depositChronicle _ _ _, consults_leaveChronicle _ _ _ _⟩)
  · intro hnone
    rw [hnone] at hcomes
    exact hcomes.result_eq_ok_iff
  · intro code hok
    obtain ⟨⟨-, houtput⟩, -, hpaid⟩ := hcomes.of_result_eq_ok hok
    have hview := (hkept (by rw [CallOutcome.isSuccess, hok])).1
    refine ⟨hpaid, (congrFun (congrArg AccountView.code hview) _).trans ?_⟩
    exact (Function.update_self ..).trans houtput

/-- A creation whose nonce is claimed. -/
theorem decided_of_claimed
    (hclaim : claimNonce setting caller.address
      (s.announceCreation caller scheme init nrg value) = (.ok point, claimed)) :
    CreationDecided setting frames s caller scheme init nrg value
      (if claimed.isTaken (s.newAddress scheme) = true then
        some (.failed (some (s.newAddress scheme)) (.aborted .addressCollision) 0)
      else if 2 ^ 256 ≤ (s.accounts.balance (s.newAddress scheme)).toNat + value.toNat then
        some (.failed (some (s.newAddress scheme)) (.aborted .balanceOverflow) 0)
      else none) := by
  obtain ⟨hsmall, hview⟩ := view_claimNonce hclaim
  rw [accounts_announceCreation] at hsmall hview
  obtain ⟨guarded, -, hclaimed⟩ := claimedBy_of_claimNonce hclaim
  have hnone : claimed.fatal = none := hclaimed.fields.2.trans hfatal
  have hbalance : claimed.accounts.balance = s.accounts.balance :=
    congrArg AccountView.balance hview
  by_cases htaken : claimed.isTaken (s.newAddress scheme) = true
  · rw [if_pos htaken]
    refine .refused (refusedCreation_of_leave frames hreliable hmode hfatal hroom hpaid
      hclaim (u := claimed.collided (s.newAddress scheme)) ?_ ?_
      (fun setting run => createAt_of_taken setting run _ init nrg htaken)
      fun run recorder => createAtChronicle_of_taken setting run recorder frames _ init nrg htaken)
    · exact ((Unchanged.note claimed _).trans (.latch _ _)).toExtends
    · simp [finalExit, collided, hnone]
  rw [if_neg htaken]
  have hfree : claimed.isTaken (s.newAddress scheme) = false := by simpa using htaken
  have hpays : Pays claimed (some ⟨caller.address, s.newAddress scheme, value⟩) _ _ :=
    pays (by rintro tr ⟨⟩; rw [hbalance]; exact hpaid)
  change Pays claimed _ (claimed.transfer _).1 (claimed.transfer _).2 at hpays
  generalize hpay : claimed.transfer ⟨caller.address, s.newAddress scheme, value⟩ = ended at hpays
  obtain ⟨result, paid⟩ := ended
  cases hpays with
  | overflowing htransfer hother hfull =>
      cases htransfer
      rw [hbalance] at hfull
      rw [if_pos hfull]
      refine .refused (refusedCreation_of_leave frames hreliable hmode hfatal hroom hpaid
        hclaim (u := paid) (.transfer hpay) ?_
        (fun setting run => createAt_of_transfer_error setting run _ init nrg hfree hpay)
        fun run recorder =>
          createAtChronicle_of_transfer_error setting run recorder frames _ init nrg hfree hpay)
      rw [finalExit, (transfer_fields hpay).2.2, hnone]
  | paid hfits hmoved =>
      have hother : caller.address ≠ s.newAddress scheme := by
        intro hself
        have htakes := (isTaken_claimed (s.newAddress scheme) hview).mpr (.inr ?_)
        · exact htaken htakes
        · rw [← hself, Function.update_self]
          exact nonce_add_one_ne_zero hsmall
      have hsum := hfits _ rfl hother
      rw [hbalance] at hsum
      rw [if_neg (Nat.not_le.mpr hsum)]
      exact .letIn (founded_of_transfer frames hreliable hmode hfatal hroom hpaid hclaim hfree hpay
        (hmoved.moved _ rfl))

end Passed

/-- **A creation is refused for the first reason that applies, and let in if there is none.** -/
theorem decided_creationRefusal (hreliable : Reliable setting) :
    CreationDecided setting frames s caller scheme init nrg value
      (creationRefusal? setting s caller.address (s.newAddress scheme) nrg.limit value) := by
  unfold creationRefusal?
  by_cases hstatic : s.isStatic = true
  · rw [if_pos hstatic]
    exact .refused (refusedCreation_of_static frames hreliable hstatic)
  rw [if_neg hstatic]
  have hmode : s.isStatic = false := by simpa using hstatic
  have hchecked := preflights setting s caller.address value
  generalize hpre : s.preflight (runner setting (s.room setting)) _ _ = checked at hchecked
  cases hchecked with
  | latched hfatal =>
      simp only [hfatal]
      exact .refused (refusedCreation_of_preflight frames hreliable hmode (.latched hfatal) hpre)
  | crowded hfatal hcrowded =>
      simp only [hfatal, if_pos hcrowded]
      exact .refused
        (refusedCreation_of_preflight frames hreliable hmode (.crowded hfatal hcrowded) hpre)
  | unaffordable hfatal hroom hpoor =>
      simp only [hfatal, if_neg (Nat.not_le.mpr hroom), if_pos hpoor]
      exact .refused (refusedCreation_of_preflight frames hreliable hmode
        (.unaffordable hfatal hroom hpoor) hpre)
  | passed hfatal hroom hpaid =>
      have hbelow := Preflight.depth_lt (.passed hfatal hroom hpaid)
      simp only [hfatal, if_neg (Nat.not_le.mpr hbelow), if_neg (Nat.not_lt.mpr hpaid)]
      cases hclaim : claimNonce setting caller.address
          (s.announceCreation caller scheme init nrg value) with
      | mk result claimed =>
          cases result with
          | error halt =>
              obtain ⟨rfl, hlargest⟩ := claimNonce_eq_error hclaim
              rw [accounts_announceCreation] at hlargest
              rw [if_pos hlargest]
              exact .refused (refusedCreation_of_claim_error frames hreliable hmode hfatal hroom
                hpaid hclaim)
          | ok point =>
              obtain ⟨hsmall, hview⟩ := view_claimNonce hclaim
              rw [accounts_announceCreation] at hsmall hview
              have hdecided := decided_of_claimed frames hreliable hmode hfatal hroom hpaid hclaim
              have htaken := isTaken_claimed (s.newAddress scheme) hview
              rw [if_neg (Nat.ne_of_lt hsmall)]
              simpa only [htaken] using hdecided

end Create

/-- **A contract creation is refused for the first reason that applies, and otherwise its init code
runs as the new account** and is deployed if it can be. -/
theorem decided_create (setting : Setting) (hreliable : Reliable setting) (frames : List Frame)
    (s : Executor) (caller : Identity) (scheme : AddressScheme) (init : Bytes) (nrg : Budget)
    (value : Amount) :
    let refusal := creationRefusal? setting s caller.address (s.newAddress scheme) nrg.limit value
    let moments := createChronicle setting (runner setting (s.room setting))
      (recorder setting (s.room setting)) frames caller scheme init nrg value s
    let created := create setting caller scheme init nrg value s
    (∀ outcome, refusal = some outcome →
      RefusedCreation setting frames s caller scheme init nrg value outcome) ∧
    (refusal = none →
      Founded setting frames s caller scheme init nrg value moments created.1 created.2) := by
  intro refusal moments created
  have hdecided : CreationDecided setting frames s caller scheme init nrg value refusal :=
    decided_creationRefusal frames hreliable
  constructor
  · intro outcome hrefusal
    rw [hrefusal] at hdecided
    cases hdecided with
    | refused h => exact h
  · intro hrefusal
    rw [hrefusal] at hdecided
    cases hdecided with
    | letIn h => exact h

/-- A creation that fails in each of the seven ways, and one that deploys two bytes for two nrg
each. -/
theorem decided_create_of_two_bytes :
    let setting : Setting :=
      { homesteadWith fun _ _ => pure (.returned [7, 7] 20) with
        config := { Config.homestead with contractLimit := some 2, codeDepositNrg := 2 } }
    let s := withTwoContracts 3
    let refusal := fun (s : Executor) address value =>
      creationRefusal? setting s 1 address 90 value
    let worn := s.updateAccounts fun o => o.setNonce 1 (UInt64.ofNat (2 ^ 64 - 1))
    let full : Executor := { s with accounts := { stored := Overlay.oneFull.view } }
    let created := create setting (.external 1) (.fixed 9) [1] ⟨90, 1⟩ 20 s
    Reliable setting ∧
      refusal { s with isStatic := true } 9 20 =
        some (.failed none (.halted .staticModeViolation) 0) ∧
      refusal { s with fatal := some .unevenSnapshot } 9 20 =
        some (.failed none (.aborted .unevenSnapshot) 0) ∧
      refusal (withTwoContracts 1024) 9 20 = some (.failed none (.halted .depthExceeded) 90) ∧
      refusal s 9 51 = some (.failed none (.halted .insufficientBalance) 90) ∧
      refusal worn 9 20 = some (.failed (some 9) (.halted .maxNonce) 90) ∧
      refusal s 5 20 = some (.failed (some 5) (.aborted .addressCollision) 0) ∧
      refusal s 1 20 = some (.failed (some 1) (.aborted .addressCollision) 0) ∧
      refusal full 2 3 = some (.failed (some 2) (.aborted .balanceOverflow) 0) ∧
      RefusedCreation setting [] full (.external 1) (.fixed 2) [1] ⟨90, 1⟩ 3
        (.failed (some 2) (.aborted .balanceOverflow) 0) ∧
      refusal s 9 20 = none ∧
      created.1 = { result := .ok [7, 7], nrgLeft := 16, address := some 9 } ∧
      Founded setting [] s (.external 1) (.fixed 9) [1] ⟨90, 1⟩ 20
        (createChronicle setting (runner setting (s.room setting))
          (recorder setting (s.room setting)) [] (.external 1) (.fixed 9) [1] ⟨90, 1⟩ 20 s)
        created.1 created.2 := by
  intro setting s refusal worn full created
  have hreliable : Reliable setting := fun _ _ => rfl
  have hfull : refusal full 2 3 = some (.failed (some 2) (.aborted .balanceOverflow) 0) := rfl
  have hfree : refusal s 9 20 = none := rfl
  obtain ⟨hrefused, -⟩ :=
    decided_create setting hreliable [] full (.external 1) (.fixed 2) [1] ⟨90, 1⟩ 3
  obtain ⟨-, hfounded⟩ :=
    decided_create setting hreliable [] s (.external 1) (.fixed 9) [1] ⟨90, 1⟩ 20
  exact ⟨hreliable, rfl, rfl, rfl, rfl, rfl, rfl, rfl, hfull, hrefused _ hfull, hfree, rfl,
    hfounded hfree⟩

end Executor

end MessageCalls
