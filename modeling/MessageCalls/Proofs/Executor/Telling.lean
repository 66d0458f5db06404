import MessageCalls.Proofs.Executor.Survival
/-!
# MessageCalls.Proofs.Executor.Telling

What the outcome of a transaction tells of the fatal condition that is latched when it returns, over
accounts that may refuse any closing. Refusals further in never come between the two: **the outcome
tells the condition, unless the outermost frame or the transaction itself could not be settled**
(`Executor.told_transact`).

In those two places it may tell another condition or none. A transaction whose own snapshot cannot
be committed is reported as it ended before, be it a success (`Executor.hidden_by_refusal`).
-/

namespace MessageCalls.Executor

variable {setting : Setting} {frames : List Frame} {s t u : Executor} {moments : List Moment}
  {cause : Abort}

/-! ### Calls and creations -/

theorem Guarded.told {outcome : CallOutcome} (h : Guarded setting frames s moments outcome t)
    (hcause : t.fatal = some cause) :
    outcome = .failed (.aborted cause) 0 ∨
      setting.refuses .restore s.accounts.nextId = true ∧
        outcome = .failed (.aborted .unevenSnapshot) 0 := by
  cases h with
  | @intro t u moments exit hfatal opening body ends output nrgLeft course =>
      have hretains := body.toRetains.trans ends.toExtends.toRetains
      have hleaves := leavesOver_leave setting hretains exit output nrgLeft
      cases hrefused : setting.refuses (u.closingOf exit) s.accounts.nextId with
      | false =>
          obtain ⟨houtcome, hlatched⟩ := hleaves.accepted hrefused
          rw [hlatched] at hcause
          exact Or.inl (houtcome.trans (outcome_of_abort? hcause output nrgLeft))
      | true =>
          obtain ⟨houtcome, hlatched⟩ := hleaves.refused hrefused
          rw [hlatched] at hcause
          cases hexit : u.finalExit exit with
          | aborted first =>
              -- The frame had met a condition, so it was to be restored.
              rw [closingOf, hexit] at hrefused
              exact Or.inr ⟨hrefused, houtcome⟩
          | _ =>
              rw [hexit] at hcause
              cases hcause
              exact Or.inl houtcome

theorem Called.told (hnone : s.fatal = none) {outcome : CallOutcome}
    (h : Called setting frames s moments outcome t) (hcause : t.fatal = some cause) :
    outcome = .failed (.aborted cause) 0 ∨
      setting.refuses .restore s.accounts.nextId = true ∧
        outcome = .failed (.aborted .unevenSnapshot) 0 := by
  cases h with
  | refused noted =>
      rw [noted.fatal_eq, hnone] at hcause
      cases hcause
  | letIn before frame after =>
      rw [after.fatal_eq] at hcause
      have htold := frame.told hcause
      rwa [before.accounts_eq] at htold

theorem nextId_of_claimed {creator : Address} (h : Claimed setting creator s t) :
    t.accounts.nextId = s.accounts.nextId ∧ t.fatal = s.fatal := by
  unfold Claimed at h
  split at h
  · unfold incNonce at h
    split at h
    · next haccounts =>
        cases h
        obtain ⟨-, rfl⟩ := Overlay.incNonce_eq_ok_iff.mp haccounts
        exact ⟨rfl, rfl⟩
    · cases h
  · rw [h]
    exact ⟨rfl, rfl⟩

theorem Created.told (hnone : s.fatal = none) {creator : Address} {outcome : CreateOutcome}
    (h : Created setting frames creator s moments outcome t) (hcause : t.fatal = some cause) :
    outcome.toCallOutcome = .failed (.aborted cause) 0 ∨
      setting.refuses .restore s.accounts.nextId = true ∧
        (outcome.toCallOutcome = .failed (.aborted .unevenSnapshot) 0 ∨
          cause = .unevenSnapshot ∧
            ∃ address halt nrgLeft, outcome = .failed (some address) (.halted halt) nrgLeft) := by
  cases h with
  | refused noted =>
      rw [noted.fatal_eq, hnone] at hcause
      cases hcause
  | unclaimed before hpersists hclaimed after =>
      rw [after.fatal_eq, before.fatal_eq, hnone] at hcause
      cases hcause
  | @givenUp s₁ before hpersists entry hentry halt address nrgLeft =>
      have hnoted := (Unchanged.note s₁.checkpoint.2 entry).toRetains
      have hbegun : (s₁.checkpoint.2.note entry).fatal = none := before.fatal_eq.trans hnone
      rcases (latchesOver_settleOrLatch setting hnoted .restore).latched hcause with
        hbefore | ⟨-, hrefused, rfl⟩
      · rw [hbegun] at hbefore
        cases hbefore
      · rw [before.accounts_eq] at hrefused
        exact Or.inr ⟨hrefused, Or.inr ⟨rfl, address, halt, nrgLeft, rfl⟩⟩
  | @letIn s₁ s₂ t moments outcome before hstatic claimed hfatal called address =>
      obtain ⟨hnext, hlatched⟩ := nextId_of_claimed claimed
      have htold := called.told (hlatched.trans (before.fatal_eq.trans hnone)) hcause
      rw [hnext, before.accounts_eq] at htold
      exact htold.imp_right fun h => ⟨h.1, Or.inl h.2⟩

/-! ### Transactions -/

/-- A transaction is concluded with the condition latched before, or with the refusal of its own
commit. -/
theorem fatal_conclude (h : Retains s.checkpoint.2 t)
    (hcause : (conclude setting s.checkpoint.1 t).fatal = some cause) :
    t.fatal = some cause ∨
      setting.refuses .commit s.accounts.nextId = true ∧ cause = .unevenSnapshot := by
  rcases (latchesOver_settleOrLatch setting h t.concluding).latched hcause with
    hbefore | ⟨hnone, hrefused, hcause⟩
  · exact Or.inl hbefore
  · -- With nothing latched the transaction was to be committed.
    rw [concluding, hnone] at hrefused
    exact Or.inr ⟨hrefused, hcause⟩

/-- How the outcome of a transaction that starts in `s` stands to the fatal condition that is
latched when it returns. -/
inductive Told (setting : Setting) (s : Executor) (cause : Abort) (outcome : CallOutcome) : Prop
  /-- The outcome tells the condition, and no nrg is handed back. -/
  | told (h : outcome = .failed (.aborted cause) 0)
  /-- The outermost frame could not be restored, and the outcome tells that. -/
  | replaced (hrefused : setting.refuses .restore (s.accounts.nextId + 1) = true)
      (h : outcome = .failed (.aborted .unevenSnapshot) 0)
  /-- The transaction itself could not be committed, which comes after its outcome. -/
  | concluded (hrefused : setting.refuses .commit s.accounts.nextId = true)
      (hcause : cause = .unevenSnapshot)

/-- **The outcome tells the fatal condition that is latched**, whatever the accounts refuse, unless
they refuse to restore the outermost frame or to commit the transaction. In a creation the outermost
frame may also be given up because its nonce cannot be claimed: if that is refused, the outcome is
that of the nonce. -/
theorem told_transact (setting : Setting) (s : Executor) (cause : Abort) :
    (∀ caller target value input nrg outcome t,
      transactCall setting caller target value input nrg s = (outcome, t) →
      t.fatal = some cause → Told setting s cause outcome) ∧
    ∀ caller value init nrg outcome t,
      transactCreate setting caller value init nrg s = (outcome, t) →
      t.fatal = some cause → Told setting s cause outcome.toCallOutcome ∨
        setting.refuses .restore (s.accounts.nextId + 1) = true ∧ cause = .unevenSnapshot ∧
          ∃ address halt nrgLeft, outcome = .failed (some address) (.halted halt) nrgLeft := by
  constructor
  · intro caller target value input nrg outcome t h hcause
    cases h
    let begun := (s.prepared (.transactCall caller target value nrg.limit)).checkpoint.2
    have hcalled := called setting (begun.room setting) [] begun .call (.external caller) target
      input nrg value
    rcases fatal_conclude hcalled.activity.toRetains hcause with hlatched | ⟨hrefused, hcause⟩
    · rcases hcalled.told rfl hlatched with htold | ⟨hrefused, htold⟩
      · exact .told htold
      · exact .replaced hrefused htold
    · exact .concluded hrefused hcause
  · intro caller value init nrg outcome t h hcause
    cases h
    let begun := (s.prepared (.transactCreate caller value nrg.limit)).checkpoint.2
    have hcreated := created setting (begun.room setting) [] begun (.external caller)
      (.legacy caller) init nrg value
    rcases fatal_conclude hcreated.activity.toRetains hcause with hlatched | ⟨hrefused, hcause⟩
    · rcases hcreated.told rfl hlatched with htold | ⟨hrefused, htold | hgivenUp⟩
      · exact Or.inl (.told htold)
      · exact Or.inl (.replaced hrefused htold)
      · exact Or.inr ⟨hrefused, hgivenUp⟩
    · exact Or.inl (.concluded hrefused hcause)

/-- A contract pays another one, which writes and signals a condition, in a transaction that cannot
close the frame of either. -/
theorem told_refused_frames :
    let interpreter : Interpreter := fun code frame =>
      if code = [1] then do
        let _ ← Program.request (.call .call frame.identity 6 [] frame.nrg 3)
        pure (.returned [9] 5)
      else do
        let _ ← Program.request (.setStorage frame.identity.address 0 8)
        pure (.aborted .balanceOverflow)
    let inner : Setting := { homesteadWith interpreter with refuses := fun _ id => id = 2 }
    let outer : Setting := { homesteadWith interpreter with refuses := fun _ id => id = 1 }
    let s := withTwoContracts 0
    let told := transactCall inner 1 5 20 [] ⟨90, 1⟩ s
    let replaced := transactCall outer 1 5 20 [] ⟨90, 1⟩ s
    told.2.fatal = some .balanceOverflow ∧ Told inner s .balanceOverflow told.1 ∧
      told.1 = .failed (.aborted .balanceOverflow) 0 ∧
      replaced.2.fatal = some .balanceOverflow ∧ Told outer s .balanceOverflow replaced.1 ∧
      replaced.1 = .failed (.aborted .unevenSnapshot) 0 := by
  intro interpreter inner outer s told replaced
  have htold : told.2.fatal = some .balanceOverflow := rfl
  have hreplaced : replaced.2.fatal = some .balanceOverflow := rfl
  refine ⟨htold, ?_, rfl, hreplaced, ?_, rfl⟩
  · exact (told_transact inner s .balanceOverflow).1 1 5 20 [] ⟨90, 1⟩ told.1 told.2
      (Prod.eta _).symm htold
  · exact (told_transact outer s .balanceOverflow).1 1 5 20 [] ⟨90, 1⟩ replaced.1 replaced.2
      (Prod.eta _).symm hreplaced

/-- A call to an account without code succeeds, and hands its nrg back, in a transaction that cannot
be committed. A creation whose creator has used its last nonce only reports that, and hands the nrg
back, although its snapshot could not be restored. -/
theorem hidden_by_refusal :
    let setting : Setting :=
      { homesteadWith (fun _ _ => pure (.stopped 0)) with
        config := { Config.homestead with noncePersistsOnFailure := false }
        refuses := fun closing id => closing = .commit && id = 0 || closing = .restore && id = 1 }
    let s := withTwoContracts 0
    let last : Executor := { s with accounts := s.accounts.setNonce 1 (UInt64.ofNat (2 ^ 64 - 1)) }
    let called := transactCall setting 1 7 3 [] ⟨100, 1⟩ s
    let created := transactCreate setting 1 3 [] ⟨100, 1⟩ last
    called.1 = ⟨.ok [], 100⟩ ∧ called.2.fatal = some .unevenSnapshot ∧
      (∃ address, created.1 = .failed (some address) (.halted .maxNonce) 100) ∧
      created.2.fatal = some .unevenSnapshot := by
  intro setting s last called created
  exact ⟨rfl, rfl, ⟨_, rfl⟩, rfl⟩

end MessageCalls.Executor
