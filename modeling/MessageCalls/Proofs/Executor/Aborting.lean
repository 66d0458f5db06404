import MessageCalls.Proofs.Executor.Handed
/-!
# MessageCalls.Proofs.Executor.Aborting

**A fatal condition aborts the whole transaction, and the first one wins**
(`Executor.abortsWhole_transact`). Three facts about every activity carry this, each of them an
induction on its rules: the condition latched at the end is the one latched before or else the first
one met (`Executor.Activity.fatal_eq`); from then on nothing starts, and every frame is left with
that very condition (`Executor.Activity.orderly`); and as many frames are let in as are left
(`Executor.Activity.balanced`).
-/

namespace MessageCalls

/-! ### Reading a chronicle -/

/-- What may happen while a fatal condition is latched: nothing starts, no code is deposited, and
whatever is left ends with that condition and without nrg. -/
def Moment.Allowed (cause : Abort) (m : Moment) : Prop :=
  match m.act with
  | .opened | .native _ | .entered _ _ | .deposited _ _ => False
  | .left outcome => outcome = .failed (.aborted cause) 0
  | _ => True

/-- The first fatal condition that is met. -/
def firstRaised (moments : List Moment) : Option Abort := moments.findSome? Moment.raised?

/-- At each of the moments only what is allowed happens, while a fatal condition is latched. -/
def Orderly (latched : Option Abort) : List Moment → Prop
  | [] => True
  | m :: later => (∀ cause, latched = some cause → m.Allowed cause) ∧
      Orderly (latched.or m.raised?) later

theorem firstRaised_cons (m : Moment) (moments : List Moment) :
    firstRaised (m :: moments) = m.raised?.or (firstRaised moments) := by
  unfold firstRaised
  rw [List.findSome?_cons]
  cases m.raised? <;> rfl

theorem firstRaised_append (first later : List Moment) :
    firstRaised (first ++ later) = (firstRaised first).or (firstRaised later) :=
  List.findSome?_append

theorem orderly_append {latched : Option Abort} {first later : List Moment} :
    Orderly latched (first ++ later) ↔
      Orderly latched first ∧ Orderly (latched.or (firstRaised first)) later := by
  induction first generalizing latched with
  | nil => simp [Orderly, firstRaised]
  | cons m first ih =>
      rw [List.cons_append, Orderly, Orderly, ih, firstRaised_cons, Option.or_assoc, and_assoc]

/-- Anything may happen while no fatal condition is latched. -/
theorem allowed_of_none {latched : Option Abort} (h : latched = none) (m : Moment) (cause : Abort)
    (hcause : latched = some cause) : m.Allowed cause := by
  rw [h] at hcause
  cases hcause

theorem Orderly.allowed {cause : Abort} {moments : List Moment}
    (h : Orderly (some cause) moments) : ∀ m ∈ moments, m.Allowed cause := by
  induction moments with
  | nil => simp
  | cons m moments ih =>
      intro m' hm'
      obtain ⟨hm, hlater⟩ := h
      rcases List.mem_cons.mp hm' with rfl | hmem
      · exact hm cause rfl
      · exact ih hlater m' hmem

/-- The fatal condition that an outcome tells. -/
def CallOutcome.abort? (o : CallOutcome) : Option Abort :=
  match o.result with
  | .error (.aborted cause) => some cause
  | _ => none

namespace Executor

variable {setting : Setting} {frames : List Frame} {s t u : Executor} {moments : List Moment}

/-! ### Leaving a frame -/

theorem firstRaised_raisedBy (frames : List Frame) (exit : Exit) (s : Executor) :
    firstRaised (raisedBy frames exit s) = exit.abort? := by
  cases exit <;> rfl

theorem firstRaised_leaveChronicle (point : Checkpoint) (exit : Exit) (output : Bytes)
    (nrgLeft : Nrg) (s : Executor) :
    firstRaised (leaveChronicle setting frames point exit output nrgLeft s) = exit.abort? := by
  unfold leaveChronicle
  rw [firstRaised_append, firstRaised_raisedBy]
  cases exit.abort? <;> rfl

/-- The end of some work latches no other condition than its exit tells. -/
theorem Ends.fatal_or {exit : Exit} (h : Ends t u exit) :
    u.fatal.or exit.abort? = t.fatal.or exit.abort? := by
  cases h with
  | reported => rfl
  | unpaid h =>
      obtain ⟨-, -, hfatal⟩ := transfer_fields h
      rw [hfatal]
  | collided address =>
      -- A collision is latched before the frame is left, and its exit tells it once more.
      rw [fatal_latch, fatal_record]
      cases t.fatal <;> rfl

theorem outcome_of_abort? {exit : Exit} {cause : Abort} (h : exit.abort? = some cause)
    (output : Bytes) (nrgLeft : Nrg) :
    exit.outcome output nrgLeft = .failed (.aborted cause) 0 := by
  cases exit <;> cases h
  rfl

/-! ### What every activity keeps -/

/-- **The condition that is latched in the end** is the one latched before, or else the first one
met. -/
theorem Activity.fatal_eq (hreliable : Reliable setting)
    (h : Activity setting frames s moments t) : t.fatal = s.fatal.or (firstRaised moments) := by
  have hnone : ∀ latched : Option Abort, latched = latched.or (firstRaised []) := fun latched =>
    (Option.or_none).symm
  induction h with
  | andThen first second ih ih' => rw [ih', ih, firstRaised_append, Option.or_assoc]
  | transfer h hpaid =>
      rw [(transfer_fields hpaid).2.2]
      exact hnone _
  | nonce h hclaimed =>
      rw [(incNonce_fields hclaimed).2.2]
      exact hnone _
  | entered hfatal hcode hstatic hdepth body ih => exact ih
  | @guarded frames s t u moments exit hfatal opening body ends output nrgLeft ih =>
      have hleaves := leavesAs_of_ends hreliable (body.toExtends hreliable) ends output nrgLeft
      -- The frame starts with nothing latched, so what counts is met in its body or in its end.
      rw [hleaves.fatal, abort?_finalExit, ends.fatal_or, ih, firstRaised_cons, firstRaised_append,
        firstRaised_leaveChronicle, Option.or_assoc]
      rfl
  | @givenUp frames s entry h =>
      rw [(settlesAs_givenUp hreliable s entry).fatal]
      exact hnone _
  | _ => exact hnone _

/-- Leaving a frame is orderly: the condition that it is left with is the one latched then. -/
theorem orderly_leaveChronicle {point : Checkpoint} {exit : Exit} {output : Bytes} {nrgLeft : Nrg}
    {latched : Option Abort} (hlatched : latched.or exit.abort? = (u.finalExit exit).abort?)
    (hleft : (u.leave setting point exit output nrgLeft).1 =
      (u.finalExit exit).outcome output nrgLeft) :
    Orderly latched (leaveChronicle setting frames point exit output nrgLeft u) := by
  unfold leaveChronicle
  rw [orderly_append, firstRaised_raisedBy, hlatched]
  have hraised : Orderly latched (raisedBy frames exit u) := by
    cases exit with
    | aborted cause => exact ⟨fun _ _ => trivial, trivial⟩
    | _ => exact trivial
  refine ⟨hraised, fun _ _ => trivial, fun cause hcause => ?_, trivial⟩
  show (u.leave setting point exit output nrgLeft).1 = .failed (.aborted cause) 0
  rw [hleft]
  exact outcome_of_abort? ((Option.or_none).symm.trans hcause) output nrgLeft

/-- **Every activity is orderly.** -/
theorem Activity.orderly (hreliable : Reliable setting)
    (h : Activity setting frames s moments t) : Orderly s.fatal moments := by
  induction h with
  | andThen first second ih ih' =>
      rw [orderly_append, ← first.fatal_eq hreliable]
      exact ⟨ih, ih'⟩
  | deposit h hfatal a code => exact ⟨allowed_of_none hfatal _, trivial⟩
  | native hfatal a => exact ⟨allowed_of_none hfatal _, trivial⟩
  | @entered frames s t moments code frame hfatal hcode hstatic hdepth body ih =>
      refine ⟨allowed_of_none hfatal _, ?_⟩
      show Orderly (s.fatal.or none) moments
      rw [Option.or_none]
      exact ih
  | @guarded frames s t u moments exit hfatal opening body ends output nrgLeft ih =>
      refine ⟨allowed_of_none hfatal _, ?_⟩
      show Orderly (s.fatal.or none) _
      have hleaves := leavesAs_of_ends hreliable (body.toExtends hreliable) ends output nrgLeft
      rw [Option.or_none, orderly_append]
      refine ⟨ih, orderly_leaveChronicle ?_ hleaves.outcome_eq⟩
      -- What is latched when the frame is left is what its body has met, or else its own exit.
      rw [abort?_finalExit, ends.fatal_or, body.fatal_eq hreliable]
      rfl
  | asked frames s room r => exact ⟨fun _ _ => trivial, trivial⟩
  | givenUp h => exact ⟨fun _ _ => trivial, trivial⟩
  | _ => exact trivial

/-- **As many frames are let in as are left.** -/
theorem Activity.balanced (h : Activity setting frames s moments t) :
    moments.countP Moment.isOpened = moments.countP Moment.isLeft := by
  have hraised : ∀ (frames : List Frame) (exit : Exit) (s : Executor),
      (raisedBy frames exit s).countP Moment.isOpened = 0 ∧
        (raisedBy frames exit s).countP Moment.isLeft = 0 := by
    intro frames exit s
    cases exit <;> exact ⟨rfl, rfl⟩
  induction h with
  | andThen first second ih ih' => rw [List.countP_append, List.countP_append, ih, ih']
  | entered hfatal hcode hstatic hdepth body ih => exact ih
  | @guarded frames s t u moments exit hfatal opening body ends output nrgLeft ih =>
      obtain ⟨hopened, hleft⟩ := hraised frames exit u
      rw [leaveChronicle, List.countP_cons, List.countP_cons]
      simp only [List.countP_append, hopened, hleft, ih]
      rfl
  | _ => rfl

/-! ### Outcomes -/

theorem abort?_outcome (exit : Exit) (output : Bytes) (nrgLeft : Nrg) :
    (exit.outcome output nrgLeft).abort? = exit.abort? := by
  cases exit <;> rfl

theorem nrgLeft_of_abort? {exit : Exit} (h : exit.abort?.isSome = true) (output : Bytes)
    (nrgLeft : Nrg) : (exit.outcome output nrgLeft).nrgLeft = 0 := by
  cases exit with
  | aborted cause => rfl
  | _ => cases h

theorem Noted.fatal_eq (h : Noted s t) : t.fatal = s.fatal := by
  induction h with
  | refl => rfl
  | note _ _ _ ih => exact ih

/-- The fatal condition latched in the end is the one that the outcome tells, and with one no nrg
is handed back. -/
structure Tells (outcome : CallOutcome) (t : Executor) : Prop where
  fatal_eq : t.fatal = outcome.abort?
  nrgLeft : t.fatal.isSome = true → outcome.nrgLeft = 0

/-- Without a fatal condition before, a refusal is not fatal either. -/
theorem tells_of_refused {failure : Failure} (hnone : s.fatal = none) (noted : Noted s t)
    (hfailure : ∀ cause, failure = .aborted cause → s.fatal = some cause) (nrgLeft : Nrg) :
    Tells (.failed failure nrgLeft) t := by
  have hfatal : t.fatal = none := noted.fatal_eq.trans hnone
  refine ⟨?_, fun h => by rw [hfatal] at h; cases h⟩
  rw [hfatal]
  cases failure with
  | aborted cause => exact absurd (hfailure cause rfl) (by rw [hnone]; exact fun h => by cases h)
  | _ => rfl

theorem Guarded.tells (hreliable : Reliable setting) {outcome : CallOutcome}
    (h : Guarded setting frames s moments outcome t) : Tells outcome t := by
  obtain ⟨u, exit, output, nrgLeft, hleft⟩ := h.leavesAs hreliable
  refine ⟨?_, fun h => ?_⟩
  · rw [hleft.fatal, hleft.outcome_eq, abort?_outcome]
  · rw [hleft.fatal] at h
    rw [hleft.outcome_eq]
    exact nrgLeft_of_abort? h output nrgLeft

theorem Called.tells (hreliable : Reliable setting) (hnone : s.fatal = none)
    {outcome : CallOutcome} (h : Called setting frames s moments outcome t) : Tells outcome t := by
  cases h with
  | refused noted failure hfailure nrgLeft => exact tells_of_refused hnone noted hfailure nrgLeft
  | letIn before frame after =>
      obtain ⟨hfatal, hnrg⟩ := frame.tells hreliable
      rw [← after.fatal_eq] at hfatal hnrg
      exact ⟨hfatal, hnrg⟩

theorem Created.tells (hreliable : Reliable setting) (hnone : s.fatal = none) {creator : Address}
    {outcome : CreateOutcome} (h : Created setting frames creator s moments outcome t) :
    Tells outcome.toCallOutcome t := by
  cases h with
  | refused noted failure hfailure nrgLeft => exact tells_of_refused hnone noted hfailure nrgLeft
  | unclaimed before hpersists hclaimed after =>
      have hfatal := (after.fatal_eq.trans before.fatal_eq).trans hnone
      exact ⟨hfatal, fun h => by rw [hfatal] at h; cases h⟩
  | @givenUp s₁ before hpersists entry hentry =>
      have hsettles := settlesAs_givenUp hreliable s₁ entry
      have hfatal := (hsettles.fatal.trans before.fatal_eq).trans hnone
      exact ⟨hfatal, fun h => by rw [hfatal] at h; cases h⟩
  | @letIn s₁ s₂ t moments outcome before hstatic claimed hfatal called address =>
      have hclaimed : s₂.fatal = s₁.fatal := by
        unfold Claimed at claimed
        split at claimed
        · exact (incNonce_fields claimed).2.2
        · rw [claimed]
      exact called.tells hreliable ((hclaimed.trans before.fatal_eq).trans hnone)

/-! ### Transactions -/

/-- What a transaction that starts in `s` and ends in `t` with an outcome owes to a fatal
condition. -/
structure AbortsWhole (s : Executor) (moments : List Moment) (outcome : CallOutcome)
    (t : Executor) : Prop where
  /-- The condition latched in the end is the one that the outcome tells. -/
  fatal_iff : ∀ cause, t.fatal = some cause ↔ outcome.result = .error (.aborted cause)
  /-- It is the first one met. -/
  fatal_eq : t.fatal = firstRaised moments
  /-- No nrg is handed back. -/
  nrgLeft : t.fatal.isSome = true → outcome.nrgLeft = 0
  /-- After it is met nothing starts any more, and every frame still open is left with it. -/
  afterwards : ∀ before m later cause, moments = before ++ m :: later →
    firstRaised before = none → m.raised? = some cause →
    (∀ m' ∈ later, m'.Allowed cause) ∧
      later.countP Moment.isLeft + before.countP Moment.isLeft = before.countP Moment.isOpened
  /-- Nothing of the transaction remains. -/
  undone : t.fatal.isSome = true →
    t.accounts.changes = s.accounts.changes ∧ t.tx.logs = s.tx.logs ∧
      t.accounts.openSnapshots = s.accounts.openSnapshots
  /-- All runs of the interpreter are among the moments. -/
  handed_eq : t.handed = s.handed ++ moments.filterMap Moment.entered?

/-- Among allowed moments no frame is let in. -/
theorem countP_isOpened_of_allowed {cause : Abort} (h : ∀ m ∈ moments, m.Allowed cause) :
    moments.countP Moment.isOpened = 0 := by
  rw [List.countP_eq_zero]
  intro m hm hopened
  have hallowed := h m hm
  unfold Moment.isOpened at hopened
  unfold Moment.Allowed at hallowed
  split at hopened <;> simp_all

theorem abort?_eq_some_iff {outcome : CallOutcome} {cause : Abort} :
    outcome.abort? = some cause ↔ outcome.result = .error (.aborted cause) := by
  unfold CallOutcome.abort?
  split
  · next h => simp [h]
  · next h => simp only [reduceCtorEq, false_iff]; exact h cause

/-- A transaction whose work, done after its checkpoint, tells its fatal condition. -/
theorem abortsWhole_conclude (hreliable : Reliable setting) (hnone : s.fatal = none)
    {outcome : CallOutcome} (hactivity : Activity setting [] s.checkpoint.2 moments t)
    (htells : Tells outcome t) :
    AbortsWhole s moments outcome (conclude setting s.checkpoint.1 t) := by
  have hlatched : t.fatal = firstRaised moments := by
    rw [hactivity.fatal_eq hreliable]
    show s.fatal.or _ = _
    rw [hnone, Option.none_or]
  have hsettles := settleOrLatch_checkpoint hreliable (hactivity.toExtends hreliable)
    (if t.fatal.isSome then .restore else .commit)
  have hconcluded : (conclude setting s.checkpoint.1 t).fatal = t.fatal := hsettles.fatal
  refine ⟨fun cause => ?_, ?_, ?_, ?_, fun h => ?_, ?_⟩
  · rw [hconcluded, htells.fatal_eq, abort?_eq_some_iff]
  · rw [hconcluded, hlatched]
  · rw [hconcluded]
    exact htells.nrgLeft
  · rintro before m later cause rfl hfirst hraised
    have horderly := hactivity.orderly hreliable
    have hbalanced := hactivity.balanced
    obtain ⟨-, -, hlater⟩ := orderly_append.mp horderly
    -- Up to and including `m` exactly one condition was met, and from there on it is latched.
    have hlatest : (s.checkpoint.2.fatal.or (firstRaised before)).or m.raised? = some cause := by
      show (s.fatal.or _).or _ = _
      rw [hnone, hfirst, hraised]
      rfl
    rw [hlatest] at hlater
    have hallowed := hlater.allowed
    have hnotOpened : m.isOpened = false ∧ m.isLeft = false := by
      unfold Moment.raised? at hraised
      unfold Moment.isOpened Moment.isLeft
      split at hraised
      · next h => rw [h]; exact ⟨rfl, rfl⟩
      · cases hraised
    refine ⟨hallowed, ?_⟩
    -- Nothing is let in later, so the frames left later are those that were open.
    rw [List.countP_append, List.countP_append, List.countP_cons, List.countP_cons,
      countP_isOpened_of_allowed hallowed, hnotOpened.1, hnotOpened.2] at hbalanced
    simp only [Bool.false_eq_true, if_false] at hbalanced
    omega
  · rw [hconcluded] at h
    have hfootprint := (hsettles.restored (by rw [h]; rfl)).footprint_eq
    exact ⟨congrArg Footprint.changes hfootprint, congrArg Footprint.logs hfootprint,
      congrArg Footprint.openSnapshots hfootprint⟩
  · show (t.settleOrLatch setting s.checkpoint.1 _).handed = _
    rw [handed_settleOrLatch, hactivity.handed_eq, handed_checkpoint]

/-- The state in which a transaction starts, before its checkpoint is taken. -/
def prepared (s : Executor) (r : Record) : Executor :=
  { s.record r with fatal := none, isStatic := false, tx := s.tx.setDepth 0 }

theorem AbortsWhole.of_prepared {r : Record} {outcome : CallOutcome}
    (h : AbortsWhole (s.prepared r) moments outcome t) : AbortsWhole s moments outcome t := by
  have hhanded : (s.prepared r).handed = s.handed := handed_record s r
  exact ⟨h.fatal_iff, h.fatal_eq, h.nrgLeft, h.afterwards, h.undone, hhanded ▸ h.handed_eq⟩

/-- **A fatal condition aborts the whole transaction, and the first one wins**, be the transaction
a call or a creation. -/
theorem abortsWhole_transact (setting : Setting) (hreliable : Reliable setting) (s : Executor) :
    (∀ caller target value input nrg outcome t,
      transactCall setting caller target value input nrg s = (outcome, t) →
      AbortsWhole s (transactCallChronicle setting caller target value input nrg s) outcome t) ∧
    ∀ caller value init nrg outcome t,
      transactCreate setting caller value init nrg s = (outcome, t) →
      AbortsWhole s (transactCreateChronicle setting caller value init nrg s)
        outcome.toCallOutcome t := by
  constructor
  · intro caller target value input nrg outcome t h
    cases h
    let begun := (s.prepared (.transactCall caller target value nrg.limit)).checkpoint.2
    have hcalled := called setting (begun.room setting) [] begun .call (.external caller) target
      input nrg value
    exact (abortsWhole_conclude hreliable rfl hcalled.activity
      (hcalled.tells hreliable rfl)).of_prepared
  · intro caller value init nrg outcome t h
    cases h
    let begun := (s.prepared (.transactCreate caller value nrg.limit)).checkpoint.2
    have hcreated := created setting (begun.room setting) [] begun (.external caller)
      (.legacy caller) init nrg value
    exact (abortsWhole_conclude hreliable rfl hcreated.activity
      (hcreated.tells hreliable rfl)).of_prepared

/-- A contract that ignores the fatal condition of another one: it writes, calls again, and
returns as if nothing had happened. -/
theorem abortsWhole_ignored :
    let interpreter : Interpreter := fun code frame =>
      if code = [1] then do
        let _ ← Program.request (.call .call frame.identity 6 [] frame.nrg 3)
        let _ ← Program.request (.setStorage frame.identity.address 0 7)
        let _ ← Program.request (.call .call frame.identity 6 [] frame.nrg 0)
        pure (.returned [9] 5)
      else pure (.aborted (.other "crash"))
    let setting := homesteadWith interpreter
    let s := withTwoContracts 0
    let called := transactCall setting 1 5 20 [] ⟨90, 1⟩ s
    let moments := transactCallChronicle setting 1 5 20 [] ⟨90, 1⟩ s
    Reliable setting ∧ called.1 = .failed (.aborted (.other "crash")) 0 ∧
      (moments.filterMap Moment.entered?).map (fun entry => entry.2.codeAddress) = [5, 6] ∧
      AbortsWhole s moments called.1 called.2 := by
  intro interpreter setting s called moments
  have hreliable : Reliable setting := fun _ _ => rfl
  refine ⟨hreliable, rfl, by decide +kernel, ?_⟩
  exact (abortsWhole_transact setting hreliable s).1 1 5 20 [] ⟨90, 1⟩ called.1 called.2
    (Prod.eta _).symm

end Executor

end MessageCalls
