import MessageCalls.Proofs.Executor.Spans
/-!
# MessageCalls.Proofs.Executor.Bracketing

**The events of a run are well bracketed and truthful** (`Executor.bracketed_operate`): they are
those of its spans, so each announced call or creation is ended by one exit, everything in between
belongs to calls and creations made inside it, and the exit tells its outcome.

An exit is announced in four places: when a call is refused, when a nonce cannot be claimed, when a
frame is left, and nowhere else. The outcome told is that of leaving the frame, in which a latched
condition and a failed deposit have already been taken into account
(`Executor.closes_leave`).
-/

namespace MessageCalls

/-- The event that an entry of the journal announces. -/
def Entry.event? : Entry → Option Event
  | .event e => some e
  | _ => none

namespace Executor

/-- The events announced so far. -/
def events (s : Executor) : List Event := s.picked Entry.event?

/-- From `s` to `t` the events are added that some calls and creations stand for. -/
def Recounts (s : Executor) (spans : List Span) (t : Executor) : Prop :=
  ∃ word, t.events = s.events ++ word ∧ Spells spans word

variable {setting : Setting} {s t u v : Executor} {inner spans spans' : List Span}

namespace Recounts

theorem of_events_eq (h : t.events = s.events) : Recounts s [] t :=
  ⟨[], by rw [h, List.append_nil], .nil⟩

theorem trans (h : Recounts s spans t) (h' : Recounts t spans' u) :
    Recounts s (spans ++ spans') u := by
  obtain ⟨word, hword, hspells⟩ := h
  obtain ⟨word', hword', hspells'⟩ := h'
  exact ⟨word ++ word', by rw [hword', hword, List.append_assoc], hspells.append hspells'⟩

/-- Something that announces nothing comes first. -/
theorem after (h : t.events = s.events) (h' : Recounts t spans u) : Recounts s spans u :=
  (of_events_eq h).trans h'

/-- Something that announces nothing comes last. -/
theorem before (h : Recounts s spans t) (h' : u.events = t.events) : Recounts s spans u := by
  simpa using h.trans (of_events_eq h')

/-- A call or a creation is announced, and ended after what is made inside it. -/
theorem span {opening closing : Event} {outcome : CallOutcome} (hopens : opening.isOpening = true)
    (hopened : t.events = s.events ++ [opening]) (hinner : Recounts t inner u)
    (hclosed : v.events = u.events ++ [closing]) (hcloses : closing.Closes outcome) :
    Recounts s [.mk opening inner outcome] v := by
  obtain ⟨word, hword, hspells⟩ := hinner
  refine ⟨opening :: word ++ [closing], ?_, .single hopens hspells hcloses⟩
  rw [hclosed, hword, hopened]
  simp

end Recounts

/-! ### What is announced by a step of the machine -/

theorem events_event (s : Executor) (e : Event) : (s.note (.event e)).events = s.events ++ [e] :=
  picked_note Entry.event? s _

theorem events_record (s : Executor) (r : Record) : (s.record r).events = s.events :=
  picked_skip (f := Entry.event?) rfl s

theorem events_checkpoint (s : Executor) : s.checkpoint.2.events = s.events :=
  picked_checkpoint (f := Entry.event?) (fun _ _ => rfl) s

theorem events_transfer {transfer : Transfer} {result : Except Failure Unit}
    (h : s.transfer transfer = (result, t)) : t.events = s.events :=
  picked_transfer (f := Entry.event?) (fun _ _ => rfl) h

theorem events_pay {transfer : Option Transfer} {result : Except Failure Unit}
    (h : s.pay transfer = (result, t)) : t.events = s.events := by
  obtain ⟨-, -, rfl⟩ | ⟨tr, -, htransfer⟩ := pay_cases h
  · rfl
  · exact events_transfer htransfer

theorem events_incNonce {a : Address} (h : s.incNonce a = .ok t) : t.events = s.events :=
  picked_incNonce h

theorem pickedClosing_event? (setting : Setting) (closing : Overlay.Closing) (id : UInt64) :
    pickedClosing Entry.event? setting closing id = [] := ite_self []

theorem events_settleOrLatch (s : Executor) (point : Checkpoint) (closing : Overlay.Closing) :
    (s.settleOrLatch setting point closing).events = s.events := by
  have hpicked := picked_settleOrLatch (f := Entry.event?) (fun _ _ => rfl) setting s point closing
  rwa [pickedClosing_event?, List.append_nil] at hpicked

/-- A frame is left with one exit, the one that counts. -/
theorem events_leave (s : Executor) (point : Checkpoint) (exit : Exit) (output : Bytes)
    (nrgLeft : Nrg) :
    (s.leave setting point exit output nrgLeft).2.events =
      s.events ++ [.exit (s.finalExit exit) output] := by
  have hpicked := picked_leave (f := Entry.event?) (fun _ _ => rfl) setting s point exit output
    nrgLeft
  rwa [pickedClosing_event?, List.append_nil] at hpicked

theorem events_deposit (setting : Setting) (address : Address) (result : FrameResult) :
    (deposit setting address result s).2.events = s.events := by
  unfold deposit
  split
  · split <;> rfl
  · rfl

/-! ### What an exit tells -/

theorem closes_outcome (exit : Exit) (output : Bytes) (nrgLeft : Nrg) :
    (Event.exit exit output).Closes (exit.outcome output nrgLeft) := by
  cases exit with
  | stopped => exact .succeeded rfl output nrgLeft
  | returned => exact .succeeded rfl output nrgLeft
  | reverted => exact .reverted output nrgLeft
  | halted cause =>
      have hdata : Failure.revertData? (.halted cause) = none := rfl
      exact .failed hdata output 0
  | aborted cause =>
      have hdata : Failure.revertData? (.aborted cause) = none := rfl
      exact .failed hdata output 0

/-- **The exit of a frame tells the outcome that the frame is left with.** -/
theorem closes_leave (hreliable : Reliable setting) (h : Extends s.checkpoint.2 u) (exit : Exit)
    (output : Bytes) (nrgLeft : Nrg) :
    (Event.exit (u.finalExit exit) output).Closes
      (u.leave setting s.checkpoint.1 exit output nrgLeft).1 := by
  rw [(leavesAs_leave hreliable h exit output nrgLeft).outcome_eq]
  exact closes_outcome _ output nrgLeft

/-- Nothing is refused with a revert. -/
theorem revertData?_of_preflight {room : Option FrameRunner} {payer : Address} {value : Amount}
    {failure : Failure} (h : s.preflight room payer value = .error failure) :
    failure.revertData? = none := by
  unfold preflight at h
  split at h
  · cases h
    rfl
  · split at h
    · cases h
      rfl
    · split at h
      · cases h
        rfl
      · cases h

/-- A call or a creation that was announced in `s`, and guarded by a checkpoint taken in `t`, is
left. -/
theorem recounts_leave (hreliable : Reliable setting) {opening : Event}
    (hopens : opening.isOpening = true) (hopened : t.events = s.events ++ [opening])
    (hinner : Recounts t.checkpoint.2 inner u) (hextends : Extends t.checkpoint.2 u) (exit : Exit)
    (output : Bytes) (nrgLeft : Nrg) :
    Recounts s [.mk opening inner (u.leave setting t.checkpoint.1 exit output nrgLeft).1]
      (u.leave setting t.checkpoint.1 exit output nrgLeft).2 := by
  have hguarded : t.checkpoint.2.events = s.events ++ [opening] :=
    (events_checkpoint t).trans hopened
  exact .span hopens hguarded hinner (events_leave u t.checkpoint.1 exit output nrgLeft)
    (closes_leave hreliable hextends exit output nrgLeft)

/-! ### Frames -/

/-- A frame announces nothing but the calls and creations that are listed. -/
def Announces (runner : FrameRunner) (spans : FrameSpans) : Prop :=
  ∀ (code : Bytes) (frame : Frame) (s : Executor),
    Recounts s (spans code frame s) (runner code frame s).2

section Runner

variable {runner : FrameRunner} {spans : FrameSpans} (hannounces : Announces runner spans)

include hannounces

theorem recounts_enter (code : Bytes) (frame : Frame) (s : Executor) :
    Recounts s (enterSpans spans code frame s) (enter runner code frame s).2 := by
  unfold enterSpans enter
  by_cases hcode : code.isEmpty = true
  · rw [if_pos hcode, if_pos hcode]
    exact .of_events_eq rfl
  · rw [if_neg hcode, if_neg hcode]
    exact hannounces code frame (s.inside frame)

theorem recounts_answerCall (setting : Setting) (c : Call) (s : Executor) :
    Recounts s
      (match setting.natives.run c.codeAddress c.input c.nrg.limit c.identity with
      | some _ => []
      | none => enterSpans spans (s.accounts.code c.codeAddress) (c.frame (s.tx.depth + 1)) s)
      (answerCall setting runner c s).2 := by
  unfold answerCall
  cases setting.natives.run c.codeAddress c.input c.nrg.limit c.identity with
  | some result =>
      dsimp only
      split
      · exact .of_events_eq (events_record s _)
      · exact .of_events_eq rfl
  | none => exact recounts_enter hannounces _ _ s

end Runner

/-! ### Calls and creations -/

section Room

variable {room : Option FrameRunner} {recorder : FrameRecorder} {spans : FrameSpans}
  (hreliable : Reliable setting)
  (hruns : ∀ runner, room = some runner → RunsAs setting runner recorder)
  (hannounces : ∀ runner, room = some runner → Announces runner spans)

include hreliable hruns hannounces

theorem recounts_carryOut (c : Call) (s : Executor) :
    Recounts s [.mk (.call c) (carryOutSpans setting room spans c s) (carryOut setting room c s).1]
      (carryOut setting room c s).2 := by
  unfold carryOutSpans carryOut
  have hopened : (s.note (.event (.call c))).events = s.events ++ [.call c] := events_event s _
  generalize s.note (.event (.call c)) = s₁ at hopened ⊢
  dsimp only
  cases hpre : s₁.preflight room c.payer c.value with
  | error failure =>
      have hrefused : ((s₁.record (.callRejected c.codeAddress failure)).note
          (.event (.exit failure.exit []))).events = s₁.events ++ [.exit failure.exit []] := by
        rw [events_event, events_record]
      exact .span rfl hopened (.of_events_eq rfl) hrefused
        (.failed (revertData?_of_preflight hpre) [] _)
  | ok runner =>
      obtain ⟨-, hroom⟩ := fatal_of_preflight hpre
      cases hpaid : s₁.checkpoint.2.pay c.transfer with
      | mk result paid =>
          have hpay := events_pay hpaid
          have hextends := extends_pay hpaid
          cases result with
          | error failure =>
              exact recounts_leave hreliable rfl hopened (.of_events_eq hpay) hextends _ _ _
          | ok done =>
              have hanswered := recounts_answerCall (hannounces runner hroom) setting c paid
              have hended := hextends.trans
                (extends_answerCall hreliable (hruns runner hroom) c)
              have hleft := recounts_leave hreliable rfl hopened (.after hpay hanswered) hended
                (answerCall setting runner c paid).1.exit
                (answerCall setting runner c paid).1.output
                (answerCall setting runner c paid).1.nrgLeft
              exact hleft.before (events_record _ _)

theorem recounts_callWith (kind : CallKind) (caller : Identity) (target : Address) (input : Bytes)
    (nrg : Budget) (value : Amount) (s : Executor) :
    Recounts s (callSpans setting room spans kind caller target input nrg value s)
      (callWith setting room kind caller target input nrg value s).2 := by
  unfold callSpans callWith
  by_cases hrefused : (s.isStatic && kind.movesValue && value ≠ 0) = true
  · rw [if_pos hrefused, if_pos hrefused]
    exact .of_events_eq rfl
  · rw [if_neg hrefused, if_neg hrefused]
    exact recounts_carryOut hreliable hruns hannounces _ s

/-- A creation that was announced in `s`, guarded by a checkpoint taken in `t`, and has claimed its
nonce in `u`. -/
theorem recounts_createAt {runner : FrameRunner} (hroom : room = some runner) {opening : Event}
    (hopens : opening.isOpening = true) (hopened : t.events = s.events ++ [opening])
    (hextends : Extends t.checkpoint.2 u) (hclaimed : u.events = t.events)
    (creator address : Address) (init : Bytes) (nrg : Budget) (value : Amount) :
    Recounts s
      [.mk opening (createAtSpans spans creator address init nrg value u)
        (createAt setting runner t.checkpoint.1 creator address init nrg value u).1]
      (createAt setting runner t.checkpoint.1 creator address init nrg value u).2 := by
  have hbegun : u.events = t.checkpoint.2.events := hclaimed.trans (events_checkpoint t).symm
  unfold createAtSpans createAt
  by_cases htaken : u.isTaken address = true
  · rw [if_pos htaken, if_pos htaken]
    have hcollided : Ends u _ _ := .collided u address
    have hmarked : ((u.record (.collision address)).latch .addressCollision).events = u.events :=
      hcollided.picked_eq (f := Entry.event?) fun _ _ => rfl
    exact recounts_leave hreliable hopens hopened (.of_events_eq (hmarked.trans hbegun))
      (hextends.trans hcollided.toExtends) _ _ _
  · rw [if_neg htaken, if_neg htaken]
    dsimp only
    cases hpaid : u.transfer ⟨creator, address, value⟩ with
    | mk result paid =>
        have hpay : paid.events = t.checkpoint.2.events := (events_transfer hpaid).trans hbegun
        have hmoved := hextends.trans (.transfer hpaid)
        cases result with
        | error failure =>
            exact recounts_leave hreliable hopens hopened (.of_events_eq hpay) hmoved _ _ _
        | ok done =>
            dsimp only
            generalize initFrame creator address value nrg (u.tx.depth + 1) = frame
            have hentered := recounts_enter (hannounces runner hroom) init frame paid
            have hran : Extends paid (enter runner init frame paid).2 :=
              extends_enter hreliable (hruns runner hroom) init frame
            generalize enter runner init frame paid = ended at hentered hran ⊢
            obtain ⟨result, ended⟩ := ended
            have hinner := (Recounts.after hpay hentered).before
              (events_deposit setting address result)
            have hfinal := (hmoved.trans hran).trans (extends_deposit setting address result)
            have hleft := recounts_leave hreliable hopens hopened hinner hfinal
              (deposit setting address result ended).1.exit
              (deposit setting address result ended).1.output
              (deposit setting address result ended).1.nrgLeft
            exact hleft.before (events_record _ _)

end Room

/-! ### Claiming a nonce -/

/-- A nonce that cannot be claimed is told by an exit. -/
theorem events_claimNonce_error {creator : Address} {halt : Halt}
    (h : claimNonce setting creator s = (.error halt, t)) :
    t.events = s.events ++ [.exit (.halted halt) []] := by
  unfold claimNonce at h
  split at h
  · cases hinc : s.incNonce creator with
    | error halt' =>
        simp only [hinc] at h
        cases h
        exact events_event s _
    | ok claimed => simp [hinc] at h
  · cases hinc : s.checkpoint.2.incNonce creator with
    | error halt' =>
        simp only [hinc] at h
        cases h
        rw [events_settleOrLatch, events_event, events_checkpoint]
    | ok claimed => simp [hinc] at h

/-- A nonce that is claimed is not told; the checkpoint is taken in a state with the same events. -/
theorem events_claimNonce_ok {creator : Address} {point : Checkpoint}
    (h : claimNonce setting creator s = (.ok point, t)) :
    ∃ guarded : Executor, point = guarded.checkpoint.1 ∧ guarded.events = s.events ∧
      Extends guarded.checkpoint.2 t ∧ t.events = guarded.events := by
  unfold claimNonce at h
  split at h
  · cases hinc : s.incNonce creator with
    | error halt => simp [hinc] at h
    | ok claimed =>
        simp only [hinc] at h
        cases h
        exact ⟨claimed, rfl, events_incNonce hinc, .refl _, events_checkpoint claimed⟩
  · cases hinc : s.checkpoint.2.incNonce creator with
    | error halt => simp [hinc] at h
    | ok claimed =>
        simp only [hinc] at h
        cases h
        exact ⟨s, rfl, rfl, .incNonce hinc, (events_incNonce hinc).trans (events_checkpoint s)⟩

section Room

variable {room : Option FrameRunner} {recorder : FrameRecorder} {spans : FrameSpans}
  (hreliable : Reliable setting)
  (hruns : ∀ runner, room = some runner → RunsAs setting runner recorder)
  (hannounces : ∀ runner, room = some runner → Announces runner spans)

include hreliable hruns hannounces

theorem recounts_createWith (caller : Identity) (scheme : AddressScheme) (init : Bytes)
    (nrg : Budget) (value : Amount) (s : Executor) :
    Recounts s (createSpans setting room spans caller scheme init nrg value s)
      (createWith setting room caller scheme init nrg value s).2 := by
  unfold createSpans createWith
  by_cases hstatic : s.isStatic = true
  · rw [if_pos hstatic, if_pos hstatic]
    exact .of_events_eq rfl
  · rw [if_neg hstatic, if_neg hstatic]
    dsimp only
    cases hpre : s.preflight room caller.address value with
    | error failure => exact .of_events_eq (events_record s _)
    | ok runner =>
        obtain ⟨-, hroom⟩ := fatal_of_preflight hpre
        dsimp only
        generalize s.newAddress scheme = address
        generalize hevent : Event.create caller.address address scheme value init nrg.limit = event
        have hopens : event.isOpening = true := by rw [← hevent]; rfl
        have hopened : (s.note (.event event)).events = s.events ++ [event] := events_event s _
        cases hclaim : claimNonce setting caller.address (s.note (.event event)) with
        | mk result t =>
            cases result with
            | error halt =>
                have hdata : Failure.revertData? (.halted halt) = none := rfl
                exact .span hopens hopened (.of_events_eq rfl) (events_claimNonce_error hclaim)
                  (.failed hdata [] _)
            | ok point =>
                obtain ⟨guarded, rfl, hguarded, hextends, hclaimed⟩ := events_claimNonce_ok hclaim
                exact recounts_createAt hreliable hruns hannounces hroom hopens
                  (hguarded.trans hopened) hextends hclaimed _ _ _ _ _

/-! ### Requests -/

theorem recounts_answer (r : Request) (s : Executor) :
    Recounts s (requestSpans setting room spans r s) (answer setting room r s).2 := by
  cases r with
  | call kind caller target input nrg value =>
      exact recounts_callWith hreliable hruns hannounces kind caller target input nrg value s
  | create caller init nrg value =>
      exact recounts_createWith hreliable hruns hannounces caller _ init nrg value s
  | setStorage a key value =>
      unfold answer
      split
      · exact .of_events_eq rfl
      · exact .of_events_eq rfl
  | log entry =>
      unfold answer
      split
      · exact .of_events_eq rfl
      · exact .of_events_eq rfl
  | note label finding => exact .of_events_eq (picked_skip (f := Entry.event?) rfl s)
  | _ => exact .of_events_eq rfl

theorem recounts_run {α : Type} (p : Program α) (s : Executor) :
    Recounts s (p.chronicle (answer setting room) (requestSpans setting room spans) s)
      (p.run (answer setting room) s).2 := by
  induction p generalizing s with
  | done value => exact .of_events_eq rfl
  | ask r next ih =>
      rw [Program.chronicle, Program.run_ask]
      exact (recounts_answer hreliable hruns hannounces r s).trans (ih _ _)

end Room

/-- **A frame announces the calls and creations that its code makes**, whatever room there is for
them. -/
theorem announces_runner (hreliable : Reliable setting) (room : Nat) :
    ∀ runner, Executor.runner setting room = some runner →
      Announces runner (frameSpans setting room) := by
  -- A frame is run with the runner of one frame less, which there is none of in the end.
  induction room with
  | zero =>
      intro runner h
      cases h
  | succ room ih =>
      intro runner h code frame s
      cases h
      have hhanded : (s.note (.frame code frame s.tx.depth s.isStatic)).events = s.events :=
        picked_skip (f := Entry.event?) rfl s
      exact .after hhanded (recounts_run hreliable (runsAs_recorder setting room) ih _ _)

/-! ### Operations -/

/-- The spans are none or a single one, whose outcome is the one that is told. -/
def Tops (spans : List Span) (told : Option CallOutcome) : Prop :=
  spans = [] ∨ ∃ span, spans = [span] ∧ told = some span.outcome

theorem tops_callSpans (room : Option FrameRunner) (spans : FrameSpans) (kind : CallKind)
    (caller : Identity) (target : Address) (input : Bytes) (nrg : Budget) (value : Amount)
    (s : Executor) :
    Tops (callSpans setting room spans kind caller target input nrg value s)
      (some (callWith setting room kind caller target input nrg value s).1) := by
  unfold callSpans
  split
  · exact Or.inl rfl
  · exact Or.inr ⟨_, rfl, rfl⟩

theorem tops_createSpans (room : Option FrameRunner) (spans : FrameSpans) (caller : Identity)
    (scheme : AddressScheme) (init : Bytes) (nrg : Budget) (value : Amount) (s : Executor) :
    Tops (createSpans setting room spans caller scheme init nrg value s)
      (some (createWith setting room caller scheme init nrg value s).1.toCallOutcome) := by
  unfold createSpans
  dsimp only
  split
  · exact Or.inl rfl
  · split
    · exact Or.inl rfl
    · exact Or.inr ⟨_, rfl, rfl⟩

/-- Code that asks for a call or a creation hears the outcome of its span. -/
theorem tops_requestSpans (room : Option FrameRunner) (spans : FrameSpans) (r : Request)
    (s : Executor) :
    Tops (requestSpans setting room spans r s) (r.outcome? (answer setting room r s).1) := by
  cases r with
  | call kind caller target input nrg value => exact tops_callSpans room spans _ _ _ _ _ _ s
  | create caller init nrg value => exact tops_createSpans room spans _ _ _ _ _ s
  | _ => exact Or.inl rfl

theorem events_prepared (s : Executor) (r : Record) :
    (s.prepared r).checkpoint.2.events = s.events :=
  (events_checkpoint _).trans (events_record s r)

theorem recounts_transactCall (hreliable : Reliable setting) (caller target : Address)
    (value : Amount) (input : Bytes) (nrg : Budget) (s : Executor) :
    Recounts s (transactCallSpans setting caller target value input nrg s)
      (transactCall setting caller target value input nrg s).2 := by
  let begun := (s.prepared (.transactCall caller target value nrg.limit)).checkpoint.2
  have hcalled := recounts_callWith hreliable (runsAs_recorder setting (begun.room setting))
    (announces_runner hreliable _) .call (.external caller) target input nrg value begun
  exact (Recounts.after (events_prepared s _) hcalled).before (events_settleOrLatch _ _ _)

theorem recounts_simulateCall (hreliable : Reliable setting) (caller target : Address)
    (value : Amount) (input : Bytes) (nrg : Budget) (s : Executor) :
    Recounts s (transactCallSpans setting caller target value input nrg s.checkpoint.2)
      (simulateCall setting caller target value input nrg s).2 := by
  have htransacted := recounts_transactCall hreliable caller target value input nrg s.checkpoint.2
  exact (Recounts.after (events_checkpoint s) htransacted).before
    ((events_record _ _).trans (events_settleOrLatch _ _ _))

/-- **An operation announces the calls and creations that it makes.** -/
theorem recounts_operate (hreliable : Reliable setting) (s : Executor) (op : Operation) :
    Recounts s (operationSpans setting s op) (operate setting s op) := by
  cases op with
  | transactCall caller target value input nrg =>
      exact recounts_transactCall hreliable caller target value input nrg s
  | transactCreate caller value init nrg =>
      let begun := (s.prepared (.transactCreate caller value nrg.limit)).checkpoint.2
      have hcreated := recounts_createWith hreliable (runsAs_recorder setting (begun.room setting))
        (announces_runner hreliable _) (.external caller) (.legacy caller) init nrg value begun
      exact (Recounts.after (events_prepared s _) hcreated).before (events_settleOrLatch _ _ _)
  | simulateCall caller target value input nrg =>
      exact recounts_simulateCall hreliable caller target value input nrg s
  | estimateNrg caller target value input nrg =>
      exact recounts_simulateCall hreliable caller target value input nrg s
  | create caller scheme init nrg value =>
      exact recounts_createWith hreliable (runsAs_recorder setting _)
        (announces_runner hreliable _) caller scheme init nrg value s
  | request r =>
      exact recounts_answer hreliable (runsAs_recorder setting _) (announces_runner hreliable _) r s

theorem tops_transactCallSpans (setting : Setting) (caller target : Address) (value : Amount)
    (input : Bytes) (nrg : Budget) (s : Executor) :
    Tops (transactCallSpans setting caller target value input nrg s)
      (some (transactCall setting caller target value input nrg s).1) :=
  tops_callSpans _ _ .call (.external caller) target input nrg value
    (s.prepared (.transactCall caller target value nrg.limit)).checkpoint.2

theorem tops_operationSpans (setting : Setting) (s : Executor) (op : Operation) :
    Tops (operationSpans setting s op) (operationOutcome? setting s op) := by
  cases op with
  | transactCall caller target value input nrg =>
      exact tops_transactCallSpans setting caller target value input nrg s
  | transactCreate caller value init nrg =>
      exact tops_createSpans _ _ (.external caller) (.legacy caller) init nrg value
        (s.prepared (.transactCreate caller value nrg.limit)).checkpoint.2
  | simulateCall caller target value input nrg =>
      exact tops_transactCallSpans setting caller target value input nrg s.checkpoint.2
  | estimateNrg caller target value input nrg =>
      exact tops_transactCallSpans setting caller target value input nrg s.checkpoint.2
  | create caller scheme init nrg value =>
      exact tops_createSpans _ _ caller scheme init nrg value s
  | request r => exact tops_requestSpans _ _ r s

/-- How the events of an operation from `s` to `t` stand to the calls and creations that it
makes. -/
structure Bracketed (setting : Setting) (op : Operation) (s t : Executor) : Prop where
  /-- The events added are those of the spans: each of them is opened by its announcement and closed
  by an exit that tells its outcome, with the spans of its own frame in between. So the brackets
  match, whatever was open before. -/
  spells : ∃ word, t.events = s.events ++ word ∧ Spells (operationSpans setting s op) word ∧
    ∀ n, openAfter n word = some n
  /-- The outermost span has the outcome that the client is told. -/
  told : Tops (operationSpans setting s op) (operationOutcome? setting s op)
  /-- Each span further in has the outcome that the code hears which asked for it. -/
  heard : ∀ room r u, Tops (requestSpans setting (runner setting room) (frameSpans setting room) r u)
    (r.outcome? (answer setting (runner setting room) r u).1)

/-- **The events of every operation are well bracketed and truthful.** -/
theorem bracketed_operate (setting : Setting) (hreliable : Reliable setting) (s : Executor)
    (op : Operation) : Bracketed setting op s (operate setting s op) := by
  obtain ⟨word, hword, hspells⟩ := recounts_operate hreliable s op
  refine ⟨⟨word, hword, hspells, fun n => ?_⟩, tops_operationSpans setting s op,
    fun room r u => tops_requestSpans _ _ r u⟩
  rw [← List.append_nil word, hspells.openAfter_append]
  cases n <;> rfl

/-- A creation whose init code calls a contract that reverts, then one more than it can pay for, and
then returns more code than may be stored. -/
theorem bracketed_rejected_frames :
    let interpreter : Interpreter := fun code frame =>
      if code = [1] then do
        let _ ← Program.request (.call .call frame.identity 6 [] frame.nrg 3)
        let _ ← Program.request (.call .call frame.identity 6 [] frame.nrg 1000)
        pure (.returned (List.replicate 3 7) 5)
      else pure (.reverted [9] 1)
    let setting : Setting :=
      { homesteadWith interpreter with config := { Config.homestead with contractLimit := some 2 } }
    let s := withTwoContracts 0
    let op : Operation := .create (.external 1) (.fixed 9) [1] ⟨90, 1⟩ 20
    Reliable setting ∧
      (operate setting s op).events.map Event.isOpening =
        [true, true, false, true, false, false] ∧
      (operationOutcome? setting s op).bind CallOutcome.failure? =
        some (.halted .contractLimit) ∧
      Bracketed setting op s (operate setting s op) := by
  intro interpreter setting s op
  have hreliable : Reliable setting := fun _ _ => rfl
  exact ⟨hreliable, by decide +kernel, by decide +kernel,
    bracketed_operate setting hreliable s op⟩

end Executor

end MessageCalls
