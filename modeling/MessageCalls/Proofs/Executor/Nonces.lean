import MessageCalls.Proofs.Executor.Courses
import MessageCalls.Proofs.Executor.Kept
/-!
# MessageCalls.Proofs.Executor.Nonces

**The nonces of an account are used up one after the other, and none of them twice**
(`Executor.nonces_used_up`): the creations that count are numbered without a gap from the nonce that
the account had at first, and the nonce that it has at last is the next one. So nonces never fall,
only creations change them, and two contracts of one creator have their addresses from different
nonces.

Which creations count, `Claim`s, is read off the moments of a run: those that succeed, or have come
to derive an address where the increment survives a failure, and **whose frames are all left with a
success** (`kept`). A creation inside one that is still running finds the nonce after that of the
outer one; so the outer claim comes first, wherever the increment is made (`Executor.UsesUp`).
-/

namespace MessageCalls

/-- A creation, and the nonce that it uses up. -/
structure Claim where
  /-- The account that creates. -/
  creator : Address
  scheme : AddressScheme
  /-- The nonce that the creation found. -/
  nonce : Nonce
  outcome : CreateOutcome

/-- The address of the new contract is derived from the creator and the nonce, if the scheme says
so. -/
def Claim.Derived (c : Claim) : Prop :=
  c.scheme = .legacy c.creator → c.outcome.address = some (contractAddress c.creator c.nonce)

/-- The nonces of an account that are used up, in order. -/
def usedBy (a : Address) (claims : List Claim) : List Nat :=
  (claims.filter fun c => c.creator = a).map fun c => c.nonce.toNat

theorem usedBy_append (a : Address) (claims claims' : List Claim) :
    usedBy a (claims ++ claims') = usedBy a claims ++ usedBy a claims' := by
  simp [usedBy]

/-- The claim of a creation asked for in `s`. A creation that fails has none if its increment does
not survive that, if it was refused before an address was derived, or if it found the largest
nonce. -/
def claim? (setting : Setting) (caller : Identity) (scheme : AddressScheme)
    (outcome : CreateOutcome) (s : Executor) : Option Claim :=
  if outcome.isSuccess ∨ (setting.config.noncePersistsOnFailure ∧ outcome.address.isSome ∧
      (s.accounts.nonce caller.address).toNat < 2 ^ 64 - 1) then
    some ⟨caller.address, scheme, s.accounts.nonce caller.address, outcome⟩
  else none

/-- The claim of a creation that running code asks for. -/
def Moment.claim? (setting : Setting) (m : Moment) : Option Claim :=
  match m.act with
  | .asked (.create caller _ _ _) outcome =>
    MessageCalls.claim? setting caller (.legacy caller.address) outcome m.state
  | _ => none

theorem ofRequests_claim? (setting : Setting) : OfRequests (Moment.claim? setting) := by
  intro m hm
  unfold Moment.claim?
  split
  · next hact => exact absurd hact (hm _ _)
  · rfl

namespace Executor

/-- From `s` to `t` exactly the claims are made: each account's nonces are used up in order. -/
def UsesUp (s : Executor) (claims : List Claim) (t : Executor) : Prop :=
  ∀ a, usedBy a claims = List.range' (s.accounts.nonce a).toNat (usedBy a claims).length ∧
    (t.accounts.nonce a).toNat = (s.accounts.nonce a).toNat + (usedBy a claims).length

variable {setting : Setting} {frames : List Frame} {s t u : Executor} {moments : List Moment}
  {claims claims' own : List Claim}

namespace UsesUp

theorem of_nonce_eq (h : t.accounts.nonce = s.accounts.nonce) : UsesUp s [] t := by
  intro a
  simp [usedBy, h]

theorem trans (h : UsesUp s claims t) (h' : UsesUp t claims' u) :
    UsesUp s (claims ++ claims') u := by
  intro a
  obtain ⟨hused, hnonce⟩ := h a
  obtain ⟨hused', hnonce'⟩ := h' a
  rw [usedBy_append, List.length_append]
  refine ⟨?_, by omega⟩
  rw [hnonce] at hused'
  rw [← List.range'_append_1, ← hused', ← hused]

/-- Something that changes no nonce comes first. -/
theorem after (h : t.accounts.nonce = s.accounts.nonce) (h' : UsesUp t claims u) :
    UsesUp s claims u :=
  (of_nonce_eq h).trans h'

/-- Something that changes no nonce comes last. -/
theorem before (h : UsesUp s claims t) (h' : u.accounts.nonce = t.accounts.nonce) :
    UsesUp s claims u := by
  simpa using h.trans (of_nonce_eq h')

end UsesUp

/-! ### Nonces that stay -/

theorem Unchanged.nonce_eq (h : Unchanged s t) : t.accounts.nonce = s.accounts.nonce :=
  congrArg AccountView.nonce h.view_eq

theorem nonce_checkpoint (s : Executor) : s.checkpoint.2.accounts.nonce = s.accounts.nonce :=
  congrArg AccountView.nonce (view_checkpoint s)

theorem nonce_transfer {transfer : Transfer} {result : Except Failure Unit}
    (h : s.transfer transfer = (result, t)) : t.accounts.nonce = s.accounts.nonce := by
  rw [accounts_transfer h, Overlay.nonce_transfer]

theorem nonce_pay {transfer : Option Transfer} {result : Except Failure Unit}
    (h : s.pay transfer = (result, t)) : t.accounts.nonce = s.accounts.nonce := by
  obtain ⟨-, -, rfl⟩ | ⟨tr, -, htransfer⟩ := pay_cases h
  · rfl
  · exact nonce_transfer htransfer

theorem nonce_deposit (setting : Setting) (address : Address) (result : FrameResult)
    (s : Executor) :
    (deposit setting address result s).2.accounts.nonce = s.accounts.nonce := by
  unfold deposit
  split
  · split <;> rfl
  · rfl

/-- Only the nonce of the account itself is incremented, and never the largest one. -/
theorem nonce_incNonce {a : Address} (h : s.incNonce a = .ok t) :
    (s.accounts.nonce a).toNat < 2 ^ 64 - 1 ∧
      t.accounts.nonce = Function.update s.accounts.nonce a (s.accounts.nonce a + 1) := by
  unfold Executor.incNonce at h
  split at h
  · next haccounts =>
      cases h
      obtain ⟨hsmall, rfl⟩ := Overlay.incNonce_eq_ok_iff.mp haccounts
      exact ⟨hsmall, congrArg AccountView.nonce (Overlay.view_setNonce s.accounts a _)⟩
  · cases h

/-- An increment uses up the nonce that it finds. -/
theorem usesUp_incNonce {a : Address} (h : s.incNonce a = .ok t) (scheme : AddressScheme)
    (outcome : CreateOutcome) : UsesUp s [⟨a, scheme, s.accounts.nonce a, outcome⟩] t := by
  obtain ⟨hsmall, hnonce⟩ := nonce_incNonce h
  intro b
  by_cases hb : a = b
  · subst hb
    have hnext : (s.accounts.nonce a + 1).toNat = (s.accounts.nonce a).toNat + 1 := by
      have hfits : (s.accounts.nonce a).toNat + 1 < 2 ^ 64 := by omega
      rw [UInt64.toNat_add]
      exact Nat.mod_eq_of_lt hfits
    simp [usedBy, hnonce, hnext]
  · simp [usedBy, hnonce, hb, Function.update_of_ne (Ne.symm hb)]

/-! ### Frames -/

/-- A frame uses up the nonces that are kept of its moments. -/
def Counts (setting : Setting) (runner : FrameRunner) (recorder : FrameRecorder) : Prop :=
  ∀ (frames : List Frame) (code : Bytes) (frame : Frame) (s : Executor),
    UsesUp s (kept (Moment.claim? setting) (recorder frames code frame s))
      (runner code frame s).2

/-- A frame guarded by a checkpoint, with the claim made before its code ran: what it uses up
counts if it is left with a success. -/
theorem usesUp_leave (hreliable : Reliable setting) (h : Extends s.checkpoint.2 u)
    (frames : List Frame) (opening : Executor) (hlive : LivesTogether moments)
    (huses : UsesUp s (own ++ kept (Moment.claim? setting) moments) u) (exit : Exit)
    (output : Bytes) (nrgLeft : Nrg) :
    UsesUp s
      ((if (u.leave setting s.checkpoint.1 exit output nrgLeft).1.isSuccess then own else []) ++
        kept (Moment.claim? setting) (⟨frames, opening, .opened⟩ ::
          (moments ++ leaveChronicle setting frames s.checkpoint.1 exit output nrgLeft u)))
      (u.leave setting s.checkpoint.1 exit output nrgLeft).2 := by
  rw [kept_frame _ _ _ _ (ofRequests_claim? setting) _ hlive]
  rcases leave_cases hreliable h exit output nrgLeft with
    ⟨hsuccess, hview, -⟩ | ⟨hfailed, hunchanged⟩
  · rw [hsuccess, if_pos rfl, if_pos rfl]
    exact huses.before (congrArg AccountView.nonce hview)
  · rw [hfailed]
    exact .of_nonce_eq hunchanged.nonce_eq

/-- The same where no claim was made before its code ran. -/
theorem usesUp_frame (hreliable : Reliable setting) (h : Extends s.checkpoint.2 u)
    (opening : Executor) (hlive : LivesTogether moments)
    (huses : UsesUp s (kept (Moment.claim? setting) moments) u) (exit : Exit) (output : Bytes)
    (nrgLeft : Nrg) :
    UsesUp s
      (kept (Moment.claim? setting) (⟨frames, opening, .opened⟩ ::
        (moments ++ leaveChronicle setting frames s.checkpoint.1 exit output nrgLeft u)))
      (u.leave setting s.checkpoint.1 exit output nrgLeft).2 := by
  have huses' : UsesUp s ([] ++ kept (Moment.claim? setting) moments) u := huses
  have hleft := usesUp_leave hreliable h frames opening hlive huses' exit output nrgLeft
  rwa [ite_self, List.nil_append] at hleft

/-- The deposit at the end of a creation is no claim. -/
theorem kept_depositChronicle (setting : Setting) (frames : List Frame) (address : Address)
    (result : FrameResult) (s : Executor) (h : LivesTogether moments) :
    LivesTogether (moments ++ depositChronicle setting frames address result s) ∧
      kept (Moment.claim? setting) (moments ++ depositChronicle setting frames address result s) =
        kept (Moment.claim? setting) moments := by
  obtain ⟨hnone, -⟩ | ⟨-, -, hmoment, -⟩ := deposit_cases setting frames address result s
  · rw [hnone, List.append_nil]
    exact ⟨h, rfl⟩
  · rw [hmoment]
    refine ⟨h.append (livesTogether_singleton _) fun later => rfl, ?_⟩
    have hdeposit : kept (Moment.claim? setting)
        [(⟨frames, s, .deposited address result.output⟩ : Moment)] = [] := rfl
    rw [h.kept_append, hdeposit, List.append_nil]
    exact if_pos rfl

section Runner

variable {runner : FrameRunner} {recorder : FrameRecorder}

theorem livesTogether_enterChronicle (hruns : RunsAs setting runner recorder) (frames : List Frame)
    (code : Bytes) (frame : Frame) (s : Executor) :
    LivesTogether (enterChronicle recorder frames code frame s) := by
  unfold enterChronicle
  split
  · exact livesTogether_nil
  · obtain ⟨moments, hrecorded, hbody⟩ := hruns frames code frame (s.inside frame)
    rw [hrecorded]
    exact (livesTogether_singleton _).append hbody.livesTogether hbody.survives_append

variable (hcounts : Counts setting runner recorder)

include hcounts

theorem usesUp_enter (frames : List Frame) (code : Bytes) (frame : Frame) (s : Executor) :
    UsesUp s (kept (Moment.claim? setting) (enterChronicle recorder frames code frame s))
      (enter runner code frame s).2 := by
  unfold enterChronicle enter
  by_cases hcode : code.isEmpty = true
  · rw [if_pos hcode, if_pos hcode]
    exact .of_nonce_eq rfl
  · rw [if_neg hcode, if_neg hcode]
    exact hcounts frames code frame (s.inside frame)

theorem usesUp_answerCall (hruns : RunsAs setting runner recorder) (frames : List Frame) (c : Call)
    (s : Executor) :
    LivesTogether (answerCallChronicle setting recorder frames c s) ∧
      UsesUp s (kept (Moment.claim? setting) (answerCallChronicle setting recorder frames c s))
        (answerCall setting runner c s).2 := by
  unfold answerCallChronicle answerCall
  cases setting.natives.run c.codeAddress c.input c.nrg.limit c.identity with
  | some result =>
      refine ⟨livesTogether_singleton _, ?_⟩
      dsimp only
      split <;> exact .of_nonce_eq rfl
  | none =>
      exact ⟨livesTogether_enterChronicle hruns _ _ _ _, usesUp_enter hcounts _ _ _ s⟩

end Runner

/-! ### Calls and creations -/

section Room

variable {room : Option FrameRunner} {recorder : FrameRecorder} (hreliable : Reliable setting)
  (hruns : ∀ runner, room = some runner → RunsAs setting runner recorder)
  (hcounts : ∀ runner, room = some runner → Counts setting runner recorder)

include hreliable hruns hcounts

theorem usesUp_carryOut (frames : List Frame) (c : Call) (s : Executor) :
    UsesUp s
      (kept (Moment.claim? setting) (carryOutChronicle setting room recorder frames c s))
      (carryOut setting room c s).2 := by
  unfold carryOutChronicle carryOut
  refine .after (t := s.note (.event (.call c))) rfl ?_
  generalize s.note (.event (.call c)) = s₁
  dsimp only
  cases hpre : s₁.preflight room c.payer c.value with
  | error failure => exact .of_nonce_eq rfl
  | ok runner =>
      obtain ⟨-, hroom⟩ := fatal_of_preflight hpre
      cases hpaid : s₁.checkpoint.2.pay c.transfer with
      | mk result paid =>
          have hextends := extends_pay hpaid
          have hpay : UsesUp s₁ [] paid :=
            .of_nonce_eq ((nonce_pay hpaid).trans (nonce_checkpoint s₁))
          cases result with
          | error failure =>
              exact usesUp_frame hreliable hextends _ livesTogether_nil hpay _ _ _
          | ok done =>
              obtain ⟨hlive, hanswered⟩ := usesUp_answerCall (hcounts runner hroom)
                (hruns runner hroom) frames c paid
              have hended := hextends.trans (extends_answerCall hreliable (hruns runner hroom) c)
              exact (usesUp_frame hreliable hended _ hlive (hpay.trans hanswered) _ _ _).before rfl

theorem usesUp_callWith (frames : List Frame) (kind : CallKind) (caller : Identity)
    (target : Address) (input : Bytes) (nrg : Budget) (value : Amount) (s : Executor) :
    UsesUp s
      (kept (Moment.claim? setting)
        (callChronicle setting room recorder frames kind caller target input nrg value s))
      (callWith setting room kind caller target input nrg value s).2 := by
  unfold callChronicle callWith
  by_cases hrefused : (s.isStatic && kind.movesValue && value ≠ 0) = true
  · rw [if_pos hrefused, if_pos hrefused]
    exact .of_nonce_eq rfl
  · rw [if_neg hrefused, if_neg hrefused]
    exact usesUp_carryOut hreliable hruns hcounts frames _ s

/-- A creation that is guarded by a checkpoint taken in `s`, and has made its claim, if inside it,
in `u`. -/
theorem usesUp_createAt {runner : FrameRunner} (hroom : room = some runner)
    (hextends : Extends s.checkpoint.2 u) (hown : UsesUp s own u) (frames : List Frame)
    (creator address : Address) (init : Bytes) (nrg : Budget) (value : Amount) :
    UsesUp s
      ((if (createAt setting runner s.checkpoint.1 creator address init nrg value u).1.isSuccess
          then own else []) ++
        kept (Moment.claim? setting) (⟨frames, u, .opened⟩ ::
          createAtChronicle setting runner recorder frames s.checkpoint.1 creator address init nrg
            value u))
      (createAt setting runner s.checkpoint.1 creator address init nrg value u).2 := by
  unfold createAtChronicle createAt
  have hbegun : UsesUp s (own ++ []) u := by rwa [List.append_nil]
  by_cases htaken : u.isTaken address = true
  · rw [if_pos htaken, if_pos htaken]
    have hcollided : Ends u _ _ := .collided u address
    have hmarked : ((u.record (.collision address)).latch .addressCollision).accounts.nonce =
        u.accounts.nonce := by rw [accounts_latch, accounts_record]
    exact usesUp_leave hreliable (hextends.trans hcollided.toExtends) _ _ livesTogether_nil
      (hbegun.before hmarked) _ _ _
  · rw [if_neg htaken, if_neg htaken]
    dsimp only
    cases hpaid : u.transfer ⟨creator, address, value⟩ with
    | mk result paid =>
        have hpay : UsesUp s own paid := hown.before (nonce_transfer hpaid)
        have hmoved := hextends.trans (.transfer hpaid)
        cases result with
        | error failure =>
            exact usesUp_leave hreliable hmoved _ _ livesTogether_nil
              (hbegun.before (nonce_transfer hpaid)) _ _ _
        | ok done =>
            dsimp only
            generalize initFrame creator address value nrg (u.tx.depth + 1) = frame
            have hentered := usesUp_enter (hcounts runner hroom) frames init frame paid
            have hlive := livesTogether_enterChronicle (hruns runner hroom) frames init frame paid
            have hran : Extends paid (enter runner init frame paid).2 :=
              extends_enter hreliable (hruns runner hroom) init frame
            let result := (enter runner init frame paid).1
            obtain ⟨hlive', hkept⟩ := kept_depositChronicle setting frames address result
              (enter runner init frame paid).2 hlive
            have hinner := (hpay.trans hentered).before (nonce_deposit setting address result _)
            rw [← hkept] at hinner
            have hfinal := (hmoved.trans hran).trans (extends_deposit setting address result)
            exact (usesUp_leave hreliable hfinal _ _ hlive' hinner _ _ _).before rfl

end Room

/-- A nonce that cannot be claimed is the largest one, and nothing comes of it. -/
theorem nonce_claimNonce_error (hreliable : Reliable setting) {creator : Address} {halt : Halt}
    (h : claimNonce setting creator s = (.error halt, t)) :
    t.accounts.nonce = s.accounts.nonce ∧
      ¬ (s.accounts.nonce creator).toNat < 2 ^ 64 - 1 := by
  unfold claimNonce at h
  split at h
  · cases hinc : s.incNonce creator with
    | error halt' =>
        simp only [hinc] at h
        cases h
        exact ⟨rfl, nonce_of_incNonce_eq_error hinc⟩
    | ok claimed => simp [hinc] at h
  · cases hinc : s.checkpoint.2.incNonce creator with
    | error halt' =>
        simp only [hinc] at h
        cases h
        refine ⟨((settlesAs_givenUp hreliable s _).restored rfl).nonce_eq, ?_⟩
        rw [← nonce_checkpoint s]
        exact nonce_of_incNonce_eq_error hinc
    | ok claimed => simp [hinc] at h

/-- Giving up a checkpoint is no claim. -/
theorem kept_claimChronicle (setting : Setting) (frames : List Frame) (creator : Address)
    (s : Executor) :
    kept (Moment.claim? setting) (claimChronicle setting frames creator s) = [] := by
  unfold claimChronicle
  split
  · rfl
  · dsimp only
    split <;> rfl

/-- A nonce is claimed before the checkpoint of the creation is taken, where the increment survives
a failure, or else just after it. -/
theorem usesUp_claimNonce {creator : Address} {point : Checkpoint}
    (h : claimNonce setting creator s = (.ok point, t)) (scheme : AddressScheme) :
    (s.accounts.nonce creator).toNat < 2 ^ 64 - 1 ∧
      ∃ guarded, point = guarded.checkpoint.1 ∧ Extends guarded.checkpoint.2 t ∧ ∀ outcome,
        let own : Claim := ⟨creator, scheme, s.accounts.nonce creator, outcome⟩
        UsesUp s (if setting.config.noncePersistsOnFailure then [own] else []) guarded ∧
          UsesUp guarded (if setting.config.noncePersistsOnFailure then [] else [own]) t := by
  unfold claimNonce at h
  split at h
  · next hpersists =>
      cases hinc : s.incNonce creator with
      | error halt => simp [hinc] at h
      | ok claimed =>
          simp only [hinc] at h
          cases h
          refine ⟨(nonce_incNonce hinc).1, claimed, rfl, .refl _, fun outcome => ?_⟩
          intro own
          rw [if_pos hpersists, if_pos hpersists]
          exact ⟨usesUp_incNonce hinc scheme outcome, .of_nonce_eq (nonce_checkpoint claimed)⟩
  · next hpersists =>
      cases hinc : s.checkpoint.2.incNonce creator with
      | error halt => simp [hinc] at h
      | ok claimed =>
          simp only [hinc] at h
          cases h
          have hsmall := (nonce_incNonce hinc).1
          rw [nonce_checkpoint s] at hsmall
          refine ⟨hsmall, s, rfl, .incNonce hinc, fun outcome => ?_⟩
          have hused := usesUp_incNonce hinc scheme outcome
          rw [nonce_checkpoint s] at hused
          intro own
          rw [if_neg hpersists, if_neg hpersists]
          exact ⟨.of_nonce_eq rfl, .after (nonce_checkpoint s) hused⟩

/-- A creation that is refused before an address is derived has no claim. -/
theorem claim?_refused (setting : Setting) (caller : Identity) (scheme : AddressScheme)
    (failure : Failure) (nrgLeft : Nrg) (s : Executor) :
    claim? setting caller scheme (.failed none failure nrgLeft) s = none := by
  refine if_neg ?_
  rintro (hsuccess | ⟨-, haddress, -⟩)
  · cases hsuccess
  · cases haddress

/-- A creation that finds the largest nonce has no claim. -/
theorem claim?_unclaimed (setting : Setting) {caller : Identity}
    (h : ¬ (s.accounts.nonce caller.address).toNat < 2 ^ 64 - 1) (scheme : AddressScheme)
    (address : Address) (failure : Failure) (nrgLeft : Nrg) :
    claim? setting caller scheme (.failed (some address) failure nrgLeft) s = none := by
  refine if_neg ?_
  rintro (hsuccess | ⟨-, -, hsmall⟩)
  · cases hsuccess
  · exact h hsmall

/-- The claim of a creation that is let in. -/
theorem claim?_letIn (setting : Setting) {caller : Identity}
    (h : (s.accounts.nonce caller.address).toNat < 2 ^ 64 - 1) (scheme : AddressScheme)
    (outcome : CallOutcome) (address : Address) :
    let created : CreateOutcome := { outcome with address := some address }
    let own : Claim := ⟨caller.address, scheme, s.accounts.nonce caller.address, created⟩
    (claim? setting caller scheme created s).toList =
      (if setting.config.noncePersistsOnFailure then [own] else []) ++
        if outcome.isSuccess then (if setting.config.noncePersistsOnFailure then [] else [own])
        else [] := by
  intro created own
  unfold claim?
  by_cases hpersists : setting.config.noncePersistsOnFailure = true
  · rw [if_pos (Or.inr ⟨hpersists, rfl, h⟩), if_pos hpersists, if_pos hpersists, ite_self]
    rfl
  · rw [if_neg hpersists, if_neg hpersists]
    by_cases hsuccess : outcome.isSuccess = true
    · rw [if_pos (Or.inl hsuccess), if_pos hsuccess]
      rfl
    · rw [if_neg (not_or.mpr ⟨hsuccess, fun hclaimed => hpersists hclaimed.1⟩), if_neg hsuccess]
      rfl

section Room

variable {room : Option FrameRunner} {recorder : FrameRecorder} (hreliable : Reliable setting)
  (hruns : ∀ runner, room = some runner → RunsAs setting runner recorder)
  (hcounts : ∀ runner, room = some runner → Counts setting runner recorder)

include hreliable hruns hcounts

/-- A creation claims a nonce before those that are claimed inside it. -/
theorem usesUp_createWith (frames : List Frame) (caller : Identity) (scheme : AddressScheme)
    (init : Bytes) (nrg : Budget) (value : Amount) (s : Executor) :
    UsesUp s
      ((claim? setting caller scheme
          (createWith setting room caller scheme init nrg value s).1 s).toList ++
        kept (Moment.claim? setting)
          (createChronicle setting room recorder frames caller scheme init nrg value s))
      (createWith setting room caller scheme init nrg value s).2 := by
  unfold createChronicle createWith
  by_cases hstatic : s.isStatic = true
  · rw [if_pos hstatic, if_pos hstatic]
    rw [claim?_refused]
    exact .of_nonce_eq rfl
  · rw [if_neg hstatic, if_neg hstatic]
    dsimp only
    cases hpre : s.preflight room caller.address value with
    | error failure =>
        dsimp only
        rw [claim?_refused]
        exact .of_nonce_eq rfl
    | ok runner =>
        obtain ⟨-, hroom⟩ := fatal_of_preflight hpre
        dsimp only
        generalize s.newAddress scheme = address
        generalize Entry.event (.create caller.address address scheme value init nrg.limit) = event
        cases hclaim : claimNonce setting caller.address (s.note event) with
        | mk result t =>
            cases result with
            | error halt =>
                obtain ⟨hnonce, hlargest⟩ := nonce_claimNonce_error hreliable hclaim
                have hnone := claim?_unclaimed (s := s) setting hlargest scheme address
                  (.halted halt)
                dsimp only
                rw [hnone, kept_claimChronicle]
                exact .of_nonce_eq hnonce
            | ok point =>
                obtain ⟨hsmall, guarded, rfl, hextends, hused⟩ := usesUp_claimNonce hclaim scheme
                let created := createAt setting runner guarded.checkpoint.1 caller.address address
                  init nrg value t
                obtain ⟨hbefore, hown⟩ := hused { created.1 with address := some address }
                have hcreated := usesUp_createAt hreliable hruns hcounts hroom hextends hown frames
                  caller.address address init nrg value
                have hclaims := claim?_letIn (s := s) setting hsmall scheme created.1 address
                dsimp only at hclaims ⊢
                rw [hclaims, List.append_assoc]
                exact UsesUp.after (u := created.2) rfl (hbefore.trans hcreated)

theorem usesUp_answer (frames : List Frame) (r : Request) (s : Executor) :
    UsesUp s (kept (Moment.claim? setting) (requestChronicle setting room recorder frames r s))
      (answer setting room r s).2 := by
  cases r with
  | call kind caller target input nrg value =>
      rw [requestChronicle, kept_cons_of_eq_none rfl]
      exact usesUp_callWith hreliable hruns hcounts frames kind caller target input nrg value s
  | create caller init nrg value =>
      have hcreated : Created setting frames caller.address s _ _ _ :=
        created_createWith hruns caller (.legacy caller.address) init nrg value
      rw [requestChronicle, kept_cons (survives_course hcreated.course)]
      exact usesUp_createWith hreliable hruns hcounts frames caller _ init nrg value s
  | setStorage a key value =>
      unfold answer
      split <;> exact .of_nonce_eq rfl
  | log entry =>
      unfold answer
      split <;> exact .of_nonce_eq rfl
  | _ => exact .of_nonce_eq rfl

theorem usesUp_run {α : Type} (frames : List Frame) (p : Program α) (s : Executor) :
    UsesUp s
      (kept (Moment.claim? setting)
        (p.chronicle (answer setting room) (requestChronicle setting room recorder frames) s))
      (p.run (answer setting room) s).2 := by
  induction p generalizing s with
  | done value => exact .of_nonce_eq rfl
  | ask r next ih =>
      rw [Program.chronicle, Program.run_ask]
      have hrequest : Course setting frames s _ _ := course_requestChronicle hruns r
      rw [hrequest.kept_append (survives_course (course_chronicle hruns _))]
      exact (usesUp_answer hreliable hruns hcounts frames r s).trans (ih _ _)

end Room

/-- **A frame uses up the nonces that are kept of its moments**, whatever room there is for the
frames inside it. -/
theorem counts_runner (hreliable : Reliable setting) (room : Nat) :
    ∀ runner, Executor.runner setting room = some runner →
      Counts setting runner (recorder setting room) := by
  -- A frame is run with the runner of one frame less, which there is none of in the end.
  induction room with
  | zero =>
      intro runner h
      cases h
  | succ room ih =>
      intro runner h frames code frame s
      cases h
      rw [recorder, kept_cons_of_eq_none rfl]
      exact .after rfl (usesUp_run hreliable (runsAs_recorder setting room) ih _ _ _)

/-! ### Operations -/

/-- A transaction with a fatal condition uses up nothing. -/
theorem usesUp_conclude (hreliable : Reliable setting) (h : Extends s.checkpoint.2 t)
    (huses : UsesUp s claims t) :
    UsesUp s (if (conclude setting s.checkpoint.1 t).fatal.isSome then [] else claims)
      (conclude setting s.checkpoint.1 t) := by
  have hsettles := settleOrLatch_checkpoint hreliable h t.concluding
  have hfatal : (conclude setting s.checkpoint.1 t).fatal = t.fatal := hsettles.fatal
  rw [hfatal]
  by_cases hsome : t.fatal.isSome = true
  · rw [if_pos hsome]
    exact .of_nonce_eq (hsettles.restored (if_pos hsome)).nonce_eq
  · have hview : (conclude setting s.checkpoint.1 t).accounts.view = t.accounts.view := by
      rw [conclude, if_neg hsome]
      exact view_settleOrLatch_commit setting t _
    rw [if_neg hsome]
    exact huses.before (congrArg AccountView.nonce hview)

/-- The operation is undone in the end: a dry run, or a transaction with a fatal condition. -/
def undoes (setting : Setting) (s : Executor) (op : Operation) : Bool :=
  op.isDryRun || op.isTransaction && (operate setting s op).fatal.isSome

/-- The claim of the creation that an operation is. -/
def ownClaim? (setting : Setting) (s : Executor) : Operation → Option Claim
  | .transactCreate caller value init nrg =>
    claim? setting (.external caller) (.legacy caller)
      (transactCreate setting caller value init nrg s).1
      (s.prepared (.transactCreate caller value nrg.limit)).checkpoint.2
  | .create caller scheme init nrg value =>
    claim? setting caller scheme (create setting caller scheme init nrg value s).1 s
  | _ => none

/-- The claims that an operation makes. -/
def operationClaims (setting : Setting) (s : Executor) (op : Operation) : List Claim :=
  if undoes setting s op then []
  else (ownClaim? setting s op).toList ++
    kept (Moment.claim? setting) (operationChronicle setting s op)

/-- The settling of a checkpoint outside any frame is no claim. -/
theorem kept_settlingOf (h : Course setting [] s moments t) (point : Checkpoint)
    (closing : Overlay.Closing) (u : Executor) :
    kept (Moment.claim? setting) (moments ++ [settlingOf setting point closing u]) =
      kept (Moment.claim? setting) moments := by
  rw [h.kept_append rfl]
  exact List.append_nil _

/-- What is undone in the end uses up nothing. -/
theorem usesUp_dryRun (hreliable : Reliable setting)
    (h : TransactedAs setting s.checkpoint.2 moments t) (r : Record) :
    UsesUp s [] ((t.settleOrLatch setting s.checkpoint.1 .restore).record r) := by
  obtain ⟨r', hsettles⟩ := h.transacted.settlesAs_restore hreliable
  exact .of_nonce_eq (hsettles.restored rfl).nonce_eq

/-- **An operation uses up the nonces of its claims.** -/
theorem usesUp_operate (hreliable : Reliable setting) (s : Executor) (op : Operation) :
    UsesUp s (operationClaims setting s op) (operate setting s op) := by
  cases op with
  | transactCall caller target value input nrg =>
      let before := s.prepared (.transactCall caller target value nrg.limit)
      let begun := before.checkpoint.2
      have hcalled := called setting (begun.room setting) [] begun .call (.external caller) target
        input nrg value
      have huses := usesUp_callWith hreliable (runsAs_recorder setting (begun.room setting))
        (counts_runner hreliable _) [] .call (.external caller) target input nrg value begun
      rw [← kept_settlingOf hcalled.course before.checkpoint.1] at huses
      have hconcluded := usesUp_conclude hreliable (hcalled.activity.toExtends hreliable)
        (.after (nonce_checkpoint before) huses)
      exact hconcluded
  | transactCreate caller value init nrg =>
      let before := s.prepared (.transactCreate caller value nrg.limit)
      let begun := before.checkpoint.2
      have hcreated := created setting (begun.room setting) [] begun (.external caller)
        (.legacy caller) init nrg value
      have huses := usesUp_createWith hreliable (runsAs_recorder setting (begun.room setting))
        (counts_runner hreliable _) [] (.external caller) (.legacy caller) init nrg value begun
      rw [← kept_settlingOf hcreated.course before.checkpoint.1] at huses
      have hconcluded := usesUp_conclude hreliable (hcreated.activity.toExtends hreliable)
        (.after (nonce_checkpoint before) huses)
      exact hconcluded
  | simulateCall caller target value input nrg =>
      exact usesUp_dryRun hreliable
        (transactedAs_call setting hreliable caller target value input nrg s.checkpoint.2) _
  | estimateNrg caller target value input nrg =>
      exact usesUp_dryRun hreliable
        (transactedAs_call setting hreliable caller target value input nrg s.checkpoint.2) _
  | create caller scheme init nrg value =>
      exact usesUp_createWith hreliable (runsAs_recorder setting _) (counts_runner hreliable _) []
        caller scheme init nrg value s
  | request r =>
      exact usesUp_answer hreliable (runsAs_recorder setting _) (counts_runner hreliable _) [] r s

/-! ### Addresses -/

/-- A creation that has come to an address has derived it in the state in which it was asked for. -/
theorem address_createWith (setting : Setting) (room : Option FrameRunner) (caller : Identity)
    (scheme : AddressScheme) (init : Bytes) (nrg : Budget) (value : Amount) (s : Executor) :
    let outcome := (createWith setting room caller scheme init nrg value s).1
    (outcome.address = none ∧ outcome.isSuccess = false) ∨
      outcome.address = some (s.newAddress scheme) := by
  unfold createWith
  split
  · exact .inl ⟨rfl, rfl⟩
  · dsimp only
    split
    · exact .inl ⟨rfl, rfl⟩
    · split <;> exact .inr rfl

theorem derived_claim? (room : Option FrameRunner) {caller : Identity} {scheme : AddressScheme}
    {init : Bytes} {nrg : Budget} {value : Amount} {c : Claim}
    (h : claim? setting caller scheme
      (createWith setting room caller scheme init nrg value s).1 s = some c) : c.Derived := by
  have haddress := address_createWith setting room caller scheme init nrg value s
  unfold claim? at h
  split at h
  · next hclaimed =>
      cases h
      show scheme = .legacy caller.address → _ =
        some (contractAddress caller.address (s.accounts.nonce caller.address))
      rintro rfl
      rcases haddress with ⟨hnone, hfailed⟩ | haddress
      · rcases hclaimed with hsuccess | ⟨-, hsome, -⟩
        · rw [hsuccess] at hfailed
          cases hfailed
        · rw [hnone] at hsome
          cases hsome
      · exact haddress
  · cases h

/-- The address of every creation that a course keeps is derived from the nonce that it uses up. -/
theorem Course.derived (h : Course setting frames s moments t) :
    ∀ c ∈ kept (Moment.claim? setting) moments, c.Derived := by
  intro c hc
  obtain ⟨m, hm, hclaim⟩ := List.mem_filterMap.mp hc
  have hanswered := h.answeredBy m ((live_sublist moments).subset hm)
  unfold Moment.claim? at hclaim
  split at hclaim
  · next caller init nrg value outcome hact =>
      obtain ⟨room, rfl⟩ := hanswered _ _ hact
      exact derived_claim? room hclaim
  · cases hclaim

theorem TransactedAs.derived (h : TransactedAs setting s moments t) :
    ∀ c ∈ kept (Moment.claim? setting) moments, c.Derived := by
  obtain ⟨r, hremark, body, aborted⟩ := h
  rw [kept_settlingOf body]
  exact body.derived

theorem OperatedAs.derived {op : Operation} (h : OperatedAs setting s op moments t)
    (hlasting : op.isDryRun = false) : ∀ c ∈ kept (Moment.claim? setting) moments, c.Derived := by
  cases h with
  | course hkind hkept h => exact h.derived
  | transaction hkept h => exact h.derived
  | dryRun hundone h r =>
      rw [hundone] at hlasting
      cases hlasting

theorem derived_ownClaim? (s : Executor) (op : Operation) {c : Claim}
    (h : ownClaim? setting s op = some c) : c.Derived := by
  cases op with
  | transactCreate caller value init nrg =>
      let begun := (s.prepared (.transactCreate caller value nrg.limit)).checkpoint.2
      have hclaim : claim? setting (.external caller) (.legacy caller)
        (createWith setting (runner setting (begun.room setting)) (.external caller)
          (.legacy caller) init nrg value begun).1 begun = some c := h
      exact derived_claim? _ hclaim
  | create caller scheme init nrg value => exact derived_claim? (runner setting (s.room setting)) h
  | _ => cases h

theorem derived_operationClaims (hreliable : Reliable setting) (s : Executor) (op : Operation) :
    ∀ c ∈ operationClaims setting s op, c.Derived := by
  unfold operationClaims
  split
  · exact List.forall_mem_nil _
  · next hlasting =>
      have hkept : op.isDryRun = false := by
        rw [undoes, Bool.or_eq_true, not_or] at hlasting
        simpa using hlasting.1
      have hown : ∀ c ∈ (ownClaim? setting s op).toList, c.Derived :=
        fun c hc => derived_ownClaim? s op (Option.mem_toList.mp hc)
      exact List.forall_mem_append.mpr ⟨hown, (operatedAs setting hreliable s op).derived hkept⟩

/-! ### What a client does -/

end Executor

/-- What a client does with the machine, and with the pending accounts in between. It sets no nonce
itself and restores no snapshot itself. -/
inductive Deed
  | operate (op : Operation)
  | transfer (t : Transfer)
  | setBalance (a : Address) (v : Amount)
  | setCode (a : Address) (code : Bytes)
  | setStorage (a : Address) (k v : Word)
  | snapshot
  | commit (handle : Snapshot)

namespace Executor

variable {setting : Setting} {s t : Executor} {claims : List Claim}

/-- The state after a deed; a commit may be refused. -/
def afterDeed (setting : Setting) (s : Executor) : Deed → Executor
  | .operate op => operate setting s op
  | .transfer t => (s.transfer t).2
  | .setBalance a v => s.updateAccounts fun o => o.setBalance a v
  | .setCode a code => s.updateAccounts fun o => o.setCode a code
  | .setStorage a k v => s.updateAccounts fun o => o.setStorage a k v
  | .snapshot => s.snapshot.2
  | .commit handle => (s.close setting handle .commit).2

/-- The claims of a deed; only operations make any. -/
def deedClaims (setting : Setting) (s : Executor) : Deed → List Claim
  | .operate op => operationClaims setting s op
  | _ => []

/-- The state after some deeds. -/
def afterDeeds (setting : Setting) (s : Executor) (deeds : List Deed) : Executor :=
  deeds.foldl (afterDeed setting) s

/-- The claims of some deeds, one after the other. -/
def claimsOf (setting : Setting) : Executor → List Deed → List Claim
  | _, [] => []
  | s, deed :: deeds =>
    deedClaims setting s deed ++ claimsOf setting (afterDeed setting s deed) deeds

theorem nonce_commit (setting : Setting) (s : Executor) (handle : Snapshot) :
    (s.close setting handle .commit).2.accounts.nonce = s.accounts.nonce :=
  congrArg AccountView.nonce (view_settle_commit setting s ⟨handle, 0⟩)

theorem usesUp_deed (hreliable : Reliable setting) (s : Executor) (deed : Deed) :
    UsesUp s (deedClaims setting s deed) (afterDeed setting s deed) := by
  cases deed with
  | operate op => exact usesUp_operate hreliable s op
  | transfer t => exact .of_nonce_eq (nonce_transfer (Prod.eta _).symm)
  | snapshot => exact .of_nonce_eq (nonce_checkpoint s)
  | commit handle => exact .of_nonce_eq (nonce_commit setting s handle)
  | _ => exact .of_nonce_eq rfl

theorem usesUp_deeds (hreliable : Reliable setting) (s : Executor) (deeds : List Deed) :
    UsesUp s (claimsOf setting s deeds) (afterDeeds setting s deeds) := by
  induction deeds generalizing s with
  | nil => exact .of_nonce_eq rfl
  | cons deed deeds ih => exact (usesUp_deed hreliable s deed).trans (ih _)

theorem derived_claimsOf (hreliable : Reliable setting) (s : Executor) (deeds : List Deed) :
    ∀ c ∈ claimsOf setting s deeds, c.Derived := by
  induction deeds generalizing s with
  | nil => exact List.forall_mem_nil _
  | cons deed deeds ih =>
      refine List.forall_mem_append.mpr ⟨?_, ih _⟩
      cases deed with
      | operate op => exact derived_operationClaims hreliable s op
      | _ => exact List.forall_mem_nil _

/-! ### No nonce twice -/

/-- From `s` to `t` the nonces of the claims are used up, each of them once. -/
structure NoncesUsedUp (s : Executor) (claims : List Claim) (t : Executor) : Prop where
  /-- No nonce falls. -/
  grows : ∀ a, s.accounts.nonce a ≤ t.accounts.nonce a
  /-- A nonce changes only by creations of that account. -/
  caused : ∀ a, t.accounts.nonce a ≠ s.accounts.nonce a → ∃ c ∈ claims, c.creator = a
  /-- The creations of an account are numbered without a gap, from the nonce that it had at
  first to the nonce before the one that it has at last. -/
  numbered : UsesUp s claims t
  /-- No two creations of one account find the same nonce. -/
  distinct : claims.Pairwise fun c c' => c.creator = c'.creator → c.nonce ≠ c'.nonce
  /-- The largest nonce is never used up. -/
  below : ∀ c ∈ claims, c.nonce.toNat < 2 ^ 64 - 1
  /-- The addresses of the new contracts are derived from these nonces. -/
  derived : ∀ c ∈ claims, c.Derived

theorem mem_usedBy {c : Claim} (h : c ∈ claims) : c.nonce.toNat ∈ usedBy c.creator claims :=
  List.mem_map.mpr ⟨c, List.mem_filter.mpr ⟨h, by simp⟩, rfl⟩

/-- Numbers without a gap are different. -/
theorem UsesUp.distinct (h : UsesUp s claims t) :
    claims.Pairwise fun c c' => c.creator = c'.creator → c.nonce ≠ c'.nonce := by
  refine List.pairwise_iff_forall_sublist.mpr fun {c c'} hpair hcreator hnonce => ?_
  have hnodup : (usedBy c.creator claims).Nodup := by
    rw [(h c.creator).1]
    exact List.nodup_range'
  have hused := (hpair.filter fun d => d.creator = c.creator).map fun d => d.nonce.toNat
  have htwice := hused.nodup hnodup
  simp [hcreator, hnonce] at htwice

theorem UsesUp.noncesUsedUp (h : UsesUp s claims t) (hderived : ∀ c ∈ claims, c.Derived) :
    NoncesUsedUp s claims t := by
  refine ⟨fun a => ?_, fun a hchanged => ?_, h, h.distinct, fun c hc => ?_, hderived⟩
  · rw [UInt64.le_iff_toNat_le, (h a).2]
    exact Nat.le_add_right _ _
  · by_contra hnone
    have hunused : usedBy a claims = [] := by
      refine List.map_eq_nil_iff.mpr (List.filter_eq_nil_iff.mpr fun c hc hcreator => ?_)
      exact hnone ⟨c, hc, of_decide_eq_true hcreator⟩
    have hsame := (h a).2
    rw [hunused] at hsame
    exact hchanged (UInt64.toNat_inj.mp hsame)
  · obtain ⟨hused, hnonce⟩ := h c.creator
    have hmem := mem_usedBy hc
    rw [hused, List.mem_range'_1] at hmem
    have hbound := (t.accounts.nonce c.creator).toNat_lt
    omega

/-- **The nonces of an account are used up one after the other, and none of them twice**: whatever a
client does, and whatever running code has asked for so far. -/
theorem nonces_used_up (setting : Setting) (hreliable : Reliable setting) :
    (∀ s deeds, NoncesUsedUp s (claimsOf setting s deeds) (afterDeeds setting s deeds)) ∧
    ∀ room frames (α : Type) (p : Program α) s, NoncesUsedUp s
      (kept (Moment.claim? setting)
        (p.chronicle (answer setting (runner setting room))
          (requestChronicle setting (runner setting room) (recorder setting room) frames) s))
      (p.run (answer setting (runner setting room)) s).2 := by
  refine ⟨fun s deeds => ?_, fun room frames α p s => ?_⟩
  · exact (usesUp_deeds hreliable s deeds).noncesUsedUp (derived_claimsOf hreliable s deeds)
  · have hruns := runsAs_recorder setting room
    have hcourse : Course setting frames s _ _ := course_chronicle hruns p
    exact (usesUp_run hreliable hruns (counts_runner hreliable room) frames p s).noncesUsedUp
      hcourse.derived

/-- An account makes a creation that succeeds, one that reverts inside a snapshot, and another one
that succeeds. All three have used up a nonce, since the increment survives a failure. What holds of
them holds too of a creation that running code asks for before it reads the nonce. -/
theorem nonces_used_up_by_creations :
    let interpreter : Interpreter := fun code _ =>
      if code = [4] then pure (.returned [7] 300) else pure (.reverted [] 5)
    let setting := homesteadWith interpreter
    let s := withTwoContracts 0
    let handle := (operate setting s (.create (.external 1) (.fixed 9) [4] ⟨500, 1⟩ 3)).snapshot.1
    let deeds : List Deed :=
      [.operate (.create (.external 1) (.fixed 9) [4] ⟨500, 1⟩ 3), .snapshot,
        .operate (.create (.external 1) (.fixed 8) [5] ⟨500, 1⟩ 0), .commit handle,
        .operate (.transactCall 1 6 2 [] ⟨500, 1⟩),
        .operate (.create (.external 1) (.fixed 8) [4] ⟨500, 1⟩ 0)]
    let p : Program Nonce := do
      let _ ← Program.request (.create (.external 1) [4] ⟨500, 1⟩ 0)
      Program.request (.nonce 1)
    let asked := p.chronicle (answer setting (runner setting 3))
      (requestChronicle setting (runner setting 3) (recorder setting 3) []) s
    Reliable setting ∧ NoncesUsedUp s (claimsOf setting s deeds) (afterDeeds setting s deeds) ∧
      NoncesUsedUp s (kept (Moment.claim? setting) asked)
        (p.run (answer setting (runner setting 3)) s).2 ∧
      (claimsOf setting s deeds).map (fun c => (c.creator, c.nonce, c.outcome.isSuccess)) =
        [(1, 0, true), (1, 1, false), (1, 2, true)] ∧
      (afterDeeds setting s deeds).accounts.nonce 1 = 3 ∧
      (afterDeeds setting s deeds).accounts.openSnapshots = 0 := by
  intro interpreter setting s handle deeds p asked
  have hreliable : Reliable setting := fun _ _ => rfl
  obtain ⟨hdeeds, hprograms⟩ := nonces_used_up setting hreliable
  exact ⟨hreliable, hdeeds s deeds, hprograms 3 [] Nonce p s, by decide +kernel,
    by decide +kernel, by decide +kernel⟩

end Executor

end MessageCalls
