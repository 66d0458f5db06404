import MessageCalls.Proofs.Executor.Courses
import MessageCalls.Proofs.Executor.Nesting
/-!
# MessageCalls.Proofs.Executor.Ancestry

Where the frames of a run come from. **The code of a frame begins to run right after the frame
around it asked for it** (`Executor.allUshered_requestChronicle`): the request, the letting in and
the beginning are three moments in a row. The frames around a frame have begun to run in the same
way before it (`Executor.Course.around`), so facts about chains of calls are inductions on the
frames that are running.
-/

namespace MessageCalls

open Executor (initFrame)

/-- The frame that a message call made in a state enters. -/
def Executor.callFrame (s : Executor) (kind : CallKind) (caller : Identity) (target : Address)
    (input : Bytes) (nrg : Budget) (value : Amount) : Frame :=
  (kind.resolve s.isStatic caller target input nrg value).frame (s.tx.depth + 1)

/-- The frame that a creation made in a state enters. -/
def Executor.creationFrame (s : Executor) (caller : Identity) (scheme : AddressScheme)
    (nrg : Budget) (value : Amount) : Frame :=
  initFrame caller.address (s.newAddress scheme) value nrg (s.tx.depth + 1)

namespace Request

/-- The frame is the one that is entered for a request. -/
def Enters (r : Request) (s : Executor) (frame : Frame) : Prop :=
  match r with
  | .call kind caller target input nrg value =>
    frame = s.callFrame kind caller target input nrg value
  | .create caller _ nrg value =>
    frame = s.creationFrame caller (.legacy caller.address) nrg value
  | _ => False

/-- The request is a call that moves no value from one account to another. -/
def movesNothing : Request → Bool
  | .call kind .. => kind ≠ .call
  | _ => false

end Request

/-- The call moves no value, unless from an account to itself. -/
def Call.MovesNothing (c : Call) : Prop := ∀ t ∈ c.transfer, t.source = t.target

theorem movesNothing_resolve {kind : CallKind} (h : kind ≠ .call) (isStatic : Bool)
    (caller : Identity) (target : Address) (input : Bytes) (nrg : Budget) (value : Amount) :
    (kind.resolve isStatic caller target input nrg value).MovesNothing := by
  intro t ht
  cases isStatic with
  | true => cases ht
  | false =>
      cases kind with
      | call => exact absurd rfl h
      | callCode =>
          cases ht
          rfl
      | delegateCall => cases ht
      | staticCall => cases ht

/-- Code begins to run in the frame that was asked for: the request, the letting in, and the
beginning. -/
inductive Ushers : Moment → Moment → Moment → Prop
  | intro {frames : List Frame} {s inside : Executor} {r : Request} {frame : Frame}
      (henters : r.Enters s frame)
      (hbalance : r.movesNothing = true → inside.accounts.balance = s.accounts.balance)
      (opening : Executor) (answer : r.Answer) (code : Bytes) :
      Ushers ⟨frames, s, .asked r answer⟩ ⟨frames, opening, .opened⟩
        ⟨frames, inside, .entered code frame⟩

/-- The moment at which the code of a frame begins to run comes right after the request for it. -/
def Ushered (moments : List Moment) (m : Moment) : Prop :=
  ∃ ask opened, Ushers ask opened m ∧ [ask, opened, m] <:+: moments

/-- Every frame whose code begins to run has been asked for just before. -/
def AllUshered (moments : List Moment) : Prop :=
  ∀ m ∈ moments, m.entered? ≠ none → Ushered moments m

/-- The code of the first frame of a call or a creation begins to run right after that was let in,
and every frame inside has been asked for just before. -/
def Leads (frames : List Frame) (first : Frame → Executor → Prop) (moments : List Moment) : Prop :=
  ∀ m ∈ moments, ∀ code frame, m.act = .entered code frame →
    if m.frames = frames then
      first frame m.state ∧ ∃ opening, [⟨frames, opening, .opened⟩, m] <+: moments
    else Ushered moments m

/-- Every frame has been asked for just before, but for the outermost one. -/
def Descends (outermost : Frame → Prop) (moments : List Moment) : Prop :=
  ∀ m ∈ moments, ∀ code frame, m.act = .entered code frame →
    if m.frames = [] then outermost frame else Ushered moments m

section Ushered

variable {frames : List Frame} {moments later : List Moment} {m : Moment}
  {first : Frame → Executor → Prop}

theorem Ushered.mono (h : Ushered moments m) (hwithin : moments <:+: later) : Ushered later m := by
  obtain ⟨ask, opened, hushers, hrow⟩ := h
  exact ⟨ask, opened, hushers, hrow.trans hwithin⟩

theorem allUshered_nil : AllUshered [] := by
  intro m hm
  cases hm

theorem AllUshered.append (h : AllUshered moments) (h' : AllUshered later) :
    AllUshered (moments ++ later) := by
  intro m hm hentered
  rcases List.mem_append.mp hm with hm | hm
  · exact (h m hm hentered).mono (List.prefix_append _ _).isInfix
  · exact (h' m hm hentered).mono (List.suffix_append _ _).isInfix

theorem entered?_eq {code : Bytes} {frame : Frame} (h : m.act = .entered code frame) :
    m.entered? = some (code, frame) := by
  rw [Moment.entered?, h]

theorem act_of_entered? {run : Bytes × Frame} (h : m.entered? = some run) :
    m.act = .entered run.1 run.2 := by
  unfold Moment.entered? at h
  split at h
  · next hact =>
      cases h
      exact hact
  · cases h

theorem entered?_ne_none {code : Bytes} {frame : Frame} (h : m.act = .entered code frame) :
    m.entered? ≠ none := by simp [entered?_eq h]

theorem leads_of_none (h : ∀ m ∈ moments, m.entered? = none) : Leads frames first moments :=
  fun m hm _ _ hact => absurd (h m hm) (entered?_ne_none hact)

theorem Leads.imp {first' : Frame → Executor → Prop} (h : Leads frames first moments)
    (hfirst : ∀ frame inside, first frame inside → first' frame inside) :
    Leads frames first' moments := by
  intro m hm code frame hact
  have hleads := h m hm code frame hact
  split at hleads
  · next hframes =>
      rw [if_pos hframes]
      exact ⟨hfirst _ _ hleads.1, hleads.2⟩
  · next hframes =>
      rw [if_neg hframes]
      exact hleads

/-- Running code asks for a call or a creation. -/
theorem Leads.allUshered {s : Executor} {r : Request}
    (h : Leads frames first moments)
    (hfirst : ∀ frame inside, first frame inside → r.Enters s frame ∧
      (r.movesNothing = true → inside.accounts.balance = s.accounts.balance))
    (answer : r.Answer) : AllUshered (⟨frames, s, .asked r answer⟩ :: moments) := by
  intro m hm hentered
  rcases List.mem_cons.mp hm with rfl | hm
  · exact absurd rfl hentered
  · obtain ⟨frames', inside, act⟩ := m
    cases act with
    | entered code frame =>
        have hleads := h _ hm code frame rfl
        split at hleads
        · next hframes =>
            obtain ⟨hmatch, opening, hrow⟩ := hleads
            obtain ⟨henters, hbalance⟩ := hfirst _ _ hmatch
            obtain rfl : frames' = frames := hframes
            exact ⟨_, _, .intro henters hbalance opening answer code,
              (List.cons_prefix_cons.mpr ⟨rfl, hrow⟩).isInfix⟩
        · exact hleads.mono (List.suffix_cons _ _).isInfix
    | _ => exact absurd rfl hentered

theorem Leads.descends {outermost : Frame → Prop} (h : Leads [] first moments)
    (hfirst : ∀ frame inside, first frame inside → outermost frame) :
    Descends outermost moments := by
  intro m hm code frame hact
  have hleads := h m hm code frame hact
  split at hleads
  · next hframes =>
      rw [if_pos hframes]
      exact hfirst _ _ hleads.1
  · next hframes =>
      rw [if_neg hframes]
      exact hleads

/-- What a stretch of a run says of its frames, the whole run says of them. -/
theorem Descends.within {outermost : Frame → Prop} (h : Descends outermost moments)
    (hwithin : moments <:+: later) :
    ∀ m ∈ moments, ∀ code frame, m.act = .entered code frame →
      if m.frames = [] then outermost frame else Ushered later m := by
  intro m hm code frame hact
  have hdescends := h m hm code frame hact
  by_cases hframes : m.frames = []
  · rwa [if_pos hframes] at hdescends ⊢
  · rw [if_neg hframes] at hdescends ⊢
    exact hdescends.mono hwithin

theorem Descends.append {outermost : Frame → Prop} (h : Descends outermost moments)
    (hlater : ∀ m ∈ later, m.entered? = none) : Descends outermost (moments ++ later) := by
  intro m hm code frame hact
  rcases List.mem_append.mp hm with hm | hm
  · exact h.within (List.prefix_append _ _).isInfix m hm code frame hact
  · exact absurd (hlater m hm) (entered?_ne_none hact)

theorem Descends.cons {outermost : Frame → Prop} (h : Descends outermost moments)
    (hm : m.entered? = none) : Descends outermost (m :: moments) := by
  intro m' hm' code frame hact
  rcases List.mem_cons.mp hm' with rfl | hm'
  · exact absurd hm (entered?_ne_none hact)
  · exact h.within (List.suffix_cons _ _).isInfix m' hm' code frame hact

theorem descends_nil {outermost : Frame → Prop} : Descends outermost [] := by
  intro m hm
  cases hm

end Ushered

namespace Executor

variable {setting : Setting} {frames : List Frame} {s t u : Executor} {moments : List Moment}

/-! ### The frames around -/

/-- The frames that are running at the moments of a course enclose those of the course, and each
of them beyond these has begun to run, inside the frames that were running then. -/
structure Around (frames : List Frame) (moments : List Moment) (m : Moment) : Prop where
  suffix : frames <:+ m.frames
  entered : ∀ g rest, g :: rest <:+ m.frames → g :: rest <:+ frames ∨
    ∃ m' ∈ moments, m'.frames = rest ∧ ∃ code, m'.act = .entered code g

theorem Around.mono {later : List Moment} {m : Moment} (h : Around frames moments m)
    (hsub : moments ⊆ later) : Around frames later m := by
  refine ⟨h.suffix, fun g rest hrest => (h.entered g rest hrest).imp_right ?_⟩
  rintro ⟨m', hm', hentered⟩
  exact ⟨m', hsub hm', hentered⟩

theorem around_here {m : Moment} (h : m.frames = frames) : Around frames moments m :=
  ⟨h ▸ List.suffix_refl _, fun _ _ hrest => .inl (h ▸ hrest)⟩

theorem around_leaveChronicle (point : Checkpoint) (exit : Exit) (output : Bytes) (nrgLeft : Nrg) :
    ∀ m ∈ leaveChronicle setting frames point exit output nrgLeft u, Around frames moments m := by
  intro m hm
  obtain ⟨act, rfl, -⟩ := mem_leaveChronicle hm
  exact around_here rfl

/-- **Every frame around a moment has begun to run before**, inside the frames around it. -/
theorem Course.around (h : Course setting frames s moments t) :
    ∀ m ∈ moments, Around frames moments m := by
  induction h with
  | andThen first second ih ih' =>
      exact List.forall_mem_append.mpr
        ⟨fun m hm => (ih m hm).mono (List.subset_append_left _ _),
          fun m hm => (ih' m hm).mono (List.subset_append_right _ _)⟩
  | answered | asked | native | givenUp => exact List.forall_mem_singleton.mpr (around_here rfl)
  | @entered frames s t moments code frame hfatal hcode hstatic hdepth body ih =>
      refine List.forall_mem_cons.mpr ⟨around_here rfl, fun m hm => ⟨?_, fun g rest hrest => ?_⟩⟩
      · exact (List.suffix_cons _ _).trans (ih m hm).suffix
      · rcases (ih m hm).entered g rest hrest with hinside | ⟨m', hm', hentered⟩
        · rcases List.suffix_cons_iff.mp hinside with heq | houtside
          · obtain ⟨rfl, rfl⟩ := List.cons.inj heq
            exact .inr ⟨_, List.mem_cons_self, rfl, code, rfl⟩
          · exact .inl houtside
        · exact .inr ⟨m', List.mem_cons_of_mem _ hm', hentered⟩
  | guarded hfatal hopened body ends output nrgLeft ih =>
      refine List.forall_mem_cons.mpr ⟨around_here rfl, List.forall_mem_append.mpr
        ⟨fun m hm => (ih m hm).mono ?_, around_leaveChronicle _ _ _ _⟩⟩
      exact List.Subset.trans (List.subset_append_left _ _) (List.subset_cons_self _ _)
  | created hfatal hopened hfree hstatic hpaid body hmode hnone hsuccess code nrgLeft ih =>
      refine List.forall_mem_cons.mpr ⟨around_here rfl, List.forall_mem_append.mpr
        ⟨List.forall_mem_append.mpr ⟨fun m hm => (ih m hm).mono ?_,
          List.forall_mem_singleton.mpr (around_here rfl)⟩, around_leaveChronicle _ _ _ _⟩⟩
      exact List.Subset.trans (List.subset_append_left _ _)
        (List.Subset.trans (List.subset_append_left _ _) (List.subset_cons_self _ _))
  | _ => exact List.forall_mem_nil _

/-! ### Where code begins to run -/

theorem entered?_leaving (point : Checkpoint) (exit : Exit) (output : Bytes) (nrgLeft : Nrg)
    (u : Executor) :
    ∀ m ∈ leaveChronicle setting frames point exit output nrgLeft u, m.entered? = none :=
  List.filterMap_eq_nil_iff.mp (entered?_leaveChronicle point exit output nrgLeft u)

theorem entered?_depositing (setting : Setting) (frames : List Frame) (address : Address)
    (result : FrameResult) (s : Executor) :
    ∀ m ∈ depositChronicle setting frames address result s, m.entered? = none := by
  obtain ⟨hnone, -⟩ | ⟨-, -, hmoment, -⟩ := deposit_cases setting frames address result s
  · rw [hnone]
    exact List.forall_mem_nil _
  · rw [hmoment]
    exact List.forall_mem_singleton.mpr rfl

theorem entered?_claiming (setting : Setting) (frames : List Frame) (creator : Address)
    (s : Executor) : ∀ m ∈ claimChronicle setting frames creator s, m.entered? = none := by
  unfold claimChronicle
  split
  · exact List.forall_mem_nil _
  · dsimp only
    split
    · exact List.forall_mem_singleton.mpr rfl
    · exact List.forall_mem_nil _

/-- The frames inside a frame have been asked for just before. -/
def UshersInside (recorder : FrameRecorder) : Prop :=
  ∀ frames code frame s m inner, recorder frames code frame s = m :: inner → AllUshered inner

section Runner

variable {runner : FrameRunner} {recorder : FrameRecorder} {first : Frame → Executor → Prop}

/-- A call or a creation is let in and the code of its frame begins to run. -/
theorem leads_enterChronicle (hruns : RunsAs setting runner recorder)
    (hushers : UshersInside recorder) {code : Bytes} {frame : Frame}
    (hfirst : first frame (s.inside frame)) (opening : Executor) {later : List Moment}
    (hlater : ∀ m ∈ later, m.entered? = none) :
    Leads frames first
      (⟨frames, opening, .opened⟩ :: (enterChronicle recorder frames code frame s ++ later)) := by
  unfold enterChronicle
  split
  · exact leads_of_none (List.forall_mem_cons.mpr ⟨rfl, hlater⟩)
  · obtain ⟨inner, hrecorded, hinner⟩ := hruns frames code frame (s.inside frame)
    rw [hrecorded]
    intro m hm code' frame' hact
    rcases List.mem_cons.mp hm with rfl | hm
    · cases hact
    rcases List.mem_append.mp hm with hm | hm
    · rcases List.mem_cons.mp hm with rfl | hm
      · cases hact
        rw [if_pos rfl]
        exact ⟨hfirst, opening, ⟨_, rfl⟩⟩
      · have hdeeper := (hinner.around m hm).suffix.length_le
        have hframes : m.frames ≠ frames := by
          rintro rfl
          exact Nat.not_succ_le_self _ hdeeper
        rw [if_neg hframes]
        refine (hushers _ _ _ _ _ _ hrecorded m hm (entered?_ne_none hact)).mono ?_
        exact ⟨[⟨frames, opening, .opened⟩, ⟨frames, s.inside frame, .entered code frame⟩], later,
          rfl⟩
    · exact absurd (hlater m hm) (entered?_ne_none hact)

end Runner

theorem balance_pay {transfer : Option Transfer} (hself : ∀ t ∈ transfer, t.source = t.target)
    (h : s.pay transfer = (.ok (), t)) : t.accounts.balance = s.accounts.balance := by
  obtain ⟨-, -, rfl⟩ | ⟨tr, hsome, htransfer⟩ := pay_cases h
  · rfl
  · unfold Executor.transfer at htransfer
    split at htransfer
    · next hmoved =>
        cases htransfer
        exact Overlay.balance_transfer_self (hself tr hsome) hmoved
    · cases htransfer

section Room

variable {room : Option FrameRunner} {recorder : FrameRecorder}
  (hruns : ∀ runner, room = some runner → RunsAs setting runner recorder)
  (hushers : ∀ runner, room = some runner → UshersInside recorder)

include hruns hushers

theorem leads_carryOutChronicle (frames : List Frame) (c : Call) (s : Executor) :
    Leads frames
      (fun frame inside => frame = c.frame (s.tx.depth + 1) ∧
        (c.MovesNothing → inside.accounts.balance = s.accounts.balance))
      (carryOutChronicle setting room recorder frames c s) := by
  unfold carryOutChronicle
  dsimp only
  have hdepth : (s.note (.event (.call c))).tx.depth = s.tx.depth := rfl
  have hbalance : (s.note (.event (.call c))).accounts.balance = s.accounts.balance := rfl
  rw [← hdepth, ← hbalance]
  generalize s.note (.event (.call c)) = s₁
  cases hpre : s₁.preflight room c.payer c.value with
  | error failure => exact leads_of_none (List.forall_mem_nil _)
  | ok runner =>
      obtain ⟨-, hroom⟩ := fatal_of_preflight hpre
      dsimp only
      cases hpaid : s₁.checkpoint.2.pay c.transfer with
      | mk result paid =>
          obtain ⟨htx, -, -⟩ := pay_fields hpaid
          cases result with
          | error failure =>
              exact leads_of_none (List.forall_mem_cons.mpr ⟨rfl, entered?_leaving _ _ _ _ _⟩)
          | ok done =>
              dsimp only
              unfold answerCallChronicle
              cases hnative : setting.natives.run c.codeAddress c.input c.nrg.limit c.identity with
              | some result =>
                  exact leads_of_none (List.forall_mem_cons.mpr ⟨rfl, List.forall_mem_append.mpr
                    ⟨List.forall_mem_singleton.mpr rfl, entered?_leaving _ _ _ _ _⟩⟩)
              | none =>
                  refine leads_enterChronicle (hruns runner hroom) (hushers runner hroom) ⟨?_, ?_⟩ _
                    (entered?_leaving _ _ _ _ _)
                  · rw [htx]
                    rfl
                  · intro hself
                    exact (balance_pay hself hpaid).trans
                      (congrArg AccountView.balance (view_checkpoint s₁))

theorem leads_createAtChronicle {runner : FrameRunner} (hroom : room = some runner)
    (frames : List Frame) (point : Checkpoint) (creator address : Address) (init : Bytes)
    (nrg : Budget) (value : Amount) (s : Executor) :
    Leads frames
      (fun frame _ => frame = initFrame creator address value nrg (s.tx.depth + 1))
      (⟨frames, s, .opened⟩ :: createAtChronicle setting runner recorder frames point creator
        address init nrg value s) := by
  unfold createAtChronicle
  split
  · exact leads_of_none (List.forall_mem_cons.mpr ⟨rfl, entered?_leaving _ _ _ _ _⟩)
  · dsimp only
    split
    · exact leads_of_none (List.forall_mem_cons.mpr ⟨rfl, entered?_leaving _ _ _ _ _⟩)
    · rw [List.append_assoc]
      exact leads_enterChronicle (hruns runner hroom) (hushers runner hroom) rfl _
        (List.forall_mem_append.mpr ⟨entered?_depositing _ _ _ _ _, entered?_leaving _ _ _ _ _⟩)

theorem leads_callChronicle (frames : List Frame) (kind : CallKind) (caller : Identity)
    (target : Address) (input : Bytes) (nrg : Budget) (value : Amount) (s : Executor) :
    Leads frames
      (fun frame inside => frame = s.callFrame kind caller target input nrg value ∧
        (kind ≠ .call → inside.accounts.balance = s.accounts.balance))
      (callChronicle setting room recorder frames kind caller target input nrg value s) := by
  unfold callChronicle
  split
  · exact leads_of_none (List.forall_mem_nil _)
  · refine (leads_carryOutChronicle hruns hushers frames _ s).imp fun frame inside hfirst => ?_
    exact ⟨hfirst.1, fun hkind => hfirst.2 (movesNothing_resolve hkind _ _ _ _ _ _)⟩

theorem leads_createChronicle (frames : List Frame) (caller : Identity) (scheme : AddressScheme)
    (init : Bytes) (nrg : Budget) (value : Amount) (s : Executor) :
    Leads frames (fun frame _ => frame = s.creationFrame caller scheme nrg value)
      (createChronicle setting room recorder frames caller scheme init nrg value s) := by
  unfold createChronicle
  split
  · exact leads_of_none (List.forall_mem_nil _)
  · dsimp only
    cases hpre : s.preflight room caller.address value with
    | error failure => exact leads_of_none (List.forall_mem_nil _)
    | ok runner =>
        obtain ⟨-, hroom⟩ := fatal_of_preflight hpre
        unfold creationFrame
        dsimp only
        generalize s.newAddress scheme = address
        generalize Entry.event (.create caller.address address scheme value init nrg.limit) = event
        cases hclaim : claimNonce setting caller.address (s.note event) with
        | mk result t =>
            cases result with
            | error halt => exact leads_of_none (entered?_claiming _ _ _ _)
            | ok point =>
                have htx : t.tx = s.tx := (tx_claimNonce hclaim).trans (tx_note s event)
                rw [← htx]
                exact leads_createAtChronicle hruns hushers hroom frames point caller.address
                  address init nrg value t

theorem allUshered_requestChronicle (frames : List Frame) (r : Request) (s : Executor) :
    AllUshered (requestChronicle setting room recorder frames r s) := by
  cases r with
  | call kind caller target input nrg value =>
      refine (leads_callChronicle hruns hushers frames kind caller target input nrg value
        s).allUshered (fun frame inside hfirst => ?_) _
      exact ⟨hfirst.1, fun hkind => hfirst.2 (of_decide_eq_true hkind)⟩
  | create caller init nrg value =>
      refine (leads_createChronicle hruns hushers frames caller (.legacy caller.address) init nrg
        value s).allUshered (fun frame inside hfirst => ?_) _
      exact ⟨hfirst, fun hnothing => by cases hnothing⟩
  | _ =>
      intro m hm hentered
      rw [List.mem_singleton.mp hm] at hentered
      exact absurd rfl hentered

theorem allUshered_chronicle (frames : List Frame) {α : Type} (p : Program α) (s : Executor) :
    AllUshered
      (p.chronicle (answer setting room) (requestChronicle setting room recorder frames) s) := by
  induction p generalizing s with
  | done value => exact allUshered_nil
  | ask r next ih =>
      rw [Program.chronicle]
      exact (allUshered_requestChronicle hruns hushers frames r s).append (ih _ _)

end Room

/-- **Inside a frame every frame has been asked for just before**, whatever room there is. -/
theorem ushersInside_recorder (setting : Setting) (room : Nat) :
    ∀ runner, Executor.runner setting room = some runner →
      UshersInside (recorder setting room) := by
  -- A frame is run with the runner of one frame less, which there is none of in the end.
  induction room with
  | zero =>
      intro runner h
      cases h
  | succ room ih =>
      intro runner h frames code frame s m inner hinner
      cases h
      obtain ⟨-, rfl⟩ := List.cons.inj hinner
      exact allUshered_chronicle (runsAs_recorder setting room) ih _ _ _

end Executor

end MessageCalls
