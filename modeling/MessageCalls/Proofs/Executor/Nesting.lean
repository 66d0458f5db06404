import MessageCalls.Proofs.Executor.Discipline
/-!
# MessageCalls.Proofs.Executor.Nesting

**The depth and the mode always describe the frame that is running, and nesting is bounded**
(`Executor.nested_operate`). The depth is a counter that is set when code begins to run and put back
when it has ended, and the mode a flag treated in the same way; frames that never run code, being
refused, native or without code, leave both alone.

That the counter is the number of frames whose code is running is an induction on the rules of
`Executor.Course` (`Executor.Course.described`). That it stays within the call stack limit follows
the recursion on the room instead: the running frames and the room for further ones make up the
limit (`Executor.limited_recorder`).
-/

namespace MessageCalls

/-- A call or a creation fails because there is no room for it, or with a refusal that comes even
before that. -/
def Failure.IsRefusal (failure : Failure) : Prop :=
  failure = .halted .depthExceeded ∨ failure = .halted .staticModeViolation ∨
    failure.isFatal = true

/-- A call or a creation is refused. Other requests need no room. -/
def Request.Declined : (r : Request) → r.Answer → Prop
  | .call .., answer => ∃ failure nrgLeft, answer = .failed failure nrgLeft ∧ failure.IsRefusal
  | .create .., answer =>
    ∃ failure nrgLeft, answer = .failed none failure nrgLeft ∧ failure.IsRefusal
  | _, _ => True

namespace Moment

/-- The frames whose code is running, the one that begins to run included. -/
def running (m : Moment) : List Frame :=
  match m.act with
  | .entered _ frame => frame :: m.frames
  | _ => m.frames

theorem running_eq {m : Moment} (h : ∀ code frame, m.act ≠ .entered code frame) :
    m.running = m.frames := by
  unfold running
  split
  · next hentered => exact absurd hentered (h _ _)
  · rfl

/-- A call or a creation is let in, or a native contract or code answers it. -/
def letsIn (m : Moment) : Bool :=
  match m.act with
  | .opened | .native _ | .entered _ _ => true
  | _ => false

/-- The moment neither asks for anything nor lets anything in. -/
def isPlain (m : Moment) : Bool :=
  match m.act with
  | .asked _ _ => false
  | _ => !m.letsIn

/-- At most `limit` frames are running, fewer where something is let in; and what is asked is
answered with the room that the running frames leave. -/
structure Limited (setting : Setting) (limit : Nat) (m : Moment) : Prop where
  within : m.frames.length ≤ limit
  room : m.letsIn = true → m.frames.length < limit
  answered : ∀ r answer, m.act = .asked r answer →
    answer = (Executor.answer setting (Executor.runner setting (limit - m.frames.length)) r
      m.state).1

end Moment

namespace Executor

/-- The depth is the number of the running frames, and both the depth and the mode are those of the
innermost one. -/
structure Hosts (s : Executor) (frames : List Frame) : Prop where
  depth : s.tx.depth = frames.length
  innermost : ∀ frame ∈ frames.head?, frame.depth = s.tx.depth ∧ frame.isStatic = s.isStatic

end Executor

/-- The state describes the frames that are running, and no empty code begins to run. -/
structure Moment.Described (m : Moment) : Prop where
  hosts : m.state.Hosts m.running
  code : ∀ code frame, m.act = .entered code frame → code ≠ []

namespace Executor

variable {setting : Setting} {frames : List Frame} {s t u : Executor} {moments : List Moment}
  {limit room : Nat}

/-! ### The depth and the mode -/

theorem Retains.hosts (h : Retains s t) (hs : s.Hosts frames) : t.Hosts frames :=
  ⟨h.depth.trans hs.depth, fun frame hframe => by
    rw [h.depth, h.isStatic]
    exact hs.innermost frame hframe⟩

theorem Opens.retains (h : Opens s t) : Retains s t := by
  cases h with
  | guarded => exact .checkpoint s
  | claimed hstatic h => exact (Retains.checkpoint s).trans (Extends.incNonce h).toRetains

/-- The code of a frame begins to run. -/
theorem hosts_inside (hs : s.Hosts frames) {frame : Frame} (hdepth : frame.depth = s.tx.depth + 1) :
    (s.inside frame).Hosts (frame :: frames) := by
  refine ⟨?_, fun frame' hframe => ?_⟩
  · show frame.depth = frames.length + 1
    rw [hdepth, hs.depth]
  · cases hframe
    exact ⟨rfl, rfl⟩

/-- At every moment but those at which code begins to run, only the frames further out run. -/
theorem described_of_hosts {act : Act} (hact : ∀ code frame, act ≠ .entered code frame)
    (h : s.Hosts frames) : (⟨frames, s, act⟩ : Moment).Described := by
  refine ⟨?_, fun code frame hentered => absurd hentered (hact code frame)⟩
  rw [Moment.running_eq hact]
  exact h

theorem mem_leaveChronicle {point : Checkpoint} {exit : Exit} {output : Bytes} {nrgLeft : Nrg}
    {m : Moment} (h : m ∈ leaveChronicle setting frames point exit output nrgLeft u) :
    ∃ act, m = ⟨frames, u, act⟩ ∧ m.isPlain = true := by
  rcases List.mem_append.mp h with hraised | hleft
  · cases exit with
    | aborted cause =>
        rw [List.mem_singleton.mp hraised]
        exact ⟨_, rfl, rfl⟩
    | _ => cases hraised
  · rcases List.mem_cons.mp hleft with rfl | hlast
    · exact ⟨_, rfl, rfl⟩
    · rw [List.mem_singleton.mp hlast]
      exact ⟨_, rfl, rfl⟩

theorem described_leaveChronicle (h : u.Hosts frames) (point : Checkpoint) (exit : Exit)
    (output : Bytes) (nrgLeft : Nrg) :
    ∀ m ∈ leaveChronicle setting frames point exit output nrgLeft u, m.Described := by
  intro m hm
  obtain ⟨act, rfl, hplain⟩ := mem_leaveChronicle hm
  refine described_of_hosts (fun code frame hentered => ?_) h
  subst hentered
  cases hplain

/-- **The depth and the mode describe the running frames throughout**, and are put back. -/
theorem Course.described (h : Course setting frames s moments t) (hs : s.Hosts frames) :
    ∀ m ∈ moments, m.Described := by
  induction h with
  | andThen first second ih ih' =>
      have hmiddle := first.activity.toRetains.hosts hs
      exact List.forall_mem_append.mpr ⟨ih hs, ih' hmiddle⟩
  | answered frames s room h => exact List.forall_mem_singleton.mpr (described_of_hosts (by simp) hs)
  | asked frames s room h => exact List.forall_mem_singleton.mpr (described_of_hosts (by simp) hs)
  | native hfatal a => exact List.forall_mem_singleton.mpr (described_of_hosts (by simp) hs)
  | @entered frames s t moments code frame hfatal hcode hstatic hdepth body ih =>
      have hinside := hosts_inside hs hdepth
      refine List.forall_mem_cons.mpr ⟨⟨hinside, fun code' frame' hentered => ?_⟩,
        ih ⟨hinside.depth, hinside.innermost⟩⟩
      cases hentered
      rintro rfl
      cases hcode
  | @guarded frames s opening t u moments exit hfatal hopened body ends output nrgLeft ih =>
      have hopening := hopened.retains.hosts hs
      have hended := (body.activity.toRetains.trans ends.toExtends.toRetains).hosts hopening
      exact List.forall_mem_cons.mpr ⟨described_of_hosts (by simp) hopening,
        List.forall_mem_append.mpr ⟨ih hopening, described_leaveChronicle hended _ _ _ _⟩⟩
  | @created frames s opening paid t moments _ address exit hfatal hopened hfree hstatic hpaid body
      hmode hnone hsuccess code nrgLeft ih =>
      have hopening := hopened.retains.hosts hs
      have hpaid' := (Extends.transfer hpaid).toRetains.hosts hopening
      have hran := body.activity.toRetains.hosts hpaid'
      have hstored : (t.updateAccounts fun o => o.setCode address code).Hosts frames :=
        ⟨hran.depth, hran.innermost⟩
      exact List.forall_mem_cons.mpr ⟨described_of_hosts (by simp) hopening,
        List.forall_mem_append.mpr ⟨List.forall_mem_append.mpr ⟨ih hpaid',
          List.forall_mem_singleton.mpr (described_of_hosts (by simp) hran)⟩,
          described_leaveChronicle hstored _ _ _ _⟩⟩
  | @givenUp frames s entry h =>
      have hopening := (Retains.checkpoint s).hosts hs
      exact List.forall_mem_singleton.mpr (described_of_hosts (by simp) hopening)
  | _ => simp

/-! ### No room -/

/-- What is refused without room is refused for want of it, or for a condition latched before. -/
theorem isRefusal_of_preflight {payer : Address} {value : Amount} {failure : Failure}
    (h : s.preflight none payer value = .error failure) : failure.IsRefusal := by
  unfold preflight at h
  split at h
  · cases h
    exact Or.inr (Or.inr rfl)
  · cases h
    exact Or.inl rfl

theorem declined_callWith (kind : CallKind) (caller : Identity) (target : Address) (input : Bytes)
    (nrg : Budget) (value : Amount) :
    ∃ failure nrgLeft,
      (callWith setting none kind caller target input nrg value s).1 = .failed failure nrgLeft ∧
        failure.IsRefusal := by
  unfold callWith
  split
  · exact ⟨_, _, rfl, Or.inr (Or.inl rfl)⟩
  · unfold carryOut
    dsimp only
    split
    · next failure hpre => exact ⟨_, _, rfl, isRefusal_of_preflight hpre⟩
    · next runner hpre =>
        have hnone := (fatal_of_preflight hpre).2
        cases hnone

theorem declined_createWith (caller : Identity) (scheme : AddressScheme) (init : Bytes)
    (nrg : Budget) (value : Amount) :
    ∃ failure nrgLeft,
      (createWith setting none caller scheme init nrg value s).1 =
        .failed none failure nrgLeft ∧ failure.IsRefusal := by
  unfold createWith
  split
  · exact ⟨_, _, rfl, Or.inr (Or.inl rfl)⟩
  · dsimp only
    split
    · next failure hpre => exact ⟨_, _, rfl, isRefusal_of_preflight hpre⟩
    · next runner hpre =>
        have hnone := (fatal_of_preflight hpre).2
        cases hnone

/-- **Without room every call and every creation is declined.** -/
theorem declined_answer (r : Request) (s : Executor) :
    r.Declined (answer setting none r s).1 := by
  cases r with
  | call kind caller target input nrg value =>
      exact declined_callWith kind caller target input nrg value
  | create caller init nrg value =>
      exact declined_createWith caller (.legacy caller.address) init nrg value
  | _ => trivial

/-! ### The limit -/

theorem limited_plain {m : Moment} (h : m.isPlain = true) (hwithin : m.frames.length ≤ limit) :
    m.Limited setting limit := by
  unfold Moment.isPlain at h
  refine ⟨hwithin, fun hin => ?_, fun r answer hasked => ?_⟩
  · split at h
    · cases h
    · rw [hin] at h
      cases h
  · rw [hasked] at h
    cases h

theorem limited_letIn {m : Moment} (h : m.letsIn = true) (hroom : m.frames.length < limit) :
    m.Limited setting limit := by
  refine ⟨Nat.le_of_lt hroom, fun _ => hroom, fun r answer hasked => ?_⟩
  unfold Moment.letsIn at h
  rw [hasked] at h
  cases h

/-- While some frames are running, a frame with the given room keeps to the limit. -/
def KeepsWithin (setting : Setting) (limit room : Nat)
    (recorder : FrameRecorder) : Prop :=
  ∀ (frames : List Frame) (code : Bytes) (frame : Frame) (s : Executor),
    frames.length + room = limit → ∀ m ∈ recorder frames code frame s, m.Limited setting limit

theorem limited_leaveChronicle (hwithin : frames.length ≤ limit) (point : Checkpoint) (exit : Exit)
    (output : Bytes) (nrgLeft : Nrg) :
    ∀ m ∈ leaveChronicle setting frames point exit output nrgLeft u, m.Limited setting limit := by
  intro m hm
  obtain ⟨act, rfl, hplain⟩ := mem_leaveChronicle hm
  exact limited_plain hplain hwithin

theorem limited_depositChronicle (hwithin : frames.length ≤ limit) (address : Address)
    (result : FrameResult) :
    ∀ m ∈ depositChronicle setting frames address result s, m.Limited setting limit := by
  rcases deposit_cases setting frames address result s with ⟨hnone, -⟩ | ⟨-, -, hone, -⟩
  · simp [hnone]
  · rw [hone]
    exact List.forall_mem_singleton.mpr (limited_plain rfl hwithin)

section Frames

variable {recorder : FrameRecorder} (hrecorder : KeepsWithin setting limit room recorder)
  (hlimit : frames.length + room = limit)

include hrecorder hlimit

theorem limited_enterChronicle (code : Bytes) (frame : Frame) (s : Executor) :
    ∀ m ∈ enterChronicle recorder frames code frame s, m.Limited setting limit := by
  unfold enterChronicle
  split
  · simp
  · exact hrecorder frames code frame _ hlimit

theorem limited_answerCallChronicle (hpos : 0 < room) (c : Call) (s : Executor) :
    ∀ m ∈ answerCallChronicle setting recorder frames c s, m.Limited setting limit := by
  unfold answerCallChronicle
  split
  · exact List.forall_mem_singleton.mpr (limited_letIn rfl (by dsimp only; omega))
  · exact limited_enterChronicle hrecorder hlimit _ _ s

theorem limited_createAtChronicle (runner : FrameRunner) (point : Checkpoint)
    (creator address : Address) (init : Bytes) (nrg : Budget) (value : Amount) (s : Executor) :
    ∀ m ∈ createAtChronicle setting runner recorder frames point creator address init nrg value s,
      m.Limited setting limit := by
  have hwithin : frames.length ≤ limit := by omega
  unfold createAtChronicle
  split
  · exact limited_leaveChronicle hwithin _ _ _ _
  · dsimp only
    split
    · exact limited_leaveChronicle hwithin _ _ _ _
    · exact List.forall_mem_append.mpr ⟨List.forall_mem_append.mpr
        ⟨limited_enterChronicle hrecorder hlimit _ _ _, limited_depositChronicle hwithin _ _⟩,
        limited_leaveChronicle hwithin _ _ _ _⟩

end Frames

section Room

variable (hrecorder : KeepsWithin setting limit room (recorder setting room))
  (hlimit : frames.length + room = limit)

include hrecorder hlimit

theorem limited_carryOutChronicle (c : Call) (s : Executor) :
    ∀ m ∈ carryOutChronicle setting (runner setting room) (recorder setting room) frames c s,
      m.Limited setting limit := by
  unfold carryOutChronicle
  dsimp only
  split
  · simp
  · next runner hpre =>
      have hpos := pos_of_runner (fatal_of_preflight hpre).2
      have hwithin : frames.length ≤ limit := by omega
      refine List.forall_mem_cons.mpr ⟨limited_letIn rfl (by dsimp only; omega), ?_⟩
      split
      · exact limited_leaveChronicle hwithin _ _ _ _
      · exact List.forall_mem_append.mpr ⟨limited_answerCallChronicle hrecorder hlimit hpos c _,
          limited_leaveChronicle hwithin _ _ _ _⟩

theorem limited_callChronicle (kind : CallKind) (caller : Identity) (target : Address)
    (input : Bytes) (nrg : Budget) (value : Amount) (s : Executor) :
    ∀ m ∈ callChronicle setting (runner setting room) (recorder setting room) frames kind caller
      target input nrg value s, m.Limited setting limit := by
  unfold callChronicle
  split
  · simp
  · exact limited_carryOutChronicle hrecorder hlimit _ s

omit hrecorder in
theorem limited_claimChronicle (creator : Address) (s : Executor) :
    ∀ m ∈ claimChronicle setting frames creator s, m.Limited setting limit := by
  unfold claimChronicle
  split
  · simp
  · dsimp only
    split
    · exact List.forall_mem_singleton.mpr (limited_plain rfl (by dsimp only; omega))
    · simp

theorem limited_createChronicle (caller : Identity) (scheme : AddressScheme) (init : Bytes)
    (nrg : Budget) (value : Amount) (s : Executor) :
    ∀ m ∈ createChronicle setting (runner setting room) (recorder setting room) frames caller
      scheme init nrg value s, m.Limited setting limit := by
  unfold createChronicle
  dsimp only
  split
  · simp
  · split
    · simp
    · next runner hpre =>
        have hpos := pos_of_runner (fatal_of_preflight hpre).2
        split
        · exact limited_claimChronicle hlimit _ _
        · refine List.forall_mem_cons.mpr ⟨limited_letIn rfl (by dsimp only; omega), ?_⟩
          exact limited_createAtChronicle hrecorder hlimit _ _ _ _ _ _ _ _

theorem limited_requestChronicle (r : Request) (s : Executor) :
    ∀ m ∈ requestChronicle setting (runner setting room) (recorder setting room) frames r s,
      m.Limited setting limit := by
  unfold requestChronicle
  refine List.forall_mem_cons.mpr ⟨⟨?_, fun h => (by cases h), ?_⟩, ?_⟩
  · dsimp only
    omega
  · intro r' answer' hasked
    cases hasked
    have hroom : limit - frames.length = room := by omega
    dsimp only
    rw [hroom]
  · cases r with
    | call kind caller target input nrg value =>
        exact limited_callChronicle hrecorder hlimit kind caller target input nrg value s
    | create caller init nrg value =>
        exact limited_createChronicle hrecorder hlimit caller _ init nrg value s
    | _ => simp

theorem limited_chronicle {α : Type} (p : Program α) (s : Executor) :
    ∀ m ∈ p.chronicle (answer setting (runner setting room))
      (requestChronicle setting (runner setting room) (recorder setting room) frames) s,
      m.Limited setting limit := by
  induction p generalizing s with
  | done value => simp [Program.chronicle]
  | ask r next ih =>
      exact List.forall_mem_append.mpr ⟨limited_requestChronicle hrecorder hlimit r s, ih _ _⟩

end Room

/-- **The running frames and the room for further ones make up the limit.** -/
theorem limited_recorder (setting : Setting) (limit room : Nat) :
    KeepsWithin setting limit room (recorder setting room) := by
  induction room with
  | zero =>
      intro frames code frame s hlimit m hm
      cases hm
  | succ room ih =>
      intro frames code frame s hlimit
      -- The frame that begins to run takes up one place of the room.
      have hinner : (frame :: frames).length + room = limit := by
        rw [List.length_cons]
        omega
      exact List.forall_mem_cons.mpr ⟨limited_letIn rfl (by dsimp only; omega),
        limited_chronicle ih hinner _ _⟩

/-! ### Operations -/

theorem handed_prepared (s : Executor) (r : Record) :
    (s.prepared r).checkpoint.2.handed = s.handed :=
  (handed_checkpoint _).trans (handed_record s r)

theorem handed_settlingOf (point : Checkpoint) (closing : Overlay.Closing) (s : Executor) :
    [settlingOf setting point closing s].filterMap Moment.entered? = [] := rfl

theorem Transacted.handed_eq (h : Transacted setting s moments t) :
    t.handed = s.handed ++ moments.filterMap Moment.entered? := by
  cases h with
  | @intro moments t r hremark body =>
      show (t.settleOrLatch setting (s.prepared r).checkpoint.1 t.concluding).handed = _
      rw [handed_settleOrLatch, body.handed_eq, handed_prepared, List.filterMap_append,
        handed_settlingOf, List.append_nil]

/-- The moments of an operation miss no run of the interpreter. -/
theorem Operated.handed_eq (h : Operated setting s moments t) :
    t.handed = s.handed ++ moments.filterMap Moment.entered? := by
  cases h with
  | activity h => exact h.handed_eq
  | transaction h => exact h.handed_eq
  | dryRun h r hremark =>
      rw [handed_record, handed_settleOrLatch, h.handed_eq, handed_checkpoint,
        List.filterMap_append, handed_settlingOf, List.append_nil]

/-- Outside any frame the depth is zero. -/
theorem hosts_nil : s.Hosts [] ↔ s.tx.depth = 0 :=
  ⟨fun h => h.depth, fun h => ⟨h, fun frame hframe => by cases hframe⟩⟩

theorem Transacted.outside (h : Transacted setting s moments t) :
    t.tx.depth = 0 ∧ t.isStatic = false := by
  obtain ⟨r, hretains⟩ := h.retains.1
  exact ⟨hretains.depth, hretains.isStatic⟩

/-- A transaction leaves the depth and the mode that it begins with, also when it is undone. -/
theorem outside_simulateCall (setting : Setting) (caller target : Address) (value : Amount)
    (input : Bytes) (nrg : Budget) (s : Executor) :
    (simulateCall setting caller target value input nrg s).2.tx.depth = 0 ∧
      (simulateCall setting caller target value input nrg s).2.isStatic = false := by
  have htransacted := transacted_call setting caller target value input nrg s.checkpoint.2
  obtain ⟨r, hretains⟩ := htransacted.retains.1
  have hsettled := latchesOver_settleOrLatch setting (retains_prepared r hretains) .restore
  exact ⟨hsettled.retains.depth, hsettled.retains.isStatic⟩

/-- The depth and the mode describe the running frames, which keep to the call stack limit. -/
def InFrame (setting : Setting) (m : Moment) : Prop :=
  m.Described ∧ m.Limited setting setting.config.callStackLimit.toNat

theorem inFrame_settlingOf (hs : s.tx.depth = 0) (point : Checkpoint) (closing : Overlay.Closing) :
    ∀ m ∈ [settlingOf setting point closing s], InFrame setting m :=
  List.forall_mem_singleton.mpr
    ⟨described_of_hosts (by simp) (hosts_nil.mpr hs), limited_plain rfl (Nat.zero_le _)⟩

section Outside

variable (hs : s.tx.depth = 0)

include hs

theorem length_add_room :
    ([] : List Frame).length + s.room setting = setting.config.callStackLimit.toNat := by
  rw [Executor.room, hs, List.length_nil, Nat.zero_add, Nat.sub_zero]

theorem inFrame_callChronicle (kind : CallKind) (caller : Identity) (target : Address)
    (input : Bytes) (nrg : Budget) (value : Amount) :
    ∀ m ∈ callChronicle setting (runner setting (s.room setting))
      (recorder setting (s.room setting)) [] kind caller target input nrg value s,
      InFrame setting m := by
  have hcalled := called setting (s.room setting) [] s kind caller target input nrg value
  intro m hm
  exact ⟨hcalled.course.described (hosts_nil.mpr hs) m hm,
    limited_callChronicle (limited_recorder setting _ _) (length_add_room hs) kind caller target
      input nrg value s m hm⟩

theorem inFrame_createChronicle (caller : Identity) (scheme : AddressScheme) (init : Bytes)
    (nrg : Budget) (value : Amount) :
    ∀ m ∈ createChronicle setting (runner setting (s.room setting))
      (recorder setting (s.room setting)) [] caller scheme init nrg value s, InFrame setting m := by
  have hcreated := created setting (s.room setting) [] s caller scheme init nrg value
  intro m hm
  exact ⟨hcreated.course.described (hosts_nil.mpr hs) m hm,
    limited_createChronicle (limited_recorder setting _ _) (length_add_room hs) caller scheme init
      nrg value s m hm⟩

theorem inFrame_requestChronicle (r : Request) :
    ∀ m ∈ requestChronicle setting (runner setting (s.room setting))
      (recorder setting (s.room setting)) [] r s, InFrame setting m := by
  have hcoursed := coursed setting (s.room setting) [] s r
  intro m hm
  exact ⟨hcoursed.described (hosts_nil.mpr hs) m hm,
    limited_requestChronicle (limited_recorder setting _ _) (length_add_room hs) r s m hm⟩

end Outside

/-- Every call or creation puts the depth and the mode back, whatever comes of it. -/
theorem retains_answer (setting : Setting) (room : Nat) (r : Request) (s : Executor) :
    Retains s (answer setting (runner setting room) r s).2 :=
  (answered setting room [] s r).toRetains

theorem retains_create (setting : Setting) (caller : Identity) (scheme : AddressScheme)
    (init : Bytes) (nrg : Budget) (value : Amount) (s : Executor) :
    Retains s (create setting caller scheme init nrg value s).2 :=
  (created setting (s.room setting) [] s caller scheme init nrg value).activity.toRetains

/-- Outside any frame an operation leaves the depth as it was, and only a transaction changes the
mode, which it leaves unset. -/
theorem outside_operate (setting : Setting) (hs : s.tx.depth = 0) (op : Operation) :
    (operate setting s op).tx.depth = 0 ∧
      (operate setting s op).isStatic = (!op.isTransaction && s.isStatic) := by
  cases op with
  | transactCall caller target value input nrg =>
      exact (transacted_call setting caller target value input nrg s).outside
  | transactCreate caller value init nrg =>
      exact (transacted_create setting caller value init nrg s).outside
  | simulateCall caller target value input nrg =>
      exact outside_simulateCall setting caller target value input nrg s
  | estimateNrg caller target value input nrg =>
      exact outside_simulateCall setting caller target value input nrg s
  | create caller scheme init nrg value =>
      have hretains := retains_create setting caller scheme init nrg value s
      exact ⟨hretains.depth.trans hs, hretains.isStatic⟩
  | request r =>
      have hretains := retains_answer setting (s.room setting) r s
      exact ⟨hretains.depth.trans hs, hretains.isStatic⟩

/-- A transaction starts outside any frame. -/
theorem inFrame_callTransaction (setting : Setting) (caller target : Address) (value : Amount)
    (input : Bytes) (nrg : Budget) (s : Executor) :
    ∀ m ∈ callTransactionChronicle setting caller target value input nrg s,
      InFrame setting m := by
  let begun := (s.prepared (.transactCall caller target value nrg.limit)).checkpoint.2
  have hbegun : begun.tx.depth = 0 := rfl
  have hretains := retains_answer setting (begun.room setting)
    (.call .call (.external caller) target input nrg value) begun
  exact List.forall_mem_append.mpr
    ⟨inFrame_callChronicle hbegun .call (.external caller) target input nrg value,
      inFrame_settlingOf (hretains.depth.trans hbegun) _ _⟩

theorem inFrame_createTransaction (setting : Setting) (caller : Address) (value : Amount)
    (init : Bytes) (nrg : Budget) (s : Executor) :
    ∀ m ∈ createTransactionChronicle setting caller value init nrg s, InFrame setting m := by
  let begun := (s.prepared (.transactCreate caller value nrg.limit)).checkpoint.2
  have hbegun : begun.tx.depth = 0 := rfl
  have hretains := retains_create setting (.external caller) (.legacy caller) init nrg value begun
  exact List.forall_mem_append.mpr
    ⟨inFrame_createChronicle hbegun (.external caller) (.legacy caller) init nrg value,
      inFrame_settlingOf (hretains.depth.trans hbegun) _ _⟩

theorem inFrame_simulateCall (setting : Setting) (caller target : Address) (value : Amount)
    (input : Bytes) (nrg : Budget) (s : Executor) :
    ∀ m ∈ simulateCallChronicle setting caller target value input nrg s, InFrame setting m := by
  have htransacted := transacted_call setting caller target value input nrg s.checkpoint.2
  exact List.forall_mem_append.mpr
    ⟨inFrame_callTransaction setting caller target value input nrg _,
      inFrame_settlingOf htransacted.outside.1 _ _⟩

/-- **At every moment of an operation the depth and the mode are those of the running frame.** -/
theorem inFrame_operate (setting : Setting) (hs : s.tx.depth = 0) (op : Operation) :
    ∀ m ∈ operationChronicle setting s op, InFrame setting m := by
  cases op with
  | transactCall caller target value input nrg =>
      exact inFrame_callTransaction setting caller target value input nrg s
  | transactCreate caller value init nrg =>
      exact inFrame_createTransaction setting caller value init nrg s
  | simulateCall caller target value input nrg =>
      exact inFrame_simulateCall setting caller target value input nrg s
  | estimateNrg caller target value input nrg =>
      exact inFrame_simulateCall setting caller target value input nrg s
  | create caller scheme init nrg value =>
      exact inFrame_createChronicle hs caller scheme init nrg value
  | request r => exact inFrame_requestChronicle hs r

/-- What an operation from `s` to `t`, begun outside any frame, has to do with depths and modes. -/
structure Nested (setting : Setting) (op : Operation) (s : Executor) (moments : List Moment)
    (t : Executor) : Prop where
  /-- Code that begins to run is not empty, its depth is that of the machine and the number of the
  running frames, itself included, and its mode is that of the machine. -/
  entered : ∀ m ∈ moments, ∀ code frame, m.act = .entered code frame →
    code ≠ [] ∧ frame.depth = m.state.tx.depth ∧ frame.depth = m.frames.length + 1 ∧
      frame.depth ≤ setting.config.callStackLimit.toNat ∧ frame.isStatic = m.state.isStatic
  /-- The moments miss no run of the interpreter. -/
  handed_eq : t.handed = s.handed ++ moments.filterMap Moment.entered?
  /-- The same holds at every other moment of the frame that is running then. -/
  described : ∀ m ∈ moments, m.state.Hosts m.running
  /-- A request is answered as by a machine at that depth, and puts the depth and the mode back. -/
  answered : ∀ m ∈ moments, ∀ r answer, m.act = .asked r answer →
    ∃ u, Executor.answer setting (runner setting (m.state.room setting)) r m.state = (answer, u) ∧
      u.tx.depth = m.state.tx.depth ∧ u.isStatic = m.state.isStatic
  /-- While as many frames are running as the limit allows, nothing is let in or run. -/
  room : ∀ m ∈ moments, m.frames.length = setting.config.callStackLimit.toNat → m.letsIn = false
  /-- What is asked then is declined. -/
  declined : ∀ m ∈ moments, m.frames.length = setting.config.callStackLimit.toNat →
    ∀ r answer, m.act = .asked r answer → r.Declined answer
  /-- The depth of a frame can be counted in 64 bits when the frame is let in. -/
  counted : ∀ m ∈ moments, m.act = .opened → m.state.tx.depth + 1 < 2 ^ 64
  /-- The operation ends outside any frame, in the mode found before unless it is a transaction. -/
  outside : t.tx.depth = 0 ∧ t.isStatic = (!op.isTransaction && s.isStatic)

/-- **The depth and the mode describe the frame that is running, and nesting is bounded**, in every
operation that begins outside any frame. -/
theorem nested_operate (setting : Setting) (s : Executor) (hs : s.tx.depth = 0) (op : Operation) :
    Nested setting op s (operationChronicle setting s op) (operate setting s op) := by
  have hoperated := operated setting s op
  have hframes := inFrame_operate setting hs op
  have hlimit : setting.config.callStackLimit.toNat < 2 ^ 64 :=
    setting.config.callStackLimit.toNat_lt
  refine ⟨fun m hm code frame hact => ?_, hoperated.handed_eq, fun m hm => (hframes m hm).1.hosts,
    fun m hm r answer hact => ?_, fun m hm hfull => ?_, fun m hm hfull r answer hact => ?_,
    fun m hm hact => ?_, outside_operate setting hs op⟩
  · obtain ⟨hdescribed, hlimited⟩ := hframes m hm
    have hrunning : m.running = frame :: m.frames := by rw [Moment.running, hact]
    have hhosts := hdescribed.hosts
    rw [hrunning] at hhosts
    obtain ⟨hdepth, hmode⟩ := hhosts.innermost frame rfl
    have hcount : frame.depth = m.frames.length + 1 := hdepth.trans hhosts.depth
    have hroom := hlimited.room (by rw [Moment.letsIn, hact])
    exact ⟨hdescribed.code code frame hact, hdepth, hcount, by omega, hmode⟩
  · obtain ⟨hdescribed, hlimited⟩ := hframes m hm
    have hhosts := hdescribed.hosts
    rw [Moment.running_eq (by simp [hact])] at hhosts
    have hroom : m.state.room setting =
        setting.config.callStackLimit.toNat - m.frames.length := by
      rw [Executor.room, hhosts.depth]
    have hretains := retains_answer setting (m.state.room setting) r m.state
    refine ⟨_, ?_, hretains.depth, hretains.isStatic⟩
    rw [hlimited.answered r answer hact, hroom]
  · cases hin : m.letsIn with
    | false => rfl
    | true =>
        have hroom := (hframes m hm).2.room hin
        omega
  · have hanswered := (hframes m hm).2.answered r answer hact
    rw [hfull, Nat.sub_self] at hanswered
    rw [hanswered]
    exact declined_answer r m.state
  · obtain ⟨hdescribed, hlimited⟩ := hframes m hm
    have hhosts := hdescribed.hosts
    rw [Moment.running_eq (by simp [hact])] at hhosts
    have hroom := hlimited.room (by rw [Moment.letsIn, hact])
    rw [hhosts.depth]
    omega

/-- A contract that calls itself in static mode without end, where two frames may run. -/
theorem nested_endless_recursion :
    let interpreter : Interpreter := fun _ frame => do
      let outcome ← Program.request (.call .staticCall frame.identity 5 [] frame.nrg 0)
      pure (.returned outcome.output 5)
    let setting : Setting :=
      { homesteadWith interpreter with config := { Config.homestead with callStackLimit := 2 } }
    let s := withTwoContracts 0
    let op : Operation := .transactCall 1 5 20 [] ⟨90, 1⟩
    let moments := operationChronicle setting s op
    s.tx.depth = 0 ∧
      (moments.filterMap Moment.entered?).map (fun run => (run.2.depth, run.2.isStatic)) =
        [(1, false), (2, true)] ∧
      Nested setting op s moments (operate setting s op) := by
  intro interpreter setting s op moments
  have hs : s.tx.depth = 0 := rfl
  exact ⟨hs, by decide +kernel, nested_operate setting s hs op⟩

end Executor

end MessageCalls
