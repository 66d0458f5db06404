import MessageCalls.Proofs.Executor.Ancestry
import MessageCalls.Proofs.Executor.Untouched
/-!
# MessageCalls.Proofs.Executor.Identities

**Every frame of a chain of calls sees the identity that belongs to it**
(`Executor.identities_threaded`), provided that running code passes its own identity with the calls
that it asks for. A chain of delegate calls keeps the identity of the frame in which it begins: a
delegate frame has that of the frame around it, so the induction is on the frames around, each of
which was entered for a request of the next.

What code may write follows from the identity that it runs under. Code that runs through a call code
or a delegate call has the address of the frame that asked for it, so **it does not write the
storage of the account that the code belongs to**; only a frame further inside can.
-/

namespace MessageCalls

open Executor (initFrame)

/-- The identity of the innermost frame that was not entered by a delegate call, or else the one
that the client passes. -/
def origin (client : Option Identity) : List Frame → Option Identity
  | [] => client
  | g :: rest => if g.isDelegate then origin client rest else some g.identity

namespace Operation

/-- The identity on whose behalf the client makes a call or a creation. -/
def client? : Operation → Option Identity
  | transactCall caller .. | transactCreate caller .. | simulateCall caller ..
  | estimateNrg caller .. => some (.external caller)
  | create caller .. | request (.call _ caller ..) | request (.create caller ..) => some caller
  | request _ => none

/-- The frame is the outermost one of an operation. -/
def Enters (op : Operation) (s : Executor) (frame : Frame) : Prop :=
  match op with
  | transactCall caller target value input nrg | simulateCall caller target value input nrg
  | estimateNrg caller target value input nrg =>
    frame = (CallKind.call.resolve false (.external caller) target input nrg value).frame 1
  | transactCreate caller value _ nrg =>
    frame = initFrame caller (s.newAddress (.legacy caller)) value nrg 1
  | create caller scheme _ nrg value => frame = s.creationFrame caller scheme nrg value
  | request r => r.Enters s frame

end Operation

/-- Running code of a frame asks for a call, and code begins to run in another frame for it. -/
def Invokes (moments : List Moment) (g : Frame) (kind : CallKind) (target : Address)
    (value : Amount) (frame : Frame) : Prop :=
  ∃ ask opened m caller input nrg answer code,
    [ask, opened, m] <:+: moments ∧ Ushers ask opened m ∧ ask.frames.head? = some g ∧
      ask.act = .asked (.call kind caller target input nrg value) answer ∧
      m.act = .entered code frame

namespace Executor

variable {setting : Setting} {frames : List Frame} {s t u : Executor} {moments : List Moment}
  {op : Operation}

/-! ### The frames of an operation -/

theorem descends_callTransaction (setting : Setting) (caller target : Address) (value : Amount)
    (input : Bytes) (nrg : Budget) (s : Executor) :
    Descends
      (fun frame =>
        frame = (CallKind.call.resolve false (.external caller) target input nrg value).frame 1)
      (callTransactionChronicle setting caller target value input nrg s) := by
  let begun := (s.prepared (.transactCall caller target value nrg.limit)).checkpoint.2
  have hleads := leads_callChronicle (runsAs_recorder setting (begun.room setting))
    (ushersInside_recorder setting _) [] .call (.external caller) target input nrg value begun
  have hdescends := Leads.descends hleads fun _ _ hfirst => hfirst.1
  exact hdescends.append (List.forall_mem_singleton.mpr rfl)

theorem descends_createTransaction (setting : Setting) (caller : Address) (value : Amount)
    (init : Bytes) (nrg : Budget) (s : Executor) :
    Descends (fun frame => frame = initFrame caller (s.newAddress (.legacy caller)) value nrg 1)
      (createTransactionChronicle setting caller value init nrg s) := by
  let before := s.prepared (.transactCreate caller value nrg.limit)
  let begun := before.checkpoint.2
  have haddress : begun.newAddress (.legacy caller) = s.newAddress (.legacy caller) :=
    congrArg (contractAddress caller)
      (congrFun (congrArg AccountView.nonce (view_checkpoint before)) caller)
  have hleads := leads_createChronicle (runsAs_recorder setting (begun.room setting))
    (ushersInside_recorder setting _) [] (.external caller) (.legacy caller) init nrg value begun
  rw [← haddress]
  have hdescends := Leads.descends hleads fun _ _ hfirst => hfirst
  exact hdescends.append (List.forall_mem_singleton.mpr rfl)

/-- **The outermost frame of an operation is the one that it enters, and every other has been asked
for.** -/
theorem descends_operate (setting : Setting) (s : Executor) (op : Operation) :
    Descends (op.Enters s) (operationChronicle setting s op) := by
  cases op with
  | transactCall caller target value input nrg =>
      exact descends_callTransaction setting caller target value input nrg s
  | transactCreate caller value init nrg =>
      exact descends_createTransaction setting caller value init nrg s
  | simulateCall caller target value input nrg =>
      exact (descends_callTransaction setting caller target value input nrg s.checkpoint.2).append
        (List.forall_mem_singleton.mpr rfl)
  | estimateNrg caller target value input nrg =>
      exact (descends_callTransaction setting caller target value input nrg s.checkpoint.2).append
        (List.forall_mem_singleton.mpr rfl)
  | create caller scheme init nrg value =>
      exact Leads.descends (leads_createChronicle (runsAs_recorder setting (s.room setting))
        (ushersInside_recorder setting _) [] caller scheme init nrg value s) fun _ _ h => h
  | request r =>
      cases r with
      | call kind caller target input nrg value =>
          exact (Leads.descends (leads_callChronicle (runsAs_recorder setting (s.room setting))
            (ushersInside_recorder setting _) [] kind caller target input nrg value s)
            fun _ _ h => h.1).cons rfl
      | create caller init nrg value =>
          exact (Leads.descends (leads_createChronicle (runsAs_recorder setting (s.room setting))
            (ushersInside_recorder setting _) [] caller (.legacy caller.address) init nrg value s)
            fun _ _ h => h).cons rfl
      | _ => exact descends_nil.cons rfl

theorem around_settlingOf (h : ∀ m ∈ moments, Around [] moments m) (point : Checkpoint)
    (closing : Overlay.Closing) (u : Executor) :
    ∀ m ∈ moments ++ [settlingOf setting point closing u],
      Around [] (moments ++ [settlingOf setting point closing u]) m :=
  List.forall_mem_append.mpr ⟨fun m hm => (h m hm).mono (List.subset_append_left _ _),
    List.forall_mem_singleton.mpr (around_here rfl)⟩

theorem TransactedAs.around (h : TransactedAs setting s moments t) :
    ∀ m ∈ moments, Around [] moments m := by
  obtain ⟨r, hremark, body, aborted⟩ := h
  exact around_settlingOf body.around _ _ _

theorem OperatedAs.around (h : OperatedAs setting s op moments t) :
    ∀ m ∈ moments, Around [] moments m := by
  cases h with
  | course hkind hkept h => exact h.around
  | transaction hkept h => exact h.around
  | dryRun hundone h r => exact around_settlingOf h.around _ _ _

/-! ### What a frame sees -/

/-- A call enters the frame of its kind, on behalf of the frame that asks for it. -/
theorem identity_of_invokes {g frame : Frame} {kind : CallKind} {target : Address} {value : Amount}
    (h : Invokes moments g kind target value frame) (hkeeps : ∀ m ∈ moments, m.KeepsIdentity) :
    frame.identity = kind.identity g.identity target value ∧ frame.codeAddress = target ∧
      (frame.isDelegate = true ↔ kind = .delegateCall) := by
  obtain ⟨ask, opened, m, caller, input, nrg, answer, code, hrow, hushers, hframes, hask, hact⟩ := h
  have hmem : ask ∈ moments := hrow.subset List.mem_cons_self
  have hcaller : ask.caller? = some caller := by rw [Moment.caller?, hask]
  obtain rfl := (hkeeps ask hmem).calls caller hcaller g hframes
  cases hushers with
  | intro henters hbalance opening answer' code' =>
      cases hact
      cases hask
      rw [show frame = _ from henters]
      exact ⟨rfl, rfl, decide_eq_true_iff⟩

/-- A delegate frame has the identity of the frame around it. -/
theorem identity_of_ushered {m : Moment} (h : Ushered moments m)
    (hkeeps : ∀ m ∈ moments, m.KeepsIdentity) {code : Bytes} {frame g : Frame}
    (hact : m.act = .entered code frame) (hdelegate : frame.isDelegate = true)
    (hframes : m.frames.head? = some g) : frame.identity = g.identity := by
  obtain ⟨ask, opened, hushers, hrow⟩ := h
  have hmem : ask ∈ moments := hrow.subset List.mem_cons_self
  cases hushers with
  | @intro frames s inside r frame henters hbalance opening answer code =>
      cases hact
      cases r with
      | call kind caller target input nrg value =>
          have hcaller := (hkeeps _ hmem).calls caller rfl g hframes
          rw [show frame = _ from henters] at hdelegate ⊢
          obtain rfl : kind = .delegateCall := of_decide_eq_true hdelegate
          exact hcaller
      | create caller init nrg value =>
          rw [show frame = _ from henters] at hdelegate
          cases hdelegate
      | _ => cases henters

theorem identity_of_enters {frame : Frame} (h : op.Enters s frame)
    (hdelegate : frame.isDelegate = true) : op.client? = some frame.identity := by
  cases op with
  | create caller scheme init nrg value =>
      rw [show frame = _ from h] at hdelegate
      cases hdelegate
  | request r =>
      cases r with
      | call kind caller target input nrg value =>
          rw [show frame = _ from h] at hdelegate ⊢
          obtain rfl : kind = .delegateCall := of_decide_eq_true hdelegate
          rfl
      | create caller init nrg value =>
          rw [show frame = _ from h] at hdelegate
          cases hdelegate
      | _ => cases h
  | _ =>
      rw [show frame = _ from h] at hdelegate
      cases hdelegate

/-- **Through any number of delegate calls a frame keeps the identity in which they began.** -/
theorem origin_eq (hdescends : Descends (op.Enters s) moments)
    (haround : ∀ m ∈ moments, Around [] moments m) (hkeeps : ∀ m ∈ moments, m.KeepsIdentity)
    {m : Moment} (hm : m ∈ moments) {code : Bytes} {frame : Frame}
    (hact : m.act = .entered code frame) (hdelegate : frame.isDelegate = true) :
    origin op.client? m.frames = some frame.identity := by
  -- The frame around was entered at a moment with one frame less.
  induction hframes : m.frames generalizing m code frame with
  | nil =>
      have hentered := hdescends m hm code frame hact
      rw [if_pos hframes] at hentered
      exact identity_of_enters hentered hdelegate
  | cons g rest ih =>
      have hushered := hdescends m hm code frame hact
      rw [if_neg (by simp [hframes])] at hushered
      rw [identity_of_ushered hushered hkeeps hact hdelegate (by rw [hframes]; rfl), origin]
      split
      · next hagain =>
          rcases (haround m hm).entered g rest (hframes ▸ List.suffix_refl _) with hnone | hbegan
          · simp at hnone
          · obtain ⟨m', hm', hrest, code', hact'⟩ := hbegan
            exact ih hm' hact' hagain hrest
      · rfl

/-! ### What a call does to balances -/

/-- The balances in `t` are those in `s`, or those that the code of a frame has left, which began
with those in `s`. -/
def BalancesFrom (room : Option FrameRunner) (frame : Frame) (s t : Executor) : Prop :=
  t.accounts.balance = s.accounts.balance ∨
    ∃ runner code begun, room = some runner ∧ begun.accounts.balance = s.accounts.balance ∧
      t.accounts.balance = (runner code frame begun).2.accounts.balance

theorem Unchanged.balance_eq (h : Unchanged s t) : t.accounts.balance = s.accounts.balance :=
  congrArg AccountView.balance h.view_eq

section Room

variable {room : Option FrameRunner} {frame : Frame}

theorem balancesFrom_leave (hreliable : Reliable setting) (h : Extends s.checkpoint.2 u)
    (hbalances : BalancesFrom room frame s u) (exit : Exit) (output : Bytes) (nrgLeft : Nrg) :
    BalancesFrom room frame s (u.leave setting s.checkpoint.1 exit output nrgLeft).2 := by
  rcases leave_cases hreliable h exit output nrgLeft with ⟨-, hview, -⟩ | ⟨-, hunchanged⟩
  · have hkept := congrArg AccountView.balance hview
    exact hbalances.imp hkept.trans fun ⟨runner, code, begun, hroom, hbegun, hended⟩ =>
      ⟨runner, code, begun, hroom, hbegun, hkept.trans hended⟩
  · exact .inl hunchanged.balance_eq

/-- A frame that ends with a failure is undone. -/
theorem balance_unpaid (hreliable : Reliable setting) (h : Extends s.checkpoint.2 u)
    (failure : Failure) :
    (u.leave setting s.checkpoint.1 failure.exit [] 0).2.accounts.balance = s.accounts.balance := by
  have hleaves := leavesAs_leave hreliable h failure.exit [] 0
  refine (hleaves.unchanged ?_).balance_eq
  rw [hleaves.outcome_eq, Exit.isSuccess_outcome, Bool.eq_false_iff]
  intro hsuccess
  have hexit := (of_isSuccess_finalExit hsuccess).2
  rw [Failure.isSuccess_exit] at hexit
  cases hexit

theorem balancesFrom_answerCall {runner : FrameRunner} (hroom : room = some runner) (c : Call)
    (hdepth : t.tx.depth = s.tx.depth) (hbalance : t.accounts.balance = s.accounts.balance) :
    BalancesFrom room (c.frame (s.tx.depth + 1)) s (answerCall setting runner c t).2 := by
  unfold answerCall
  cases setting.natives.run c.codeAddress c.input c.nrg.limit c.identity with
  | some result =>
      dsimp only
      split <;> exact .inl hbalance
  | none =>
      dsimp only
      unfold enter
      split
      · exact .inl hbalance
      · rw [hdepth]
        exact .inr ⟨runner, _, t.inside (c.frame (s.tx.depth + 1)), hroom, hbalance, rfl⟩

/-- **A call that moves no value does nothing to balances itself.** -/
theorem balancesFrom_carryOut (hreliable : Reliable setting) {recorder : FrameRecorder}
    (hruns : ∀ runner, room = some runner → RunsAs setting runner recorder) {c : Call}
    (hself : c.MovesNothing) (s : Executor) :
    BalancesFrom room (c.frame (s.tx.depth + 1)) s (carryOut setting room c s).2 := by
  unfold carryOut
  have hbegun : (s.note (.event (.call c))).accounts.balance = s.accounts.balance ∧
      (s.note (.event (.call c))).tx.depth = s.tx.depth := ⟨rfl, rfl⟩
  unfold BalancesFrom
  rw [← hbegun.1, ← hbegun.2]
  generalize s.note (.event (.call c)) = s₁
  dsimp only
  cases hpre : s₁.preflight room c.payer c.value with
  | error failure => exact .inl rfl
  | ok runner =>
      obtain ⟨-, hroom⟩ := fatal_of_preflight hpre
      cases hpaid : s₁.checkpoint.2.pay c.transfer with
      | mk result paid =>
          have hextends := extends_pay hpaid
          cases result with
          | error failure => exact .inl (balance_unpaid hreliable hextends failure)
          | ok done =>
              have hdepth : paid.tx.depth = s₁.tx.depth :=
                congrArg TxContext.depth (pay_fields hpaid).1
              have hpay := (balance_pay hself hpaid).trans
                (congrArg AccountView.balance (view_checkpoint s₁))
              have hended := hextends.trans (extends_answerCall hreliable (hruns runner hroom) c)
              exact balancesFrom_leave hreliable hended
                (balancesFrom_answerCall hroom c hdepth hpay) _ _ _

end Room

theorem balancesFrom_callWith (hreliable : Reliable setting) (room : Nat) {kind : CallKind}
    (hkind : kind ≠ .call) (caller : Identity) (target : Address) (input : Bytes) (nrg : Budget)
    (value : Amount) (s : Executor) :
    BalancesFrom (runner setting room) (s.callFrame kind caller target input nrg value) s
      (callWith setting (runner setting room) kind caller target input nrg value s).2 := by
  unfold callWith
  split
  · exact .inl rfl
  · exact balancesFrom_carryOut hreliable (runsAs_recorder setting room)
      (movesNothing_resolve hkind _ _ _ _ _ _) s

/-! ### What borrowed code writes -/

/-- Code that runs through a call code or a delegate call leaves the storage of the account that it
belongs to alone, unless a frame further inside runs as that account. -/
theorem untouched_callWith (hreliable : Reliable setting) (room : Nat) (frames : List Frame)
    {kind : CallKind} (hkind : kind = .callCode ∨ kind = .delegateCall) {caller : Identity}
    (hcaller : ∀ g ∈ frames.head?, caller = g.identity) {target : Address}
    (hother : target ≠ caller.address) (input : Bytes) (nrg : Budget) (value : Amount)
    (s : Executor) :
    let moments := callChronicle setting (runner setting room) (recorder setting room) frames kind
      caller target input nrg value s
    (∀ m ∈ moments, m.KeepsIdentity) → (∀ m ∈ moments, m.frames ≠ frames → m.Bars target) →
      Untouched target s moments
        (callWith setting (runner setting room) kind caller target input nrg value s).2 := by
  intro moments hkeeps hinside
  have hcalled := called setting room frames s kind caller target input nrg value
  have hleads := leads_callChronicle (runsAs_recorder setting room)
    (ushersInside_recorder setting room) frames kind caller target input nrg value s
  have haddress : (kind.identity caller target value).address = caller.address := by
    rcases hkind with rfl | rfl <;> rfl
  refine hcalled.course.untouched hreliable (fun g hg heq => ?_) hkeeps fun m hm => ?_
  · exact absurd heq.symm (hcaller g hg ▸ hother)
  · by_cases hframes : m.frames = frames
    · -- The first frame runs as the account that asks for it.
      intro run hrun htarget
      have hfirst := hleads m hm run.1 run.2 (act_of_entered? hrun)
      rw [if_pos hframes] at hfirst
      rw [hfirst.1.1] at htarget
      exact absurd (htarget.symm.trans haddress) hother
    · exact hinside m hm hframes

/-! ### Identities -/

/-- Identities in an operation from `s` to `t`. -/
structure Threaded (op : Operation) (s : Executor) (moments : List Moment) (t : Executor) :
    Prop where
  /-- The outermost frame is the one that the client asks for. -/
  outermost : ∀ m ∈ moments, ∀ code frame, m.act = .entered code frame → m.frames = [] →
    op.Enters s frame
  /-- Every other frame is entered for a request that the frame around it asked just before; if
  that moves no value, the code begins with the balances found then. -/
  ushered : ∀ m ∈ moments, ∀ code frame, m.act = .entered code frame → m.frames ≠ [] →
    Ushered moments m
  /-- The frames around a moment have begun to run, each inside the ones around it. -/
  around : ∀ m ∈ moments, ∀ g rest, g :: rest <:+ m.frames →
    ∃ m' ∈ moments, m'.frames = rest ∧ ∃ code, m'.act = .entered code g
  /-- A called frame runs as the target, and its sender is the account that asks. -/
  call : ∀ g target value frame, Invokes moments g .call target value frame →
    frame.identity = ⟨target, g.identity.address, value⟩
  /-- So does a frame called in static mode, without value. -/
  staticCall : ∀ g target value frame, Invokes moments g .staticCall target value frame →
    frame.identity = ⟨target, g.identity.address, 0⟩
  /-- A frame of a call code runs as the account that asks, and has it as its sender. -/
  callCode : ∀ g target value frame, Invokes moments g .callCode target value frame →
    frame.identity = ⟨g.identity.address, g.identity.address, value⟩
  /-- A delegate frame has the identity of the frame that asks, and the code of the target. -/
  delegateCall : ∀ g target value frame, Invokes moments g .delegateCall target value frame →
    frame.identity = g.identity ∧ frame.codeAddress = target ∧ frame.isDelegate = true
  /-- So a chain of delegate frames, of any length, has the identity of the innermost frame around
  it that is none, or the one that the client passes. -/
  delegated : ∀ m ∈ moments, ∀ code frame, m.act = .entered code frame →
    frame.isDelegate = true → origin op.client? m.frames = some frame.identity
  /-- The storage of an account changes only if a frame runs as it that may modify the state. -/
  storage : ∀ a, (∀ m ∈ moments, m.Bars a) → Untouched a s moments t
  /-- What borrowed code writes is the storage of the account that asked for it. -/
  borrowed : ∀ m ∈ moments, ∀ a key word answer, m.act = .asked (.setStorage a key word) answer →
    ∀ g kind target value frame, Invokes moments g kind target value frame →
      m.frames.head? = some frame → kind = .callCode ∨ kind = .delegateCall →
        a = g.identity.address ∧ frame.codeAddress = target

theorem OperatedAs.threaded (hreliable : Reliable setting) (h : OperatedAs setting s op moments t)
    (hdescends : Descends (op.Enters s) moments) (hkeeps : ∀ m ∈ moments, m.KeepsIdentity) :
    Threaded op s moments t where
  outermost m hm code frame hact hframes := by
    have hentered := hdescends m hm code frame hact
    rwa [if_pos hframes] at hentered
  ushered m hm code frame hact hframes := by
    have hentered := hdescends m hm code frame hact
    rwa [if_neg hframes] at hentered
  around m hm g rest hrest := by
    rcases (h.around m hm).entered g rest hrest with hnone | hbegan
    · simp at hnone
    · exact hbegan
  call g target value frame hinvokes := (identity_of_invokes hinvokes hkeeps).1
  staticCall g target value frame hinvokes := (identity_of_invokes hinvokes hkeeps).1
  callCode g target value frame hinvokes := (identity_of_invokes hinvokes hkeeps).1
  delegateCall g target value frame hinvokes := by
    obtain ⟨hidentity, hcode, hdelegate⟩ := identity_of_invokes hinvokes hkeeps
    exact ⟨hidentity, hcode, hdelegate.mpr rfl⟩
  delegated m hm code frame hact hdelegate :=
    origin_eq hdescends h.around hkeeps hm hact hdelegate
  storage a hbars := h.untouched hreliable hkeeps hbars
  borrowed m hm a key word answer hact g kind target value frame hinvokes hframe hkind := by
    have hwritten : m.written? = some a := by rw [Moment.written?, hact]
    obtain ⟨frame', hframe', rfl⟩ := (hkeeps m hm).writes a hwritten
    obtain rfl : frame' = frame := Option.some.inj (hframe'.symm.trans hframe)
    obtain ⟨hidentity, hcode, -⟩ := identity_of_invokes hinvokes hkeeps
    refine ⟨?_, hcode⟩
    rw [hidentity]
    rcases hkind with rfl | rfl <;> rfl

/-- **Every frame of a chain of calls sees the identity that belongs to it**, in every operation in
which running code passes its own identity with its calls and writes its own storage. A call that
is no plain call moves no balance itself, and code that it borrows leaves the storage of its owner
alone. -/
theorem identities_threaded (setting : Setting) (hreliable : Reliable setting) :
    (∀ s op, (∀ m ∈ operationChronicle setting s op, m.KeepsIdentity) →
      Threaded op s (operationChronicle setting s op) (operate setting s op)) ∧
    (∀ room s kind caller target input nrg value, kind ≠ .call →
      BalancesFrom (runner setting room) (s.callFrame kind caller target input nrg value) s
        (callWith setting (runner setting room) kind caller target input nrg value s).2) ∧
    ∀ room frames s kind caller target input nrg value,
      let moments := callChronicle setting (runner setting room) (recorder setting room) frames kind
        caller target input nrg value s
      kind = .callCode ∨ kind = .delegateCall → (∀ g ∈ frames.head?, caller = g.identity) →
      target ≠ caller.address → (∀ m ∈ moments, m.KeepsIdentity) →
      (∀ m ∈ moments, m.frames ≠ frames → m.Bars target) →
      Untouched target s moments
        (callWith setting (runner setting room) kind caller target input nrg value s).2 := by
  refine ⟨fun s op hkeeps => ?_, ?_, ?_⟩
  · exact (operatedAs setting hreliable s op).threaded hreliable (descends_operate setting s op)
      hkeeps
  · intro room s kind caller target input nrg value hkind
    exact balancesFrom_callWith hreliable room hkind caller target input nrg value s
  · intro room frames s kind caller target input nrg value moments hkind hcaller hother
    exact untouched_callWith hreliable room frames hkind hcaller hother input nrg value s

/-- A contract that borrows the code of another one by a chain of two delegate calls and by a call
code, and calls it in static mode. The code writes its own storage, which is that of the
contract. -/
theorem identities_threaded_through_delegates :
    let interpreter : Interpreter := fun code frame =>
      if code = [1] then do
        let _ ← Program.request (.call .delegateCall frame.identity 6 [] frame.nrg 0)
        let _ ← Program.request (.call .callCode frame.identity 6 [] frame.nrg 3)
        let _ ← Program.request (.call .staticCall frame.identity 6 [] frame.nrg 0)
        pure (.stopped 1)
      else if frame.isDelegate && frame.depth = 2 then do
        let _ ← Program.request (.call .delegateCall frame.identity 6 [] frame.nrg 0)
        pure (.stopped 1)
      else do
        let _ ← Program.request (.setStorage frame.identity.address 0 7)
        pure (.stopped 1)
    let setting := homesteadWith interpreter
    let s := withTwoContracts 0
    let op : Operation := .transactCall 1 5 20 [] ⟨900, 1⟩
    let moments := operationChronicle setting s op
    let caller : Identity := ⟨5, 1, 20⟩
    let g : Frame := ⟨caller, 5, [], ⟨900, 1⟩, false, false, 1⟩
    let u := withTwoContracts 1
    let borrowing := callChronicle setting (runner setting 3) (recorder setting 3) [g] .callCode
      caller 6 [] ⟨900, 1⟩ 3 u
    let v := (callWith setting (runner setting 3) .callCode caller 6 [] ⟨900, 1⟩ 3 u).2
    Reliable setting ∧ (∀ m ∈ moments, m.KeepsIdentity) ∧
      Threaded op s moments (operate setting s op) ∧
      (moments.filterMap Moment.entered?).map
          (fun run => (run.2.codeAddress, run.2.identity, run.2.isDelegate, run.2.isStatic)) =
        [(5, ⟨5, 1, 20⟩, false, false), (6, ⟨5, 1, 20⟩, true, false), (6, ⟨5, 1, 20⟩, true, false),
          (6, ⟨5, 5, 3⟩, false, false), (6, ⟨6, 5, 0⟩, false, true)] ∧
      (operate setting s op).accounts.storage 5 0 = 7 ∧
      (operate setting s op).accounts.storage 6 0 = 0 ∧
      BalancesFrom (runner setting 3) (u.callFrame .callCode caller 6 [] ⟨900, 1⟩ 3) u v ∧
      (∀ m ∈ borrowing, m.KeepsIdentity) ∧ (∀ m ∈ borrowing, m.frames ≠ [g] → m.Bars 6) ∧
      Untouched 6 u borrowing v ∧ v.accounts.storage 5 0 = 7 := by
  intro interpreter setting s op moments caller g u borrowing v
  have hreliable : Reliable setting := fun _ _ => rfl
  obtain ⟨hoperations, hbalances, hborrowed⟩ := identities_threaded setting hreliable
  have hkeeps : ∀ m ∈ moments, m.KeepsIdentity := by decide +kernel
  have hkeeps' : ∀ m ∈ borrowing, m.KeepsIdentity := by decide +kernel
  have hinside : ∀ m ∈ borrowing, m.frames ≠ [g] → m.Bars 6 := by decide +kernel
  have hcaller : ∀ f ∈ [g].head?, caller = f.identity := by decide
  exact ⟨hreliable, hkeeps, hoperations s op hkeeps, by decide +kernel, by decide +kernel,
    by decide +kernel, hbalances 3 u .callCode caller 6 [] ⟨900, 1⟩ 3 (by decide), hkeeps',
    hinside, hborrowed 3 [g] u .callCode caller 6 [] ⟨900, 1⟩ 3 (.inl rfl) hcaller (by decide)
      hkeeps' hinside, by decide +kernel⟩

end Executor

end MessageCalls
