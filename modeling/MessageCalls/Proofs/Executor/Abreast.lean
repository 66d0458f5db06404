import MessageCalls.Proofs.Executor.Readings
/-!
# MessageCalls.Proofs.Executor.Abreast

Two runs of the same code side by side, over different layers, snapshots and stored states. They
have written the same since the innermost snapshot, show code the same accounts, and are in the same
surroundings, but for the logs and steps of earlier transactions that one of them has behind it
(`Executor.Abreast`).

**Code that overlooks that past cannot tell the two apart** (`Executor.unaware_runner`): every
request is answered alike, and the answers lead to two such states again. The proof goes through the
machine function by function; the layers matter only where a frame is left, and there each run gives
back its own.
-/

namespace MessageCalls

/-! ### Accounts as code sees them -/

namespace AccountView

/-- The readings that code is shown: for code, native contracts are present as well. -/
def shown (v : AccountView) (natives : NativeSet) : AccountView :=
  { v with present := fun a => v.present a || natives.isNative a }

variable (v : AccountView) (natives : NativeSet) (a : Address)

theorem shown_update_present :
    (fun b => Function.update v.present a true b || natives.isNative b) =
      Function.update (fun b => v.present b || natives.isNative b) a true := by
  funext b
  rw [Function.update_apply, Function.update_apply]
  split
  · rfl
  · rfl

theorem shown_setBalance (x : Amount) :
    (v.setBalance a x).shown natives = (v.shown natives).setBalance a x := by
  rw [shown, setBalance, setBalance, shown, ← shown_update_present]

theorem shown_setNonce (n : Nonce) :
    (v.setNonce a n).shown natives = (v.shown natives).setNonce a n := by
  rw [shown, setNonce, setNonce, shown, ← shown_update_present]

theorem shown_setCode (code : Bytes) :
    (v.setCode a code).shown natives = (v.shown natives).setCode a code := by
  rw [shown, setCode, setCode, shown, ← shown_update_present]

theorem shown_setStorage (k w : Word) :
    (v.setStorage a k w).shown natives = (v.shown natives).setStorage a k w := rfl

end AccountView

namespace Overlay

/-- The same was written since the innermost snapshot, and code is shown the same. -/
structure Fronts (natives : NativeSet) (o p : Overlay) : Prop where
  current : o.current = p.current
  shown : o.view.shown natives = p.view.shown natives

namespace Fronts

variable {natives : NativeSet} {o p : Overlay}

theorem balance (h : Fronts natives o p) : o.balance = p.balance :=
  congrArg AccountView.balance h.shown

theorem nonce (h : Fronts natives o p) : o.nonce = p.nonce := congrArg AccountView.nonce h.shown

theorem code (h : Fronts natives o p) : o.code = p.code := congrArg AccountView.code h.shown

theorem setBalance (h : Fronts natives o p) (a : Address) (v : Amount) :
    Fronts natives (o.setBalance a v) (p.setBalance a v) := by
  refine ⟨?_, ?_⟩
  · rw [Overlay.setBalance, Overlay.setBalance, h.current]
  · rw [view_setBalance, view_setBalance, AccountView.shown_setBalance,
      AccountView.shown_setBalance, h.shown]

theorem setNonce (h : Fronts natives o p) (a : Address) (n : Nonce) :
    Fronts natives (o.setNonce a n) (p.setNonce a n) := by
  refine ⟨?_, ?_⟩
  · rw [Overlay.setNonce, Overlay.setNonce, h.current]
  · rw [view_setNonce, view_setNonce, AccountView.shown_setNonce, AccountView.shown_setNonce,
      h.shown]

theorem setCode (h : Fronts natives o p) (a : Address) (code : Bytes) :
    Fronts natives (o.setCode a code) (p.setCode a code) := by
  refine ⟨?_, ?_⟩
  · rw [Overlay.setCode, Overlay.setCode, h.current]
  · rw [view_setCode, view_setCode, AccountView.shown_setCode, AccountView.shown_setCode, h.shown]

theorem setStorage (h : Fronts natives o p) (a : Address) (k w : Word) :
    Fronts natives (o.setStorage a k w) (p.setStorage a k w) := by
  refine ⟨?_, ?_⟩
  · rw [Overlay.setStorage, Overlay.setStorage, h.current]
  · rw [view_setStorage, view_setStorage, AccountView.shown_setStorage,
      AccountView.shown_setStorage, h.shown]

theorem transfer (h : Fronts natives o p) (t : Transfer) :
    (o.transfer t).1 = (p.transfer t).1 ∧ Fronts natives (o.transfer t).2 (p.transfer t).2 := by
  unfold Overlay.transfer
  rw [h.balance]
  by_cases hshort : p.balance t.source < t.value
  · rw [if_pos hshort, if_pos hshort]
    exact ⟨rfl, h⟩
  · rw [if_neg hshort, if_neg hshort]
    have hdebited := h.setBalance t.source (p.balance t.source - t.value)
    dsimp only
    rw [hdebited.balance]
    split
    · exact ⟨rfl, hdebited⟩
    · exact ⟨rfl, hdebited.setBalance t.target _⟩

end Fronts

end Overlay

/-! ### Surroundings with a past -/

/-- The logs and steps of earlier transactions. -/
structure Past where
  logs : List Log := []
  stepLogs : List StepLog := []

namespace TxContext

/-- The same surroundings, with some transactions before. -/
def after (tx : TxContext) (past : Past) : TxContext :=
  { tx with logs := past.logs ++ tx.logs, stepLogs := past.stepLogs ++ tx.stepLogs }

theorem addLog_after (tx : TxContext) (past : Past) (log : Log) :
    (tx.after past).addLog log = (tx.addLog log).after past := by
  simp [after, addLog]

theorem addStepLog_after (tx : TxContext) (past : Past) (step : StepLog) :
    (tx.after past).addStepLog step = (tx.addStepLog step).after past := by
  simp [after, addStepLog]

theorem truncateLogs_after (tx : TxContext) (past : Past) (count : Nat) :
    (tx.after past).truncateLogs (past.logs.length + count) = (tx.truncateLogs count).after past := by
  have hpast : past.logs.take (past.logs.length + count) = past.logs :=
    List.take_of_length_le (Nat.le_add_right _ _)
  simp [after, truncateLogs, List.take_append, hpast]

end TxContext

/-- The answer to a request where some transactions came before. -/
def Request.behind (past : Past) : (r : Request) → r.Answer → r.Answer
  | .logs, entries => past.logs ++ entries
  | .stepLogs, entries => past.stepLogs ++ entries
  | _, answer => answer

/-- The computation goes on alike whether some transactions came before or not. -/
def Program.Overlooks {α : Type} (past : Past) : Program α → Prop
  | .done _ => True
  | .ask r next =>
    ∀ answer, next (r.behind past answer) = next answer ∧ (next answer).Overlooks past

theorem Request.behind_nothing (r : Request) (answer : r.Answer) : r.behind {} answer = answer := by
  cases r <;> rfl

/-- Nothing is overlooked where nothing came before. -/
theorem Program.overlooks_nothing {α : Type} (p : Program α) : p.Overlooks {} := by
  induction p with
  | done value => trivial
  | ask r next ih => exact fun answer => ⟨by rw [Request.behind_nothing], ih answer⟩

namespace Executor

/-- Nothing that code can ask tells the two states apart, but for what `s` has behind it. -/
structure Abreast (setting : Setting) (past : Past) (s t : Executor) : Prop where
  accounts : s.accounts.Fronts setting.natives t.accounts
  tx : s.tx = t.tx.after past
  isStatic : s.isStatic = t.isStatic
  fatal : s.fatal = t.fatal

/-- Two steps of the machine answer alike and end in states that are abreast. -/
def SameEnd (setting : Setting) (past : Past) {α : Type} (x y : α × Executor) : Prop :=
  x.1 = y.1 ∧ Abreast setting past x.2 y.2

/-- Frames that are run in states which are abreast have the same end. -/
def Unaware (setting : Setting) (past : Past) (runner : FrameRunner) : Prop :=
  ∀ code frame s t, Abreast setting past s t →
    SameEnd setting past (runner code frame s) (runner code frame t)

variable {setting : Setting} {past : Past} {s t u v : Executor}

/-! ### Steps of the machine -/

namespace Abreast

theorem note (h : Abreast setting past s t) (entry entry' : Entry) :
    Abreast setting past (s.note entry) (t.note entry') :=
  ⟨h.accounts, h.tx, h.isStatic, h.fatal⟩

theorem latch (h : Abreast setting past s t) (cause : Abort) :
    Abreast setting past (s.latch cause) (t.latch cause) := by
  constructor <;> simp [h.accounts, h.tx, h.isStatic, h.fatal]

/-- Both take a checkpoint, above whatever each of them has written so far. -/
theorem checkpoint_of_shown
    (hshown : s.accounts.view.shown setting.natives = t.accounts.view.shown setting.natives)
    (htx : s.tx = t.tx.after past) (hmode : s.isStatic = t.isStatic) (hfatal : s.fatal = t.fatal) :
    Abreast setting past s.checkpoint.2 t.checkpoint.2 :=
  ⟨⟨rfl, by rw [view_checkpoint, view_checkpoint, hshown]⟩, htx, hmode, hfatal⟩

theorem checkpoint (h : Abreast setting past s t) :
    Abreast setting past s.checkpoint.2 t.checkpoint.2 :=
  .checkpoint_of_shown h.accounts.shown h.tx h.isStatic h.fatal

theorem inside (h : Abreast setting past s t) (frame : Frame) :
    Abreast setting past (s.inside frame) (t.inside frame) :=
  ⟨h.accounts, congrArg (TxContext.setDepth · frame.depth) h.tx, rfl, h.fatal⟩

theorem depth (h : Abreast setting past s t) : s.tx.depth = t.tx.depth :=
  (congrArg TxContext.depth h.tx :)

theorem backTo (h : Abreast setting past u v) (hstart : Abreast setting past s t) :
    Abreast setting past (u.backTo s) (v.backTo t) := by
  refine ⟨h.accounts, ?_, hstart.isStatic, h.fatal⟩
  rw [Executor.backTo, Executor.backTo, hstart.depth]
  exact congrArg (TxContext.setDepth · t.tx.depth) h.tx

theorem logs_length (h : Abreast setting past s t) :
    s.checkpoint.1.logs = past.logs.length + t.checkpoint.1.logs := by
  show s.tx.logs.length = past.logs.length + t.tx.logs.length
  rw [h.tx]
  exact List.length_append

theorem truncateLogs (h : Abreast setting past s t) (hend : u.tx = v.tx.after past) :
    u.tx.truncateLogs s.checkpoint.1.logs =
      (v.tx.truncateLogs t.checkpoint.1.logs).after past := by
  rw [hend, h.logs_length, TxContext.truncateLogs_after]

theorem preflight (h : Abreast setting past s t) (room : Option FrameRunner) (payer : Address)
    (value : Amount) : s.preflight room payer value = t.preflight room payer value := by
  unfold Executor.preflight
  rw [h.fatal, h.accounts.balance]

theorem isTaken (h : Abreast setting past s t) (a : Address) : s.isTaken a = t.isTaken a := by
  unfold Executor.isTaken
  rw [h.accounts.code, h.accounts.nonce]

theorem newAddress (h : Abreast setting past s t) (scheme : AddressScheme) :
    s.newAddress scheme = t.newAddress scheme := by
  cases scheme with
  | legacy caller => rw [Executor.newAddress, Executor.newAddress, h.accounts.nonce]
  | fixed address => rfl

theorem transfer (h : Abreast setting past s t) (transfer : Transfer) :
    SameEnd setting past (s.transfer transfer) (t.transfer transfer) := by
  obtain ⟨hresult, haccounts⟩ := h.accounts.transfer transfer
  unfold Executor.transfer
  generalize s.accounts.transfer transfer = moved at hresult haccounts ⊢
  generalize t.accounts.transfer transfer = moved' at hresult haccounts ⊢
  obtain ⟨result, accounts⟩ := moved
  obtain ⟨result', accounts'⟩ := moved'
  cases hresult
  cases result with
  | ok done => exact ⟨rfl, haccounts, h.tx, h.isStatic, h.fatal⟩
  | error failure => exact ⟨rfl, haccounts, h.tx, h.isStatic, h.fatal⟩

theorem pay (h : Abreast setting past s t) (transfer : Option Transfer) :
    SameEnd setting past (s.pay transfer) (t.pay transfer) := by
  cases transfer with
  | none => exact ⟨rfl, h⟩
  | some transfer => exact h.transfer transfer

/-- A nonce is incremented in both states or in neither. -/
theorem incNonce (h : Abreast setting past s t) (a : Address) :
    (∃ halt, s.incNonce a = .error halt ∧ t.incNonce a = .error halt) ∨
      ∃ u v, s.incNonce a = .ok u ∧ t.incNonce a = .ok v ∧ Abreast setting past u v := by
  unfold Executor.incNonce Overlay.incNonce
  rw [h.accounts.nonce]
  dsimp only
  by_cases hlargest : t.accounts.nonce a = UInt64.ofNat (2 ^ 64 - 1)
  · rw [if_pos hlargest, if_pos hlargest]
    exact Or.inl ⟨_, rfl, rfl⟩
  · rw [if_neg hlargest, if_neg hlargest]
    exact Or.inr ⟨_, _, rfl, rfl, h.accounts.setNonce a _, h.tx, h.isStatic, h.fatal⟩

theorem deposit (h : Abreast setting past s t) (address : Address) (result : FrameResult) :
    SameEnd setting past (deposit setting address result s) (deposit setting address result t) := by
  unfold Executor.deposit
  rw [h.fatal]
  split
  · cases setting.config.depositCode result.output.length result.nrgLeft with
    | error halt => exact ⟨rfl, h⟩
    | ok nrgLeft =>
        exact ⟨rfl, h.accounts.setCode address result.output, h.tx, h.isStatic, h.fatal⟩
  · exact ⟨rfl, h⟩

end Abreast

/-! ### Leaving a frame -/

/-- **Frames that are left alike**: each run settles against the checkpoint that it took itself. -/
theorem sameEnd_leave (hreliable : Reliable setting) (h : Abreast setting past s t)
    (hu : Extends s.checkpoint.2 u) (hv : Extends t.checkpoint.2 v) (huv : Abreast setting past u v)
    (exit : Exit) (output : Bytes) (nrgLeft : Nrg) :
    SameEnd setting past (u.leave setting s.checkpoint.1 exit output nrgLeft)
      (v.leave setting t.checkpoint.1 exit output nrgLeft) := by
  have hexit : u.finalExit exit = v.finalExit exit := by rw [finalExit, finalExit, huv.fatal]
  have hleft := leavesAs_leave hreliable hu exit output nrgLeft
  have hleft' := leavesAs_leave hreliable hv exit output nrgLeft
  refine ⟨?_, ⟨?_, ?_⟩, ?_, ?_, ?_⟩
  · rw [hleft.outcome_eq, hleft'.outcome_eq, hexit]
  · rw [accounts_leave hreliable hu, accounts_leave hreliable hv, current_closeInnermost hu,
      current_closeInnermost hv, hexit, h.accounts.current, huv.accounts.current]
  · cases hsuccess : (u.finalExit exit).isSuccess with
    | true =>
        rw [view_leave setting hsuccess, view_leave setting (hexit ▸ hsuccess), huv.accounts.shown]
    | false =>
        -- What was shown when the frame was entered comes back.
        have hfailed := hleft.unchanged
          (by rw [hleft.outcome_eq, Exit.isSuccess_outcome, hsuccess])
        have hfailed' := hleft'.unchanged
          (by rw [hleft'.outcome_eq, Exit.isSuccess_outcome, ← hexit, hsuccess])
        rw [hfailed.view_eq, hfailed'.view_eq, h.accounts.shown]
  · rw [tx_leave, tx_leave, hexit]
    split
    · exact huv.tx
    · exact h.truncateLogs huv.tx
  · rw [hleft.extended.isStatic, hleft'.extended.isStatic, h.isStatic]
  · rw [hleft.fatal, hleft'.fatal, hexit]

/-- A checkpoint that is given up at once. -/
theorem abreast_givenUp (hreliable : Reliable setting) (h : Abreast setting past s t)
    (entry entry' : Entry) :
    Abreast setting past ((s.checkpoint.2.note entry).settleOrLatch setting s.checkpoint.1 .restore)
      ((t.checkpoint.2.note entry').settleOrLatch setting t.checkpoint.1 .restore) := by
  have hsettles := settlesAs_givenUp hreliable s entry
  have hsettles' := settlesAs_givenUp hreliable t entry'
  have hrestored := hsettles.restored rfl
  have hrestored' := hsettles'.restored rfl
  refine ⟨⟨?_, ?_⟩, ?_, ?_, ?_⟩
  · rw [hrestored.current, hrestored'.current, h.accounts.current]
  · rw [hrestored.view_eq, hrestored'.view_eq, h.accounts.shown]
  · rw [tx_settleOrLatch, tx_settleOrLatch]
    exact h.truncateLogs h.tx
  · rw [hsettles.extended.isStatic, hsettles'.extended.isStatic, h.isStatic]
  · rw [hsettles.fatal, hsettles'.fatal]
    exact h.fatal

/-! ### Frames -/

section Runner

variable {runner : FrameRunner} (hunaware : Unaware setting past runner)

include hunaware

theorem sameEnd_enter (code : Bytes) (frame : Frame) (h : Abreast setting past s t) :
    SameEnd setting past (enter runner code frame s) (enter runner code frame t) := by
  unfold enter
  split
  · exact ⟨rfl, h⟩
  · obtain ⟨hresult, hinner⟩ := hunaware code frame _ _ (h.inside frame)
    exact ⟨hresult, hinner.backTo h⟩

theorem sameEnd_answerCall (c : Call) (h : Abreast setting past s t) :
    SameEnd setting past (answerCall setting runner c s) (answerCall setting runner c t) := by
  unfold answerCall
  cases setting.natives.run c.codeAddress c.input c.nrg.limit c.identity with
  | some result =>
      refine ⟨rfl, ?_⟩
      dsimp only
      split
      · exact h.note _ _
      · exact h
  | none =>
      dsimp only
      rw [h.accounts.code, h.depth]
      exact sameEnd_enter hunaware _ _ h

end Runner

/-! ### Calls and creations -/

section Room

variable {room : Option FrameRunner} {recorder : FrameRecorder} (hreliable : Reliable setting)
  (hruns : ∀ runner, room = some runner → RunsAs setting runner recorder)
  (hunaware : ∀ runner, room = some runner → Unaware setting past runner)

include hreliable hruns hunaware

theorem sameEnd_carryOut (c : Call) (h : Abreast setting past s t) :
    SameEnd setting past (carryOut setting room c s) (carryOut setting room c t) := by
  unfold carryOut
  have hannounced := h.note (.event (.call c)) (.event (.call c))
  generalize s.note (.event (.call c)) = s₁ at hannounced ⊢
  generalize t.note (.event (.call c)) = t₁ at hannounced ⊢
  dsimp only
  rw [hannounced.preflight]
  cases hpre : t₁.preflight room c.payer c.value with
  | error failure => exact ⟨rfl, (hannounced.note _ _).note _ _⟩
  | ok runner =>
      obtain ⟨-, hroom⟩ := fatal_of_preflight hpre
      have hpaid := hannounced.checkpoint.pay c.transfer
      cases hs : s₁.checkpoint.2.pay c.transfer with
      | mk result u =>
      cases ht : t₁.checkpoint.2.pay c.transfer with
      | mk result' v =>
          rw [hs, ht] at hpaid
          obtain ⟨hresult, huv⟩ := hpaid
          cases hresult
          have hu := extends_pay hs
          have hv := extends_pay ht
          cases result with
          | error failure => exact sameEnd_leave hreliable hannounced hu hv huv _ _ _
          | ok done =>
              obtain ⟨hanswer, hends⟩ := sameEnd_answerCall (hunaware runner hroom) c huv
              have hleft := sameEnd_leave hreliable hannounced
                (hu.trans (extends_answerCall hreliable (hruns runner hroom) c))
                (hv.trans (extends_answerCall hreliable (hruns runner hroom) c)) hends
                (answerCall setting runner c v).1.exit (answerCall setting runner c v).1.output
                (answerCall setting runner c v).1.nrgLeft
              dsimp only
              rw [hanswer]
              exact ⟨hleft.1, hleft.2.note _ _⟩

theorem sameEnd_callWith (kind : CallKind) (caller : Identity) (target : Address) (input : Bytes)
    (nrg : Budget) (value : Amount) (h : Abreast setting past s t) :
    SameEnd setting past (callWith setting room kind caller target input nrg value s)
      (callWith setting room kind caller target input nrg value t) := by
  unfold callWith
  rw [h.isStatic]
  split
  · exact ⟨rfl, h⟩
  · exact sameEnd_carryOut hreliable hruns hunaware _ h

/-- A creation whose nonce is claimed, in two runs that took their checkpoints in `s` and `t`. -/
theorem sameEnd_createAt {runner : FrameRunner} (hroom : room = some runner)
    (h : Abreast setting past s t) (hu : Extends s.checkpoint.2 u) (hv : Extends t.checkpoint.2 v)
    (huv : Abreast setting past u v) (creator address : Address) (init : Bytes) (nrg : Budget)
    (value : Amount) :
    SameEnd setting past (createAt setting runner s.checkpoint.1 creator address init nrg value u)
      (createAt setting runner t.checkpoint.1 creator address init nrg value v) := by
  unfold createAt
  rw [huv.isTaken]
  split
  · have hcollided : Ends u _ _ := .collided u address
    have hcollided' : Ends v _ _ := .collided v address
    exact sameEnd_leave hreliable h (hu.trans hcollided.toExtends) (hv.trans hcollided'.toExtends)
      ((huv.note _ _).latch _) _ _ _
  · have hpaid := huv.transfer ⟨creator, address, value⟩
    cases hs : u.transfer ⟨creator, address, value⟩ with
    | mk result p =>
    cases ht : v.transfer ⟨creator, address, value⟩ with
    | mk result' q =>
        rw [hs, ht] at hpaid
        obtain ⟨hresult, hpq⟩ := hpaid
        cases hresult
        have hp := hu.trans (.transfer hs)
        have hq := hv.trans (.transfer ht)
        cases result with
        | error failure => exact sameEnd_leave hreliable h hp hq hpq _ _ _
        | ok done =>
            dsimp only
            rw [huv.depth]
            generalize initFrame creator address value nrg (v.tx.depth + 1) = frame
            obtain ⟨hrun, hends⟩ := sameEnd_enter (hunaware runner hroom) init frame hpq
            rw [hrun]
            obtain ⟨hfinal, hdeposited⟩ := hends.deposit address (enter runner init frame q).1
            have hp' := (hp.trans (extends_enter hreliable (hruns runner hroom) init frame)).trans
              (extends_deposit setting address (enter runner init frame q).1)
            have hq' := (hq.trans (extends_enter hreliable (hruns runner hroom) init frame)).trans
              (extends_deposit setting address (enter runner init frame q).1)
            rw [hfinal]
            have hleft := sameEnd_leave hreliable h hp' hq' hdeposited
              (deposit setting address (enter runner init frame q).1
                (enter runner init frame q).2).1.exit
              (deposit setting address (enter runner init frame q).1
                (enter runner init frame q).2).1.output
              (deposit setting address (enter runner init frame q).1
                (enter runner init frame q).2).1.nrgLeft
            exact ⟨hleft.1, hleft.2.note _ _⟩

end Room

/-- How two runs claim a nonce: in neither, or in both, with checkpoints that were taken in states
which are abreast. -/
inductive ClaimAlike (setting : Setting) (past : Past) :
    Except Halt Checkpoint × Executor → Except Halt Checkpoint × Executor → Prop
  | refused {s t : Executor} (halt : Halt) (h : Abreast setting past s t) :
      ClaimAlike setting past (.error halt, s) (.error halt, t)
  | claimed {s t u v : Executor} (guarded : Abreast setting past s t)
      (hu : Extends s.checkpoint.2 u) (hv : Extends t.checkpoint.2 v)
      (h : Abreast setting past u v) :
      ClaimAlike setting past (.ok s.checkpoint.1, u) (.ok t.checkpoint.1, v)

theorem claimAlike_claimNonce (hreliable : Reliable setting) (creator : Address)
    (h : Abreast setting past s t) :
    ClaimAlike setting past (claimNonce setting creator s) (claimNonce setting creator t) := by
  unfold claimNonce
  split
  · rcases h.incNonce creator with ⟨halt, hs, ht⟩ | ⟨u, v, hs, ht, huv⟩
    · rw [hs, ht]
      exact .refused halt (h.note _ _)
    · rw [hs, ht]
      exact .claimed huv (.refl _) (.refl _) huv.checkpoint
  · dsimp only
    rcases h.checkpoint.incNonce creator with ⟨halt, hs, ht⟩ | ⟨u, v, hs, ht, huv⟩
    · rw [hs, ht]
      exact .refused halt (abreast_givenUp hreliable h _ _)
    · rw [hs, ht]
      exact .claimed h (.incNonce hs) (.incNonce ht) huv

section Room

variable {room : Option FrameRunner} {recorder : FrameRecorder} (hreliable : Reliable setting)
  (hruns : ∀ runner, room = some runner → RunsAs setting runner recorder)
  (hunaware : ∀ runner, room = some runner → Unaware setting past runner)

include hreliable hruns hunaware

theorem sameEnd_createWith (caller : Identity) (scheme : AddressScheme) (init : Bytes)
    (nrg : Budget) (value : Amount) (h : Abreast setting past s t) :
    SameEnd setting past (createWith setting room caller scheme init nrg value s)
      (createWith setting room caller scheme init nrg value t) := by
  unfold createWith
  rw [h.isStatic]
  split
  · exact ⟨rfl, h⟩
  · dsimp only
    rw [h.preflight]
    cases hpre : t.preflight room caller.address value with
    | error failure => exact ⟨rfl, h.note _ _⟩
    | ok runner =>
        obtain ⟨-, hroom⟩ := fatal_of_preflight hpre
        dsimp only
        rw [h.newAddress]
        generalize t.newAddress scheme = address
        generalize Entry.event (.create caller.address address scheme value init nrg.limit) = event
        have hclaims := claimAlike_claimNonce hreliable caller.address (h.note event event)
        generalize claimNonce setting caller.address (s.note event) = claim at hclaims ⊢
        generalize claimNonce setting caller.address (t.note event) = claim' at hclaims ⊢
        cases hclaims with
        | refused halt h => exact ⟨rfl, h⟩
        | claimed hguarded hu hv huv =>
            obtain ⟨houtcome, hends⟩ := sameEnd_createAt hreliable hruns hunaware hroom hguarded hu
              hv huv caller.address address init nrg value
            dsimp only
            rw [houtcome]
            exact ⟨rfl, hends⟩

/-! ### Requests -/

/-- **No request tells states apart that are abreast**, but one for the logs or the steps. -/
theorem abreast_answer (r : Request) (h : Abreast setting past s t) :
    (answer setting room r s).1 = r.behind past (answer setting room r t).1 ∧
      Abreast setting past (answer setting room r s).2 (answer setting room r t).2 := by
  cases r with
  | balance a => exact ⟨congrFun h.accounts.balance a, h⟩
  | nonce a => exact ⟨congrFun h.accounts.nonce a, h⟩
  | code a => exact ⟨congrFun h.accounts.code a, h⟩
  | codeHash a => exact ⟨congrFun (congrArg AccountView.codeHash h.accounts.shown) a, h⟩
  | storage a key =>
      exact ⟨congrFun (congrFun (congrArg AccountView.storage h.accounts.shown) a) key, h⟩
  | present a => exact ⟨congrFun (congrArg AccountView.present h.accounts.shown) a, h⟩
  | facts => exact ⟨(congrArg TxContext.facts h.tx :), h⟩
  | blockHash height => exact ⟨(congrArg (TxContext.blockHash · height) h.tx :), h⟩
  | depth => exact ⟨h.depth, h⟩
  | logs => exact ⟨congrArg TxContext.logs h.tx, h⟩
  | stepLogs => exact ⟨congrArg TxContext.stepLogs h.tx, h⟩
  | isStatic => exact ⟨h.isStatic, h⟩
  | setStorage a key value =>
      have hmode := h.isStatic
      dsimp only [answer]
      by_cases hstatic : s.isStatic = true
      · rw [if_pos hstatic, if_pos (hmode ▸ hstatic)]
        exact ⟨rfl, h⟩
      · rw [if_neg hstatic, if_neg (hmode ▸ hstatic)]
        exact ⟨rfl, h.accounts.setStorage a key value, h.tx, h.isStatic, h.fatal⟩
  | log entry =>
      have hmode := h.isStatic
      dsimp only [answer]
      by_cases hstatic : s.isStatic = true
      · rw [if_pos hstatic, if_pos (hmode ▸ hstatic)]
        exact ⟨rfl, h⟩
      · rw [if_neg hstatic, if_neg (hmode ▸ hstatic)]
        refine ⟨rfl, h.accounts, ?_, h.isStatic, h.fatal⟩
        exact (congrArg (TxContext.addLog · entry) h.tx).trans (TxContext.addLog_after ..)
  | stepLog entry =>
      refine ⟨rfl, h.accounts, ?_, h.isStatic, h.fatal⟩
      exact (congrArg (TxContext.addStepLog · entry) h.tx).trans (TxContext.addStepLog_after ..)
  | call kind caller target input nrg value =>
      exact sameEnd_callWith hreliable hruns hunaware kind caller target input nrg value h
  | create caller init nrg value =>
      exact sameEnd_createWith hreliable hruns hunaware caller _ init nrg value h
  | note label finding => exact ⟨rfl, h.note _ _⟩

theorem sameEnd_run {α : Type} {p : Program α} (hp : p.Overlooks past)
    (h : Abreast setting past s t) :
    SameEnd setting past (p.run (answer setting room) s) (p.run (answer setting room) t) := by
  -- Answers that differ by the past alone lead to the same rest of the program.
  induction p generalizing s t with
  | done value => exact ⟨rfl, h⟩
  | ask r next ih =>
      obtain ⟨hanswer, hafter⟩ := abreast_answer hreliable hruns hunaware r h
      obtain ⟨hoverlooked, hrest⟩ := hp (answer setting room r t).1
      rw [Program.run_ask, Program.run_ask, hanswer, hoverlooked]
      exact ih _ hrest hafter

end Room

/-- **Code that overlooks the past cannot tell states apart that are abreast**, whatever room there
is for its frame. -/
theorem unaware_runner (hreliable : Reliable setting)
    (hoverlooks : ∀ code frame, (setting.interpreter code frame).Overlooks past) (room : Nat) :
    ∀ runner, Executor.runner setting room = some runner → Unaware setting past runner := by
  -- A frame is run with the runner of one frame less, which there is none of in the end.
  induction room with
  | zero =>
      intro runner h
      cases h
  | succ room ih =>
      intro runner h code frame s t habreast
      cases h
      exact sameEnd_run hreliable (runsAs_recorder setting room) ih (hoverlooks code frame)
        (habreast.note _ _)

end Executor

end MessageCalls
