import Mathlib.Control.Monad.Basic
import MessageCalls.Proofs.Executor.Abreast
import MessageCalls.Proofs.Executor.Housing
import MessageCalls.Proofs.World.Merging
/-!
# MessageCalls.Proofs.Executor.Batching

**Batching is invisible** (`Executor.batches_oneByOne`). Transactions may be run one after the other
in one machine, whose pending writes are applied once in the end, or each in a machine of its own,
over accounts to which all earlier writes have been applied. Outcomes, logs and stored accounts are
the same.

Two things make the difference invisible: a transaction in the one machine is abreast of the same
transaction in the other (`Executor.Abreast`), and change sets may be applied one after the other or
merged first (`World.apply_apply`). The two machines would disagree about an account of which only
slots are pending, which comes into existence when they are applied; so slots must only be written
of accounts that exist (`Executor.Housing`), and code must not go by the logs, where the one machine
still has those of the transactions before.
-/

namespace MessageCalls

/-! ### Computations that ignore logs -/

/-- The request asks for logs or for recorded steps. -/
def Request.readsLogs : Request → Bool
  | .logs | .stepLogs => true
  | _ => false

/-- The computation never goes by the logs or the recorded steps. -/
def Program.IgnoresLogs {α : Type} : Program α → Prop
  | .done _ => True
  | .ask r next =>
    (r.readsLogs = true → ∀ answer answer', next answer = next answer') ∧
      ∀ answer, (next answer).IgnoresLogs

theorem Program.IgnoresLogs.overlooks {α : Type} {p : Program α} (h : p.IgnoresLogs)
    (past : Past) : p.Overlooks past := by
  induction p with
  | done value => trivial
  | ask r next ih =>
      obtain ⟨hblind, hrest⟩ := h
      refine fun answer => ⟨?_, ih answer (hrest answer)⟩
      cases r with
      | logs => exact hblind rfl _ _
      | stepLogs => exact hblind rfl _ _
      | _ => rfl

/-! ### Transactions -/

/-- A transaction. -/
inductive Transaction
  | call (caller target : Address) (value : Amount) (input : Bytes) (nrg : Budget)
  | create (caller : Address) (value : Amount) (init : Bytes) (nrg : Budget)

deriving instance DecidableEq for CallOutcome, CreateOutcome

/-- What a client is told of a transaction. -/
inductive Receipt
  | called (outcome : CallOutcome)
  | created (outcome : CreateOutcome)
  deriving DecidableEq

/-- What some transactions come to. -/
structure Tally where
  receipts : List Receipt
  /-- The logs that were committed. -/
  logs : List Log
  /-- The accounts that are stored in the end. -/
  world : World

namespace Executor

/-- A transaction is run. -/
def transact (setting : Setting) (s : Executor) : Transaction → Receipt × Executor
  | .call caller target value input nrg =>
    let (outcome, s) := transactCall setting caller target value input nrg s
    (.called outcome, s)
  | .create caller value init nrg =>
    let (outcome, s) := transactCreate setting caller value init nrg s
    (.created outcome, s)

/-- The moments of a transaction. -/
def transactionChronicle (setting : Setting) (s : Executor) : Transaction → List Moment
  | .call caller target value input nrg =>
    callTransactionChronicle setting caller target value input nrg s
  | .create caller value init nrg => createTransactionChronicle setting caller value init nrg s

/-- Some transactions are run one after the other in one machine. -/
def batch (setting : Setting) : List Transaction → Executor → List Receipt × Executor
  | [], s => ([], s)
  | tx :: later, s =>
    let (receipt, s) := transact setting s tx
    let (receipts, s) := batch setting later s
    (receipt :: receipts, s)

/-- The moments of some transactions that are run in one machine. -/
def batchChronicle (setting : Setting) : List Transaction → Executor → List Moment
  | [], _ => []
  | tx :: later, s =>
    transactionChronicle setting s tx ++ batchChronicle setting later (transact setting s tx).2

/-- A machine that has done nothing yet, over stored accounts. -/
def fresh (facts : ChainFacts) (ancestor : UInt64 → Word) (w : World) : Executor where
  accounts := { stored := w.view }
  tx := { facts, ancestor }

/-- What some transactions come to in one machine, whose writes are applied in the end. -/
def together (setting : Setting) (facts : ChainFacts) (ancestor : UInt64 → Word)
    (txs : List Transaction) (w : World) : Tally :=
  let (receipts, s) := batch setting txs (fresh facts ancestor w)
  ⟨receipts, s.tx.logs, w.apply s.finish.1⟩

/-- What they come to if each is run in a machine of its own, over accounts to which the writes of
those before have been applied. -/
def oneByOne (setting : Setting) (facts : ChainFacts) (ancestor : UInt64 → Word) :
    List Transaction → World → Tally
  | [], w => ⟨[], [], w⟩
  | tx :: later, w =>
    let (receipt, s) := transact setting (fresh facts ancestor w) tx
    let rest := oneByOne setting facts ancestor later (w.apply s.finish.1)
    ⟨receipt :: rest.receipts, s.tx.logs ++ rest.logs, rest.world⟩

/-! ### One transaction in two machines -/

variable {setting : Setting} {s t u v : Executor} {w : World} {facts : ChainFacts}
  {ancestor : UInt64 → Word} {moments later : List Moment}

/-- A machine over stored accounts that has run some transactions, and has no snapshot open. -/
structure Stands (setting : Setting) (facts : ChainFacts) (ancestor : UInt64 → Word) (w : World)
    (s : Executor) : Prop where
  stored : s.accounts.stored = w.view
  layers : s.accounts.layers = []
  facts : s.tx.facts = facts
  ancestor : s.tx.ancestor = ancestor
  housed : Housed setting s

/-- What is behind a machine that has run some transactions. -/
def past (s : Executor) : Past := ⟨s.tx.logs, s.tx.stepLogs⟩

theorem finish_of_layers_eq_nil {o : Overlay} (h : o.layers = []) : o.finish = o.current := by
  rw [Overlay.finish, h]
  rfl

/-- Nothing is pending, so the stored accounts are read. -/
theorem view_fresh (v : AccountView) : ({ stored := v } : Overlay).view = v := by
  have hfind : ∀ {α : Type} (f : ChangeSet → Option α), f {} = none →
      ({ stored := v } : Overlay).find? f = none := by
    intro α f hf
    rw [Overlay.find?_eq, hf]
    rfl
  refine AccountView.ext (fun a => ?_) (fun a => ?_) (fun a => ?_) (fun a => ?_) (fun a k => ?_)
    fun a => ?_
  · exact congrArg (Option.getD · _) (hfind (·.balances[a]?) (by simp))
  · exact congrArg (Option.getD · _) (hfind (·.nonces[a]?) (by simp))
  · exact congrArg (Option.getD · _) (hfind (·.codes[a]?) (by simp))
  · show ({ stored := v } : Overlay).codeHash a = v.codeHash a
    rw [Overlay.codeHash, hfind (·.codes[a]?) (by simp)]
  · exact congrArg (Option.getD · _) (hfind (·.storages[Slot.mk a k]?) (by simp))
  · show ({ stored := v } : Overlay).present a = v.present a
    simp [Overlay.present, ChangeSet.touches]

/-- **Pending writes are shown to code as if they had been applied**, if slots are pending only of
accounts that exist. -/
theorem Stands.shown (h : Stands setting facts ancestor w s) :
    s.accounts.view.shown setting.natives =
      (fresh facts ancestor (w.apply s.accounts.current)).accounts.view.shown setting.natives := by
  have hfinish := finish_of_layers_eq_nil h.layers
  have hread : (fresh facts ancestor (w.apply s.accounts.current)).accounts.view =
      (w.apply s.accounts.finish).view := by
    rw [hfinish]
    exact view_fresh _
  rw [hread]
  refine AccountView.ext (fun a => ?_) (fun a => ?_) (fun a => ?_) (fun a => ?_) (fun a k => ?_)
    fun a => ?_
  · exact (World.balance_apply_finish h.stored a).symm
  · exact (World.nonce_apply_finish h.stored a).symm
  · exact (World.code_apply_finish h.stored a).symm
  · exact (World.codeHash_apply_finish h.stored a).symm
  · exact (World.storage_apply_finish h.stored a k).symm
  · show (s.accounts.present a || setting.natives.isNative a) =
      ((w.apply s.accounts.finish).view.present a || setting.natives.isNative a)
    rw [Bool.eq_iff_iff, Bool.or_eq_true, Bool.or_eq_true, World.present_apply_finish h.stored]
    have hhoused := h.housed a
    grind

theorem Stands.abreast (h : Stands setting facts ancestor w s) (r : Record) :
    Abreast setting s.past (s.prepared r).checkpoint.2
      ((fresh facts ancestor (w.apply s.accounts.current)).prepared r).checkpoint.2 := by
  have htx : s.tx.setDepth 0 =
      ⟨facts, ancestor, 0, s.tx.logs ++ [], s.tx.stepLogs ++ []⟩ := by
    rw [← h.facts, ← h.ancestor, List.append_nil, List.append_nil]
    rfl
  exact .checkpoint_of_shown h.shown htx rfl rfl

/-- How a machine `s` that has run some transactions, and another one that runs the next transaction
over what they have written, stand once that one is over, in `s'` and `t'`. -/
structure Advances (setting : Setting) (facts : ChainFacts) (ancestor : UInt64 → Word) (w : World)
    (s s' t' : Executor) : Prop where
  stands : Stands setting facts ancestor w s'
  logs : s'.tx.logs = s.tx.logs ++ t'.tx.logs
  current : s'.accounts.current = s.accounts.current.merge t'.accounts.current
  layers : t'.accounts.layers = []

/-- The block and the transaction are still the same. -/
structure SameBlock (s t : Executor) : Prop where
  facts : t.tx.facts = s.tx.facts
  ancestor : t.tx.ancestor = s.tx.ancestor

theorem SameBlock.trans (h : SameBlock s t) (h' : SameBlock t u) : SameBlock s u :=
  ⟨h'.facts.trans h.facts, h'.ancestor.trans h.ancestor⟩

theorem SameBlock.of_tx_eq (h : t.tx = s.tx) : SameBlock s t :=
  ⟨congrArg TxContext.facts h, congrArg TxContext.ancestor h⟩

theorem sameBlock_settleOrLatch (setting : Setting) (s : Executor) (point : Checkpoint)
    (closing : Overlay.Closing) : SameBlock s (s.settleOrLatch setting point closing) := by
  have htx := tx_settleOrLatch setting s point closing
  cases closing with
  | commit => exact .of_tx_eq htx
  | restore => exact ⟨(congrArg TxContext.facts htx :), (congrArg TxContext.ancestor htx :)⟩

theorem sameBlock_leave (setting : Setting) (s : Executor) (point : Checkpoint) (exit : Exit)
    (output : Bytes) (nrgLeft : Nrg) : SameBlock s (s.leave setting point exit output nrgLeft).2 := by
  have htx := tx_leave setting s point exit output nrgLeft
  split at htx
  · exact .of_tx_eq htx
  · exact ⟨(congrArg TxContext.facts htx :), (congrArg TxContext.ancestor htx :)⟩

/-- Whatever is done, the block and the transaction stay the same. -/
theorem Activity.sameBlock {frames : List Frame} (h : Activity setting frames s moments t) :
    SameBlock s t := by
  induction h with
  | andThen first second ih ih' => exact ih.trans ih'
  | transfer h hpaid => exact .of_tx_eq (transfer_fields hpaid).1
  | nonce h hclaimed => exact .of_tx_eq (incNonce_fields hclaimed).1
  | entered hfatal hcode hstatic hdepth body ih => exact ⟨ih.facts, ih.ancestor⟩
  | @guarded frames s t u moments exit hfatal opening body ends output nrgLeft ih =>
      have hleft : SameBlock u (u.leave setting s.checkpoint.1 exit output nrgLeft).2 :=
        sameBlock_leave setting u _ exit output nrgLeft
      have hworked : SameBlock s t := ⟨ih.facts, ih.ancestor⟩
      exact (hworked.trans (.of_tx_eq ends.tx_eq)).trans hleft
  | @givenUp frames s entry h =>
      have hsettled := sameBlock_settleOrLatch setting
        (s.checkpoint.2.note entry) s.checkpoint.1 .restore
      exact ⟨hsettled.facts, hsettled.ancestor⟩
  | _ => exact ⟨rfl, rfl⟩

/-- **A transaction is concluded alike in both machines.** -/
theorem advances_conclude (hreliable : Reliable setting) (h : Stands setting facts ancestor w s)
    (r : Record) (hu : Course setting [] (s.prepared r).checkpoint.2 moments u)
    (hv : Course setting []
      ((fresh facts ancestor (w.apply s.accounts.current)).prepared r).checkpoint.2 later v)
    (huv : Abreast setting s.past u v)
    (hstores : ∀ m ∈ moments, m.storesAtPresent setting = true) :
    Advances setting facts ancestor w s (conclude setting (s.prepared r).checkpoint.1 u)
      (conclude setting
        ((fresh facts ancestor (w.apply s.accounts.current)).prepared r).checkpoint.1 v) := by
  have hbegun := h.abreast r
  have hprepared : Housed setting (s.prepared r) := h.housed
  have hhoused := hu.housed hreliable hprepared.checkpoint hstores
  have hblock := hu.activity.sameBlock.trans
    (sameBlock_settleOrLatch setting u (s.prepared r).checkpoint.1 u.concluding)
  have hextends := hu.activity.toExtends hreliable
  have hextends' := hv.activity.toExtends hreliable
  have hsettles := settleOrLatch_checkpoint hreliable hextends u.concluding
  have hsettles' := settleOrLatch_checkpoint hreliable hextends' v.concluding
  have hclosing : u.concluding = v.concluding := by rw [concluding, concluding, huv.fatal]
  refine ⟨⟨?_, ?_, ?_, ?_, ?_⟩, ?_, ?_, hsettles'.extended.layers⟩
  · exact hsettles.extended.stored.trans h.stored
  · exact hsettles.extended.layers.trans h.layers
  · exact hblock.facts.trans h.facts
  · exact hblock.ancestor.trans h.ancestor
  · exact hprepared.settleOrLatch hreliable hhoused hextends _
  · show (u.settleOrLatch setting (s.prepared r).checkpoint.1 u.concluding).tx.logs =
      s.tx.logs ++ (v.settleOrLatch setting _ v.concluding).tx.logs
    rw [tx_settleOrLatch, tx_settleOrLatch, hclosing]
    cases v.concluding with
    | commit => exact congrArg TxContext.logs huv.tx
    | restore => exact congrArg TxContext.logs (hbegun.truncateLogs huv.tx)
  · show (u.settleOrLatch setting (s.prepared r).checkpoint.1 u.concluding).accounts.current =
      s.accounts.current.merge (v.settleOrLatch setting _ v.concluding).accounts.current
    rw [accounts_settleOrLatch hreliable hextends, accounts_settleOrLatch hreliable hextends',
      current_closeInnermost hextends, current_closeInnermost hextends', hclosing]
    cases v.concluding with
    | commit =>
        show s.accounts.current.merge u.accounts.current =
          s.accounts.current.merge (ChangeSet.empty.merge v.accounts.current)
        rw [huv.accounts.current, ChangeSet.empty_merge]
    | restore => exact (ChangeSet.merge_empty _).symm

/-- **A transaction is the same in both machines.** -/
theorem transact_apart (hreliable : Reliable setting)
    (hignores : ∀ code frame, (setting.interpreter code frame).IgnoresLogs)
    (h : Stands setting facts ancestor w s) (tx : Transaction)
    (hstores : ∀ m ∈ transactionChronicle setting s tx, m.storesAtPresent setting = true) :
    (transact setting s tx).1 =
        (transact setting (fresh facts ancestor (w.apply s.accounts.current)) tx).1 ∧
      Advances setting facts ancestor w s (transact setting s tx).2
        (transact setting (fresh facts ancestor (w.apply s.accounts.current)) tx).2 := by
  have hunaware := unaware_runner hreliable fun code frame => (hignores code frame).overlooks s.past
  let apart := fresh facts ancestor (w.apply s.accounts.current)
  cases tx with
  | call caller target value input nrg =>
      obtain ⟨hinner, -⟩ := List.forall_mem_append.mp hstores
      let begun := fun s : Executor =>
        (s.prepared (.transactCall caller target value nrg.limit)).checkpoint.2
      obtain ⟨houtcome, hends⟩ := sameEnd_callWith hreliable (runsAs_recorder setting _)
        (hunaware ((begun s).room setting)) .call (.external caller) target input nrg value
        (h.abreast _)
      have hcalled := fun s => called setting ((begun s).room setting) [] (begun s) .call
        (.external caller) target input nrg value
      exact ⟨congrArg Receipt.called houtcome,
        advances_conclude hreliable h _ (hcalled s).course (hcalled apart).course hends hinner⟩
  | create caller value init nrg =>
      obtain ⟨hinner, -⟩ := List.forall_mem_append.mp hstores
      let begun := fun s : Executor =>
        (s.prepared (.transactCreate caller value nrg.limit)).checkpoint.2
      obtain ⟨houtcome, hends⟩ := sameEnd_createWith hreliable (runsAs_recorder setting _)
        (hunaware ((begun s).room setting)) (.external caller) (.legacy caller) init nrg value
        (h.abreast _)
      have hcreated := fun s => created setting ((begun s).room setting) [] (begun s)
        (.external caller) (.legacy caller) init nrg value
      exact ⟨congrArg Receipt.created houtcome,
        advances_conclude hreliable h _ (hcreated s).course (hcreated apart).course hends hinner⟩

/-! ### Lists of transactions -/

/-- **A machine that has run some transactions goes on like machines that run one each.** -/
theorem batch_apart (hreliable : Reliable setting)
    (hignores : ∀ code frame, (setting.interpreter code frame).IgnoresLogs)
    (txs : List Transaction) (h : Stands setting facts ancestor w s)
    (hstores : ∀ m ∈ batchChronicle setting txs s, m.storesAtPresent setting = true) :
    (batch setting txs s).1 =
        (oneByOne setting facts ancestor txs (w.apply s.accounts.current)).receipts ∧
      (batch setting txs s).2.tx.logs = s.tx.logs ++
        (oneByOne setting facts ancestor txs (w.apply s.accounts.current)).logs ∧
      w.apply (batch setting txs s).2.finish.1 =
        (oneByOne setting facts ancestor txs (w.apply s.accounts.current)).world := by
  induction txs generalizing s with
  | nil =>
      refine ⟨rfl, (List.append_nil _).symm, ?_⟩
      show w.apply s.finish.1 = w.apply s.accounts.current
      rw [finish_fst, finish_of_layers_eq_nil h.layers]
  | cons tx later ih =>
      obtain ⟨hfirst, hlater⟩ := List.forall_mem_append.mp hstores
      obtain ⟨hreceipt, hadvances⟩ := transact_apart hreliable hignores h tx hfirst
      obtain ⟨hreceipts, hlogs, hworld⟩ := ih hadvances.stands hlater
      -- What the other machine hands over turns its accounts into those the next one starts with.
      have hnext : (w.apply s.accounts.current).apply (transact setting
          (fresh facts ancestor (w.apply s.accounts.current)) tx).2.finish.1 =
          w.apply (transact setting s tx).2.accounts.current := by
        rw [World.apply_apply, hadvances.current, finish_fst,
          finish_of_layers_eq_nil hadvances.layers]
      rw [← hnext] at hreceipts hlogs hworld
      refine ⟨congrArg₂ List.cons hreceipt hreceipts, ?_, hworld⟩
      rw [hadvances.logs, List.append_assoc] at hlogs
      exact hlogs

theorem stands_fresh (setting : Setting) (facts : ChainFacts) (ancestor : UInt64 → Word)
    (w : World) : Stands setting facts ancestor w (fresh facts ancestor w) := by
  refine ⟨rfl, rfl, rfl, rfl, fun a hslot => ?_⟩
  obtain ⟨k, hslot⟩ := hslot
  rw [Overlay.find?_eq] at hslot
  simp [fresh] at hslot

/-- **Batching is invisible.** Transactions come to the same in one machine, whose writes are
applied in the end, as one by one, if their code does not go by the logs and slots are only written
of accounts that exist. -/
theorem batches_oneByOne (setting : Setting) (hreliable : Reliable setting)
    (hignores : ∀ code frame, (setting.interpreter code frame).IgnoresLogs) (facts : ChainFacts)
    (ancestor : UInt64 → Word) (w : World) (txs : List Transaction)
    (hstores : ∀ m ∈ batchChronicle setting txs (fresh facts ancestor w),
      m.storesAtPresent setting = true) :
    together setting facts ancestor txs w = oneByOne setting facts ancestor txs w := by
  obtain ⟨hreceipts, hlogs, hworld⟩ :=
    batch_apart hreliable hignores txs (stands_fresh setting facts ancestor w) hstores
  have hnothing : w.apply (fresh facts ancestor w).accounts.current = w := World.apply_empty w
  rw [hnothing] at hreceipts hlogs hworld
  show Tally.mk _ _ _ = _
  rw [hreceipts, hlogs, hworld]
  rfl

/-- A contract counts its calls, logs the count and pays another one, which writes and reverts; it
is called twice. Then value is sent to an account that does not exist. -/
theorem batches_counting_calls :
    let interpreter : Interpreter := fun code frame =>
      if code = [1] then do
        let count ← Program.request (.storage frame.identity.address 0)
        let _ ← Program.request (.setStorage frame.identity.address 0 (count + 1))
        let _ ← Program.request (.log ⟨frame.identity.address, [count], []⟩)
        let _ ← Program.request (.call .call frame.identity 6 [] frame.nrg 3)
        pure (.returned [UInt8.ofNat count.toNat] 5)
      else do
        let _ ← Program.request (.setStorage frame.identity.address 0 8)
        pure (.reverted [] 1)
    let setting := homesteadWith interpreter
    let w : World := ⟨(((∅ : Std.ExtTreeMap Address Account).insert 1 { balance := 100 }).insert 5
      { code := [1] }).insert 6 { code := [2] }⟩
    let txs : List Transaction :=
      [.call 1 5 20 [] ⟨90, 1⟩, .call 1 5 4 [] ⟨90, 1⟩, .call 1 7 30 [] ⟨90, 1⟩]
    let tally := oneByOne setting {} (fun _ => 0) txs w
    Reliable setting ∧ (∀ code frame, (setting.interpreter code frame).IgnoresLogs) ∧
      (∀ m ∈ batchChronicle setting txs (fresh {} (fun _ => 0) w),
        m.storesAtPresent setting = true) ∧
      tally.receipts =
        [.called ⟨.ok [0], 5⟩, .called ⟨.ok [1], 5⟩, .called ⟨.ok [], 90⟩] ∧
      tally.logs = [⟨5, [0], []⟩, ⟨5, [1], []⟩] ∧
      [1, 5, 6, 7].map tally.world.view.balance = [46, 24, 0, 30] ∧
      tally.world.view.storage 5 0 = 2 ∧ tally.world.view.storage 6 0 = 0 ∧
      together setting {} (fun _ => 0) txs w = tally := by
  intro interpreter setting w txs tally
  have hreliable : Reliable setting := fun _ _ => rfl
  have hignores : ∀ code frame, (setting.interpreter code frame).IgnoresLogs := by
    intro code frame
    show Program.IgnoresLogs (ite _ _ _)
    split
    · exact ⟨nofun, fun _ => ⟨nofun, fun _ => ⟨nofun, fun _ => ⟨nofun, fun _ => trivial⟩⟩⟩⟩
    · exact ⟨nofun, fun _ => trivial⟩
  have hstores : ∀ m ∈ batchChronicle setting txs (fresh {} (fun _ => 0) w),
      m.storesAtPresent setting = true := List.all_eq_true.mp (by decide +kernel)
  exact ⟨hreliable, hignores, hstores, by decide +kernel, by decide +kernel,
    by decide +kernel, by decide +kernel, by decide +kernel,
    batches_oneByOne setting hreliable hignores {} (fun _ => 0) w txs hstores⟩

end Executor

end MessageCalls
