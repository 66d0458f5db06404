import MessageCalls.Proofs.Executor.StoredCode
/-!
# MessageCalls.Proofs.Executor.Deployment

**Code that a creation deploys is overwritten by no operation** as long as the creation is not
undone (`Executor.deployments_last`), with one exception: a creation that stores its code late
overwrites what a creation inside it has deployed at the same address
(`Executor.overwritten_from_outside`).

The first part is about one operation and every moment in it, the second about what a creation
returns, and the third about everything that a client may do afterwards, as long as it restores no
snapshot taken before and stores no code itself (`Executor.Aftermath`).
-/

namespace MessageCalls.Executor

variable {setting : Setting} {frames : List Frame} {s t u : Executor} {moments : List Moment}
  {a : Address} {code : Bytes}

/-! ### Operations -/

/-- What an operation does to the codes of accounts. -/
structure Deploys (op : Operation) (s : Executor) (moments : List Moment) (t : Executor) :
    Prop where
  /-- Whenever code is stored, the address has been checked. -/
  checked : ∀ before m later a code, moments = before ++ m :: later → m.act = .deposited a code →
    CheckedFree a before m.state
  /-- The code stays while it is undisturbed, and if the operation is no dry run also after it. -/
  lasts : ∀ before m later a code, moments = before ++ m :: later → m.act = .deposited a code →
    code ≠ [] → Lasts a code later (op.isDryRun = false → t.accounts.code a = code)
  /-- Code found before the operation stays throughout. -/
  found : ∀ a, s.accounts.code a ≠ [] →
    (∀ m ∈ moments, m.state.accounts.code a = s.accounts.code a) ∧
      t.accounts.code a = s.accounts.code a

/-- A transaction that is concluded has the codes that its call or creation has led to. -/
theorem code_conclude (hreliable : Reliable setting) (h : Extends s.checkpoint.2 t)
    (aborted : t.fatal.isSome = true → Spared s.checkpoint.2 t) :
    (conclude setting s.checkpoint.1 t).accounts.code = t.accounts.code := by
  cases hfatal : t.fatal.isSome with
  | true =>
      have hsettles := settleOrLatch_checkpoint hreliable h t.concluding
      have hrestored := hsettles.restored (by rw [concluding, if_pos hfatal])
      rw [(aborted hfatal).code, (spared_checkpoint s).code]
      exact hrestored.spared.code
  | false =>
      rw [conclude, hfatal]
      exact congrArg AccountView.code (view_settleOrLatch_commit setting t _)

theorem TransactedAs.lasting (hreliable : Reliable setting) (h : TransactedAs setting s moments t)
    {after : Address → Bytes → Prop} {later : List Moment} (hlater : Lasting after later)
    (hend : ∀ a code, t.accounts.code a = code → code ≠ [] → Lasts a code later (after a code)) :
    Lasting after (moments ++ later) := by
  obtain ⟨r, hremark, body, aborted⟩ := h
  rename_i moments t
  rw [code_conclude hreliable (body.activity.toExtends hreliable) aborted] at hend
  rw [List.append_assoc]
  -- The settling of the transaction stands between its course and what comes later.
  refine body.lasting hreliable ⟨fun a code hact => (by cases hact), hlater⟩ ?_
  exact fun a code hcode hsome => .cons rfl hcode fun _ => hend a code hcode hsome

theorem TransactedAs.checked (hreliable : Reliable setting)
    (h : TransactedAs setting s moments t) : Checked [] moments := by
  obtain ⟨r, hremark, body, aborted⟩ := h
  exact checked_append.mpr ⟨body.checked hreliable [], fun a code hact => (by cases hact), trivial⟩

theorem TransactedAs.code_kept (hreliable : Reliable setting)
    (h : TransactedAs setting s moments t) (hcode : s.accounts.code a ≠ []) :
    (∀ m ∈ moments, m.state.accounts.code a = s.accounts.code a) ∧
      t.accounts.code a = s.accounts.code a := by
  obtain ⟨r, hremark, body, aborted⟩ := h
  rename_i moments t
  have hbegun : (s.prepared r).checkpoint.2.accounts.code a = s.accounts.code a :=
    congrFun (spared_checkpoint (s.prepared r)).code a
  obtain ⟨hmoments, hend⟩ := body.code_kept hreliable (by rwa [hbegun])
  rw [hbegun] at hmoments hend
  refine ⟨List.forall_mem_append.mpr ⟨hmoments, List.forall_mem_singleton.mpr hend⟩, ?_⟩
  rw [code_conclude hreliable (body.activity.toExtends hreliable) aborted, hend]

/-- What is checked and what lasts is known of a list of moments from each of them on. -/
theorem deploys_of_lasting {op : Operation} (hchecked : Checked [] moments)
    (hlasting : Lasting (fun a code => op.isDryRun = false → t.accounts.code a = code)
      (moments ++ []))
    (hfound : ∀ a, s.accounts.code a ≠ [] →
      (∀ m ∈ moments, m.state.accounts.code a = s.accounts.code a) ∧
        t.accounts.code a = s.accounts.code a) : Deploys op s moments t := by
  rw [List.append_nil] at hlasting
  exact ⟨fun before m later a code hsplit => hchecked.at hsplit,
    fun before m later a code hsplit => hlasting.at hsplit, hfound⟩

theorem OperatedAs.deploys (hreliable : Reliable setting) {op : Operation}
    (h : OperatedAs setting s op moments t) : Deploys op s moments t := by
  cases h with
  | course hkind hkept h =>
      refine deploys_of_lasting (h.checked hreliable []) ?_ fun a => h.code_kept hreliable
      exact h.lasting hreliable trivial fun a code hcode _ => lasts_nil fun _ => hcode
  | transaction hkept h =>
      refine deploys_of_lasting (h.checked hreliable) ?_ fun a => h.code_kept hreliable
      exact h.lasting hreliable trivial fun a code hcode _ => lasts_nil fun _ => hcode
  | @dryRun moments t hundone h r =>
      obtain ⟨r', hsettles⟩ := h.transacted.settlesAs_restore hreliable
      have hrestored := (hsettles.restored rfl).spared.code
      refine deploys_of_lasting ?_ ?_ fun a hcode => ?_
      · exact checked_append.mpr ⟨h.checked hreliable, fun a code hact => (by cases hact), trivial⟩
      · -- Nothing is promised of what a dry run stores once it is undone.
        rw [List.append_assoc]
        refine h.lasting hreliable ⟨fun a code hact => (by cases hact), trivial⟩ ?_
        intro a code hcode hsome
        refine .cons rfl hcode fun _ => lasts_nil fun hkept => ?_
        rw [hundone] at hkept
        cases hkept
      · have hbegun : s.checkpoint.2.accounts.code a = s.accounts.code a :=
          congrFun (spared_checkpoint s).code a
        obtain ⟨hmoments, hend⟩ := h.code_kept hreliable (by rwa [hbegun])
        rw [hbegun] at hmoments hend
        exact ⟨List.forall_mem_append.mpr ⟨hmoments, List.forall_mem_singleton.mpr hend⟩,
          congrFun hrestored a⟩

/-! ### What a creation returns -/

/-- A frame is left with data only if it succeeds. -/
theorem of_leave_eq_ok {point : Checkpoint} {exit : Exit} {output : Bytes} {nrgLeft : Nrg}
    (h : (u.leave setting point exit output nrgLeft).1.result = .ok code) :
    (u.finalExit exit).isSuccess = true ∧ output = code := by
  rw [leave_eq] at h
  split at h
  · cases hexit : u.finalExit exit <;> rw [hexit] at h <;> cases h <;> exact ⟨rfl, rfl⟩
  · cases h

theorem createAt_eq_ok {runner : FrameRunner} {recorder : FrameRecorder} {point : Checkpoint}
    {creator address : Address} {init : Bytes} {nrg : Budget} {value : Amount}
    (h : (createAt setting runner point creator address init nrg value s).1.result = .ok code) :
    (createAt setting runner point creator address init nrg value s).2.accounts.code address =
        code ∧
      ∃ m ∈ createAtChronicle setting runner recorder frames point creator address init nrg value s,
        m.act = .deposited address code := by
  unfold createAt at h ⊢
  unfold createAtChronicle
  by_cases htaken : s.isTaken address = true
  · rw [if_pos htaken] at h
    obtain ⟨hsuccess, -⟩ := of_leave_eq_ok h
    cases (of_isSuccess_finalExit hsuccess).2
  · rw [if_neg htaken] at h ⊢
    rw [if_neg htaken]
    dsimp only at h ⊢
    cases hpaid : s.transfer ⟨creator, address, value⟩ with
    | mk result paid =>
        cases result with
        | error failure =>
            rw [hpaid] at h
            obtain ⟨hsuccess, -⟩ := of_leave_eq_ok h
            have hexit := (of_isSuccess_finalExit hsuccess).2
            rw [Failure.isSuccess_exit] at hexit
            cases hexit
        | ok done =>
            rw [hpaid] at h
            dsimp only at h ⊢
            generalize initFrame creator address value nrg (s.tx.depth + 1) = frame at h ⊢
            generalize enter runner init frame paid = ended at h ⊢
            obtain ⟨hsuccess, houtput⟩ := of_leave_eq_ok h
            obtain ⟨hlatched, hexit⟩ := of_isSuccess_finalExit hsuccess
            rcases deposit_cases setting frames address ended.1 ended.2 with
              ⟨-, hdeposit, hfailed⟩ | ⟨-, -, hchronicle, nrgLeft, hdeposit⟩
            · rw [hdeposit] at hlatched
              exact absurd hlatched (hfailed hexit)
            · rw [hdeposit] at hsuccess houtput ⊢
              subst houtput
              refine ⟨?_, ⟨frames, ended.2, .deposited address ended.1.output⟩, ?_, rfl⟩
              · have hview := view_leave setting hsuccess point ended.1.output nrgLeft
                have hkept := congrFun (congrArg AccountView.code hview) address
                exact hkept.trans ((code_setCode ended.2 address _ address).trans (if_pos rfl))
              · refine List.mem_append_left _ (List.mem_append_right _ ?_)
                rw [hchronicle]
                exact List.mem_singleton.mpr rfl

/-- **A creation that returns an address and a code has stored that code there.** -/
theorem createWith_deployed {room : Option FrameRunner} {recorder : FrameRecorder}
    {caller : Identity} {scheme : AddressScheme} {init : Bytes} {nrg : Budget} {value : Amount}
    {outcome : CreateOutcome}
    (h : createWith setting room caller scheme init nrg value s = (outcome, t))
    (haddress : outcome.deployed? = some a) (hcode : outcome.code? = some code) :
    t.accounts.code a = code ∧
      ∃ m ∈ createChronicle setting room recorder frames caller scheme init nrg value s,
        m.act = .deposited a code := by
  have hresult : outcome.result = .ok code := by
    unfold CreateOutcome.code? at hcode
    cases hresult : outcome.result with
    | ok data =>
        rw [hresult] at hcode
        exact congrArg _ (Option.some.inj hcode)
    | error failure =>
        rw [hresult] at hcode
        cases hcode
  have hderived : outcome.address = some a := by
    unfold CreateOutcome.deployed? at haddress
    split at haddress
    · exact haddress
    · cases haddress
  unfold createWith at h
  unfold createChronicle
  by_cases hstatic : s.isStatic = true
  · rw [if_pos hstatic] at h
    cases h
    cases hresult
  · rw [if_neg hstatic] at h ⊢
    dsimp only at h ⊢
    cases hpre : s.preflight room caller.address value with
    | error failure =>
        rw [hpre] at h
        cases h
        cases hresult
    | ok runner =>
        rw [hpre] at h
        dsimp only at h ⊢
        generalize s.newAddress scheme = address at h ⊢
        generalize s.note (.event (.create caller.address address scheme value init nrg.limit)) = s₁
          at h ⊢
        cases hclaim : claimNonce setting caller.address s₁ with
        | mk claimed s₂ =>
            rw [hclaim] at h
            cases claimed with
            | error halt =>
                cases h
                cases hresult
            | ok point =>
                cases h
                obtain rfl : address = a := Option.some.inj hderived
                obtain ⟨hcode, m, hm, hact⟩ := createAt_eq_ok hresult
                exact ⟨hcode, m, List.mem_cons_of_mem _ hm, hact⟩

/-! ### What a client may do afterwards -/

/-- What a client may do from a state `s` on: whatever there is to do, except storing code itself
and restoring a snapshot that was taken before. Of the open snapshots the outermost `older` ones may
have been taken before. -/
inductive Aftermath (setting : Setting) (s : Executor) : Nat → Executor → Prop
  | start : Aftermath setting s s.accounts.openSnapshots s
  | operation {older : Nat} {t : Executor} (h : Aftermath setting s older t) (op : Operation) :
      Aftermath setting s older (operate setting t op)
  | balance {older : Nat} {t : Executor} (h : Aftermath setting s older t) (a : Address)
      (v : Amount) : Aftermath setting s older (t.updateAccounts fun o => o.setBalance a v)
  | nonce {older : Nat} {t : Executor} (h : Aftermath setting s older t) (a : Address)
      (n : Nonce) : Aftermath setting s older (t.updateAccounts fun o => o.setNonce a n)
  | storage {older : Nat} {t : Executor} (h : Aftermath setting s older t) (a : Address)
      (k v : Word) : Aftermath setting s older (t.updateAccounts fun o => o.setStorage a k v)
  | incNonce {older : Nat} {t u : Executor} (h : Aftermath setting s older t) {a : Address}
      (hclaimed : t.incNonce a = .ok u) : Aftermath setting s older u
  | transfer {older : Nat} {t : Executor} (h : Aftermath setting s older t)
      (transfer : Transfer) : Aftermath setting s older (t.transfer transfer).2
  | snapshot {older : Nat} {t : Executor} (h : Aftermath setting s older t) :
      Aftermath setting s older t.snapshot.2
  | commit {older : Nat} {t u : Executor} (h : Aftermath setting s older t) {handle : Snapshot}
      (hclosed : t.close setting handle .commit = (.ok (), u)) :
      Aftermath setting s (min older (handle.depth - 1)) u
  | restore {older : Nat} {t u : Executor} (h : Aftermath setting s older t) {handle : Snapshot}
      (hclosed : t.close setting handle .restore = (.ok (), u)) (hsince : older < handle.depth) :
      Aftermath setting s older u
  /-- An attempt to close a snapshot fails. -/
  | refused {older : Nat} {t u : Executor} (h : Aftermath setting s older t) {handle : Snapshot}
      {closing : Overlay.Closing} {cause : Abort}
      (hrefused : t.close setting handle closing = (.error cause, u)) : Aftermath setting s older u

/-- An account has some code, and would have it after a restore of any open snapshot above the
outermost `older` ones. -/
structure Fixed (a : Address) (code : Bytes) (older : Nat) (t : Executor) : Prop where
  now : t.accounts.code a = code
  restored : ∀ above l rest, t.accounts.layers = above ++ l :: rest → older ≤ rest.length →
    ({ stored := t.accounts.stored, current := l.beneath, layers := rest } : Overlay).code a = code

theorem accounts_of_close {handle : Snapshot} {closing : Overlay.Closing}
    {result : Except Abort Unit} (h : t.close setting handle closing = (result, u)) :
    (result = .ok () ∧ t.accounts.close handle closing = .ok u.accounts) ∨
      ((∃ cause, result = .error cause) ∧ u.accounts = t.accounts) := by
  unfold close at h
  split at h
  · cases h
    exact Or.inr ⟨⟨_, rfl⟩, rfl⟩
  · dsimp only at h
    split at h
    · next hclose =>
        cases h
        exact Or.inl ⟨rfl, hclose⟩
    · cases h
      exact Or.inr ⟨⟨_, rfl⟩, rfl⟩

namespace Fixed

variable {older : Nat}

/-- What is written to the innermost layer does not matter to a restore. -/
theorem write (h : Fixed a code older t) (hstored : u.accounts.stored = t.accounts.stored)
    (hlayers : u.accounts.layers = t.accounts.layers)
    (hcode : u.accounts.code a = t.accounts.code a) : Fixed a code older u := by
  refine ⟨hcode.trans h.now, fun above l rest hsplit => ?_⟩
  rw [hlayers] at hsplit
  rw [hstored]
  exact h.restored above l rest hsplit

theorem snapshot (h : Fixed a code older t) : Fixed a code older t.snapshot.2 := by
  have hview := Overlay.view_snapshot t.accounts
  refine ⟨(congrFun (congrArg AccountView.code hview) a).trans h.now, ?_⟩
  intro above l rest hsplit holder
  cases above with
  | nil =>
      obtain ⟨rfl, rfl⟩ := List.cons.inj hsplit
      exact h.now
  | cons first above =>
      obtain ⟨-, hlayers⟩ := List.cons.inj hsplit
      exact h.restored above l rest hlayers holder

theorem commit (h : Fixed a code older t) {handle : Snapshot}
    (hclosed : t.accounts.close handle .commit = .ok u.accounts) :
    Fixed a code (min older (handle.depth - 1)) u := by
  obtain ⟨above, l, rest, hlayers, hdepth, hcommitted⟩ := Overlay.buried_of_close hclosed
  have hrest := Overlay.layers_closeMany hlayers .commit
  rw [← hcommitted] at hrest
  have hstored : u.accounts.stored = t.accounts.stored := by
    rw [hcommitted, Overlay.stored_closeMany]
  have hview : u.accounts.view = t.accounts.view := by
    rw [hcommitted, Overlay.view_closeMany_commit]
  refine ⟨(congrFun (congrArg AccountView.code hview) a).trans h.now, ?_⟩
  intro above' l' rest' hsplit holder
  rw [hstored]
  refine h.restored (above ++ l :: above') l' rest' ?_ ?_
  · rw [hlayers, ← hrest, hsplit, List.append_assoc]
    rfl
  · rw [hrest] at hsplit
    rw [hdepth, hsplit, List.length_append, List.length_cons] at holder
    omega

theorem restore (h : Fixed a code older t) {handle : Snapshot}
    (hclosed : t.accounts.close handle .restore = .ok u.accounts)
    (hsince : older < handle.depth) : Fixed a code older u := by
  obtain ⟨above, l, rest, hlayers, hdepth, hrestored⟩ := Overlay.buried_of_close hclosed
  rw [Overlay.closeMany_restore hlayers] at hrestored
  refine ⟨?_, fun above' l' rest' hsplit holder => ?_⟩
  · rw [hrestored]
    exact h.restored above l rest hlayers (by omega)
  · rw [hrestored] at hsplit ⊢
    refine h.restored (above ++ l :: above') l' rest' ?_ holder
    rw [hlayers, show rest = above' ++ l' :: rest' from hsplit, List.append_assoc]
    rfl

end Fixed

/-- **Code stays in the aftermath.** -/
theorem Aftermath.fixed (hreliable : Reliable setting) {older : Nat}
    (h : Aftermath setting s older t) (hcode : s.accounts.code a ≠ []) :
    Fixed a (s.accounts.code a) older t := by
  induction h with
  | start =>
      refine ⟨rfl, fun above l rest hlayers holder => ?_⟩
      rw [Overlay.openSnapshots, hlayers, List.length_append, List.length_cons] at holder
      omega
  | @operation older t h op ih =>
      obtain ⟨hstored, hlayers⟩ := (operated setting t op).beneath hreliable
      obtain ⟨-, hkept⟩ := ((operatedAs setting hreliable t op).deploys hreliable).found a
        (by rwa [ih.now])
      exact ih.write hstored hlayers hkept
  | balance h b v ih => exact ih.write rfl rfl rfl
  | nonce h b n ih => exact ih.write rfl rfl rfl
  | storage h b k v ih => exact ih.write rfl rfl rfl
  | incNonce h hclaimed ih =>
      have hextends := Extends.incNonce hclaimed
      exact ih.write hextends.stored hextends.layers (congrFun (spared_incNonce hclaimed).code a)
  | @transfer older t h transfer ih =>
      have hextends := Extends.transfer (Prod.eta (t.transfer transfer)).symm
      have hspared := spared_transfer (Prod.eta (t.transfer transfer)).symm
      exact ih.write hextends.stored hextends.layers (congrFun hspared.code a)
  | snapshot h ih => exact ih.snapshot
  | commit h hclosed ih =>
      rcases accounts_of_close hclosed with ⟨-, hclose⟩ | ⟨⟨_, hresult⟩, -⟩
      · exact ih.commit hclose
      · cases hresult
  | restore h hclosed hsince ih =>
      rcases accounts_of_close hclosed with ⟨-, hclose⟩ | ⟨⟨_, hresult⟩, -⟩
      · exact ih.restore hclose hsince
      · cases hresult
  | refused h hrefused ih =>
      rcases accounts_of_close hrefused with ⟨hresult, -⟩ | ⟨-, hsame⟩
      · cases hresult
      · exact ih.write (by rw [hsame]) (by rw [hsame]) (by rw [hsame])

/-- **Code that a creation deploys is overwritten by no operation**, nor by anything else that a
client does, as long as the creation is not undone and no creation around it stores code at the same
address. -/
theorem deployments_last (setting : Setting) (hreliable : Reliable setting) :
    (∀ s op, Deploys op s (operationChronicle setting s op) (operate setting s op)) ∧
    (∀ room frames s caller scheme init nrg value outcome t a code,
      createWith setting (runner setting room) caller scheme init nrg value s = (outcome, t) →
      outcome.deployed? = some a → outcome.code? = some code →
      t.accounts.code a = code ∧
        ∃ m ∈ createChronicle setting (runner setting room) (recorder setting room) frames caller
          scheme init nrg value s, m.act = .deposited a code) ∧
    ∀ older s t a, Aftermath setting s older t → s.accounts.code a ≠ [] →
      t.accounts.code a = s.accounts.code a := by
  refine ⟨fun s op => (operatedAs setting hreliable s op).deploys hreliable, ?_, ?_⟩
  · intro room frames s caller scheme init nrg value outcome t a code h haddress hcode
    exact createWith_deployed h haddress hcode
  · intro older s t a h hcode
    exact (h.fixed hreliable hcode).now

/-- A contract that creates another one when it is called, init code that calls the contract and
returns a code of its own, and the init code of the contract. -/
def creatingOnCall : Interpreter := fun code frame =>
  if code = [1] then do
    let _ ← Program.request (.create frame.identity [4] frame.nrg 0)
    pure (.stopped 1)
  else if code = [3] then do
    let _ ← Program.request (.call .call frame.identity 5 [] frame.nrg 0)
    pure (.returned [9] 300)
  else pure (.returned [7] 300)

/-- Code is deployed, a snapshot is taken, a transaction is made, and the snapshot is restored. -/
theorem deployments_last_restored :
    let setting := homesteadWith creatingOnCall
    let s := withTwoContracts 0
    let deploying : Operation := .create (.external 1) (.fixed 9) [4] ⟨500, 1⟩ 0
    let created := createWith setting (runner setting 3) (.external 1) (.fixed 9) [4] ⟨500, 1⟩ 0 s
    let handle := created.2.snapshot.1
    let guarded := created.2.snapshot.2
    let later := operate setting guarded (.transactCall 1 6 20 [] ⟨900, 1⟩)
    let restored := (later.close setting handle .restore).2
    Reliable setting ∧ created.1.deployed? = some 9 ∧ created.1.code? = some [7] ∧
      Deploys deploying s (operationChronicle setting s deploying) (operate setting s deploying) ∧
      created.2.accounts.code 9 = [7] ∧
      (∃ m ∈ createChronicle setting (runner setting 3) (recorder setting 3) [] (.external 1)
        (.fixed 9) [4] ⟨500, 1⟩ 0 s, m.act = .deposited 9 [7]) ∧
      Aftermath setting created.2 0 restored ∧
      restored.accounts.code 9 = created.2.accounts.code 9 := by
  intro setting s deploying created handle guarded later restored
  have hreliable : Reliable setting := fun _ _ => rfl
  obtain ⟨hoperations, hcreations, haftermath⟩ := deployments_last setting hreliable
  have haddress : created.1.deployed? = some 9 := rfl
  have hcode : created.1.code? = some [7] := rfl
  obtain ⟨hstored, hmoment⟩ := hcreations 3 [] s (.external 1) (.fixed 9) [4] ⟨500, 1⟩ 0 created.1
    created.2 9 [7] (Prod.eta _).symm haddress hcode
  have hclosed : later.close setting handle .restore = (.ok (), restored) := by
    have hok : (later.close setting handle .restore).1.isOk = true := by decide +kernel
    cases hresult : (later.close setting handle .restore).1 with
    | ok done => exact (Prod.eta _).symm.trans (congrArg (·, restored) hresult)
    | error cause =>
        rw [hresult] at hok
        cases hok
  have hafter : Aftermath setting created.2 0 restored :=
    .restore (.operation (.snapshot .start) _) hclosed (by decide)
  refine ⟨hreliable, haddress, hcode, hoperations s deploying, hstored, hmoment, hafter, ?_⟩
  exact haftermath 0 created.2 restored 9 hafter (by rw [hstored]; simp)

/-- The end of a creation that an entry of the journal tells: its address, the depth at which it was
asked for, and the code that it returned. -/
def finished? : Entry → Option (Address × Nat × Option Bytes)
  | .record (.createFinished a depth outcome) => some (a, depth, outcome.result.toOption)
  | _ => none

/-- A creation calls a contract, which creates at the address that the creation was given. Both
creations succeed, no frame is undone, and the code of the inner one is overwritten. The address is
the one derived from the contract and its first nonce. -/
theorem overwritten_from_outside :
    let setting := homesteadWith creatingOnCall
    let a : Address := 0x7ae35c45eddc931e84bbe28ddd5ef38dfcc0ce24
    let t := operate setting (withTwoContracts 0) (.create (.external 1) (.fixed a) [3] ⟨900, 1⟩ 0)
    t.picked finished? = [(a, 2, some [7]), (a, 0, some [9])] ∧
      t.closings = [.commit, .commit, .commit] ∧ t.accounts.code a = [9] := by
  decide +kernel

end MessageCalls.Executor
