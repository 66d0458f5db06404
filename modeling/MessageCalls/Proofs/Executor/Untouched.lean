import MessageCalls.Proofs.Executor.Courses
import MessageCalls.Proofs.Executor.Nesting
/-!
# MessageCalls.Proofs.Executor.Untouched

**The storage of an account changes only while some frame runs as that account and may modify the
state** (`Executor.OperatedAs.untouched`), provided that running code writes its own storage only.
Everything else that the machine does leaves all storage alone: moving value, incrementing a nonce,
storing code, and settling a checkpoint, which keeps what was written since or puts back what was
found.
-/

namespace MessageCalls

namespace Moment

/-- The identity on whose behalf a call is asked for. -/
def caller? (m : Moment) : Option Identity :=
  match m.act with
  | .asked (.call _ caller _ _ _ _) _ => some caller
  | _ => none

/-- The account whose storage is to be written. -/
def written? (m : Moment) : Option Address :=
  match m.act with
  | .asked (.setStorage a _ _) _ => some a
  | _ => none

/-- Running code passes its own identity with every call that it asks for, and storage is written
by running code only, at its own address. -/
structure KeepsIdentity (m : Moment) : Prop where
  calls : ∀ caller ∈ m.caller?, ∀ g ∈ m.frames.head?, caller = g.identity
  writes : ∀ a ∈ m.written?, ∃ g ∈ m.frames.head?, a = g.identity.address

/-- No code begins to run as an account, unless it may not modify the state. -/
def Bars (a : Address) (m : Moment) : Prop :=
  ∀ run ∈ m.entered?, run.2.identity.address = a → run.2.isStatic = true

instance (m : Moment) : Decidable m.KeepsIdentity :=
  decidable_of_iff
    ((m.caller?.all (fun caller => m.frames.head?.all (caller = ·.identity)) &&
      m.written?.all fun a => m.frames.head?.any (a = ·.identity.address)) = true)
    (by
      simp only [Bool.and_eq_true, Option.all_eq_true, Option.any_eq_true, decide_eq_true_eq]
      exact ⟨fun h => ⟨h.1, h.2⟩, fun h => ⟨h.calls, h.writes⟩⟩)

instance (a : Address) (m : Moment) : Decidable (m.Bars a) :=
  decidable_of_iff
    ((m.entered?.all fun run => run.2.identity.address ≠ a || run.2.isStatic) = true)
    (by
      simp only [Option.all_eq_true, Bool.or_eq_true, decide_eq_true_eq, ne_eq, ← imp_iff_not_or]
      exact Iff.rfl)

end Moment

namespace Executor

variable {setting : Setting} {frames : List Frame} {s t u : Executor} {moments : List Moment}
  {a : Address}

/-! ### What leaves all storage alone -/

theorem Unchanged.storage_eq (h : Unchanged s t) : t.accounts.storage = s.accounts.storage :=
  congrArg AccountView.storage h.view_eq

theorem storage_checkpoint (s : Executor) :
    s.checkpoint.2.accounts.storage = s.accounts.storage :=
  congrArg AccountView.storage (view_checkpoint s)

theorem storage_transfer {transfer : Transfer} {result : Except Failure Unit}
    (h : s.transfer transfer = (result, t)) : t.accounts.storage = s.accounts.storage := by
  rw [accounts_transfer h, Overlay.storage_transfer]

theorem storage_incNonce {a : Address} (h : s.incNonce a = .ok t) :
    t.accounts.storage = s.accounts.storage := by
  unfold incNonce at h
  split at h
  · next haccounts =>
      cases h
      obtain ⟨-, rfl⟩ := Overlay.incNonce_eq_ok_iff.mp haccounts
      rfl
  · cases h

theorem Opens.storage_eq (h : Opens s t) : t.accounts.storage = s.accounts.storage := by
  cases h with
  | guarded => exact storage_checkpoint s
  | claimed hstatic h => exact (storage_incNonce h).trans (storage_checkpoint s)

theorem Ends.storage_eq {exit : Exit} (h : Ends t u exit) :
    u.accounts.storage = t.accounts.storage := by
  cases h with
  | reported => rfl
  | unpaid h => exact storage_transfer h
  | collided address => rw [accounts_latch, accounts_record]

/-- A frame that leaves the storage of an account alone may be left in any way. -/
theorem storage_leave (hreliable : Reliable setting) (h : Extends s.checkpoint.2 u)
    (hsame : u.accounts.storage a = s.accounts.storage a) (exit : Exit) (output : Bytes)
    (nrgLeft : Nrg) :
    (u.leave setting s.checkpoint.1 exit output nrgLeft).2.accounts.storage a =
      s.accounts.storage a := by
  rcases leave_cases hreliable h exit output nrgLeft with ⟨-, hview, -⟩ | ⟨-, hunchanged⟩
  · exact (congrFun (congrArg AccountView.storage hview) a).trans hsame
  · exact congrFun hunchanged.storage_eq a

/-- Storage is written by a frame that may modify the state, and runs as the account. -/
theorem storage_answer (room : Option FrameRunner) {r : Request} (hnested : r.isNested = false)
    (hmode : ∀ g ∈ frames.head?, g.identity.address = a → s.isStatic = true)
    (hkeeps : (⟨frames, s, .asked r (answer setting room r s).1⟩ : Moment).KeepsIdentity) :
    (answer setting room r s).2.accounts.storage a = s.accounts.storage a := by
  cases r with
  | setStorage b key value =>
      dsimp only [answer]
      split
      · rfl
      · next hwrites =>
          obtain ⟨g, hg, rfl⟩ := hkeeps.writes b rfl
          have hother : g.identity.address ≠ a := fun heq => hwrites (hmode g hg heq)
          have hview := congrArg AccountView.storage
            (Overlay.view_setStorage s.accounts g.identity.address key value)
          refine (congrFun hview a).trans ?_
          exact Function.update_of_ne (Ne.symm hother) _ _
  | log entry =>
      dsimp only [answer]
      split <;> rfl
  | call => cases hnested
  | create => cases hnested
  | _ => rfl

/-! ### Courses -/

/-- The storage of an account is the same at some moments and at last as it was at first. -/
structure Untouched (a : Address) (s : Executor) (moments : List Moment) (t : Executor) : Prop where
  during : ∀ m ∈ moments, m.state.accounts.storage a = s.accounts.storage a
  after : t.accounts.storage a = s.accounts.storage a

theorem untouched_leaveChronicle (hsame : u.accounts.storage a = s.accounts.storage a)
    (point : Checkpoint) (exit : Exit) (output : Bytes) (nrgLeft : Nrg) :
    ∀ m ∈ leaveChronicle setting frames point exit output nrgLeft u,
      m.state.accounts.storage a = s.accounts.storage a := by
  intro m hm
  obtain ⟨act, rfl, -⟩ := mem_leaveChronicle hm
  exact hsame

/-- **A course in which no frame runs as an account, unless it may not modify the state, leaves the
storage of the account alone.** -/
theorem Course.untouched (hreliable : Reliable setting) (h : Course setting frames s moments t)
    (hmode : ∀ g ∈ frames.head?, g.identity.address = a → s.isStatic = true)
    (hkeeps : ∀ m ∈ moments, m.KeepsIdentity) (hbars : ∀ m ∈ moments, m.Bars a) :
    Untouched a s moments t := by
  induction h with
  | rest => exact ⟨List.forall_mem_nil _, rfl⟩
  | andThen first second ih ih' =>
      obtain ⟨hkeeps, hkeeps'⟩ := List.forall_mem_append.mp hkeeps
      obtain ⟨hbars, hbars'⟩ := List.forall_mem_append.mp hbars
      have hfirst := ih hmode hkeeps hbars
      have hsecond := ih' (by rwa [first.activity.toRetains.isStatic]) hkeeps' hbars'
      exact ⟨List.forall_mem_append.mpr
        ⟨hfirst.during, fun m hm => (hsecond.during m hm).trans hfirst.after⟩,
        hsecond.after.trans hfirst.after⟩
  | note => exact ⟨List.forall_mem_nil _, rfl⟩
  | answered frames s room h =>
      exact ⟨List.forall_mem_singleton.mpr rfl,
        storage_answer room h hmode (List.forall_mem_singleton.mp hkeeps)⟩
  | asked frames s room h => exact ⟨List.forall_mem_singleton.mpr rfl, rfl⟩
  | native hfatal b => exact ⟨List.forall_mem_singleton.mpr rfl, rfl⟩
  | transfer h hpaid => exact ⟨List.forall_mem_nil _, congrFun (storage_transfer hpaid) a⟩
  | nonce h hclaimed => exact ⟨List.forall_mem_nil _, congrFun (storage_incNonce hclaimed) a⟩
  | @entered frames s t moments code frame hfatal hcode hstatic hdepth body ih =>
      obtain ⟨-, hkeeps⟩ := List.forall_mem_cons.mp hkeeps
      obtain ⟨hentered, hbars⟩ := List.forall_mem_cons.mp hbars
      have hinside := ih (fun g hg haddress => by
        cases hg
        exact hentered (code, frame) rfl haddress) hkeeps hbars
      exact ⟨List.forall_mem_cons.mpr ⟨rfl, hinside.during⟩, hinside.after⟩
  | @guarded frames s opening t u moments exit hfatal hopened body ends output nrgLeft ih =>
      obtain ⟨-, hkeeps⟩ := List.forall_mem_cons.mp hkeeps
      obtain ⟨-, hbars⟩ := List.forall_mem_cons.mp hbars
      have hopening := congrFun hopened.storage_eq a
      have hbody := ih (by rwa [hopened.retains.isStatic])
        (List.forall_mem_append.mp hkeeps).1 (List.forall_mem_append.mp hbars).1
      have hended := ((congrFun ends.storage_eq a).trans hbody.after).trans hopening
      exact ⟨List.forall_mem_cons.mpr ⟨hopening, List.forall_mem_append.mpr
        ⟨fun m hm => (hbody.during m hm).trans hopening, untouched_leaveChronicle hended _ _ _ _⟩⟩,
        storage_leave hreliable (hopened.extends_ends hreliable body ends) hended _ _ _⟩
  | @created frames s opening paid t moments _ address exit hfatal hopened hfree hstatic hpaid body
      hmodifies hnone hsuccess code nrgLeft ih =>
      obtain ⟨-, hkeeps⟩ := List.forall_mem_cons.mp hkeeps
      obtain ⟨-, hbars⟩ := List.forall_mem_cons.mp hbars
      have hopening := congrFun hopened.storage_eq a
      have hpay := (congrFun (storage_transfer hpaid) a).trans hopening
      have hsame : paid.isStatic = s.isStatic :=
        (transfer_fields hpaid).2.1.trans hopened.retains.isStatic
      have hbody := ih (by rwa [hsame])
        (List.forall_mem_append.mp (List.forall_mem_append.mp hkeeps).1).1
        (List.forall_mem_append.mp (List.forall_mem_append.mp hbars).1).1
      have hran := hbody.after.trans hpay
      have hstored : (t.updateAccounts fun o => o.setCode address code).accounts.storage a =
          s.accounts.storage a := hran
      have hextends := hopened.extends_stored hreliable hstatic hpaid body hmodifies hnone address
        code
      exact ⟨List.forall_mem_cons.mpr ⟨hopening, List.forall_mem_append.mpr
        ⟨List.forall_mem_append.mpr ⟨fun m hm => (hbody.during m hm).trans hpay,
          List.forall_mem_singleton.mpr hran⟩, untouched_leaveChronicle hstored _ _ _ _⟩⟩,
        storage_leave hreliable hextends hstored _ _ _⟩
  | @givenUp frames s entry h =>
      have hsettles := settlesAs_givenUp hreliable s entry
      exact ⟨List.forall_mem_singleton.mpr (congrFun (storage_checkpoint s) a),
        congrFun (hsettles.restored rfl).storage_eq a⟩

/-! ### Operations -/

theorem TransactedAs.untouched (hreliable : Reliable setting)
    (h : TransactedAs setting s moments t) (hkeeps : ∀ m ∈ moments, m.KeepsIdentity)
    (hbars : ∀ m ∈ moments, m.Bars a) : Untouched a s moments t := by
  obtain ⟨r, hremark, body, aborted⟩ := h
  rename_i moments t
  have hbegun : (s.prepared r).checkpoint.2.accounts.storage = s.accounts.storage :=
    storage_checkpoint (s.prepared r)
  have hbody := body.untouched hreliable (fun g hg => by cases hg)
    (List.forall_mem_append.mp hkeeps).1 (List.forall_mem_append.mp hbars).1
  have hended := hbody.after.trans (congrFun hbegun a)
  refine ⟨List.forall_mem_append.mpr ⟨fun m hm => (hbody.during m hm).trans (congrFun hbegun a),
    List.forall_mem_singleton.mpr hended⟩, ?_⟩
  show (t.settleOrLatch setting (s.prepared r).checkpoint.1 t.concluding).accounts.storage a = _
  cases hclosing : t.concluding with
  | commit =>
      have hview := view_settleOrLatch_commit setting t (s.prepared r).checkpoint.1
      exact (congrFun (congrArg AccountView.storage hview) a).trans hended
  | restore =>
      have hextends := body.activity.toExtends hreliable
      have hsettles := settleOrLatch_checkpoint hreliable hextends .restore
      exact congrFun (hsettles.restored rfl).storage_eq a

/-- **So does an operation.** -/
theorem OperatedAs.untouched (hreliable : Reliable setting) {op : Operation}
    (h : OperatedAs setting s op moments t) (hkeeps : ∀ m ∈ moments, m.KeepsIdentity)
    (hbars : ∀ m ∈ moments, m.Bars a) : Untouched a s moments t := by
  cases h with
  | course hkind hkept h => exact h.untouched hreliable (fun g hg => by cases hg) hkeeps hbars
  | transaction hkept h => exact h.untouched hreliable hkeeps hbars
  | dryRun hundone h r =>
      have hbegun := congrFun (storage_checkpoint s) a
      have hrun := h.untouched hreliable (List.forall_mem_append.mp hkeeps).1
        (List.forall_mem_append.mp hbars).1
      obtain ⟨r', hsettles⟩ := h.transacted.settlesAs_restore hreliable
      exact ⟨List.forall_mem_append.mpr ⟨fun m hm => (hrun.during m hm).trans hbegun,
        List.forall_mem_singleton.mpr (hrun.after.trans hbegun)⟩,
        congrFun (hsettles.restored rfl).storage_eq a⟩

end Executor

end MessageCalls
