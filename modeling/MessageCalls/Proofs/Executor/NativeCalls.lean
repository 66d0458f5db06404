import MessageCalls.Proofs.Executor.Aborting
import MessageCalls.Proofs.Executor.Admission
import MessageCalls.Proofs.Native.Recovery
/-!
# MessageCalls.Proofs.Executor.NativeCalls

Calls to native contracts. A call that nothing stands in the way of is answered by the native
contract at its target, **whatever code the account there holds**, and comes out as the contract
said (`Executor.call_of_native`). For the standard contracts this makes a law in exact numbers of
their schedule: a call to one of them hands back the limit less the price, or nothing where the
limit is below the price.
-/

namespace MessageCalls

/-! ### What the contracts put out -/

/-- Twenty bytes behind twelve zeros. -/
structure AddressWord (bytes : Bytes) : Prop where
  length_eq : bytes.length = 32
  high_eq : bytes.take 12 = List.replicate 12 0

theorem addressWord_append {low : Bytes} (h : low.length = 20) :
    AddressWord (List.replicate 12 0 ++ low) where
  length_eq := by rw [List.length_append, List.length_replicate, h]
  high_eq := List.take_left' List.length_replicate

namespace Native

/-- The shape of the output of a contract for an input. -/
def Shaped (n : Native) (input output : Bytes) : Prop :=
  match n with
  | recovery => output = [] ∨ AddressWord output
  | sha256 => output.length = 32
  | ripemd160 => AddressWord output
  | identity => output = input

theorem addressWord_signerData (p : Primitives) (key : Secp256k1.PublicKey) :
    AddressWord (signerData p key) :=
  addressWord_append (by rw [List.length_drop, Word.length_toBytes])

theorem shaped_output (p : Primitives) (n : Native) (input : Bytes) :
    n.Shaped input (n.output p input) := by
  cases n with
  | recovery =>
      obtain ⟨data, hdata, hrecovers⟩ := recovers p input
      rw [output_recovery hdata]
      cases hrecovers with
      | signed => exact .inr (addressWord_signerData p _)
      | unsigned => exact .inl rfl
  | sha256 => exact Word.length_toBytes _
  | ripemd160 => exact addressWord_append (Address.length_toBytes _)
  | identity => rfl

end Native

/-! ### A call that nothing stands in the way of -/

namespace Executor

variable {setting : Setting} {s : Executor} {kind : CallKind} {caller : Identity}
  {target : Address} {input : Bytes} {nrg : Budget} {value : Amount}

/-- Nothing stands in the way of a call: it moves no value in static mode, no fatal condition is
latched, there is room for a frame, the caller can afford the value and the target can hold it. -/
structure Unhindered (setting : Setting) (s : Executor) (kind : CallKind) (caller target : Address)
    (value : Amount) : Prop where
  allowed : s.isStatic = true → kind.movesValue = true → value = 0
  unlatched : s.fatal = none
  room : s.tx.depth < setting.config.callStackLimit.toNat
  affordable : kind.movesValue = true → value.toNat ≤ (s.accounts.balance caller).toNat
  fits : kind = .call → target ≠ caller →
    (s.accounts.balance target).toNat + value.toNat < 2 ^ 256

theorem Unhindered.callRefusal?_eq_none {caller : Address} {limit : Nrg}
    (h : Unhindered setting s kind caller target value) :
    callRefusal? setting s kind caller target limit value = none := by
  unfold callRefusal?
  rw [if_neg fun ⟨hstatic, hmoves, hvalue⟩ => hvalue (h.allowed hstatic hmoves), h.unlatched]
  dsimp only
  rw [if_neg (Nat.not_le.mpr h.room),
    if_neg fun ⟨_, hmoves, hshort⟩ => Nat.not_lt.mpr (h.affordable hmoves) hshort,
    if_neg fun ⟨_, hkind, hother, hfull⟩ => Nat.not_lt.mpr hfull (h.fits hkind hother)]

/-- **A call to a native contract comes out as the contract said.** -/
theorem call_of_native (hreliable : Reliable setting)
    (h : Unhindered setting s kind caller.address target value) {result : NativeResult}
    (hnative : setting.natives.run target input nrg.limit (kind.identity caller target value) =
      some result) :
    (call setting kind caller target input nrg value s).1 =
      (result.report nrg.limit).exit.outcome (result.report nrg.limit).output
        (result.report nrg.limit).nrgLeft := by
  have hdecided : Decided setting [] s kind caller target input nrg value _ :=
    decided_callRefusal [] hreliable
  rw [h.callRefusal?_eq_none] at hdecided
  obtain ⟨moments, t, hadmitted⟩ : ∃ moments t,
      Admitted setting [] (kind.resolve s.isStatic caller target input nrg value) s moments
        (call setting kind caller target input nrg value s).1 t := by
    cases hdecided with
    | letIn hadmitted => exact ⟨_, _, hadmitted⟩
  generalize (call setting kind caller target input nrg value s).1 = outcome at hadmitted ⊢
  obtain ⟨hfatal, hroom, hpaid, hanswers, hleft, -⟩ := hadmitted
  cases hanswers with
  | code hforeign => cases hforeign.symm.trans hnative
  | native hanswer hnoted =>
      obtain rfl := Option.some.inj (hanswer.symm.trans hnative)
      rw [hleft.outcome_eq, finalExit, hnoted.fatal_eq, hpaid.fatal, hfatal]
      rfl

end Executor

/-! ### The schedule -/

/-- The outcome of a call to a contract that asks a price for its output, under a limit. -/
inductive CallCharges (price : Nat) (output : Bytes) (limit : Nrg) : CallOutcome → Prop
  | refused (hlow : limit.toNat < price) :
      CallCharges price output limit (.failed (.halted .outOfNrg) 0)
  | answered {left : Nrg} (hleft : left.toNat + price = limit.toNat) :
      CallCharges price output limit ⟨.ok output, left⟩

/-- An outcome is settled by the price, the output and the limit. -/
theorem CallCharges.eq {price : Nat} {output : Bytes} {limit : Nrg} {outcome other : CallOutcome}
    (h : CallCharges price output limit outcome) (hother : CallCharges price output limit other) :
    outcome = other := by
  cases h with
  | refused hlow =>
      cases hother with
      | refused => rfl
      | answered hleft => omega
  | @answered left hleft =>
      cases hother with
      | refused hlow => omega
      | @answered left' hleft' =>
          obtain rfl : left = left' := UInt64.toNat_inj.mp (by omega)
          rfl

/-- What a contract charges is charged to the call. -/
theorem Charges.callCharges {price : Nat} {output : Bytes} {limit : Nrg} {result : NativeResult}
    (h : Charges price output limit result) :
    CallCharges price output limit ((result.report limit).exit.outcome
      (result.report limit).output (result.report limit).nrgLeft) := by
  cases h with
  | refused hlow => exact .refused hlow
  | answered hcost henough =>
      refine .answered ?_
      rw [NativeResult.report]
      show (Nrg.subSaturating _ _).toNat + _ = _
      rw [Nrg.toNat_subSaturating, hcost, Nat.sub_add_cancel henough]

namespace Executor

/-- **The standard contracts charge exactly their schedule.** There is an answer exactly from the
addresses of the contracts; a contract refuses an input where the limit is below the price for its
length, and otherwise charges the price and gives an output that is the same for every limit and
identity; and a call to it that nothing stands in the way of hands back what the price leaves of
the limit, or nothing. -/
theorem natives_charge_exactly (p : Primitives) :
    (∀ a, ((NativeSet.standardOver p).isNative a = true ↔ ∃ n : Native, n.address = a) ∧
      ∀ input limit identity,
        ((NativeSet.standardOver p).run a input limit identity).isSome =
          (NativeSet.standardOver p).isNative a) ∧
    ∀ (n : Native) (input : Bytes), input.length < 2 ^ 63 →
      n.Shaped input (n.output p input) ∧
      (∀ limit identity, ∃ result,
        (NativeSet.standardOver p).run n.address input limit identity = some result ∧
          Charges (n.price input.length) (n.output p input) limit result) ∧
      ∀ setting, setting.natives = .standardOver p → Reliable setting →
        ∀ s kind (caller : Identity) nrg value,
          Unhindered setting s kind caller.address n.address value →
            CallCharges (n.price input.length) (n.output p input) nrg.limit
              (call setting kind caller n.address input nrg value s).1 := by
  refine ⟨fun a => ⟨Native.isNative_iff p a, Native.isSome_run p a⟩, fun n input hlength => ?_⟩
  have hcharges := fun limit => Native.charges_run p (Native.asks_price n hlength) limit
  refine ⟨Native.shaped_output p n input, fun limit identity =>
    ⟨_, Native.run_address p n input limit identity, hcharges limit⟩, ?_⟩
  intro setting hnatives hreliable s kind caller nrg value hunhindered
  rw [call_of_native hreliable hunhindered
    (hnatives ▸ Native.run_address p n input nrg.limit _)]
  exact (hcharges nrg.limit).callCharges

/-- The identity, at the address of an account with code, copies 33 bytes for 21. -/
theorem natives_charge_exactly_identity :
    let setting := { homesteadWith (fun _ _ => pure (.stopped 1)) with natives := .standard }
    let s := (withTwoContracts 3).updateAccounts fun o => o.setCode 4 [1]
    let input := List.replicate 33 7
    let called := fun limit =>
      (call setting .call (.external 1) 4 input ⟨limit, 1⟩ 20 s).1
    Reliable setting ∧ Unhindered setting s .call 1 4 20 ∧ s.accounts.code 4 = [1] ∧
      called 90 = ⟨.ok input, 69⟩ ∧ called 20 = .failed (.halted .outOfNrg) 0 := by
  intro setting s input called
  have hreliable : Reliable setting := fun _ _ => rfl
  have hunhindered : Unhindered setting s .call 1 4 20 :=
    ⟨by decide, rfl, by decide, by decide, by decide⟩
  have hcharges := fun limit => ((natives_charge_exactly .standard).2 .identity input
    (by decide)).2.2 setting rfl hreliable s .call (.external 1) ⟨limit, 1⟩ 20 hunhindered
  exact ⟨hreliable, hunhindered, rfl, (hcharges 90).eq (.answered (by decide)),
    (hcharges 20).eq (.refused (by decide))⟩

end Executor

end MessageCalls
