import MessageCalls.Native.Standard
import MessageCalls.Proofs.Native.Pricing
/-!
# MessageCalls.Proofs.Native.Schedule

What the standard native contracts charge, in exact numbers. A contract asks for a base price and a
price for every word begun (`Native.price`); **it refuses exactly where the limit is below the
price, and charges exactly the price elsewhere** (`Native.charges_run`). A price that 64 bits do not
hold is above every limit, so that an overflow and a limit too low come to the same.
-/

namespace MessageCalls

/-- The answer of a contract that asks a price for its output, under a limit. -/
inductive Charges (price : Nat) (output : Bytes) (limit : Nrg) : NativeResult → Prop
  | refused (hlow : limit.toNat < price) : Charges price output limit (.error .outOfNrg)
  | answered {cost : Nrg} (hcost : cost.toNat = price) (henough : price ≤ limit.toNat) :
      Charges price output limit (.ok ⟨output, cost⟩)

/-- An answer is settled by the price, the output and the limit. -/
theorem Charges.eq {price : Nat} {output : Bytes} {limit : Nrg} {result other : NativeResult}
    (h : Charges price output limit result) (hother : Charges price output limit other) :
    result = other := by
  cases h with
  | refused hlow =>
      cases hother with
      | refused => rfl
      | answered hcost henough => exact absurd hlow (Nat.not_lt.mpr henough)
  | answered hcost henough =>
      cases hother with
      | refused hlow => exact absurd hlow (Nat.not_lt.mpr henough)
      | answered hcost' =>
          obtain rfl := UInt64.toNat_inj.mp (hcost.trans hcost'.symm)
          rfl

namespace Native

variable {n : Native} {input : Bytes} {asked : Nat}

/-! ### Where the contracts live -/

@[simp] theorem at?_address (n : Native) : at? n.address = some n := by
  cases n <;> rfl

theorem run_address (p : Primitives) (n : Native) (input : Bytes) (limit : Nrg)
    (identity : Identity) :
    (NativeSet.standardOver p).run n.address input limit identity = some (n.run p input limit) := by
  show (at? n.address).map _ = _
  rw [at?_address, Option.map_some]

/-- There is an answer exactly from the addresses of the contracts. -/
theorem isSome_run (p : Primitives) (a : Address) (input : Bytes) (limit : Nrg)
    (identity : Identity) :
    ((NativeSet.standardOver p).run a input limit identity).isSome =
      (NativeSet.standardOver p).isNative a :=
  Option.isSome_map

theorem isNative_iff (p : Primitives) (a : Address) :
    (NativeSet.standardOver p).isNative a = true ↔ ∃ n : Native, n.address = a := by
  show (at? a).isSome = true ↔ _
  rw [at?, List.find?_isSome]
  constructor
  · rintro ⟨n, -, hn⟩
    exact ⟨n, by simpa using hn⟩
  · rintro ⟨n, hn⟩
    exact ⟨n, by cases n <;> decide, by simpa using hn⟩

/-! ### What they charge -/

/-- The schedule: the base price, and the price for a word. -/
def tariff : Native → Nat × Nat
  | recovery => (3000, 0)
  | sha256 => (60, 12)
  | ripemd160 => (600, 120)
  | identity => (15, 3)

/-- The price for an input of some length, in exact numbers. -/
def price (n : Native) (length : Nat) : Nat := n.tariff.1 + n.tariff.2 * wordsBegun length

theorem asks_tariff (n : Native) (length : UInt64) :
    Asks (linearCost length n.base n.word)
      (n.tariff.1 + n.tariff.2 * (wordCount length).toNat) := by
  have hasks := asks_linearCost length n.base n.word
  cases n <;> exact hasks

/-- Up to `2 ^ 63` bytes every word begun is asked for. -/
theorem asks_price (n : Native) (h : input.length < 2 ^ 63) :
    Asks (linearCost (UInt64.ofNat input.length) n.base n.word) (n.price input.length) := by
  have hlength : (UInt64.ofNat input.length).toNat = input.length := by
    rw [UInt64.toNat_ofNat', Nat.mod_eq_of_lt (by omega)]
  have hwords : (wordCount (UInt64.ofNat input.length)).toNat = wordsBegun input.length := by
    rw [toNat_wordCount_eq_min, hlength, wordsBegun]
    omega
  have hasks := asks_tariff n (UInt64.ofNat input.length)
  rwa [hwords] at hasks

/-- Recovery costs the same for every input. -/
theorem asks_recovery (input : Bytes) :
    Asks (linearCost (UInt64.ofNat input.length) recovery.base recovery.word) 3000 := by
  have hasks := asks_tariff recovery (UInt64.ofNat input.length)
  rwa [tariff, Nat.zero_mul] at hasks

/-- **A contract charges the price that it asks for, or refuses.** -/
theorem charges_run (p : Primitives)
    (h : Asks (linearCost (UInt64.ofNat input.length) n.base n.word) asked) (limit : Nrg) :
    Charges asked (n.output p input) limit (n.run p input limit) := by
  have hlimit := limit.toNat_lt
  by_cases hfits : asked < 2 ^ 64
  · obtain ⟨cost, hok, hcost⟩ := h.exists_ok hfits
    rw [run, hok]
    dsimp only
    split
    · next hlow => exact .refused (hcost ▸ UInt64.lt_iff_toNat_lt.mp hlow)
    · next henough =>
        exact .answered hcost (hcost ▸ UInt64.le_iff_toNat_le.mp (UInt64.not_lt.mp henough))
  · rw [run, h.eq_outOfNrg_iff.mpr (Nat.not_lt.mp hfits)]
    exact .refused (by omega)

end Native

end MessageCalls
