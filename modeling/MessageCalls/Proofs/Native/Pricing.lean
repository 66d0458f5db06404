import Mathlib.Control.Monad.Basic
import MessageCalls.Native.Basic
/-!
# MessageCalls.Proofs.Native.Pricing

The linear price in exact numbers. It is computed in 64 bits, by a sum that saturates, a product and
a sum that are checked; the law it is meant to follow counts every word begun and has no bounds.

**The checks are exact**: a price is asked for if and only if 64 bits hold it, whichever of the two
steps would have overflowed (`asks_linearCost`). **The saturation is not**: within 31 of the largest
length the last word is not counted, and `priced_linearCost` says exactly of which prices this makes
a difference.
-/

namespace MessageCalls

/-! ### Exact prices -/

/-- An answer asks for a price: for all of it if 64 bits hold it, and otherwise it says that no nrg
would do. -/
structure Asks (answer : Except Halt Nrg) (price : Nat) : Prop where
  eq_ok_iff : ∀ cost, answer = .ok cost ↔ cost.toNat = price
  eq_outOfNrg_iff : answer = .error .outOfNrg ↔ 2 ^ 64 ≤ price

namespace Asks

variable {answer : Except Halt Nrg} {cost : Nrg} {price other : Nat}

theorem ok (h : cost.toNat = price) : Asks (.ok cost) price := by
  have hcost := cost.toNat_lt
  constructor
  · intro other
    rw [Except.ok.injEq, ← UInt64.toNat_inj, h, eq_comm]
  · simp only [reduceCtorEq, false_iff]
    omega

theorem outOfNrg (h : 2 ^ 64 ≤ price) : Asks (.error .outOfNrg) price := by
  constructor
  · intro cost
    have hcost := cost.toNat_lt
    simp only [reduceCtorEq, false_iff]
    omega
  · simpa using h

/-- A price that 64 bits hold is asked for. -/
theorem exists_ok (h : Asks answer price) (hfits : price < 2 ^ 64) :
    ∃ cost, answer = .ok cost ∧ cost.toNat = price := by
  have hcost : (UInt64.ofNat price).toNat = price := Nrg.ofNat?_eq_some_iff.mp (if_pos hfits)
  exact ⟨_, (h.eq_ok_iff _).mpr hcost, hcost⟩

/-- An answer asks for two prices only if they are the same or 64 bits hold neither. -/
theorem iff_of_asks (h : Asks answer price) :
    Asks answer other ↔ other = price ∨ 2 ^ 64 ≤ price ∧ 2 ^ 64 ≤ other := by
  constructor
  · intro hother
    by_cases hfits : price < 2 ^ 64
    · obtain ⟨cost, hok, hcost⟩ := h.exists_ok hfits
      have hsame := (hother.eq_ok_iff cost).mp hok
      exact .inl (hsame.symm.trans hcost)
    · have hlarge := Nat.not_lt.mp hfits
      have hout := h.eq_outOfNrg_iff.mpr hlarge
      exact .inr ⟨hlarge, hother.eq_outOfNrg_iff.mp hout⟩
  · rintro (rfl | ⟨hlarge, hother⟩)
    · exact h
    · rw [h.eq_outOfNrg_iff.mpr hlarge]
      exact outOfNrg hother

end Asks

/-! ### Words -/

/-- The words that bytes take up, the last one begun included. -/
def wordsBegun (bytes : Nat) : Nat := (bytes + 31) / 32

theorem toNat_wordCount (length : UInt64) :
    (wordCount length).toNat = min (length.toNat + 31) (2 ^ 64 - 1) / 32 := by
  rw [wordCount, UInt64.toNat_div, Nrg.toNat_addSaturating]
  rfl

/-- No more words are counted than there are whole ones in the largest length. -/
theorem toNat_wordCount_eq_min (length : UInt64) :
    (wordCount length).toNat = min (wordsBegun length.toNat) (2 ^ 59 - 1) := by
  have hlength := length.toNat_lt
  rw [toNat_wordCount, wordsBegun]
  omega

/-- One word is missed, and only within 31 of the largest length. -/
theorem wordsBegun_eq (length : UInt64) :
    wordsBegun length.toNat =
      (wordCount length).toNat + if length.toNat + 31 < 2 ^ 64 then 0 else 1 := by
  have hlength := length.toNat_lt
  rw [toNat_wordCount, wordsBegun]
  split <;> omega

/-! ### The linear price -/

/-- **The checked product and the checked sum ask for the exact price** of the words counted. -/
theorem asks_linearCost (length base word : UInt64) :
    Asks (linearCost length base word)
      (base.toNat + word.toNat * (wordCount length).toNat) := by
  unfold linearCost
  cases hproduct : Nrg.mul? (wordCount length) word with
  | none =>
      have hlarge := Nrg.ofNat?_eq_none_iff.mp hproduct
      refine .outOfNrg ?_
      rw [Nat.mul_comm]
      omega
  | some product =>
      have hwords := Nrg.ofNat?_eq_some_iff.mp hproduct
      rw [Nat.mul_comm, ← hwords, Option.bind_some]
      cases hsum : Nrg.add? product base with
      | none =>
          have hlarge := Nrg.ofNat?_eq_none_iff.mp hsum
          exact .outOfNrg (by omega)
      | some cost =>
          have hcost := Nrg.ofNat?_eq_some_iff.mp hsum
          exact .ok (by omega)

/-- **The linear price** is the base price and the word price for each word begun, but for `2 ^ 59 - 1`
words at most. So it is the price of all words begun unless the length is within 31 of the largest
one, a word costs something, and 64 bits hold the price without the last word. -/
theorem priced_linearCost (length base word : UInt64) :
    Asks (linearCost length base word)
        (base.toNat + word.toNat * min (wordsBegun length.toNat) (2 ^ 59 - 1)) ∧
      (Asks (linearCost length base word) (base.toNat + word.toNat * wordsBegun length.toNat) ↔
        length.toNat + 31 < 2 ^ 64 ∨ word = 0 ∨
          2 ^ 64 ≤ base.toNat + word.toNat * (2 ^ 59 - 1)) := by
  have hasks := asks_linearCost length base word
  refine ⟨toNat_wordCount_eq_min length ▸ hasks, ?_⟩
  have hcounted := toNat_wordCount_eq_min length
  rw [hasks.iff_of_asks, wordsBegun_eq]
  by_cases hshort : length.toNat + 31 < 2 ^ 64
  · rw [if_pos hshort, Nat.add_zero]
    exact iff_of_true (.inl rfl) (.inl hshort)
  · have hlast : (wordCount length).toNat = 2 ^ 59 - 1 := by
      rw [hcounted, wordsBegun]
      omega
    have hword : word = 0 ↔ word.toNat = 0 := by
      rw [← UInt64.toNat_inj]
      rfl
    rw [if_neg hshort, hlast, hword, Nat.mul_add, Nat.mul_one]
    omega

/-- Of the largest length the last word is not charged, not even where 64 bits do not hold the price
with it. -/
theorem last_word_uncharged :
    let length := UInt64.ofNat (2 ^ 64 - 1)
    wordsBegun length.toNat = 2 ^ 59 ∧
      linearCost length 0 1 = .ok (UInt64.ofNat (2 ^ 59 - 1)) ∧
      ¬ Asks (linearCost length 0 1) (0 + 1 * wordsBegun length.toNat) ∧
      0 + 32 * wordsBegun length.toNat = 2 ^ 64 ∧
      linearCost length 0 32 = .ok (UInt64.ofNat (2 ^ 64 - 32)) ∧
      ¬ Asks (linearCost length 0 32) (0 + 32 * wordsBegun length.toNat) := by
  intro length
  have hone : linearCost length 0 1 = .ok (UInt64.ofNat (2 ^ 59 - 1)) := by decide +kernel
  have hmany : linearCost length 0 32 = .ok (UInt64.ofNat (2 ^ 64 - 32)) := by decide +kernel
  refine ⟨by decide +kernel, hone, ?_, by decide +kernel, hmany, ?_⟩
  · intro hasks
    exact absurd ((hasks.eq_ok_iff _).mp hone) (by decide +kernel)
  · intro hasks
    exact absurd ((hasks.eq_ok_iff _).mp hmany) (by decide +kernel)

end MessageCalls
