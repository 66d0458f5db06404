import MessageCalls.TxContext
/-!
# MessageCalls.Proofs.Block.Ancestors

Which block hashes can be had. A lookup is asked for the heights of the last 256 ancestors and for
no other (`TxContext.ancestorHash_eq`, for lookups with any effect). In this window the hash of a
list of recent ones is found **without a negative difference and without a place beyond the list**
(`TxContext.recentHash?_eq`); outside of it the differences could be negative, and what keeps them
from being taken is the window alone.
-/

namespace MessageCalls.TxContext

variable {number : Amount} {height : UInt64}

/-! ### The window -/

/-- The height is that of one of the last ancestors of block `number` whose hash can be had. -/
def InWindow (number : Amount) (height : UInt64) : Prop :=
  height.toNat < number.toNat ∧ number.toNat - height.toNat ≤ blockHashWindow

instance instDecidableInWindow (number : Amount) (height : UInt64) :
    Decidable (InWindow number height) :=
  inferInstanceAs (Decidable (_ ∧ _))

/-- How many blocks a height is below a number. -/
theorem exists_sub?_widen (h : height.toNat < number.toNat) :
    ∃ generations, Amount.sub? number (Amount.widen height) = some generations ∧
      generations.toNat = number.toNat - height.toNat := by
  have hle : Amount.widen height ≤ number := by
    rw [BitVec.le_def, Amount.toNat_widen]
    exact Nat.le_of_lt h
  have hsub : Amount.sub? number (Amount.widen height) = some (number - Amount.widen height) :=
    if_pos hle
  have hsum := Amount.sub?_eq_some_iff.mp hsub
  rw [Amount.toNat_widen] at hsum
  exact ⟨_, hsub, by omega⟩

/-- **Whatever a lookup does when it is asked**, it is asked in the window only, and only for the
height in question; and no difference is negative. -/
theorem ancestorHash_eq {m : Type → Type} [Alternative m] (number : Amount)
    (lookup : UInt64 → m Word) (height : UInt64) :
    ancestorHash number lookup height =
      if InWindow number height then lookup height else pure 0 := by
  unfold ancestorHash
  by_cases hbelow : height.toNat < number.toNat
  · obtain ⟨generations, hsub, hgenerations⟩ := exists_sub?_widen hbelow
    have hnot : ¬ number ≤ Amount.widen height := by
      rw [BitVec.le_def, Amount.toNat_widen]
      exact Nat.not_le.mpr hbelow
    simp only [if_neg hnot, hsub, hgenerations, Amount.low_widen]
    by_cases hfar : blockHashWindow < number.toNat - height.toNat
    · rw [if_pos hfar, if_neg fun h => Nat.not_le.mpr hfar h.2]
    · rw [if_neg hfar, if_pos ⟨hbelow, Nat.not_lt.mp hfar⟩]
  · have hle : number ≤ Amount.widen height := by
      rw [BitVec.le_def, Amount.toNat_widen]
      exact Nat.not_lt.mp hbelow
    rw [if_pos hle, if_neg fun h => hbelow h.1]

theorem blockHash_eq (tx : TxContext) (height : UInt64) :
    tx.blockHash height =
      if InWindow tx.facts.blockNumber height then tx.ancestor height else 0 := by
  rw [blockHash, ancestorHash_eq]
  split <;> rfl

/-! ### Recent hashes -/

/-- In the window the hash is the one at its place in the list, or zero beyond the list. -/
theorem recentHash?_eq (recent : List Word) (h : InWindow number height) :
    recentHash? number recent height =
      some (recent.getD (number.toNat - 1 - height.toNat) 0) := by
  obtain ⟨hbelow, hnear⟩ := h
  obtain ⟨above, habove, hgenerations⟩ := exists_sub?_widen hbelow
  have hone : (1 : Amount) ≤ above := by
    rw [BitVec.le_def]
    show 1 ≤ above.toNat
    omega
  have hsub : Amount.sub? above 1 = some (above - 1) := if_pos hone
  have hdistance : (above - 1).toNat = number.toNat - 1 - height.toNat := by
    have hsum := Amount.sub?_eq_some_iff.mp hsub
    change (above - 1).toNat + 1 = above.toNat at hsum
    omega
  -- The distance is below 256, so it is a place in some list.
  have hplace : Amount.index? (above - 1) = some (number.toNat - 1 - height.toNat) := by
    rw [Amount.index?, hdistance, if_pos]
    rw [blockHashWindow] at hnear
    omega
  simp only [recentHash?, habove, hsub, hplace, hdistance, Option.bind_eq_bind, Option.bind_some]
  split
  · next hbeyond =>
      rw [List.getD_eq_getElem?_getD, List.getElem?_eq_none hbeyond]
      rfl
  · next hwithin =>
      have hlt := Nat.not_le.mp hwithin
      rw [List.getD_eq_getElem?_getD, List.getElem?_eq_getElem hlt]
      rfl

/-- A lookup that keeps a record of what it is asked, the latest first. -/
def recorded (lookup : UInt64 → Word) (height : UInt64) : StateT (List UInt64) Option Word :=
  fun asked => some (lookup height, height :: asked)

/-- **Block hashes resolve the last 256 ancestors and nothing else.** With a list of recent hashes
every step has a result, and the hash is the one at the height's place in the list, or zero beyond
it; with any lookup the hash is what it answers in the window, where it is asked once, and zero
outside of it, where it is not asked. -/
theorem blockHashes_resolve :
    (∀ (facts : ChainFacts) (recent : List Word) (height : UInt64),
      let number := facts.blockNumber
      let hash := (withRecentHashes facts recent).blockHash height
      ancestorHash number (recentHash? number recent) height = some hash ∧
        hash = if InWindow number height then
          recent.getD (number.toNat - 1 - height.toNat) 0 else 0) ∧
    (∀ (tx : TxContext) (height : UInt64),
      tx.blockHash height =
        if InWindow tx.facts.blockNumber height then tx.ancestor height else 0) ∧
    (∀ (number : Amount) (lookup : UInt64 → Word) (height : UInt64) (asked : List UInt64),
      (ancestorHash number (recorded lookup) height).run asked =
        some (if InWindow number height then (lookup height, height :: asked) else (0, asked))) ∧
    ∀ (m : Type → Type) [Alternative m] (number : Amount) (lookup : UInt64 → m Word)
      (height : UInt64),
      ancestorHash number lookup height =
        if InWindow number height then lookup height else pure 0 := by
  refine ⟨fun facts recent height => ?_, blockHash_eq, fun number lookup height asked => ?_,
    fun m _ => ancestorHash_eq⟩
  · intro number hash
    have hhash : hash = if InWindow number height then
        (recentHash? number recent height).getD 0 else 0 :=
      blockHash_eq (withRecentHashes facts recent) height
    rw [hhash, ancestorHash_eq]
    by_cases hwindow : InWindow number height
    · rw [if_pos hwindow, if_pos hwindow, if_pos hwindow, recentHash?_eq recent hwindow]
      exact ⟨rfl, rfl⟩
    · rw [if_neg hwindow, if_neg hwindow, if_neg hwindow]
      exact ⟨rfl, rfl⟩
  · rw [ancestorHash_eq]
    split <;> rfl

end MessageCalls.TxContext
