import MessageCalls.Bytes
/-!
# MessageCalls.Word

The fixed-width quantities of the machine. Account addresses have 160 bits; storage keys, storage
values and hashes are 256-bit words; balances and transferred values are 256-bit amounts; nrg
and nonces have 64 bits. Every text of such a quantity is written here, once.
-/

namespace MessageCalls

/-- The address of an account: 20 bytes, ordered as numbers. -/
abbrev Address := BitVec 160

/-- A storage key, a storage value or a hash: 32 bytes, ordered as numbers. -/
abbrev Word := BitVec 256

/-- A balance or a transferred value. -/
abbrev Amount := BitVec 256

/-- A quantity of nrg, the fuel that code consumes. -/
abbrev Nrg := UInt64

/-- The number of creations an account has made. -/
abbrev Nonce := UInt64

namespace Address

instance instTransOrd : Std.TransOrd Address := inferInstance

/-- The 20 bytes of an address. -/
def toBytes (a : Address) : Bytes := bigEndian 20 a.toNat

/-- The address spelled by the last 20 bytes of a byte string. -/
def ofBytes (bytes : Bytes) : Address := BitVec.ofNat 160 bytes.toNat

/-- The text of an address: `0x` and exactly 40 digits. -/
def text (a : Address) : String := "0x" ++ (toBytes a).hex

@[simp] theorem length_toBytes (a : Address) : (toBytes a).length = 20 := length_bigEndian ..

@[simp] theorem ofBytes_toBytes (a : Address) : ofBytes (toBytes a) = a := by
  have h : a.toNat < 256 ^ 20 := a.isLt
  simp [ofBytes, toBytes, Bytes.toNat_bigEndian h]

theorem toBytes_ofBytes {bytes : Bytes} (h : bytes.length = 20) :
    toBytes (ofBytes bytes) = bytes := by
  have hwidth : (256 : Nat) ^ 20 = 2 ^ 160 := rfl
  rw [toBytes, ofBytes, BitVec.toNat_ofNat, ← hwidth, Bytes.bigEndian_mod, ← h,
    Bytes.bigEndian_toNat]

/-- Different addresses have different bytes. -/
theorem toBytes_inj {a b : Address} : toBytes a = toBytes b ↔ a = b :=
  ⟨fun h => by rw [← ofBytes_toBytes a, h, ofBytes_toBytes], fun h => h ▸ rfl⟩

end Address

namespace Word

instance instTransOrd : Std.TransOrd Word := inferInstance

/-- The 32 bytes of a word. -/
def toBytes (w : Word) : Bytes := bigEndian 32 w.toNat

/-- The word spelled by the last 32 bytes of a byte string. -/
def ofBytes (bytes : Bytes) : Word := BitVec.ofNat 256 bytes.toNat

/-- The text of a word: `0x` and exactly 64 digits. -/
def text (w : Word) : String := "0x" ++ (toBytes w).hex

/-- The address in the last 20 bytes of a word. -/
def lowAddress (w : Word) : Address := w.truncate 160

@[simp] theorem length_toBytes (w : Word) : (toBytes w).length = 32 := length_bigEndian ..

@[simp] theorem ofBytes_toBytes (w : Word) : ofBytes (toBytes w) = w := by
  have h : w.toNat < 256 ^ 32 := w.isLt
  simp [ofBytes, toBytes, Bytes.toNat_bigEndian h]

/-- The last 20 bytes of a word. -/
theorem toBytes_lowAddress (w : Word) : Address.toBytes (lowAddress w) = (toBytes w).drop 12 := by
  have hwidth : (2 : Nat) ^ 160 = 256 ^ 20 := rfl
  rw [Address.toBytes, lowAddress, BitVec.truncate_eq_setWidth, BitVec.toNat_setWidth, hwidth,
    Bytes.bigEndian_mod]
  exact (Bytes.drop_bigEndian 12 20 w.toNat).symm

end Word

namespace Amount

/-- The decimal text of an amount. -/
def text (v : Amount) : String := toString v.toNat

/-- The sum of two amounts, if it is below `2 ^ 256`. -/
def add? (v w : Amount) : Option Amount :=
  if v.toNat + w.toNat < 2 ^ 256 then some (v + w) else none

/-- The difference of two amounts, if it is not negative. -/
def sub? (v w : Amount) : Option Amount := if w ≤ v then some (v - w) else none

/-- A number of 64 bits as an amount. -/
def widen (n : UInt64) : Amount := n.toBitVec.setWidth 256

/-- The lowest 64 bits of an amount. -/
def low (v : Amount) : UInt64 := ⟨v.setWidth 64⟩

/-- The place in a list that an amount counts to, if 64 bits hold it. -/
def index? (v : Amount) : Option Nat := if v.toNat < 2 ^ 64 then some v.toNat else none

/-- The sum of two amounts, held at the largest amount. -/
def addSaturating (v w : Amount) : Amount := (add? v w).getD (BitVec.allOnes 256)

theorem add?_eq_some_iff {v w u : Amount} :
    add? v w = some u ↔ u.toNat = v.toNat + w.toNat := by
  unfold add?
  split
  · next h =>
    rw [Option.some.injEq, ← BitVec.toNat_inj, BitVec.toNat_add, Nat.mod_eq_of_lt h, eq_comm]
  · next h =>
    have := u.isLt
    simp only [reduceCtorEq, false_iff]
    omega

theorem add?_eq_none_iff {v w : Amount} : add? v w = none ↔ 2 ^ 256 ≤ v.toNat + w.toNat := by
  unfold add?
  split <;> simp <;> omega

/-- A difference is there exactly if it is one. -/
theorem sub?_eq_some_iff {v w u : Amount} :
    sub? v w = some u ↔ u.toNat + w.toNat = v.toNat := by
  unfold sub?
  have hu := u.isLt
  split
  · next h =>
    rw [Option.some.injEq, ← BitVec.toNat_inj, BitVec.toNat_sub_of_le h]
    rw [BitVec.le_def] at h
    omega
  · next h =>
    rw [BitVec.le_def] at h
    simp only [reduceCtorEq, false_iff]
    omega

@[simp] theorem toNat_widen (n : UInt64) : (widen n).toNat = n.toNat := by
  have hn := n.toNat_lt
  rw [widen, BitVec.toNat_setWidth, UInt64.toNat_toBitVec, Nat.mod_eq_of_lt (by omega)]

@[simp] theorem low_widen (n : UInt64) : low (widen n) = n := by
  have hn := n.toNat_lt
  rw [← UInt64.toNat_inj, low, ← UInt64.toNat_toBitVec, BitVec.toNat_setWidth, toNat_widen,
    Nat.mod_eq_of_lt (by omega)]

theorem toNat_addSaturating (v w : Amount) :
    (addSaturating v w).toNat = min (v.toNat + w.toNat) (2 ^ 256 - 1) := by
  have hv := v.isLt
  have hw := w.isLt
  unfold addSaturating add?
  split
  · next h =>
    rw [Option.getD_some, BitVec.toNat_add, Nat.mod_eq_of_lt h]
    omega
  · next h =>
    rw [Option.getD_none, BitVec.toNat_allOnes]
    omega

end Amount

namespace Nrg

/-- The difference of two quantities of nrg, held at zero. -/
def subSaturating (n m : Nrg) : Nrg := UInt64.ofNat (n.toNat - m.toNat)

/-- The sum of two quantities of nrg, held at the largest quantity. -/
def addSaturating (n m : Nrg) : Nrg := UInt64.ofNat (min (n.toNat + m.toNat) (2 ^ 64 - 1))

/-- A number as a quantity of nrg, if it is below `2 ^ 64`. -/
def ofNat? (n : Nat) : Option Nrg := if n < 2 ^ 64 then some (UInt64.ofNat n) else none

/-- The sum of two quantities of nrg, if it is one. -/
def add? (n m : Nrg) : Option Nrg := ofNat? (n.toNat + m.toNat)

/-- The product of two quantities of nrg, if it is one. -/
def mul? (n m : Nrg) : Option Nrg := ofNat? (n.toNat * m.toNat)

@[simp] theorem toNat_subSaturating (n m : Nrg) :
    (subSaturating n m).toNat = n.toNat - m.toNat := by
  have h := n.toNat_lt
  rw [subSaturating, UInt64.toNat_ofNat', Nat.mod_eq_of_lt (by omega)]

@[simp] theorem toNat_addSaturating (n m : Nrg) :
    (addSaturating n m).toNat = min (n.toNat + m.toNat) (2 ^ 64 - 1) := by
  rw [addSaturating, UInt64.toNat_ofNat', Nat.mod_eq_of_lt (by omega)]

theorem ofNat?_eq_some_iff {n : Nat} {k : Nrg} : ofNat? n = some k ↔ k.toNat = n := by
  unfold ofNat?
  split
  · next h =>
    rw [Option.some.injEq, ← UInt64.toNat_inj, UInt64.toNat_ofNat', Nat.mod_eq_of_lt h, eq_comm]
  · next h =>
    have hk := k.toNat_lt
    simp only [reduceCtorEq, false_iff]
    omega

theorem ofNat?_eq_none_iff {n : Nat} : ofNat? n = none ↔ 2 ^ 64 ≤ n := by
  unfold ofNat?
  split <;> simp <;> omega

end Nrg

end MessageCalls
