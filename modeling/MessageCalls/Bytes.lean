/-!
# MessageCalls.Bytes

Byte strings, the big-endian numbers they spell, and their hexadecimal text.

* `bigEndian width n` writes a number on a fixed number of bytes and `Bytes.toNat` reads it
  back: `toNat_bigEndian` says that nothing is lost below `256 ^ width`, and `bigEndian_toNat`
  that a byte string is lost neither.
* `Bytes.slice?` and `Bytes.overwrite?` take a part of a string and replace one. **Neither goes
  beyond the string**: there is no result then.
* `Bytes.hex` writes two lower-case digits for every byte.
-/

namespace MessageCalls

/-- The power of numbers, the same one in every module whatever powers it imports. -/
@[default_instance 10000]
instance instPow : Pow Nat Nat := instPowNat

/-- A string of bytes: code, call data, return data, or the input of a hash. -/
abbrev Bytes := List UInt8

/-- The last `width` bytes of `n`, most significant first. -/
def bigEndian : Nat → Nat → Bytes
  | 0, _ => []
  | width + 1, n => UInt8.ofNat (n >>> (8 * width)) :: bigEndian width n

@[simp] theorem length_bigEndian (width n : Nat) : (bigEndian width n).length = width := by
  induction width with
  | zero => rfl
  | succ width ih => simp [bigEndian, ih]

namespace Bytes

/-- The number whose digits in base 256 are the given bytes, most significant first. -/
def toNat : Bytes → Nat
  | [] => 0
  | b :: rest => b.toNat * 256 ^ rest.length + toNat rest

@[simp] theorem toNat_nil : toNat [] = 0 := rfl

theorem toNat_lt (bytes : Bytes) : toNat bytes < 256 ^ bytes.length := by
  induction bytes with
  | nil => simp
  | cons b rest ih =>
    have hb : b.toNat ≤ 255 := Nat.le_of_lt_succ b.toNat_lt
    have hle : b.toNat * 256 ^ rest.length ≤ 255 * 256 ^ rest.length :=
      Nat.mul_le_mul_right _ hb
    simp only [toNat, List.length_cons, Nat.pow_succ]
    omega

/-- Reading back a number written on `width` bytes gives its residue modulo `256 ^ width`. -/
theorem toNat_bigEndian_mod (width n : Nat) : toNat (bigEndian width n) = n % 256 ^ width := by
  induction width with
  | zero => simp [bigEndian, Nat.mod_one]
  | succ width ih =>
    have hpow : (2 : Nat) ^ (8 * width) = 256 ^ width := by
      rw [Nat.pow_mul]
    have hmod : n % (256 ^ width * 256) = n % 256 ^ width + 256 ^ width * (n / 256 ^ width % 256) :=
      Nat.mod_mul
    rw [bigEndian, toNat, length_bigEndian, ih, UInt8.toNat_ofNat', Nat.shiftRight_eq_div_pow,
      hpow, show 256 ^ (width + 1) = 256 ^ width * 256 from rfl, hmod,
      Nat.mul_comm (256 ^ width), Nat.add_comm]

theorem toNat_bigEndian {width n : Nat} (h : n < 256 ^ width) :
    toNat (bigEndian width n) = n := by
  rw [toNat_bigEndian_mod, Nat.mod_eq_of_lt h]

/-- Digits beyond the width do not count. -/
theorem bigEndian_add_mul (width n k : Nat) :
    bigEndian width (n + 256 ^ width * k) = bigEndian width n := by
  induction width generalizing k with
  | zero => rfl
  | succ width ih =>
    have hpow : (2 : Nat) ^ (8 * width) = 256 ^ width := by
      rw [Nat.pow_mul]
    have hpos : 0 < 256 ^ width := Nat.pow_pos (by decide)
    have hsplit : 256 ^ (width + 1) * k = 256 ^ width * (256 * k) := by
      rw [Nat.pow_succ, Nat.mul_assoc]
    have hdigit : UInt8.ofNat (n / 256 ^ width + 256 * k) = UInt8.ofNat (n / 256 ^ width) := by
      rw [← UInt8.toNat_inj, UInt8.toNat_ofNat', UInt8.toNat_ofNat', Nat.add_mul_mod_self_left]
    rw [bigEndian, bigEndian, hsplit, ih, Nat.shiftRight_eq_div_pow, Nat.shiftRight_eq_div_pow,
      hpow, Nat.add_mul_div_left _ _ hpos, hdigit]

/-- Writing the number that a byte string spells on as many bytes gives the string back. -/
theorem bigEndian_toNat (bytes : Bytes) : bigEndian bytes.length (toNat bytes) = bytes := by
  induction bytes with
  | nil => rfl
  | cons b rest ih =>
    have hpow : (2 : Nat) ^ (8 * rest.length) = 256 ^ rest.length := by
      rw [Nat.pow_mul]
    have hlt := toNat_lt rest
    rw [List.length_cons, bigEndian, toNat, Nat.shiftRight_eq_div_pow, hpow, Nat.add_comm,
      Nat.mul_comm, bigEndian_add_mul, ih, Nat.add_mul_div_left _ _ (by omega),
      Nat.div_eq_of_lt hlt, Nat.zero_add, UInt8.ofNat_toNat]

theorem bigEndian_mod (width n : Nat) : bigEndian width (n % 256 ^ width) = bigEndian width n := by
  have hread := bigEndian_toNat (bigEndian width n)
  rwa [length_bigEndian, toNat_bigEndian_mod] at hread

/-- The last bytes of a number are those that it has on a smaller width. -/
theorem drop_bigEndian (more width n : Nat) :
    (bigEndian (more + width) n).drop more = bigEndian width n := by
  induction more with
  | zero => rw [Nat.zero_add, List.drop_zero]
  | succ more ih => rwa [Nat.succ_add, bigEndian, List.drop_succ_cons]

/-! ### Parts of a byte string -/

/-- The bytes from one place up to another, if the string goes so far. -/
def slice? (bytes : Bytes) (start stop : Nat) : Option Bytes :=
  if start ≤ stop ∧ stop ≤ bytes.length then some ((bytes.drop start).take (stop - start))
  else none

/-- Other bytes are written over those from a place on, if there are so many. -/
def overwrite? (bytes : Bytes) (start : Nat) (others : Bytes) : Option Bytes :=
  if start + others.length ≤ bytes.length then
    some (bytes.take start ++ others ++ bytes.drop (start + others.length))
  else none

theorem slice?_of_le {bytes : Bytes} {start stop : Nat} (hstart : start ≤ stop)
    (hstop : stop ≤ bytes.length) :
    slice? bytes start stop = some ((bytes.drop start).take (stop - start)) :=
  if_pos ⟨hstart, hstop⟩

theorem overwrite?_of_le {bytes others : Bytes} {start : Nat}
    (h : start + others.length ≤ bytes.length) :
    overwrite? bytes start others =
      some (bytes.take start ++ others ++ bytes.drop (start + others.length)) :=
  if_pos h

/-! ### Hexadecimal text -/

/-- The two lower-case hexadecimal digits of every byte, in order. -/
def hexDigits (bytes : Bytes) : List Char :=
  bytes.flatMap fun b => [Nat.digitChar (b.toNat / 16), Nat.digitChar (b.toNat % 16)]

/-- The hexadecimal digits of a byte string as text, without a leading mark. -/
def hex (bytes : Bytes) : String := String.ofList (hexDigits bytes)

@[simp] theorem length_hexDigits (bytes : Bytes) :
    (hexDigits bytes).length = 2 * bytes.length := by
  induction bytes with
  | nil => rfl
  | cons b rest ih =>
    have hsplit : hexDigits (b :: rest) =
        Nat.digitChar (b.toNat / 16) :: Nat.digitChar (b.toNat % 16) :: hexDigits rest := rfl
    rw [hsplit, List.length_cons, List.length_cons, ih, List.length_cons]
    omega

end Bytes

/-- The value of a hexadecimal digit of either case. -/
def hexValue? (c : Char) : Option Nat :=
  if '0' ≤ c ∧ c ≤ '9' then some (c.toNat - '0'.toNat)
  else if 'a' ≤ c ∧ c ≤ 'f' then some (c.toNat - 'a'.toNat + 10)
  else if 'A' ≤ c ∧ c ≤ 'F' then some (c.toNat - 'A'.toNat + 10)
  else none

/-- The number spelled by hexadecimal digits of either case, most significant first; the empty
list spells zero, and any other character is refused. -/
def hexNumber? (digits : List Char) : Option Nat :=
  digits.foldlM (fun n c => (hexValue? c).map (16 * n + ·)) 0

/-- The value of a written nibble is the nibble. -/
theorem hexValue?_digitChar {n : Nat} (h : n < 16) : hexValue? (Nat.digitChar n) = some n := by
  have hall : ∀ m : Fin 16, hexValue? (Nat.digitChar m) = some m.val := by decide
  exact hall ⟨n, h⟩

end MessageCalls
