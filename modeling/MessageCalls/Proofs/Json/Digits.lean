import Mathlib.Data.Option.Basic
import MessageCalls.Json.Codec
/-!
# MessageCalls.Proofs.Json.Digits

Hexadecimal text is read back as the bytes or the number it was written for. Both are spelled by a
list of digits, and **what a list of digits spells is the number they are in base 16**
(`Codec.toNat_bytesOfPairs`), whether they fill whole bytes or, with an odd count, give the first
digit a byte to itself.
-/

namespace MessageCalls.Codec

/-- The digits of a byte string, as numbers. -/
def nibbles (bytes : Bytes) : List Nat := bytes.flatMap fun b => [b.toNat / 16, b.toNat % 16]

theorem hexDigits_eq_map (bytes : Bytes) : bytes.hexDigits = (nibbles bytes).map Nat.digitChar := by
  induction bytes with
  | nil => rfl
  | cons b rest ih =>
      have hdigits : Bytes.hexDigits (b :: rest) =
          Nat.digitChar (b.toNat / 16) :: Nat.digitChar (b.toNat % 16) ::
            Bytes.hexDigits rest := rfl
      rw [hdigits, ih]
      rfl

theorem lt_of_mem_nibbles {bytes : Bytes} : ∀ d ∈ nibbles bytes, d < 16 := by
  intro d hd
  obtain ⟨b, -, hb⟩ := List.mem_flatMap.mp hd
  have hlt := b.toNat_lt
  rcases List.mem_cons.mp hb with rfl | hb
  · omega
  · rcases List.mem_singleton.mp hb with rfl
    omega

/-- No digit is passed over as a blank. -/
theorem isBlank_digitChar {d : Nat} (h : d < 16) : Json.isBlank (Nat.digitChar d) = false := by
  have hall : ∀ e : Fin 16, Json.isBlank (Nat.digitChar e) = false := by decide
  exact hall ⟨d, h⟩

theorem hexDigits?_map_digitChar {ds : List Nat} (h : ∀ d ∈ ds, d < 16) :
    hexDigits? (ds.map Nat.digitChar) = some ds := by
  induction ds with
  | nil => rfl
  | cons d ds ih =>
      have hd := h d (by simp)
      have hrest := ih fun e he => h e (List.mem_cons_of_mem _ he)
      rw [hexDigits?] at hrest ⊢
      simp [isBlank_digitChar hd, hexValue?_digitChar hd, hrest]

/-! ### Byte strings -/

theorem bytesOfPairs_nibbles (bytes : Bytes) : bytesOfPairs (nibbles bytes) = bytes := by
  induction bytes with
  | nil => rfl
  | cons b rest ih =>
      have hbyte : 16 * (b.toNat / 16) + b.toNat % 16 = b.toNat := Nat.div_add_mod _ _
      have hdigits : nibbles (b :: rest) = b.toNat / 16 :: b.toNat % 16 :: nibbles rest := rfl
      rw [hdigits, bytesOfPairs, ih, hbyte, UInt8.ofNat_toNat]

theorem hexBytes?_hexDigits (bytes : Bytes) : hexBytes? bytes.hexDigits = some bytes := by
  have heven : bytes.hexDigits.length % 2 = 0 := by
    rw [Bytes.length_hexDigits, Nat.mul_mod_right]
  rw [hexBytes?, heven, hexDigits_eq_map, hexDigits?_map_digitChar lt_of_mem_nibbles]
  simp [bytesOfPairs_nibbles]

/-- The mark `0x` is recognised. -/
@[simp] theorem hexPart_mark (ds : List Char) : hexPart ("0x" ++ String.ofList ds) = ds := by
  simp [hexPart]

/-- A text of two digits a byte is read back. -/
theorem exactly?_hex {width : Nat} {bytes : Bytes} (h : bytes.length = width) :
    exactly? width ("0x" ++ bytes.hex) = some bytes := by
  have hfull : bytes.hexDigits.length = 2 * width := by rw [Bytes.length_hexDigits, h]
  rw [exactly?, Bytes.hex, hexPart_mark, hexBytes?_hexDigits, (Option.guard_eq_some' ()).mpr hfull]
  simp [h, List.rightpad]

/-! ### Numbers -/

/-- The number that digits spell in base 16, after one read before them. -/
def spelled (n : Nat) (ds : List Nat) : Nat := ds.foldl (fun n d => 16 * n + d) n

theorem spelled_cons (n d : Nat) (ds : List Nat) :
    spelled n (d :: ds) = spelled (16 * n + d) ds := rfl

theorem spelled_eq (n : Nat) (ds : List Nat) :
    spelled n ds = n * 16 ^ ds.length + spelled 0 ds := by
  induction ds generalizing n with
  | nil => simp [spelled]
  | cons d ds ih =>
      have hhead : (16 * n + d) * 16 ^ ds.length =
          n * (16 ^ ds.length * 16) + d * 16 ^ ds.length := by
        rw [Nat.add_mul, Nat.mul_comm 16 n, Nat.mul_assoc, Nat.mul_comm 16]
      rw [spelled_cons, ih, spelled_cons, ih (16 * 0 + d), List.length_cons, Nat.pow_succ, hhead]
      simp [Nat.add_assoc]

/-- Digits that do not fill a byte are none or a single one. -/
theorem eq_nil_or_singleton {ds : List Nat}
    (hshort : ∀ high low rest, ds = high :: low :: rest → False) : ds = [] ∨ ∃ d, ds = [d] := by
  cases ds with
  | nil => exact .inl rfl
  | cons high rest =>
      cases rest with
      | nil => exact .inr ⟨high, rfl⟩
      | cons low rest => exact absurd rfl (hshort high low rest)

theorem length_bytesOfPairs (ds : List Nat) : (bytesOfPairs ds).length = ds.length / 2 := by
  fun_induction bytesOfPairs ds with
  | case1 high low rest ih =>
      simp only [List.length_cons, ih]
      omega
  | case2 ds hshort =>
      rcases eq_nil_or_singleton hshort with rfl | ⟨d, rfl⟩
      · rfl
      · rw [List.length_singleton]
        rfl

/-- Digits that fill whole bytes fill them with the number they spell. -/
theorem toNat_bytesOfPairs {ds : List Nat} (hds : ∀ d ∈ ds, d < 16) (heven : ds.length % 2 = 0) :
    (bytesOfPairs ds).toNat = spelled 0 ds := by
  fun_induction bytesOfPairs ds with
  | case1 high low rest ih =>
      have hhigh := hds high (by simp)
      have hlow := hds low (by simp)
      have hrest : rest.length % 2 = 0 := by
        simp only [List.length_cons] at heven
        omega
      have hpow : 256 ^ (rest.length / 2) = 16 ^ rest.length := by
        rw [show 256 = 16 ^ 2 from rfl, ← Nat.pow_mul, Nat.mul_div_cancel' (by omega)]
      have hbyte : (UInt8.ofNat (16 * high + low)).toNat = 16 * high + low := by
        rw [UInt8.toNat_ofNat', Nat.mod_eq_of_lt (by omega)]
      rw [Bytes.toNat, length_bytesOfPairs, hpow, hbyte,
        ih (fun d hd => hds d (by simp [hd])) hrest, spelled_cons, spelled_cons,
        spelled_eq (16 * (16 * 0 + high) + low)]
      simp
  | case2 ds hshort =>
      rcases eq_nil_or_singleton hshort with rfl | ⟨d, rfl⟩
      · rfl
      · cases heven

/-- Digits are read as the number they spell, the first one alone if their count is odd. -/
theorem hexBytes?_map_digitChar {ds : List Nat} (h : ∀ d ∈ ds, d < 16) :
    (hexBytes? (ds.map Nat.digitChar)).map Bytes.toNat = some (spelled 0 ds) := by
  rw [hexBytes?, hexDigits?_map_digitChar h, List.length_map]
  by_cases heven : ds.length % 2 = 0
  · simp [heven, toNat_bytesOfPairs h heven]
  · have hzero : ∀ d ∈ 0 :: ds, d < 16 := by
      intro d hd
      rcases List.mem_cons.mp hd with rfl | hd
      · decide
      · exact h d hd
    have hfull : (0 :: ds).length % 2 = 0 := by
      rw [List.length_cons]
      omega
    simp [heven, toNat_bytesOfPairs hzero hfull, spelled_cons]

/-- The digits of a number in base 16 spell it. -/
theorem exists_digits (n : Nat) :
    ∃ ds : List Nat, Nat.toDigits 16 n = ds.map Nat.digitChar ∧ (∀ d ∈ ds, d < 16) ∧
      spelled 0 ds = n := by
  induction n using Nat.strongRecOn with
  | ind n ih =>
      by_cases hsmall : n < 16
      · exact ⟨[n], Nat.toDigits_of_lt_base hsmall, by simpa using hsmall, by simp [spelled]⟩
      · obtain ⟨ds, hdigits, hlt, hvalue⟩ := ih (n / 16) (by omega)
        refine ⟨ds ++ [n % 16], ?_, ?_, ?_⟩
        · rw [Nat.toDigits_of_base_le (by decide) (by omega), hdigits]
          simp
        · intro d hd
          rcases List.mem_append.mp hd with hd | hd
          · exact hlt d hd
          · rw [List.mem_singleton.mp hd]
            exact Nat.mod_lt _ (by decide)
        · rw [spelled] at hvalue ⊢
          rw [List.foldl_append, hvalue, List.foldl_cons, List.foldl_nil]
          omega

/-- **A number is read back from its digits in base 16.** -/
theorem hexBytes?_toDigits (n : Nat) :
    (hexBytes? (Nat.toDigits 16 n)).map Bytes.toNat = some n := by
  obtain ⟨ds, hdigits, hlt, hvalue⟩ := exists_digits n
  rw [hdigits, hexBytes?_map_digitChar hlt, hvalue]

end MessageCalls.Codec
