import Mathlib.Data.List.Forall2
import Mathlib.Data.List.Induction
import MessageCalls.Rlp
/-!
# MessageCalls.Proofs.Rlp.Forms

The recursive length form of byte strings and of lists of them, by its rules and read back.

The rules are `Minimal` for numbers, `Headed` for the header that strings and lists share,
`StringForm` and `ListForm`. What `string` and `list` write keeps to them, as long as 64 bits hold
the lengths (`stringForm_string`, `listForm_list`), and nothing else does: **a string or a list has
one form** (`StringForm.eq_string`, `ListForm.eq_list`). A strict reader, which goes by the first
byte, **accepts exactly the forms** (`readList?_eq_some_iff`).
-/

namespace MessageCalls.Rlp

variable {bytes contents form rest spelled : Bytes} {base n width : Nat} {strings : List Bytes}

/-! ### Numbers -/

/-- The bytes spell the number in base 256, most significant first, without leading zeros. -/
structure Minimal (spelled : Bytes) (n : Nat) : Prop where
  spells : Bytes.toNat spelled = n
  leads : spelled.head? ≠ some 0

theorem toNat_concat (init : Bytes) (b : UInt8) :
    Bytes.toNat (init ++ [b]) = Bytes.toNat init * 256 + b.toNat := by
  induction init with
  | nil => simp [Bytes.toNat]
  | cons c init ih =>
      rw [List.cons_append, Bytes.toNat, ih, Bytes.toNat, List.length_append, List.length_singleton,
        Nat.pow_succ, Nat.add_mul, Nat.mul_assoc, Nat.add_assoc]

theorem minimal_digits (n : Nat) : Minimal (digits n) n := by
  induction n using digits.induct with
  | case1 => exact ⟨by rw [digits]; rfl, by simp [digits]⟩
  | case2 n hpos ih =>
      rw [digits, if_neg hpos]
      refine ⟨?_, ?_⟩
      · rw [toNat_concat, ih.spells, UInt8.toNat_ofNat']
        omega
      · have hleads := ih.leads
        cases hhigh : digits (n / 256) with
        | nil =>
            -- A single digit is the number itself.
            have hsmall : n / 256 = 0 := by rw [← ih.spells, hhigh]; rfl
            simp only [List.nil_append, List.head?_cons, ne_eq, Option.some.injEq]
            intro hzero
            have hdigit := congrArg UInt8.toNat hzero
            rw [UInt8.toNat_ofNat'] at hdigit
            simp only [UInt8.toNat_zero] at hdigit
            omega
        | cons d high =>
            rw [hhigh] at hleads
            simpa using hleads

/-- A number is spelled without leading zeros in one way. -/
theorem Minimal.eq_digits (h : Minimal spelled n) : spelled = digits n := by
  induction spelled using List.reverseRecOn generalizing n with
  | nil =>
      obtain rfl : 0 = n := h.spells
      rw [digits, if_pos rfl]
  | append_singleton init b ih =>
      have hspells := h.spells
      rw [toNat_concat] at hspells
      have hb := b.toNat_lt
      have hinit : init = digits (Bytes.toNat init) := by
        refine ih ⟨rfl, fun hzero => h.leads ?_⟩
        rw [List.head?_append, hzero]
        rfl
      have hpos : n ≠ 0 := by
        rintro rfl
        have hnone : init = [] := by
          rw [hinit, show Bytes.toNat init = 0 by omega, digits, if_pos rfl]
        have hlast : b = 0 := by
          rw [← UInt8.toNat_inj, UInt8.toNat_zero]
          omega
        exact h.leads (by rw [hnone, hlast]; rfl)
      have hdigit : UInt8.ofNat n = b := by
        rw [← UInt8.toNat_inj, UInt8.toNat_ofNat']
        omega
      rw [digits, if_neg hpos, show n / 256 = Bytes.toNat init by omega, ← hinit, hdigit]

theorem length_digits_le (h : n < 256 ^ width) : (digits n).length ≤ width := by
  induction width generalizing n with
  | zero =>
      obtain rfl : n = 0 := by omega
      simp [digits]
  | succ width ih =>
      rw [digits]
      split
      · exact Nat.zero_le _
      · have hhigh : (digits (n / 256)).length ≤ width := by
          refine ih (Nat.div_lt_of_lt_mul ?_)
          rwa [Nat.mul_comm, ← Nat.pow_succ]
        rw [List.length_append, List.length_singleton]
        omega

/-! ### Headers -/

/-- The contents behind a header that tells their length. The bytes that introduce contents of one
kind, strings or lists, start at `base`. -/
inductive Headed (base : Nat) (contents : Bytes) : Bytes → Prop
  /-- Up to 55 bytes, a single byte tells the length. -/
  | short (hshort : contents.length ≤ 55) :
      Headed base contents (UInt8.ofNat (base + contents.length) :: contents)
  /-- Beyond that it tells on how many bytes the length is spelled, at most eight. -/
  | long {spelled : Bytes} (hlong : 55 < contents.length)
      (hspelled : Minimal spelled contents.length) (hwidth : spelled.length ≤ 8) :
      Headed base contents (UInt8.ofNat (base + 55 + spelled.length) :: (spelled ++ contents))

theorem headed_header (base : Nat) (h : contents.length < 2 ^ 64) :
    Headed base contents (header base contents.length ++ contents) := by
  unfold header
  split
  · next hshort => exact .short hshort
  · next hlong =>
      exact .long (Nat.not_le.mp hlong) (minimal_digits _)
        (length_digits_le (Nat.lt_of_lt_of_eq h rfl))

theorem Headed.eq_header (h : Headed base contents form) :
    form = header base contents.length ++ contents := by
  cases h with
  | short hshort => rw [header, if_pos hshort]; rfl
  | long hlong hspelled hwidth =>
      rw [header, if_neg (Nat.not_le.mpr hlong), hspelled.eq_digits]
      rfl

/-- The first bytes, so many of them, and what follows. -/
def cut? (bytes : Bytes) (count : Nat) : Option (Bytes × Bytes) :=
  if count ≤ bytes.length then some (bytes.take count, bytes.drop count) else none

theorem cut?_eq_some_iff {count : Nat} :
    cut? bytes count = some (contents, rest) ↔
      contents.length = count ∧ bytes = contents ++ rest := by
  unfold cut?
  constructor
  · intro h
    split at h
    · next hle =>
        cases h
        exact ⟨List.length_take_of_le hle, (List.take_append_drop count bytes).symm⟩
    · cases h
  · rintro ⟨rfl, rfl⟩
    rw [if_pos (by simp), List.take_left', List.drop_left'] <;> rfl

/-- The contents behind a length spelled on so many bytes, and what follows them. -/
def readLong? (width : Nat) (bytes : Bytes) : Option (Bytes × Bytes) :=
  (cut? bytes width).bind fun (spelled, later) =>
    if spelled.head? = some 0 ∨ Bytes.toNat spelled ≤ 55 then none
    else cut? later (Bytes.toNat spelled)

theorem readLong?_eq_some_iff :
    readLong? width bytes = some (contents, rest) ↔
      ∃ spelled, spelled.length = width ∧ Minimal spelled contents.length ∧
        55 < contents.length ∧ bytes = spelled ++ (contents ++ rest) := by
  unfold readLong?
  constructor
  · intro h
    obtain ⟨⟨spelled, later⟩, hcut, h⟩ := Option.bind_eq_some_iff.mp h
    obtain ⟨hwidth, hbytes⟩ := cut?_eq_some_iff.mp hcut
    dsimp only at h
    split at h
    · cases h
    · next hgood =>
        obtain ⟨hleads, hlong⟩ := not_or.mp hgood
        obtain ⟨hlength, rfl⟩ := cut?_eq_some_iff.mp h
        exact ⟨spelled, hwidth, ⟨hlength.symm, hleads⟩, by omega, hbytes⟩
  · rintro ⟨spelled, hwidth, hspelled, hlong, rfl⟩
    rw [cut?_eq_some_iff.mpr ⟨hwidth, rfl⟩, Option.bind_some]
    dsimp only
    rw [hspelled.spells, if_neg (not_or.mpr ⟨hspelled.leads, Nat.not_le.mpr hlong⟩)]
    exact cut?_eq_some_iff.mpr ⟨rfl, rfl⟩

/-- The contents behind a header, and what follows them. -/
def readHeaded? (base : Nat) : Bytes → Option (Bytes × Bytes)
  | [] => none
  | b :: later =>
    if b.toNat < base then none
    else if b.toNat ≤ base + 55 then cut? later (b.toNat - base)
    else if b.toNat ≤ base + 63 then readLong? (b.toNat - (base + 55)) later
    else none

theorem toNat_ofNat_of_lt (h : n < 256) : (UInt8.ofNat n).toNat = n := by
  rw [UInt8.toNat_ofNat', Nat.mod_eq_of_lt h]

theorem eq_ofNat_of_toNat {b : UInt8} (h : b.toNat = n) : b = UInt8.ofNat n := by
  rw [← h, UInt8.ofNat_toNat]

/-- **The reader of headers accepts exactly what is headed.** -/
theorem readHeaded?_eq_some_iff (hbase : base ≤ 0xc0) :
    readHeaded? base bytes = some (contents, rest) ↔
      ∃ form, Headed base contents form ∧ bytes = form ++ rest := by
  constructor
  · intro h
    cases bytes with
    | nil => cases h
    | cons b later =>
        rw [readHeaded?] at h
        split at h
        · cases h
        next hbelow =>
        split at h
        · next hshort =>
            obtain ⟨hlength, rfl⟩ := cut?_eq_some_iff.mp h
            have hb : b = UInt8.ofNat (base + contents.length) := eq_ofNat_of_toNat (by omega)
            exact ⟨_, .short (by omega), by rw [hb]; rfl⟩
        next hlong =>
        split at h
        · next hkind =>
            obtain ⟨spelled, hwidth, hspelled, hlength, rfl⟩ := readLong?_eq_some_iff.mp h
            have hb : b = UInt8.ofNat (base + 55 + spelled.length) :=
              eq_ofNat_of_toNat (by omega)
            exact ⟨_, .long hlength hspelled (by omega), by
              rw [hb, List.cons_append, List.append_assoc]⟩
        · cases h
  · rintro ⟨form, hheaded, rfl⟩
    cases hheaded with
    | short hshort =>
        have hb : (UInt8.ofNat (base + contents.length)).toNat = base + contents.length :=
          toNat_ofNat_of_lt (by omega)
        rw [List.cons_append, readHeaded?, hb, if_neg (by omega), if_pos (by omega),
          Nat.add_sub_cancel_left]
        exact cut?_eq_some_iff.mpr ⟨rfl, rfl⟩
    | @long spelled hlong hspelled hwidth =>
        have hb : (UInt8.ofNat (base + 55 + spelled.length)).toNat =
            base + 55 + spelled.length := toNat_ofNat_of_lt (by omega)
        -- A length above 55 is spelled on one byte at least.
        have hpos : 0 < spelled.length := by
          refine List.length_pos_iff.mpr fun hnil => ?_
          have hzero := hspelled.spells
          rw [hnil, Bytes.toNat_nil] at hzero
          omega
        rw [List.cons_append, readHeaded?, hb, if_neg (by omega), if_neg (by omega),
          if_pos (by omega), Nat.add_sub_cancel_left, List.append_assoc]
        exact readLong?_eq_some_iff.mpr ⟨spelled, rfl, hspelled, hlong, rfl⟩

/-! ### Strings -/

/-- A single byte below `0x80`, which is its own form. -/
def isLowByte : Bytes → Bool
  | [b] => b < 0x80
  | _ => false

/-- The form of a byte string. -/
inductive StringForm (contents : Bytes) : Bytes → Prop
  | low (hlow : isLowByte contents = true) : StringForm contents contents
  | headed {form : Bytes} (hhigh : isLowByte contents = false) (h : Headed 0x80 contents form) :
      StringForm contents form

theorem string_of_isLowByte (h : isLowByte contents = true) : string contents = contents := by
  unfold isLowByte at h
  split at h
  · next b => rw [string, if_pos (by simpa using h)]
  · cases h

theorem string_of_not_isLowByte (h : isLowByte contents = false) :
    string contents = header 0x80 contents.length ++ contents := by
  unfold isLowByte at h
  split at h
  · next b => rw [string, if_neg (by simpa using h)]; rfl
  · next hmany =>
      unfold string
      split
      · next b => exact absurd rfl (hmany b)
      · rfl

theorem stringForm_string (h : contents.length < 2 ^ 64) :
    StringForm contents (string contents) := by
  cases hlow : isLowByte contents with
  | true =>
      rw [string_of_isLowByte hlow]
      exact .low hlow
  | false =>
      rw [string_of_not_isLowByte hlow]
      exact .headed hlow (headed_header _ h)

theorem StringForm.eq_string (h : StringForm contents form) : form = string contents := by
  cases h with
  | low hlow => exact (string_of_isLowByte hlow).symm
  | headed hhigh hheaded => rw [hheaded.eq_header, string_of_not_isLowByte hhigh]

/-- The string whose form comes first, and what follows the form. -/
def readString? : Bytes → Option (Bytes × Bytes)
  | [] => none
  | b :: later =>
    if b < 0x80 then some ([b], later)
    else (readHeaded? 0x80 (b :: later)).filter fun read => !isLowByte read.1

/-- **The reader of strings accepts exactly their forms.** -/
theorem readString?_eq_some_iff :
    readString? bytes = some (contents, rest) ↔
      ∃ form, StringForm contents form ∧ bytes = form ++ rest := by
  have hbase : 0x80 ≤ 0xc0 := by decide
  constructor
  · intro h
    cases bytes with
    | nil => cases h
    | cons b later =>
        rw [readString?] at h
        split at h
        · next hlow =>
            cases h
            exact ⟨[b], .low (by simpa [isLowByte] using hlow), rfl⟩
        · obtain ⟨hread, hhigh⟩ := Option.filter_eq_some_iff.mp h
          obtain ⟨form, hheaded, hbytes⟩ := (readHeaded?_eq_some_iff hbase).mp hread
          exact ⟨form, .headed (by simpa using hhigh) hheaded, hbytes⟩
  · rintro ⟨form, hform, rfl⟩
    cases hform with
    | low hlow =>
        unfold isLowByte at hlow
        split at hlow
        · next b => rw [List.singleton_append, readString?, if_pos (by simpa using hlow)]
        · cases hlow
    | headed hhigh hheaded =>
        have hread : readHeaded? 0x80 (form ++ rest) = some (contents, rest) :=
          (readHeaded?_eq_some_iff hbase).mpr ⟨form, hheaded, rfl⟩
        cases hbytes : form ++ rest with
        | nil => rw [hbytes] at hread; cases hread
        | cons b later =>
            rw [hbytes] at hread
            have hnot : ¬ b < 0x80 := by
              intro hlow
              have hbelow : b.toNat < 0x80 := UInt8.lt_iff_toNat_lt.mp hlow
              rw [readHeaded?, if_pos hbelow] at hread
              cases hread
            rw [readString?, if_neg hnot]
            exact Option.filter_eq_some_iff.mpr ⟨hread, by simpa using hhigh⟩

theorem StringForm.length_pos (h : StringForm contents form) : 0 < form.length := by
  cases h with
  | low hlow =>
      unfold isLowByte at hlow
      split at hlow
      · exact Nat.one_pos
      · cases hlow
  | headed hhigh hheaded =>
      cases hheaded with
      | short => exact Nat.succ_pos _
      | long => exact Nat.succ_pos _

theorem length_lt_of_readString? (h : readString? bytes = some (contents, rest)) :
    rest.length < bytes.length := by
  obtain ⟨form, hform, rfl⟩ := readString?_eq_some_iff.mp h
  have hpos := hform.length_pos
  rw [List.length_append]
  omega

/-! ### Lists -/

/-- The form of a list of byte strings. -/
inductive ListForm (strings : List Bytes) : Bytes → Prop
  | intro {forms : List Bytes} {form : Bytes} (hforms : List.Forall₂ StringForm strings forms)
      (h : Headed 0xc0 forms.flatten form) : ListForm strings form

theorem eq_map_string {forms : List Bytes} (h : List.Forall₂ StringForm strings forms) :
    forms = strings.map string := by
  induction h with
  | nil => rfl
  | cons hform _ ih => rw [List.map_cons, ← hform.eq_string, ih]

theorem listForm_list (hstrings : ∀ contents ∈ strings, contents.length < 2 ^ 64)
    (h : (strings.map string).flatten.length < 2 ^ 64) :
    ListForm strings (list (strings.map string)) := by
  refine .intro ?_ (headed_header _ h)
  rw [List.forall₂_map_right_iff, List.forall₂_same]
  exact fun contents hcontents => stringForm_string (hstrings contents hcontents)

theorem ListForm.eq_list (h : ListForm strings form) : form = list (strings.map string) := by
  obtain ⟨hforms, hheaded⟩ := h
  rw [hheaded.eq_header, eq_map_string hforms]
  rfl

/-- The strings whose forms follow one another up to the end. -/
def readStrings? (bytes : Bytes) : Option (List Bytes) :=
  if bytes = [] then some []
  else
    match _hread : readString? bytes with
    | none => none
    | some (contents, later) => (readStrings? later).map (contents :: ·)
termination_by bytes.length
decreasing_by exact length_lt_of_readString? _hread

theorem readStrings?_eq_some_iff :
    readStrings? bytes = some strings ↔
      ∃ forms, List.Forall₂ StringForm strings forms ∧ bytes = forms.flatten := by
  fun_induction readStrings? bytes generalizing strings with
  | case1 =>
      constructor
      · rintro ⟨⟩
        exact ⟨[], .nil, rfl⟩
      · rintro ⟨forms, hforms, hbytes⟩
        cases hforms with
        | nil => rfl
        | cons hform hlater =>
            have hpos := hform.length_pos
            have hnone := congrArg List.length hbytes
            rw [List.flatten_cons, List.length_append, List.length_nil] at hnone
            omega
  | case2 bytes hbytes hread =>
      refine iff_of_false (by simp) ?_
      rintro ⟨forms, hforms, rfl⟩
      cases hforms with
      | nil => exact hbytes rfl
      | cons hform hlater =>
          rw [List.flatten_cons, readString?_eq_some_iff.mpr ⟨_, hform, rfl⟩] at hread
          cases hread
  | case3 bytes hbytes contents later hread ih =>
      constructor
      · intro h
        obtain ⟨more, hmore, rfl⟩ := Option.map_eq_some_iff.mp h
        obtain ⟨form, hform, rfl⟩ := readString?_eq_some_iff.mp hread
        obtain ⟨forms, hforms, rfl⟩ := ih.mp hmore
        exact ⟨form :: forms, .cons hform hforms, rfl⟩
      · rintro ⟨forms, hforms, rfl⟩
        cases hforms with
        | nil => exact absurd rfl hbytes
        | @cons first form more forms hform hmore =>
            rw [List.flatten_cons, readString?_eq_some_iff.mpr ⟨_, hform, rfl⟩] at hread
            cases hread
            rw [ih.mpr ⟨forms, hmore, rfl⟩]
            rfl

/-- The strings of a list, if the bytes are its form. -/
def readList? (bytes : Bytes) : Option (List Bytes) :=
  match readHeaded? 0xc0 bytes with
  | some (contents, []) => readStrings? contents
  | _ => none

/-- **The reader of lists accepts exactly their forms.** -/
theorem readList?_eq_some_iff : readList? bytes = some strings ↔ ListForm strings bytes := by
  have hbase : 0xc0 ≤ 0xc0 := Nat.le_refl _
  constructor
  · intro h
    unfold readList? at h
    split at h
    · next contents hread =>
        obtain ⟨form, hheaded, rfl⟩ := (readHeaded?_eq_some_iff hbase).mp hread
        obtain ⟨forms, hforms, rfl⟩ := readStrings?_eq_some_iff.mp h
        rw [List.append_nil]
        exact .intro hforms hheaded
    · cases h
  · rintro ⟨hforms, hheaded⟩
    have hread : readHeaded? 0xc0 bytes = some (_, []) :=
      (readHeaded?_eq_some_iff hbase).mpr ⟨bytes, hheaded, (List.append_nil bytes).symm⟩
    rw [readList?, hread]
    exact readStrings?_eq_some_iff.mpr ⟨_, hforms, rfl⟩

end MessageCalls.Rlp
