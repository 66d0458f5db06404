import Mathlib.Data.List.Induction
import Mathlib.Data.Option.Basic
import MessageCalls.Yaml.Rules
/-!
# MessageCalls.Proofs.Yaml.Values

What a scalar may spell as the value of a rule. A number is spelled by digits in one of four bases
(`Numeral`), and a text spells one number at most. Every rule has its values and its way to spell
them (`Rule.Spells`), and the scalars that spell none of them are those of a wrong kind
(`Rule.WrongKind`). **A rule is read as the value that is spelled** (`Rule.read?_eq_some_iff`).
-/

namespace MessageCalls.Yaml

/-! ### Numbers -/

/-- Digits in a base, and the number they spell. -/
inductive Digits (base : Nat) : List Char → Nat → Prop
  | single (hd : hexValue? c = some d) (hlt : d < base) : Digits base [c] d
  | append (h : Digits base cs n) (hd : hexValue? c = some d) (hlt : d < base) :
      Digits base (cs ++ [c]) (base * n + d)

/-- A number without a sign. Decimal digits have no superfluous zeros; other bases have a mark. -/
inductive Unsigned : List Char → Nat → Prop
  | zero : Unsigned ['0'] 0
  | decimal (h : Digits 10 (c :: cs) n) (hzero : c ≠ '0') : Unsigned (c :: cs) n
  | hexadecimal (h : Digits 16 cs n) : Unsigned ('0' :: 'x' :: cs) n
  | octal (h : Digits 8 cs n) : Unsigned ('0' :: 'o' :: cs) n
  | binary (h : Digits 2 cs n) : Unsigned ('0' :: 'b' :: cs) n

/-- A number, which may have a plus sign. -/
inductive Numeral : List Char → Nat → Prop
  | bare (h : Unsigned cs n) : Numeral cs n
  | plus (h : Unsigned cs n) : Numeral ('+' :: cs) n

variable {base n m : Nat} {c : Char} {cs : List Char} {s : Scalar}

/-- One more digit. -/
def nextDigit? (base n : Nat) (c : Char) : Option Nat := do
  let d ← hexValue? c
  guard (d < base)
  return base * n + d

theorem nextDigit?_eq_some_iff :
    nextDigit? base n c = some m ↔ ∃ d, hexValue? c = some d ∧ d < base ∧ base * n + d = m := by
  rw [nextDigit?]
  cases hexValue? c with
  | none => simp
  | some d => by_cases hlt : d < base <;> simp [hlt, guard, failure]

theorem Digits.ne_nil (h : Digits base cs n) : cs ≠ [] := by
  cases h <;> simp

theorem Digits.isDigit (h : Digits base cs n) : ∀ c ∈ cs, (hexValue? c).isSome := by
  induction h with
  | single hd => simp [hd]
  | append _ hd _ ih =>
      intro c hc
      rcases List.mem_append.mp hc with hc | hc
      · exact ih c hc
      · rw [List.mem_singleton.mp hc, hd]
        rfl

theorem numberInBase?_eq (hne : cs ≠ []) :
    numberInBase? base cs = cs.foldlM (nextDigit? base) 0 :=
  if_neg (by simpa using hne)

/-- Digits are read as the number they spell. -/
theorem numberInBase?_eq_some_iff : numberInBase? base cs = some n ↔ Digits base cs n := by
  constructor
  · intro h
    induction cs using List.reverseRecOn generalizing n with
    | nil => cases h
    | append_singleton cs c ih =>
        rw [numberInBase?_eq (by simp), List.foldlM_append] at h
        obtain ⟨m, hm, hc⟩ := Option.bind_eq_some_iff.mp h
        obtain ⟨d, hd, hlt, rfl⟩ := nextDigit?_eq_some_iff.mp (by simpa using hc)
        by_cases hne : cs = []
        · obtain rfl := hne
          obtain rfl : 0 = m := Option.some.inj hm
          rw [Nat.mul_zero, Nat.zero_add]
          exact .single hd hlt
        · exact .append (ih (by rwa [numberInBase?_eq hne])) hd hlt
  · intro h
    induction h with
    | single hd hlt =>
        rw [numberInBase?_eq (by simp), List.foldlM_cons,
          nextDigit?_eq_some_iff.mpr ⟨_, hd, hlt, rfl⟩]
        simp
    | append h hd hlt ih =>
        have hne := h.ne_nil
        rw [numberInBase?_eq hne] at ih
        rw [numberInBase?_eq (by simp), List.foldlM_append, ih]
        simpa using nextDigit?_eq_some_iff.mpr ⟨_, hd, hlt, rfl⟩

/-- The number that a text without a sign spells. -/
def unsigned? (cs : List Char) : Option Nat :=
  match cs with
  | '0' :: 'x' :: rest => numberInBase? 16 rest
  | '0' :: 'o' :: rest => numberInBase? 8 rest
  | '0' :: 'b' :: rest => numberInBase? 2 rest
  | '0' :: _ :: _ => none
  | _ => numberInBase? 10 cs

theorem number?_plus : number? ('+' :: cs) = unsigned? cs := rfl

theorem number?_of_ne (h : c ≠ '+') : number? (c :: cs) = unsigned? (c :: cs) := by
  unfold number?
  extract_lets digits
  have hdigits : digits = c :: cs := by
    unfold digits
    split
    · next heq => exact absurd (List.cons.inj heq).1 h
    · rfl
  exact congrArg unsigned? hdigits

theorem unsigned?_eq_some_iff : unsigned? cs = some n ↔ Unsigned cs n := by
  constructor
  · intro h
    unfold unsigned? at h
    split at h
    · exact .hexadecimal (numberInBase?_eq_some_iff.mp h)
    · exact .octal (numberInBase?_eq_some_iff.mp h)
    · exact .binary (numberInBase?_eq_some_iff.mp h)
    · cases h
    · next hother =>
        have hdigits := numberInBase?_eq_some_iff.mp h
        obtain ⟨c, cs, rfl⟩ := List.exists_cons_of_ne_nil hdigits.ne_nil
        by_cases hzero : c = '0'
        · subst hzero
          cases cs with
          | nil =>
              obtain rfl : 0 = n := Option.some.inj h
              exact .zero
          | cons d cs => exact absurd rfl (hother d cs)
        · exact .decimal hdigits hzero
  · intro h
    cases h with
    | zero => rfl
    | decimal h hzero =>
        rw [unsigned?]
        · exact numberInBase?_eq_some_iff.mpr h
        -- The marks of the other bases start with a zero.
        all_goals
          intros
          rename_i heq
          exact hzero (List.cons.inj heq).1
    | hexadecimal h => exact numberInBase?_eq_some_iff.mpr h
    | octal h => exact numberInBase?_eq_some_iff.mpr h
    | binary h => exact numberInBase?_eq_some_iff.mpr h

/-- **A text is read as the number that it spells.** -/
theorem number?_eq_some_iff : number? cs = some n ↔ Numeral cs n := by
  constructor
  · intro h
    cases cs with
    | nil => cases h
    | cons c cs =>
        by_cases hplus : c = '+'
        · subst hplus
          rw [number?_plus] at h
          exact .plus (unsigned?_eq_some_iff.mp h)
        · rw [number?_of_ne hplus] at h
          exact .bare (unsigned?_eq_some_iff.mp h)
  · intro h
    cases h with
    | plus h => rwa [number?_plus, unsigned?_eq_some_iff]
    | bare h =>
        obtain ⟨c, rest, rfl, hplus⟩ : ∃ c rest, cs = c :: rest ∧ c ≠ '+' := by
          cases h with
          | decimal h =>
              refine ⟨_, _, rfl, ?_⟩
              rintro rfl
              exact absurd (h.isDigit '+' List.mem_cons_self) (by decide)
          | _ => exact ⟨_, _, rfl, by decide⟩
        rw [number?_of_ne hplus]
        exact unsigned?_eq_some_iff.mpr h

theorem Numeral.unique (h : Numeral cs n) (hm : Numeral cs m) : n = m :=
  Option.some.inj ((number?_eq_some_iff.mpr h).symm.trans (number?_eq_some_iff.mpr hm))

theorem not_numeral_of_number?_eq_none (h : number? cs = none) : ¬ Numeral cs n := by
  rw [← number?_eq_some_iff, h]
  exact nofun

theorem not_numeral_minus : ¬ Numeral ('-' :: cs) n := by
  intro h
  cases h with
  | bare h =>
      cases h with
      | decimal h => exact absurd (h.isDigit '-' List.mem_cons_self) (by decide)

theorem digits_toDigits (hbase : 1 < base) (hle : base ≤ 16) (n : Nat) :
    Digits base (Nat.toDigits base n) n := by
  induction n using Nat.strongRecOn with
  | ind n ih =>
      by_cases hsmall : n < base
      · rw [Nat.toDigits_of_lt_base hsmall]
        exact .single (hexValue?_digitChar (by omega)) hsmall
      · have hlt := Nat.mod_lt n (show 0 < base by omega)
        have happend := (ih (n / base) (Nat.div_lt_self (by omega) hbase)).append
          (hexValue?_digitChar (show n % base < 16 by omega)) hlt
        rwa [← Nat.toDigits_of_base_le hbase (by omega), Nat.div_add_mod] at happend

/-- Decimal digits start with a zero only where they spell zero. -/
theorem head?_toDigits_ne (h : 0 < n) : (Nat.toDigits 10 n).head? ≠ some '0' := by
  induction n using Nat.strongRecOn with
  | ind n ih =>
      by_cases hsmall : n < 10
      · have hall : ∀ d : Fin 10, 0 < d.val → Nat.digitChar d ≠ '0' := by decide
        rw [Nat.toDigits_of_lt_base hsmall]
        simpa using hall ⟨n, hsmall⟩ h
      · have hrest := ih (n / 10) (by omega) (by omega)
        obtain ⟨c, cs, hcons⟩ := List.exists_cons_of_ne_nil
          (digits_toDigits (show 1 < 10 by decide) (by decide) (n / 10)).ne_nil
        rw [hcons] at hrest
        rw [Nat.toDigits_of_base_le (by decide) (by omega), hcons]
        exact hrest

/-- Every number is spelled by its decimal digits. -/
theorem numeral_toDigits (n : Nat) : Numeral (Nat.toDigits 10 n) n := by
  have hdigits := digits_toDigits (show 1 < 10 by decide) (by decide) n
  cases hpositive : n with
  | zero => exact .bare .zero
  | succ k =>
      rw [← hpositive]
      have hhead := head?_toDigits_ne (n := n) (by omega)
      obtain ⟨c, cs, hcons⟩ := List.exists_cons_of_ne_nil hdigits.ne_nil
      rw [hcons] at hdigits hhead ⊢
      exact .bare (.decimal hdigits fun hzero => hhead (by rw [hzero]; rfl))

/-! ### Values -/

/-- The texts for a truth value. -/
def flagTexts : Bool → List String
  | true => ["true", "True", "TRUE"]
  | false => ["false", "False", "FALSE"]

/-- The texts for no value. -/
def nullTexts : List String := ["", "~", "null", "Null", "NULL"]

/-- A plain scalar spells a 64-bit number. -/
def SpellsNumber (s : Scalar) (n : UInt64) : Prop :=
  s.style = .plain ∧ Numeral s.text.toList n.toNat

/-- A plain scalar spells a truth value. -/
def SpellsFlag (s : Scalar) (b : Bool) : Prop := s.style = .plain ∧ s.text ∈ flagTexts b

/-- A plain scalar spells a 64-bit number or that there is none. -/
def SpellsOptional (s : Scalar) : Option UInt64 → Prop
  | none => s.style = .plain ∧ s.text ∈ nullTexts
  | some n => SpellsNumber s n

theorem not_numeral_of_mem_flagTexts {b : Bool} (h : s.text ∈ flagTexts b) :
    ¬ Numeral s.text.toList n := by
  have hall : ∀ b, ∀ text ∈ flagTexts b, number? text.toList = none := by decide
  exact not_numeral_of_number?_eq_none (hall b _ h)

theorem not_numeral_of_mem_nullTexts (h : s.text ∈ nullTexts) : ¬ Numeral s.text.toList n := by
  have hall : ∀ text ∈ nullTexts, number? text.toList = none := by decide
  exact not_numeral_of_number?_eq_none (hall _ h)

theorem Scalar.mayBe_eq (hs : s.tag = none) (kind : String) :
    s.mayBe kind = decide (s.style = .plain) := by
  obtain ⟨style, tag, text⟩ := s
  obtain rfl : tag = none := hs
  cases style <;> simp [mayBe]

theorem uint64?_eq_some_iff (hs : s.tag = none) {n : UInt64} :
    Node.uint64? (.scalar s) = some n ↔ SpellsNumber s n := by
  have hread : ∀ k : Nat, (if k < 2 ^ 64 then some (UInt64.ofNat k) else none) = some n ↔
      k = n.toNat := by
    intro k
    have hlt := n.toNat_lt
    split
    · next hk =>
        rw [Option.some.injEq, ← UInt64.toNat_inj, UInt64.toNat_ofNat_of_lt' hk]
    · next hk => exact iff_of_false nofun (by omega)
  by_cases hstyle : s.style = .plain
  · simp only [Node.uint64?, Scalar.mayBe_eq hs, hstyle, decide_true, guard, if_true,
      Option.bind_eq_bind, Option.pure_def, Option.bind_some, Option.bind_eq_some_iff, hread,
      SpellsNumber, true_and, number?_eq_some_iff, exists_eq_right]
  · simp [Node.uint64?, Scalar.mayBe_eq hs, hstyle, guard, SpellsNumber]

theorem flag?_eq_some_iff (hs : s.tag = none) {b : Bool} :
    Node.flag? (.scalar s) = some b ↔ SpellsFlag s b := by
  by_cases hstyle : s.style = .plain
  · have hread : Node.flag? (.scalar s) =
        if s.text ∈ flagTexts true then some true
        else if s.text ∈ flagTexts false then some false else none := by
      simp [Node.flag?, Scalar.mayBe_eq hs, hstyle, guard, flagTexts, or_assoc]
    have hapart : s.text ∈ flagTexts true → s.text ∉ flagTexts false := by
      have hall : ∀ text ∈ flagTexts true, text ∉ flagTexts false := by decide
      exact hall _
    rw [hread, SpellsFlag]
    cases b with
    | true => by_cases htrue : s.text ∈ flagTexts true <;> simp [hstyle, htrue]
    | false =>
        by_cases htrue : s.text ∈ flagTexts true
        · simp [hstyle, htrue, hapart htrue]
        · simp [hstyle, htrue]
  · simp [Node.flag?, Scalar.mayBe_eq hs, hstyle, guard, SpellsFlag]

theorem optionalUInt64?_eq_some_iff (hs : s.tag = none) {v : Option UInt64} :
    Node.optionalUInt64? (.scalar s) = some v ↔ SpellsOptional s v := by
  have hnull : Node.isNull? (.scalar s) =
      some (decide (s.style = .plain ∧ s.text ∈ nullTexts)) := by
    obtain ⟨style, tag, text⟩ := s
    obtain rfl : tag = none := hs
    cases style <;> simp [Node.isNull?, isNullText, nullTexts, Bool.or_assoc]
  rw [Node.optionalUInt64?, hnull]
  simp only [Option.bind_eq_bind, Option.bind_some, decide_eq_true_eq]
  split
  · next h =>
      cases v with
      | none => exact iff_of_true rfl h
      | some n => exact iff_of_false nofun fun hn => not_numeral_of_mem_nullTexts h.2 hn.2
  · next h =>
      cases v with
      | none => exact iff_of_false (by simp) h
      | some n => simpa [SpellsOptional] using uint64?_eq_some_iff hs

/-! ### Rules -/

/-- A rule of the chain. -/
inductive Rule
  | callStackLimit
  | noncePersistsOnFailure
  | contractLimit
  | codeDepositNrg
  deriving DecidableEq

namespace Rule

variable {r : Rule}

/-- The key of a rule in a document. -/
def key : Rule → String
  | callStackLimit => "call_stack_limit"
  | noncePersistsOnFailure => "create_nonce_persists_on_failure"
  | contractLimit => "create_contract_limit"
  | codeDepositNrg => "code_deposit_nrg"

/-- The values of a rule. -/
abbrev Value : Rule → Type
  | callStackLimit | codeDepositNrg => UInt64
  | noncePersistsOnFailure => Bool
  | contractLimit => Option UInt64

/-- The value that a configuration has for a rule. -/
def of (c : Config) : (r : Rule) → r.Value
  | callStackLimit => c.callStackLimit
  | noncePersistsOnFailure => c.noncePersistsOnFailure
  | contractLimit => c.contractLimit
  | codeDepositNrg => c.codeDepositNrg

/-- A scalar spells a value of a rule. -/
def Spells (s : Scalar) : (r : Rule) → r.Value → Prop
  | callStackLimit | codeDepositNrg => SpellsNumber s
  | noncePersistsOnFailure => SpellsFlag s
  | contractLimit => SpellsOptional s

/-- A scalar is of a wrong kind for a rule. -/
inductive WrongKind (r : Rule) (s : Scalar) : Prop
  /-- It is quoted or set off as a block, whatever it says. -/
  | quoted (h : s.style ≠ .plain)
  | negative {cs : List Char} {n : Nat} (h : Numeral cs n) (hminus : s.text.toList = '-' :: cs)
  | tooLarge {n : Nat} (h : Numeral s.text.toList n) (hlarge : 2 ^ 64 ≤ n)
  /-- It means nothing but its text. -/
  | text (hnumber : ∀ n, ¬ Numeral s.text.toList n) (hflag : ∀ b, s.text ∉ flagTexts b)
      (hnull : s.text ∉ nullTexts)
  | null (h : s.text ∈ nullTexts) (hrule : r ≠ contractLimit)
  | flag {b : Bool} (h : s.text ∈ flagTexts b) (hrule : r ≠ noncePersistsOnFailure)
  | number {n : Nat} (h : Numeral s.text.toList n) (hrule : r = noncePersistsOnFailure)

/-- How the value of a rule is read. -/
def read? : (r : Rule) → Node → Option r.Value
  | callStackLimit | codeDepositNrg => Node.uint64?
  | noncePersistsOnFailure => Node.flag?
  | contractLimit => Node.optionalUInt64?

/-- **A rule is read as the value that a scalar spells.** -/
theorem read?_eq_some_iff (hs : s.tag = none) {v : r.Value} :
    r.read? (.scalar s) = some v ↔ r.Spells s v := by
  cases r with
  | callStackLimit => exact uint64?_eq_some_iff hs
  | codeDepositNrg => exact uint64?_eq_some_iff hs
  | noncePersistsOnFailure => exact flag?_eq_some_iff hs
  | contractLimit => exact optionalUInt64?_eq_some_iff hs

theorem exists_spellsNumber_iff :
    (∃ n, SpellsNumber s n) ↔ s.style = .plain ∧ ∃ n < 2 ^ 64, Numeral s.text.toList n := by
  constructor
  · rintro ⟨n, hstyle, hn⟩
    exact ⟨hstyle, n.toNat, n.toNat_lt, hn⟩
  · rintro ⟨hstyle, n, hlt, hn⟩
    exact ⟨UInt64.ofNat n, hstyle, by rwa [UInt64.toNat_ofNat_of_lt' hlt]⟩

/-- Which texts spell a value depends on the kind of values of the rule. -/
theorem exists_spells_iff : (∃ v, r.Spells s v) ↔ s.style = .plain ∧
    (r ≠ noncePersistsOnFailure ∧ (∃ n < 2 ^ 64, Numeral s.text.toList n) ∨
      r = noncePersistsOnFailure ∧ (∃ b, s.text ∈ flagTexts b) ∨
      r = contractLimit ∧ s.text ∈ nullTexts) := by
  cases r with
  | callStackLimit => simpa [Spells] using exists_spellsNumber_iff
  | codeDepositNrg => simpa [Spells] using exists_spellsNumber_iff
  | noncePersistsOnFailure => simp [Spells, SpellsFlag]
  | contractLimit =>
      have hnumber := exists_spellsNumber_iff (s := s)
      simp only [Spells, Option.exists, SpellsOptional, hnumber]
      simp [and_or_left, or_comm]

/-- **The scalars of a wrong kind are those that spell no value.** -/
theorem wrongKind_iff : r.WrongKind s ↔ ∀ v, ¬ r.Spells s v := by
  have hapart : ∀ b, s.text ∈ flagTexts b → s.text ∉ nullTexts := by
    have hall : ∀ b, ∀ text ∈ flagTexts b, text ∉ nullTexts := by decide
    exact fun b => hall b _
  have hsign : (∃ b, s.text ∈ flagTexts b) ∨ s.text ∈ nullTexts →
      s.text.toList.head? ≠ some '-' := by
    have hflag : ∀ b, ∀ text ∈ flagTexts b, text.toList.head? ≠ some '-' := by decide
    have hnull : ∀ text ∈ nullTexts, text.toList.head? ≠ some '-' := by decide
    rintro (⟨b, h⟩ | h)
    · exact hflag b _ h
    · exact hnull _ h
  rw [← not_exists, exists_spells_iff]
  constructor
  · rintro h ⟨hstyle, hvalue⟩
    cases h with
    | quoted h => exact h hstyle
    | negative h hminus =>
        rcases hvalue with ⟨-, n, -, hn⟩ | ⟨-, hflag⟩ | ⟨-, hnull⟩
        · rw [hminus] at hn
          exact not_numeral_minus hn
        · exact hsign (.inl hflag) (by rw [hminus, List.head?_cons])
        · exact hsign (.inr hnull) (by rw [hminus, List.head?_cons])
    | tooLarge h hlarge =>
        rcases hvalue with ⟨-, n, hlt, hn⟩ | ⟨-, b, hflag⟩ | ⟨-, hnull⟩
        · exact absurd (hn.unique h ▸ hlt) (Nat.not_lt.mpr hlarge)
        · exact not_numeral_of_mem_flagTexts hflag h
        · exact not_numeral_of_mem_nullTexts hnull h
    | text hnumber hflag hnull =>
        rcases hvalue with ⟨-, n, -, hn⟩ | ⟨-, b, hb⟩ | ⟨-, h⟩
        · exact hnumber n hn
        · exact hflag b hb
        · exact hnull h
    | null h hrule =>
        rcases hvalue with ⟨-, n, -, hn⟩ | ⟨-, b, hb⟩ | ⟨hr, -⟩
        · exact not_numeral_of_mem_nullTexts h hn
        · exact hapart b hb h
        · exact hrule hr
    | flag h hrule =>
        rcases hvalue with ⟨-, n, -, hn⟩ | ⟨hr, -⟩ | ⟨-, hnull⟩
        · exact not_numeral_of_mem_flagTexts h hn
        · exact hrule hr
        · exact hapart _ h hnull
    | number h hrule =>
        rcases hvalue with ⟨hr, -⟩ | ⟨-, b, hb⟩ | ⟨hr, -⟩
        · exact hr hrule
        · exact not_numeral_of_mem_flagTexts hb h
        · cases hrule.symm.trans hr
  -- What spells no value is at fault for the first reason that applies.
  · intro h
    by_cases hstyle : s.style = .plain
    swap
    · exact .quoted hstyle
    by_cases hnumber : ∃ n, Numeral s.text.toList n
    · obtain ⟨n, hn⟩ := hnumber
      by_cases hlarge : 2 ^ 64 ≤ n
      · exact .tooLarge hn hlarge
      · refine .number hn (Classical.byContradiction fun hr => h ⟨hstyle, .inl ⟨hr, n, ?_, hn⟩⟩)
        exact Nat.lt_of_not_le hlarge
    by_cases hflag : ∃ b, s.text ∈ flagTexts b
    · obtain ⟨b, hb⟩ := hflag
      exact .flag hb fun hr => h ⟨hstyle, .inr (.inl ⟨hr, b, hb⟩)⟩
    by_cases hnull : s.text ∈ nullTexts
    · exact .null hnull fun hr => h ⟨hstyle, .inr (.inr ⟨hr, hnull⟩)⟩
    · exact .text (not_exists.mp hnumber) (not_exists.mp hflag) hnull

end Rule

end MessageCalls.Yaml
