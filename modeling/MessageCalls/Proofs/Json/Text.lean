import Mathlib.Data.Option.Basic
import MessageCalls.Json.Reader
/-!
# MessageCalls.Proofs.Json.Text

The compact text of a document is read back as that document. **What is written is read one token
at a time, whatever follows it**: a string up to its closing quote, a number up to a character that
cannot continue it, and a list or an object up to its bracket. The main theorem is
`Json.parse?_compact`; the induction behind it, `Json.readValue_chars`, shows that each character
written pays for one unit of the reader's fuel.

Documents of numbers that are no natural numbers, and strings without a text, are never written by
a codec and are left out (`Json.Writable`).
-/

namespace MessageCalls.Json

/-! ### Strings -/

/-- An escaped control character is spelled by the last two of four digits. -/
theorem hex4?_control {n : Nat} (h : n < 0x20) :
    hex4? '0' '0' (Nat.digitChar (n / 16)) (Nat.digitChar (n % 16)) = some n := by
  have hall : ∀ m : Fin 0x20,
      hex4? '0' '0' (Nat.digitChar (m / 16)) (Nat.digitChar (m % 16)) = some m.val := by decide
  exact hall ⟨n, h⟩

/-- Each character of a text is read back from what is written for it. -/
theorem codePoints?_escape (c : Char) {cs rest : List Char} {points : List Nat}
    (h : codePoints? cs = some (points, rest)) :
    codePoints? (escape c ++ cs) = some (c.toNat :: points, rest) := by
  unfold escape
  split
  case h_8 hquote hslash _ _ _ _ _ =>
    split
    · next hcontrol => simp [codePoints?, hex4?_control hcontrol, h]
    · next hplain =>
        -- No escape stands here, so the character is taken for itself.
        rw [List.singleton_append, codePoints?]
        · rw [(Option.guard_eq_some' ()).mpr (Nat.not_lt.mp hplain)]
          simp [h]
        all_goals simp_all
  all_goals simp [codePoints?, h]

theorem codePoints?_flatMap_escape (s rest : List Char) :
    codePoints? (s.flatMap escape ++ '"' :: rest) = some (s.map Char.toNat, rest) := by
  induction s with
  | nil => simp [codePoints?]
  | cons c s ih =>
      rw [List.flatMap_cons, List.append_assoc, List.map_cons]
      exact codePoints?_escape c ih

/-- No character is a surrogate. -/
theorem not_surrogate (c : Char) : c.toNat < 0xd800 ∨ 0xe000 ≤ c.toNat := by
  rcases c.valid with h | h
  · exact .inl h
  · exact .inr h.1

theorem joinSurrogates?_map_toNat (s : List Char) :
    joinSurrogates? (s.map Char.toNat) = some s := by
  induction s with
  | nil => rfl
  | cons c s ih =>
      have hc := not_surrogate c
      cases s with
      | nil =>
          have hnone : ¬ (0xd800 ≤ c.toNat ∧ c.toNat < 0xe000) := by omega
          simp [joinSurrogates?, hnone]
      | cons d s =>
          have hhigh : ¬ (0xd800 ≤ c.toNat ∧ c.toNat < 0xdc00) := by omega
          have hlow : ¬ (0xdc00 ≤ c.toNat ∧ c.toNat < 0xe000) := by omega
          rw [List.map_cons] at ih
          simp [joinSurrogates?, hhigh, hlow, ih]

/-- A string literal is read back, up to its closing quote. -/
theorem readString_quoted (s : String) (rest : List Char) :
    readString (s.toList.flatMap escape ++ '"' :: rest) = some (some s, rest) := by
  simp [readString, codePoints?_flatMap_escape, joinSurrogates?_map_toNat]

/-! ### Numbers -/

/-- What follows a number does not continue it. -/
def EndsNumber (rest : List Char) : Prop :=
  ∀ c ∈ rest.head?, c.isDigit = false ∧ c ≠ '.' ∧ c ≠ 'e' ∧ c ≠ 'E'

theorem endsNumber_nil : EndsNumber [] := by simp [EndsNumber]

theorem endsNumber_cons {c : Char} (hc : c = ',' ∨ c = ']' ∨ c = '\x7d') (rest : List Char) :
    EndsNumber (c :: rest) := by
  intro d hd
  obtain rfl : c = d := Option.some.inj hd
  rcases hc with rfl | rfl | rfl <;> decide

/-- A natural number starts with a digit. -/
theorem exists_digit_cons (n : Nat) :
    ∃ first more, Nat.toDigits 10 n = first :: more ∧ first.isDigit = true := by
  have hall : ∀ c ∈ Nat.toDigits 10 n, c.isDigit = true := fun c hc =>
    Nat.isDigit_of_mem_toDigits (by decide) (by decide) hc
  cases hdigits : Nat.toDigits 10 n with
  | nil => exact absurd hdigits Nat.toDigits_ne_nil
  | cons first more => exact ⟨first, more, rfl, hall first (by simp [hdigits])⟩

/-- A number of several digits does not start with a zero. -/
theorem toDigits_ne_zero_cons {n : Nat} (h : 10 ≤ n) (ds : List Char) :
    Nat.toDigits 10 n ≠ '0' :: ds := by
  induction n using Nat.strongRecOn generalizing ds with
  | ind n ih =>
      rw [Nat.toDigits_of_base_le (by decide) h]
      intro hzero
      obtain ⟨first, more, hfirst, -⟩ := exists_digit_cons (n / 10)
      rw [hfirst, List.cons_append, List.cons.injEq] at hzero
      rw [hzero.1] at hfirst
      by_cases hten : 10 ≤ n / 10
      · exact ih (n / 10) (by omega) hten more hfirst
      · rw [Nat.toDigits_of_lt_base (by omega), List.cons.injEq, Nat.digitChar_eq_zero] at hfirst
        omega

theorem digits?_toDigits (n : Nat) {rest : List Char} (h : EndsNumber rest) :
    digits? (Nat.toDigits 10 n ++ rest) = some (Nat.toDigits 10 n, rest) := by
  have hall : ∀ c ∈ Nat.toDigits 10 n, c.isDigit = true := fun c hc =>
    Nat.isDigit_of_mem_toDigits (by decide) (by decide) hc
  have hstop : rest.takeWhile Char.isDigit = [] ∧ rest.dropWhile Char.isDigit = rest := by
    cases rest with
    | nil => exact ⟨rfl, rfl⟩
    | cons c rest =>
        have hc := (h c rfl).1
        simp [hc]
  rw [digits?, List.takeWhile_append_of_pos hall, List.dropWhile_append_of_pos hall, hstop.1,
    hstop.2, List.append_nil]
  split
  · next hnil => exact absurd hnil Nat.toDigits_ne_nil
  · rfl

theorem whole?_toDigits (n : Nat) {rest : List Char} (h : EndsNumber rest) :
    whole? (Nat.toDigits 10 n ++ rest) = some (Nat.toDigits 10 n, rest) := by
  rw [whole?, digits?_toDigits n h]
  simp only [Option.bind_eq_bind, Option.bind_some]
  split
  · next d ds hdigits =>
      by_cases hten : 10 ≤ n
      · exact absurd hdigits (toDigits_ne_zero_cons hten _)
      · rw [Nat.toDigits_of_lt_base (by omega)] at hdigits
        simp at hdigits
  · rfl

/-- A natural number is read back, up to a character that does not continue it. -/
theorem readNumber_toDigits (n : Nat) {rest : List Char} (h : EndsNumber rest) :
    readNumber (Nat.toDigits 10 n ++ rest) = some (.natural n, rest) := by
  have hfraction : fraction? rest = some ([], rest) := by
    unfold fraction?
    split
    · next rest => exact absurd rfl (h '.' rfl).2.1
    · rfl
  have hexponent : exponent? rest = some ([], rest) := by
    cases rest with
    | nil => rfl
    | cons c rest =>
        obtain ⟨-, -, he, hE⟩ := h c rfl
        simp [exponent?, he, hE]
  have hvalue : decimal (Nat.toDigits 10 n) = n := by
    rw [decimal, ← Nat.ofDigitChars_eq_foldl, Nat.ofDigitChars_ten_toDigits]
  obtain ⟨first, more, hfirst, hdigit⟩ := exists_digit_cons n
  have hsign : first ≠ '-' := by
    rintro rfl
    exact absurd hdigit (by decide)
  have hwhole := whole?_toDigits n h
  rw [hfirst, List.cons_append] at hwhole ⊢
  rw [hfirst] at hvalue
  simp [readNumber, hsign, hwhole, hfraction, hexponent, hvalue]

/-! ### Documents -/

/-- The documents that codecs write. -/
inductive Writable : Json → Prop
  | null : Writable .null
  | bool (b : Bool) : Writable (.bool b)
  | natural (n : Nat) : Writable (.natural n)
  | text (s : String) : Writable (.text s)
  | array {items : List Json} (h : ∀ item ∈ items, Writable item) : Writable (.array items)
  | record {fields : List (String × Json)} (h : ∀ f ∈ fields, Writable f.2) :
    Writable (.record fields)

theorem isBlank_of_isDigit {c : Char} (h : c.isDigit = true) : isBlank c = false := by
  cases hblank : isBlank c with
  | false => rfl
  | true =>
      simp only [isBlank, Bool.or_eq_true, decide_eq_true_eq] at hblank
      rcases hblank with ((rfl | rfl) | rfl) | rfl <;> exact absurd h (by decide)

/-- The first character of a document is no blank and closes nothing. -/
def Starts (cs : List Char) : Prop :=
  ∃ c more, cs = c :: more ∧ isBlank c = false ∧ c ≠ ']' ∧ c ≠ '\x7d'

theorem Writable.starts {j : Json} (h : Writable j) (rest : List Char) :
    Starts (j.chars ++ rest) := by
  cases h with
  | null => exact ⟨'n', _, rfl, by decide⟩
  | bool b => cases b <;> exact ⟨_, _, rfl, by decide⟩
  | natural n =>
      obtain ⟨first, more, hfirst, hdigit⟩ := exists_digit_cons n
      refine ⟨first, more ++ rest, by rw [chars, hfirst]; rfl, isBlank_of_isDigit hdigit, ?_, ?_⟩
      · rintro rfl
        exact absurd hdigit (by decide)
      · rintro rfl
        exact absurd hdigit (by decide)
  | text s => exact ⟨'"', _, rfl, by decide⟩
  | array _ => exact ⟨'[', _, rfl, by decide⟩
  | record _ => exact ⟨'\x7b', _, rfl, by decide⟩

theorem skipBlanks_cons {c : Char} (h : isBlank c = false) (cs : List Char) :
    skipBlanks (c :: cs) = c :: cs := by
  simp [skipBlanks, h]

theorem Starts.skipBlanks {cs : List Char} (h : Starts cs) : skipBlanks cs = cs := by
  obtain ⟨c, more, rfl, hblank, -⟩ := h
  exact skipBlanks_cons hblank more

theorem starts_itemChars {items : List Json} (hne : items ≠ []) (h : ∀ item ∈ items, Writable item)
    (rest : List Char) : Starts (itemChars items ++ rest) := by
  match items, hne with
  | [item], _ => exact (h item (by simp)).starts rest
  | item :: next :: items, _ =>
      rw [itemChars, List.append_assoc]
      · exact (h item (by simp)).starts _
      · simp

/-- A document is read back from its text, whatever follows that does not continue a number. -/
def ReadBack (j : Json) : Prop :=
  ∀ rest fuel, EndsNumber rest → j.chars.length ≤ fuel →
    readValue fuel (j.chars ++ rest) = some (j, rest)

theorem readBack_natural (n : Nat) : ReadBack (.natural n) := by
  intro rest fuel hrest hfuel
  obtain ⟨first, more, hfirst, hdigit⟩ := exists_digit_cons n
  have hnumber := readNumber_toDigits n hrest
  rw [chars, hfirst] at hfuel ⊢
  rw [hfirst] at hnumber
  cases fuel with
  | zero => simp at hfuel
  | succ fuel =>
      -- No keyword, quote or bracket starts with a digit, so the last branch of the reader is left.
      have hne : ∀ c, c.isDigit = false → first ≠ c := fun c hc heq => by simp [heq, hc] at hdigit
      rw [List.cons_append, readValue]
      · exact hnumber
      all_goals
        simp [hne 'n' rfl, hne 't' rfl, hne 'f' rfl, hne '"' rfl, hne '[' rfl, hne '\x7b' rfl]

/-- The items of a list are read back, up to its closing bracket. -/
theorem readItems_itemChars {items : List Json} (hne : items ≠ [])
    (hitems : ∀ item ∈ items, Writable item ∧ ReadBack item) (rest : List Char) {fuel : Nat}
    (hfuel : (itemChars items).length < fuel) :
    readItems fuel (itemChars items ++ ']' :: rest) = some (items, rest) := by
  induction items generalizing fuel with
  | nil => exact absurd rfl hne
  | cons item items ih =>
      obtain ⟨fuel, rfl⟩ := Nat.exists_eq_succ_of_ne_zero (Nat.ne_of_gt (Nat.zero_lt_of_lt hfuel))
      have hitem := (hitems item (by simp)).2
      cases items with
      | nil =>
          have hread := hitem (']' :: rest) fuel (endsNumber_cons (by simp) rest)
            (Nat.le_of_lt_succ hfuel)
          simp [readItems, itemChars, hread, skipBlanks_cons, isBlank]
      | cons next items =>
          have hrest : ∀ j ∈ next :: items, Writable j ∧ ReadBack j := fun j hj =>
            hitems j (List.mem_cons_of_mem _ hj)
          have hstarts := starts_itemChars (by simp) (fun j hj => (hrest j hj).1) (']' :: rest)
          have hchars : itemChars (item :: next :: items) =
              item.chars ++ ',' :: itemChars (next :: items) := rfl
          rw [hchars, List.length_append, List.length_cons] at hfuel
          have hread := hitem (',' :: (itemChars (next :: items) ++ ']' :: rest)) fuel
            (endsNumber_cons (by simp) _) (by omega)
          have hmore : readItems fuel (itemChars (next :: items) ++ ']' :: rest) =
              some (next :: items, rest) := ih (by simp) hrest (by omega)
          rw [hchars, List.append_assoc, List.cons_append, readItems, hread]
          simp [skipBlanks_cons, isBlank, hstarts.skipBlanks, hmore]

/-- The text of the fields of a record. -/
def recordChars (fields : List (String × Json)) : List Char :=
  fieldChars (fields.map fun f => (some f.1, f.2))

/-- A field of a record starts with its name. -/
theorem recordChars_cons (name : String) (value : Json) (fields : List (String × Json)) :
    recordChars ((name, value) :: fields) = '"' :: (name.toList.flatMap escape ++ '"' :: ':' ::
      (value.chars ++ if fields = [] then [] else ',' :: recordChars fields)) := by
  cases fields with
  | nil => simp [recordChars, fieldChars, quoted]
  | cons next fields => simp [recordChars, fieldChars, quoted]

theorem starts_recordChars {fields : List (String × Json)} (hne : fields ≠ [])
    (rest : List Char) : Starts (recordChars fields ++ rest) := by
  cases fields with
  | nil => exact absurd rfl hne
  | cons field fields =>
      rw [recordChars_cons]
      exact ⟨'"', _, rfl, by decide⟩

/-- The fields of an object are read back, up to its closing brace. -/
theorem readFields_recordChars {fields : List (String × Json)} (hne : fields ≠ [])
    (hfields : ∀ f ∈ fields, Writable f.2 ∧ ReadBack f.2) (rest : List Char) {fuel : Nat}
    (hfuel : (recordChars fields).length < fuel) :
    readFields fuel (recordChars fields ++ '\x7d' :: rest) =
      some (fields.map fun f => (some f.1, f.2), rest) := by
  induction fields generalizing fuel with
  | nil => exact absurd rfl hne
  | cons field fields ih =>
      obtain ⟨name, value⟩ := field
      obtain ⟨fuel, rfl⟩ := Nat.exists_eq_succ_of_ne_zero (Nat.ne_of_gt (Nat.zero_lt_of_lt hfuel))
      obtain ⟨hwritable, hvalue⟩ : Writable value ∧ ReadBack value :=
        hfields (name, value) (by simp)
      -- What stands behind the value: the closing brace, or a comma and the other fields.
      let tail := (if fields = [] then [] else ',' :: recordChars fields) ++ '\x7d' :: rest
      rw [recordChars_cons] at hfuel ⊢
      simp only [List.length_cons, List.length_append] at hfuel
      have hends : EndsNumber tail := by
        by_cases hnil : fields = []
        · simpa [tail, hnil] using endsNumber_cons (by simp) rest
        · simpa [tail, hnil] using endsNumber_cons (by simp) _
      have hread := hvalue tail fuel hends (by omega)
      have hname := readString_quoted name (':' :: (value.chars ++ tail))
      have hblank := (hwritable.starts tail).skipBlanks
      have htext : ('"' :: (name.toList.flatMap escape ++ '"' :: ':' :: (value.chars ++
          if fields = [] then [] else ',' :: recordChars fields))) ++ '\x7d' :: rest =
          '"' :: (name.toList.flatMap escape ++ '"' :: ':' :: (value.chars ++ tail)) := by
        simp [tail]
      rw [htext, readFields, hname]
      simp only [Option.bind_eq_bind, Option.bind_some, skipBlanks_cons (c := ':') rfl, hblank,
        hread]
      by_cases hnil : fields = []
      · simp [tail, hnil, skipBlanks_cons, isBlank]
      · simp only [hnil, if_false, List.length_cons] at hfuel
        have hmore : readFields fuel (recordChars fields ++ '\x7d' :: rest) =
            some (fields.map fun f => (some f.1, f.2), rest) :=
          ih hnil (fun f hf => hfields f (List.mem_cons_of_mem _ hf)) (by omega)
        simp [tail, hnil, skipBlanks_cons, isBlank, (starts_recordChars hnil _).skipBlanks, hmore]

theorem readBack_array {items : List Json} (h : ∀ item ∈ items, Writable item ∧ ReadBack item) :
    ReadBack (.array items) := by
  intro rest fuel _ hfuel
  rw [chars, List.length_cons, List.length_append, List.length_singleton] at hfuel
  obtain ⟨fuel, rfl⟩ := Nat.exists_eq_succ_of_ne_zero (n := fuel) (by omega)
  have hchars : (Json.array items).chars ++ rest = '[' :: (itemChars items ++ ']' :: rest) := by
    simp [chars]
  rw [hchars]
  by_cases hnil : items = []
  · simp [hnil, itemChars, readValue, skipBlanks_cons, isBlank]
  · have hstarts := starts_itemChars hnil (fun j hj => (h j hj).1) (']' :: rest)
    have hread : readItems fuel (itemChars items ++ ']' :: rest) = some (items, rest) :=
      readItems_itemChars hnil h rest (by omega)
    rw [readValue, hstarts.skipBlanks]
    split
    · next heq =>
        obtain ⟨c, more, hcons, -, hclose, -⟩ := hstarts
        rw [hcons, List.cons.injEq] at heq
        exact absurd heq.1 hclose
    · rw [hread]
      rfl

theorem readBack_record {fields : List (String × Json)}
    (h : ∀ f ∈ fields, Writable f.2 ∧ ReadBack f.2) : ReadBack (.record fields) := by
  intro rest fuel _ hfuel
  have hchars : (Json.record fields).chars = '\x7b' :: (recordChars fields ++ ['\x7d']) := by
    simp [record, chars, recordChars]
  rw [hchars, List.length_cons, List.length_append, List.length_singleton] at hfuel
  obtain ⟨fuel, rfl⟩ := Nat.exists_eq_succ_of_ne_zero (n := fuel) (by omega)
  rw [hchars, List.cons_append, List.append_assoc, List.singleton_append]
  by_cases hnil : fields = []
  · simp [hnil, recordChars, fieldChars, record, readValue, skipBlanks_cons, isBlank]
  · have hstarts := starts_recordChars hnil ('\x7d' :: rest)
    have hread : readFields fuel (recordChars fields ++ '\x7d' :: rest) =
        some (fields.map fun f => (some f.1, f.2), rest) :=
      readFields_recordChars hnil h rest (by omega)
    rw [readValue, hstarts.skipBlanks]
    split
    · next heq =>
        obtain ⟨c, more, hcons, -, -, hclose⟩ := hstarts
        rw [hcons, List.cons.injEq] at heq
        exact absurd heq.1 hclose
    · rw [hread]
      rfl

/-- **What is written is read back**, in any place where no number goes on. -/
theorem Writable.readBack {j : Json} (h : Writable j) : ReadBack j := by
  induction h with
  | natural n => exact readBack_natural n
  | array h ih => exact readBack_array fun item hitem => ⟨h item hitem, ih item hitem⟩
  | record h ih => exact readBack_record fun f hf => ⟨h f hf, ih f hf⟩
  | null =>
      intro rest fuel _ hfuel
      obtain ⟨fuel, rfl⟩ := Nat.exists_eq_succ_of_ne_zero (Nat.ne_of_gt (Nat.lt_of_lt_of_le
        (by decide) hfuel))
      simp [chars, readValue]
  | bool b =>
      intro rest fuel _ hfuel
      cases fuel with
      | zero => cases b <;> simp [chars] at hfuel
      | succ fuel => cases b <;> simp [chars, readValue]
  | text s =>
      intro rest fuel _ hfuel
      cases fuel with
      | zero => simp [Json.text, chars, quoted] at hfuel
      | succ fuel => simp [Json.text, chars, quoted, readValue, readString_quoted]

/-- **The text of a document is read back as that document.** -/
theorem parse?_compact {j : Json} (h : Writable j) : parse? j.compact = some j := by
  have hblank : skipBlanks j.chars = j.chars := by
    simpa using (h.starts []).skipBlanks
  have hread := h.readBack [] (j.chars.length + 1) endsNumber_nil (Nat.le_succ _)
  rw [List.append_nil] at hread
  have hchars : j.compact.toList = j.chars := by simp [compact]
  have hend : (skipBlanks []).isEmpty = true := rfl
  rw [parse?, hchars, hblank, hread, Option.bind_eq_bind, Option.bind_some]
  change (do guard (skipBlanks []).isEmpty; return j) = some j
  rw [(Option.guard_eq_some' ()).mpr hend]
  rfl

end MessageCalls.Json
