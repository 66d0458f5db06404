import MessageCalls.Proofs.Yaml.Values
import MessageCalls.Proofs.Yaml.Writing
/-!
# MessageCalls.Proofs.Yaml.Overrides

A document overrides the Homestead rules field by field. What it gives for a rule are the values
that stand behind the key of the rule, wherever that is (`Rule.givenIn`); a rule that it gives once
is read as the value that is spelled there, and a rule that it does not give keeps its default
(`Rule.given?_eq_some_iff`). **Every document is read by this rule**, however it is written
(`Document.loads`).
-/

namespace MessageCalls.Yaml

variable {r : Rule} {entries : List (Scalar × Scalar)} {text : String} {c : Config}

/-! ### What a document gives -/

/-- Values for some of the rules. -/
structure Overrides where
  callStackLimit : Option UInt64 := none
  noncePersistsOnFailure : Option Bool := none
  contractLimit : Option (Option UInt64) := none
  codeDepositNrg : Option Nrg := none

namespace Overrides

/-- The Homestead rules with these values in place of their own. -/
def config (o : Overrides) : Config where
  callStackLimit := o.callStackLimit.getD Config.homestead.callStackLimit
  noncePersistsOnFailure := o.noncePersistsOnFailure.getD Config.homestead.noncePersistsOnFailure
  contractLimit := o.contractLimit.getD Config.homestead.contractLimit
  codeDepositNrg := o.codeDepositNrg.getD Config.homestead.codeDepositNrg

/-- The value for a rule. -/
def of (o : Overrides) : (r : Rule) → Option r.Value
  | .callStackLimit => o.callStackLimit
  | .noncePersistsOnFailure => o.noncePersistsOnFailure
  | .contractLimit => o.contractLimit
  | .codeDepositNrg => o.codeDepositNrg

end Overrides

/-- The values that stand behind the key of a rule. -/
def Rule.givenIn (r : Rule) (entries : List (Scalar × Scalar)) : List Scalar :=
  (entries.filter fun entry => entry.1.text = r.key).map Prod.snd

/-- A rule has no value in a document, or one that is spelled there once. -/
inductive Rule.Given (r : Rule) (entries : List (Scalar × Scalar)) : Option r.Value → Prop
  | absent (h : r.givenIn entries = []) : r.Given entries none
  | once {s : Scalar} {v : r.Value} (h : r.givenIn entries = [s]) (hs : r.Spells s v) :
      r.Given entries (some v)

/-- A document gives these values and no others. -/
def Overrides.WrittenIn (o : Overrides) (entries : List (Scalar × Scalar)) : Prop :=
  ∀ r : Rule, r.Given entries (o.of r)

/-! ### Rules -/

theorem Rule.of_config (o : Overrides) : ∀ r : Rule,
    r.of o.config = (o.of r).getD (r.of Config.homestead) := by
  rintro (_ | _ | _ | _) <;> rfl

theorem Config.ext_of {c d : Config} (h : ∀ r : Rule, r.of c = r.of d) : c = d := by
  have hcallStackLimit := h .callStackLimit
  have hnoncePersists := h .noncePersistsOnFailure
  have hcontractLimit := h .contractLimit
  have hcodeDepositNrg := h .codeDepositNrg
  cases c
  cases d
  simp_all [Rule.of]

/-- The value of a rule among named values. -/
def Rule.given? (r : Rule) (named : List (String × Node)) : Option r.Value :=
  (single? r.key named).bind (valueOr r.read? (r.of Config.homestead))

theorem rulesOf?_eq_some_iff {named : List (String × Node)} :
    rulesOf? named = some c ↔ ∀ r : Rule, r.given? named = some (r.of c) := by
  have hread : rulesOf? named =
      (Rule.given? .callStackLimit named).bind fun callStackLimit =>
      (Rule.given? .noncePersistsOnFailure named).bind fun noncePersistsOnFailure =>
      (Rule.given? .contractLimit named).bind fun contractLimit =>
      (Rule.given? .codeDepositNrg named).bind fun codeDepositNrg =>
        some { callStackLimit, noncePersistsOnFailure, contractLimit, codeDepositNrg } := by
    simp only [rulesOf?, Rule.given?, Option.bind_eq_bind, Option.bind_assoc, Option.pure_def]
    rfl
  rw [hread]
  constructor
  · intro h
    simp only [Option.bind_eq_some_iff, Option.some.injEq] at h
    obtain ⟨_, hcallStackLimit, _, hnoncePersists, _, hcontractLimit, _, hcodeDepositNrg, rfl⟩ := h
    rintro (_ | _ | _ | _)
    · exact hcallStackLimit
    · exact hnoncePersists
    · exact hcontractLimit
    · exact hcodeDepositNrg
  · intro h
    simp only [h, Option.bind_some]
    rfl

/-- The keys and values of a document, as named nodes. -/
def named (entries : List (Scalar × Scalar)) : List (String × Node) :=
  entries.map fun entry => (entry.1.text, .scalar entry.2)

theorem single?_eq (r : Rule) (entries : List (Scalar × Scalar)) :
    single? r.key (named entries) = match r.givenIn entries with
      | [] => some none
      | [s] => some (some (.scalar s))
      | _ => none := by
  have hfilter : (named entries).filter (fun e => e.1 = r.key) =
      named (entries.filter fun entry => entry.1.text = r.key) := by
    rw [named, List.filter_map]
    rfl
  rw [single?, hfilter, Rule.givenIn]
  generalize entries.filter (fun entry => entry.1.text = r.key) = given
  rcases given with _ | ⟨_, _ | ⟨_, _⟩⟩ <;> rfl

theorem Rule.tag_of_mem_givenIn (h : ∀ entry ∈ entries, entry.2.tag = none) {s : Scalar}
    (hs : s ∈ r.givenIn entries) : s.tag = none := by
  obtain ⟨entry, hentry, rfl⟩ := List.mem_map.mp hs
  exact h entry (List.mem_filter.mp hentry).1

/-- **A rule is read as the value that is spelled once, or keeps its default.** -/
theorem Rule.given?_eq_some_iff (h : ∀ entry ∈ entries, entry.2.tag = none) {v : r.Value} :
    r.given? (named entries) = some v ↔
      ∃ o, r.Given entries o ∧ o.getD (r.of Config.homestead) = v := by
  rw [Rule.given?, single?_eq]
  rcases hgiven : r.givenIn entries with _ | ⟨s, _ | ⟨t, more⟩⟩
  · constructor
    · intro hv
      exact ⟨none, .absent hgiven, Option.some.inj hv⟩
    · rintro ⟨_, ⟨-⟩ | ⟨hsome, -⟩, rfl⟩
      · rfl
      · cases hgiven.symm.trans hsome
  · have hread := read?_eq_some_iff (r := r) (v := v)
      (tag_of_mem_givenIn h (hgiven ▸ List.mem_cons_self))
    constructor
    · intro hv
      exact ⟨some v, .once hgiven (hread.mp hv), rfl⟩
    · rintro ⟨_, ⟨hnone⟩ | ⟨hsome, hs⟩, hv⟩
      · cases hnone.symm.trans hgiven
      · obtain rfl := (List.cons.inj (hsome.symm.trans hgiven)).1
        obtain rfl : _ = v := hv
        exact hread.mpr hs
  · refine iff_of_false (fun hv => nomatch hv) ?_
    rintro ⟨_, ⟨hnone⟩ | ⟨hsome, -⟩, -⟩
    · cases hnone.symm.trans hgiven
    · cases hsome.symm.trans hgiven

theorem Rule.Given.length_le {o : Option r.Value} (h : r.Given entries o) :
    (r.givenIn entries).length ≤ 1 := by
  cases h with
  | absent h => rw [h]; exact Nat.zero_le 1
  | once h => rw [h]; exact Nat.le_refl 1

theorem Rule.Given.spells {o : Option r.Value} (h : r.Given entries o) {s : Scalar}
    (hs : s ∈ r.givenIn entries) : ∃ v, r.Spells s v := by
  cases h with
  | absent h => rw [h] at hs; cases hs
  | once h hspells => rw [h, List.mem_singleton] at hs; exact ⟨_, hs ▸ hspells⟩

/-- A rule is given some value if it is given once at most, and none of a wrong kind. -/
theorem Rule.exists_given (hlength : (r.givenIn entries).length ≤ 1)
    (h : ∀ s ∈ r.givenIn entries, ¬ r.WrongKind s) : ∃ o, r.Given entries o := by
  rcases hgiven : r.givenIn entries with _ | ⟨s, _ | ⟨t, more⟩⟩
  · exact ⟨none, .absent hgiven⟩
  · have hs := h s (hgiven ▸ List.mem_cons_self)
    rw [wrongKind_iff, not_forall] at hs
    obtain ⟨v, hv⟩ := hs
    exact ⟨some v, .once hgiven (not_not.mp hv)⟩
  · rw [hgiven, List.length_cons, List.length_cons] at hlength
    omega

/-! ### Documents -/

theorem MappingText.untagged {src : List Char} {written : List Entry}
    (h : MappingText src written) : ∀ entry ∈ written, entry.Untagged := by
  cases h with
  | nothing => exact nofun
  | block _ h => exact fun entry hentry => (h.untagged entry hentry).1
  | flow _ h => exact h.untagged

theorem Document.untagged (h : Document text entries) : ∀ entry ∈ entries, entry.2.tag = none := by
  obtain ⟨written, hmapping, rfl⟩ := h.mapping
  intro entry hentry
  obtain ⟨e, he, rfl⟩ := List.mem_map.mp hentry
  exact (hmapping.untagged e he).2

theorem rules?_mapping (entries : List (Scalar × Scalar)) :
    rules? (.mapping (entries.map fun entry => (.scalar entry.1, .scalar entry.2))) =
      rulesOf? (named entries) := by
  have hnames : entries.mapM (fun entry => some (entry.1.text, Node.scalar entry.2)) =
      some (named entries) := List.mapM_pure
  rw [rules?, List.mapM_map]
  exact congrArg (Option.bind · rulesOf?) hnames

/-- A document is read as the named values that it holds. -/
theorem Document.ofYaml?_eq (h : Document text entries) :
    Config.ofYaml? text = rulesOf? (named entries) := by
  obtain ⟨node, hnode, hmapping⟩ := h.ofText?_eq
  rw [Config.ofYaml?, hnode]
  rcases hmapping with rfl | ⟨rfl, rfl⟩
  · exact rules?_mapping entries
  · rfl

/-- The rules of a document are the Homestead rules with the values that it gives. -/
theorem Document.ofYaml?_eq_some_iff (h : Document text entries) :
    Config.ofYaml? text = some c ↔ ∃ o : Overrides, o.WrittenIn entries ∧ o.config = c := by
  rw [h.ofYaml?_eq, rulesOf?_eq_some_iff]
  simp only [Rule.given?_eq_some_iff h.untagged]
  constructor
  · intro hgiven
    choose f hf hvalue using hgiven
    refine ⟨⟨f .callStackLimit, f .noncePersistsOnFailure, f .contractLimit, f .codeDepositNrg⟩,
      ?_, ?_⟩
    · rintro (_ | _ | _ | _) <;> exact hf _
    · refine Config.ext_of fun r => ?_
      rw [Rule.of_config, ← hvalue r]
      cases r <;> rfl
  · rintro ⟨o, hwritten, rfl⟩ r
    exact ⟨o.of r, hwritten r, (Rule.of_config o r).symm⟩

/-! ### Writing overrides -/

/-- A text for a value. -/
def Rule.spelling : (r : Rule) → r.Value → List Char
  | callStackLimit, n => Nat.toDigits 10 n.toNat
  | noncePersistsOnFailure, b => (toString b).toList
  | contractLimit, none => "null".toList
  | contractLimit, some n => Nat.toDigits 10 n.toNat
  | codeDepositNrg, n => Nat.toDigits 10 n.toNat

theorem isName_toDigits (n : Nat) : IsName (Nat.toDigits 10 n) := by
  have hdigits : ∀ c ∈ Nat.toDigits 10 n, c.isDigit = true := fun c hc =>
    Nat.isDigit_of_mem_toDigits (by decide) (by decide) hc
  refine ⟨(digits_toDigits (by decide) (by decide) n).ne_nil, fun hdash => ?_, fun c hc => ?_⟩
  · exact absurd (hdigits '-' (List.mem_of_head? hdash)) (by decide)
  · simp [isNameChar, Char.isAlphanum, hdigits c hc]

theorem Rule.isNamed_spelling (r : Rule) (v : r.Value) : IsNamed (r.key.toList, r.spelling v) := by
  have hkey : IsName r.key.toList ∧ byteLength r.key.toList ≤ 1024 := by
    cases r <;> decide
  refine ⟨hkey.1, ?_, hkey.2⟩
  cases r with
  | callStackLimit => exact isName_toDigits _
  | codeDepositNrg => exact isName_toDigits _
  | noncePersistsOnFailure => cases v <;> decide
  | contractLimit =>
      cases v with
      | none => decide
      | some n => exact isName_toDigits _

theorem Rule.spells_spelling (r : Rule) (v : r.Value) :
    r.Spells (plainScalar (r.spelling v)) v := by
  have hnumber : ∀ n : UInt64, SpellsNumber (plainScalar (Nat.toDigits 10 n.toNat)) n := fun n =>
    ⟨rfl, by simpa [plainScalar] using numeral_toDigits n.toNat⟩
  cases r with
  | callStackLimit => exact hnumber v
  | codeDepositNrg => exact hnumber v
  | noncePersistsOnFailure => cases v <;> exact ⟨rfl, by decide⟩
  | contractLimit =>
      cases v with
      | none => exact ⟨rfl, by decide⟩
      | some n => exact hnumber n

/-- The keys and texts of overrides for some rules. -/
def Overrides.spelled (o : Overrides) (rules : List Rule) : List (List Char × List Char) :=
  rules.filterMap fun r => (o.of r).map fun v => (r.key.toList, r.spelling v)

/-- The keys and values of overrides for some rules, as a document gives them. -/
def Overrides.written (o : Overrides) (rules : List Rule) : List (Scalar × Scalar) :=
  (o.spelled rules).map fun entry => (plainScalar entry.1, plainScalar entry.2)

theorem Rule.key_injective {q : Rule} (h : q.key = r.key) : q = r := by
  cases q <;> cases r <;> first | rfl | exact absurd h (by decide)

theorem Overrides.givenIn_written (o : Overrides) (r : Rule) (rules : List Rule) :
    r.givenIn (o.written rules) = (rules.filter (· = r)).flatMap fun r =>
      (o.of r).toList.map fun v => plainScalar (r.spelling v) := by
  induction rules with
  | nil => rfl
  | cons q rules ih =>
      have hwritten : o.written (q :: rules) = (o.of q).toList.map
          (fun v => (plainScalar q.key.toList, plainScalar (q.spelling v))) ++ o.written rules := by
        cases hv : o.of q <;> simp [Overrides.written, Overrides.spelled, hv]
      have hkey : (plainScalar q.key.toList).text = q.key := String.ofList_toList
      rw [Rule.givenIn] at ih
      rw [hwritten, Rule.givenIn, List.filter_append, List.map_append, ih, List.filter_cons]
      by_cases hq : q = r
      · subst hq
        simp [Function.comp_def, hkey, List.filter_eq_self.mpr]
      · have hne : q.key ≠ r.key := fun h => hq (Rule.key_injective h)
        simp [hq, hkey, hne]

theorem Overrides.writtenIn_written (o : Overrides) {rules : List Rule}
    (h : ∀ r, rules.filter (· = r) = [r]) : o.WrittenIn (o.written rules) := by
  intro r
  have hgiven := o.givenIn_written r rules
  rw [h r, List.flatMap_singleton] at hgiven
  cases hv : o.of r with
  | none => exact .absent (by rw [hgiven, hv]; rfl)
  | some v => exact .once (by rw [hgiven, hv]; rfl) (r.spells_spelling v)

/-- **Any values can be written**, in any order of the rules, on lines or in braces, and are
loaded. -/
theorem Overrides.ofYaml?_eq (o : Overrides) {rules : List Rule}
    (h : ∀ r, rules.filter (· = r) = [r]) :
    Config.ofYaml? (String.ofList (lines (o.spelled rules))) = some o.config ∧
      Config.ofYaml? (String.ofList ('\x7b' :: (braced (o.spelled rules) ++ ['\n']))) =
        some o.config := by
  have hnamed : ∀ entry ∈ o.spelled rules, IsNamed entry := by
    intro entry hentry
    obtain ⟨r, -, hr⟩ := List.mem_filterMap.mp hentry
    obtain ⟨v, -, rfl⟩ := Option.map_eq_some_iff.mp hr
    exact r.isNamed_spelling v
  have hgiven : ∃ given : Overrides, given.WrittenIn (o.written rules) ∧ given.config = o.config :=
    ⟨o, o.writtenIn_written h, rfl⟩
  exact ⟨(document_lines hnamed).ofYaml?_eq_some_iff.mpr hgiven,
    (document_braces hnamed).ofYaml?_eq_some_iff.mpr hgiven⟩

/-! ### Loading -/

/-- How a document is loaded. -/
structure Loads (text : String) (entries : List (Scalar × Scalar)) : Prop where
  /-- The values that it gives replace those of Homestead, and nothing else does. -/
  replaced : ∀ o : Overrides, o.WrittenIn entries → Config.ofYaml? text = some o.config
  /-- It is refused if it gives a rule several times. -/
  repeated : ∀ r : Rule, 1 < (r.givenIn entries).length → Config.ofYaml? text = none
  /-- It is refused if it gives a rule a value of a wrong kind. -/
  wrongKind : ∀ r : Rule, ∀ s ∈ r.givenIn entries, r.WrongKind s → Config.ofYaml? text = none
  /-- It is refused for no other reason. -/
  refused : Config.ofYaml? text = none → ∃ r : Rule, 1 < (r.givenIn entries).length ∨
    ∃ s ∈ r.givenIn entries, r.WrongKind s

/-- **Every document is loaded as an override of the Homestead rules**, or refused for a rule that
it gives several times or a value of a wrong kind. -/
theorem Document.loads (h : Document text entries) : Loads text entries where
  replaced o ho := h.ofYaml?_eq_some_iff.mpr ⟨o, ho, rfl⟩
  repeated r hlength := by
    refine Option.eq_none_iff_forall_ne_some.mpr fun c hc => ?_
    obtain ⟨o, ho, -⟩ := h.ofYaml?_eq_some_iff.mp hc
    exact absurd (ho r).length_le (Nat.not_le.mpr hlength)
  wrongKind r s hs hwrong := by
    refine Option.eq_none_iff_forall_ne_some.mpr fun c hc => ?_
    obtain ⟨o, ho, -⟩ := h.ofYaml?_eq_some_iff.mp hc
    obtain ⟨v, hv⟩ := (ho r).spells hs
    exact r.wrongKind_iff.mp hwrong v hv
  refused hnone := by
    -- Were no rule at fault, the values that are given would make a configuration.
    by_contra hgood
    simp only [not_exists, not_or, Nat.not_lt, not_and] at hgood
    choose f hf using fun r => Rule.exists_given (hgood r).1 (hgood r).2
    have hconfig := h.ofYaml?_eq_some_iff.mpr ⟨⟨f .callStackLimit, f .noncePersistsOnFailure,
      f .contractLimit, f .codeDepositNrg⟩, by rintro (_ | _ | _ | _) <;> exact hf _, rfl⟩
    cases hnone.symm.trans hconfig

/-- Two rules, the second one with the mark of its base, with a comment and a key that is no rule
between them. A rule that is given twice, and one with a text for a number. -/
theorem loads_contractLimit_callStackLimit :
    Config.ofYaml? "create_contract_limit: null # none\nnote: on\ncall_stack_limit: 0x40\n" =
        some { Config.homestead with callStackLimit := 64 } ∧
      Config.ofYaml? "call_stack_limit: 64\ncall_stack_limit: 64\n" = none ∧
      Config.ofYaml? "call_stack_limit: deep\n" = none := by
  refine ⟨?replaced, ?repeated, ?wrongKind⟩
  case replaced =>
    have hcomment : LineRest false true " # none\n".toList (some 0) :=
      .line (show Blanks true [' '] by simp [Blanks])
        (.text (show ∀ c ∈ " none".toList, isBreak c = false by simp [isBreak])) (by simp) rfl
        (.token .nil)
    have hentries :=
      Entries.named (show IsNamed ("create_contract_limit".toList, "null".toList) by decide)
        hcomment <|
      Entries.line (show IsNamed ("note".toList, "on".toList) by decide) <|
      Entries.line (show IsNamed ("call_stack_limit".toList, "0x40".toList) by decide) .done
    have hmapping := MappingText.block (.token .nil) hentries
    have hdocument :
        Document "create_contract_limit: null # none\nnote: on\ncall_stack_limit: 0x40\n" _ :=
      ⟨by decide, by decide, _, hmapping, rfl⟩
    have hfour : Digits 16 ['4'] 4 := .single (show hexValue? '4' = some 4 from rfl) (by decide)
    have hdigits := hfour.append (show hexValue? '0' = some 0 from rfl) (by decide)
    refine hdocument.loads.replaced { callStackLimit := some 64, contractLimit := some none } ?_
    rintro (_ | _ | _ | _)
    · exact .once rfl ⟨rfl, .bare (.hexadecimal hdigits)⟩
    · exact .absent rfl
    · exact .once rfl ⟨rfl, by decide⟩
    · exact .absent rfl
  case repeated =>
    have hdocument := document_lines
      (show ∀ entry ∈ List.replicate 2 ("call_stack_limit".toList, "64".toList), IsNamed entry by
        decide)
    exact hdocument.loads.repeated .callStackLimit (by decide)
  case wrongKind =>
    have hdocument := document_lines
      (show ∀ entry ∈ [("call_stack_limit".toList, "deep".toList)], IsNamed entry by decide)
    refine hdocument.loads.wrongKind .callStackLimit _ List.mem_cons_self (.text ?_ ?_ ?_)
    · intro n hn
      cases number?_eq_some_iff.mpr hn
    · decide
    · decide

end MessageCalls.Yaml
