import MessageCalls.Proofs.Yaml.Documents
/-!
# MessageCalls.Proofs.Yaml.Writing

The plainest ways to write a mapping: a line for each key and its value, or one line with all of them
in braces. Where they are names, that is text of letters, digits, underscores and hyphens, they stand
for themselves (`IsName.inlineScalar`). **Both ways make a document** (`document_lines`,
`document_braces`), whatever the names are.
-/

namespace MessageCalls.Yaml

variable {flow : Bool} {indent : Nat} {next : Option Nat} {c : Char}
  {space src key value behind : List Char}

/-! ### Names -/

/-- A name: letters, digits, underscores and hyphens, and no hyphen at the head. -/
def IsName (cs : List Char) : Prop :=
  cs ≠ [] ∧ cs.head? ≠ some '-' ∧ ∀ c ∈ cs, isNameChar c = true

instance : DecidablePred IsName := fun cs =>
  decidable_of_iff (cs ≠ [] ∧ cs.head? ≠ some '-' ∧ cs.all isNameChar = true)
    (by rw [IsName, List.all_eq_true])

/-- The plain scalar of a text. -/
def plainScalar (cs : List Char) : Scalar := { style := .plain, text := String.ofList cs }

/-- The characters of a name mean nothing else. -/
theorem isWord_of_isNameChar (h : isNameChar c = true) :
    isBlank c = false ∧ isBreak c = false ∧ isFlowIndicator c = false := by
  have hne : ∀ d, isNameChar d = false → c ≠ d := fun _ hd => ne_of_test h hd
  refine ⟨?_, ?_, ?_⟩
  · simp [isBlank, hne ' ' rfl, hne '\t' rfl]
  · simp [isBreak, hne '\n' rfl, hne '\u2028' rfl, hne '\u2029' rfl]
  · simp [isFlowIndicator, hne ',' rfl, hne '[' rfl, hne ']' rfl, hne '\x7b' rfl, hne '\x7d' rfl]

/-- A plain scalar may go on with a character of a name. -/
theorem goesOn_of_isNameChar (h : isNameChar c = true) : GoesOn flow space c src where
  isWord := ⟨(isWord_of_isNameChar h).1, (isWord_of_isNameChar h).2.1⟩
  noComment hc := absurd hc (ne_of_test h rfl)
  noKey hc := absurd hc (ne_of_test h rfl)
  inFlow _ := ⟨(isWord_of_isNameChar h).2.2, by simp [isStrayColon, (ne_of_test h rfl : c ≠ ':')]⟩

theorem isIndicator_of_isNameChar (h : isNameChar c = true) : isIndicator c = false := by
  have hnone : ("#&*!|>'\"%@\x60".toList.any isNameChar) = false := by decide
  have hmem : c ∉ "#&*!|>'\"%@\x60".toList := fun hmem => List.any_eq_false.mp hnone c hmem h
  rw [isIndicator, (isWord_of_isNameChar h).2.2]
  simpa using hmem

/-- **A name is a plain scalar that stands for itself.** -/
theorem IsName.inlineScalar (h : IsName src) :
    InlineScalar flow indent behind src (plainScalar src) := by
  obtain ⟨hne, hhead, hname⟩ := h
  obtain ⟨c, cs, rfl⟩ := List.exists_cons_of_ne_nil hne
  have hdash : c ≠ '-' := fun hdash => hhead (by rw [hdash, List.head?_cons])
  obtain ⟨hc, hcs⟩ := List.forall_mem_cons.mp hname
  refine .plain ?_ (by simpa [isOrderMark] using (ne_of_test hc rfl : c ≠ '\ufeff')) ?_
  · rw [List.cons_append, startsPlain, if_neg hdash,
      if_neg (by simp [(ne_of_test hc rfl : c ≠ '?'), (ne_of_test hc rfl : c ≠ ':')]),
      isIndicator_of_isNameChar hc, (isWord_of_isNameChar hc).1, (isWord_of_isNameChar hc).2.1]
    rfl
  · clear hne hhead hname
    induction cs with
    | nil => exact .done
    | cons d cs ih =>
        obtain ⟨hd, hcs⟩ := List.forall_mem_cons.mp hcs
        exact .word (.blanks .nil) (goesOn_of_isNameChar hd) (ih hcs)

/-! ### Entries -/

/-- A key and a value are names, and the key is short enough. -/
def IsNamed (entry : List Char × List Char) : Prop :=
  IsName entry.1 ∧ IsName entry.2 ∧ byteLength entry.1 ≤ 1024

instance : DecidablePred IsNamed := fun _ => inferInstanceAs (Decidable (_ ∧ _ ∧ _))

variable {entry : List Char × List Char} {written : List (List Char × List Char)}
  {entries : List Entry}

/-- The entry of a key and a value that stand for themselves. -/
def plainEntry (entry : List Char × List Char) : Entry :=
  .full (plainScalar entry.1) (some (plainScalar entry.2))

/-- A key and its value. -/
def entryText (entry : List Char × List Char) : List Char := entry.1 ++ ':' :: ' ' :: entry.2

/-- The characters of an entry are those of names, and what sets them apart. -/
theorem mem_entryText (h : IsNamed entry) :
    ∀ c ∈ entryText entry, isNameChar c = true ∨ c ∈ [':', ' '] := by
  intro c hc
  simp only [entryText, List.mem_append, List.mem_cons] at hc
  rcases hc with hc | rfl | rfl | hc
  · exact .inl (h.1.2.2 c hc)
  · exact .inr (by simp)
  · exact .inr (by simp)
  · exact .inl (h.2.1.2.2 c hc)

theorem isBreak_entryText (h : IsNamed entry) : ∀ c ∈ entryText entry, isBreak c = false := by
  intro c hc
  have hmarks : ∀ c ∈ [':', ' '], isBreak c = false := by simp [isBreak]
  rcases mem_entryText h c hc with hname | hmark
  · exact (isWord_of_isNameChar hname).2.1
  · exact hmarks c hmark

theorem IsNamed.implicitKey (h : IsNamed entry) :
    ImplicitKey flow behind entry.1 [] (plainScalar entry.1) where
  scalar := h.1.inlineScalar
  oneLine c hc := (isWord_of_isNameChar (h.1.2.2 c hc)).2.1
  apart := .nil
  reach := by simpa using h.2.2

/-! ### Lines -/

/-- A key and a value that are names make an entry, whatever else there is on the line. -/
theorem Entries.named {rest : List Char} (hentry : IsNamed entry)
    (hrest : LineRest false true rest next) (h : Entries 0 next src entries) :
    Entries 0 (some 0) (entryText entry ++ (rest ++ src)) (plainEntry entry :: entries) := by
  have hnode : BlockNode 0 true src ([' '] ++ (entry.2 ++ rest)) (some (plainScalar entry.2)) next :=
    .inline (.blanks (by simp [Blanks]) (by simp)) hentry.2.1.inlineScalar hrest
  simpa [entryText, plainEntry] using Entries.implicit hentry.implicitKey hnode h

/-- A line in front of other entries is an entry. -/
theorem Entries.line (hentry : IsNamed entry) (h : Entries 0 next src entries) :
    Entries 0 (some 0) (entryText entry ++ ('\n' :: src)) (plainEntry entry :: entries) := by
  have hlines : Lines false [] next := by
    rcases h.next_cases with ⟨rfl, -⟩ | ⟨rfl, -⟩
    · exact .finish .nil .none
    · exact .token .nil
  have hrest : LineRest false true ['\n'] next := .line .nil .none (fun _ => rfl) rfl hlines
  exact h.named hentry hrest

/-- A line for each key and its value. -/
def lines (written : List (List Char × List Char)) : List Char :=
  written.flatMap fun entry => entryText entry ++ ['\n']

theorem lines_cons : lines (entry :: written) = entryText entry ++ ('\n' :: lines written) := by
  simp [lines]

theorem mappingText_lines (h : ∀ entry ∈ written, IsNamed entry) :
    MappingText (lines written) (written.map plainEntry) := by
  have hentries : ∃ next, Entries 0 next (lines written) (written.map plainEntry) := by
    induction written with
    | nil => exact ⟨none, .done⟩
    | cons entry written ih =>
        obtain ⟨hentry, hrest⟩ := List.forall_mem_cons.mp h
        obtain ⟨next, hnext⟩ := ih hrest
        exact ⟨some 0, lines_cons ▸ hnext.line hentry⟩
  obtain ⟨next, hentries⟩ := hentries
  cases written with
  | nil => exact .nothing (.finish .nil .none)
  | cons entry written =>
      rcases hentries.next_cases with ⟨-, hnil⟩ | ⟨rfl, -⟩
      · simp [lines_cons] at hnil
      · have hlead : Lines false [] (some 0) := .token .nil
        exact (MappingText.block hlead hentries :)

/-! ### Braces -/

theorem FlowEntry.named (h : IsNamed entry) :
    FlowEntry behind (entryText entry) (plainEntry entry) := by
  have hnode : FlowNode behind ([' '] ++ (entry.2 ++ [])) (some (plainScalar entry.2)) :=
    .scalar (.blanks (by simp [Blanks])) h.2.1.inlineScalar (.blanks .nil)
  simpa [entryText, plainEntry] using FlowEntry.implicit h.implicitKey (fun _ => rfl) hnode

/-- Keys and their values behind an opening brace. -/
def braced : List (List Char × List Char) → List Char
  | [] => ['\x7d']
  | [entry] => entryText entry ++ ['\x7d']
  | entry :: written => entryText entry ++ ',' :: ' ' :: braced written

theorem flowEntries_braced (h : ∀ entry ∈ written, IsNamed entry) {lead : List Char}
    (hlead : FlowGap lead) :
    FlowEntries (lead ++ (braced written ++ ['\n'])) (written.map plainEntry) := by
  have hrest : LineRest false true ['\n'] none :=
    .line .nil .none (fun _ => rfl) rfl (.finish .nil .none)
  induction written using braced.induct generalizing lead with
  | case1 => exact .close hlead hrest
  | case2 entry =>
      simpa [braced] using FlowEntries.last hlead (.named (h entry List.mem_cons_self)) hrest
  | case3 entry written hne ih =>
      obtain ⟨hentry, hwritten⟩ := List.forall_mem_cons.mp h
      have hblank : FlowGap [' '] := .blanks (by simp [Blanks])
      have hentries := FlowEntries.cons hlead (.named hentry) (ih hwritten hblank)
      simpa [braced] using hentries

theorem mem_braced (h : ∀ entry ∈ written, IsNamed entry) :
    ∀ c ∈ braced written, isNameChar c = true ∨ c ∈ [':', ' ', ',', '\x7d'] := by
  have htext : ∀ {entry : List Char × List Char}, IsNamed entry → ∀ c ∈ entryText entry,
      isNameChar c = true ∨ c ∈ [':', ' ', ',', '\x7d'] := fun h c hc =>
    (mem_entryText h c hc).imp_right fun hmark =>
      (show [':', ' '] ⊆ [':', ' ', ',', '\x7d'] by simp) hmark
  induction written using braced.induct with
  | case1 => simp [braced]
  | case2 entry =>
      exact List.forall_mem_append.mpr ⟨htext (h entry List.mem_cons_self), by simp⟩
  | case3 entry written hne ih =>
      obtain ⟨hentry, hwritten⟩ := List.forall_mem_cons.mp h
      rw [braced]
      · exact List.forall_mem_append.mpr ⟨htext hentry, by simpa using ih hwritten⟩
      · exact hne

/-! ### Documents -/

theorem plainBreaks_eq {cs : List Char} (h : ∀ c ∈ cs, c ≠ '\r' ∧ c ≠ '\u0085') :
    plainBreaks cs = cs := by
  induction cs using plainBreaks.induct with
  | case1 => rfl
  | case2 rest ih => exact absurd rfl (h '\r' List.mem_cons_self).1
  | case3 c rest hpair ih =>
      obtain ⟨hc, hrest⟩ := List.forall_mem_cons.mp h
      rw [plainBreaks, ih hrest, if_neg (by simp [hc.1, hc.2])]
      exact hpair

theorem isPrintable_of_isNameChar (h : isNameChar c = true) : isPrintable c = true := by
  have hrange : 0x20 ≤ c.toNat ∧ c.toNat ≤ 0x7e := by
    rw [isNameChar, Bool.or_eq_true, Bool.or_eq_true, decide_eq_true_eq, decide_eq_true_eq] at h
    rcases h with (h | rfl) | rfl
    · unfold Char.isAlphanum Char.isAlpha Char.isUpper Char.isLower Char.isDigit at h
      simp only [Bool.or_eq_true, Bool.and_eq_true, decide_eq_true_eq,
        UInt32.le_iff_toNat_le] at h
      have hval : c.val.toNat = c.toNat := rfl
      simp at h
      omega
    · decide
    · decide
  simp [isPrintable, hrange]

theorem isUnmarked_append {cs rest : List Char} (h : ∀ c ∈ cs, isBreak c = false) :
    isUnmarked false (cs ++ rest) = isUnmarked false rest := by
  induction cs with
  | nil => rfl
  | cons c cs ih =>
      obtain ⟨hc, hcs⟩ := List.forall_mem_cons.mp h
      rw [List.cons_append, isUnmarked, hc, ih hcs]
      simp

theorem startsMark_cons (hdash : c ≠ '-') (hdot : c ≠ '.') : startsMark (c :: src) = false := by
  rw [startsMark, startsDocument, endsDocument]
  · rfl
  · rintro _ ⟨⟩
    exact hdot rfl
  · rintro _ ⟨⟩
    exact hdash rfl

/-- No name starts with a mark of a document. -/
theorem isUnmarked_lines (h : ∀ entry ∈ written, IsNamed entry) :
    isUnmarked true (lines written) = true := by
  induction written with
  | nil => rfl
  | cons entry written ih =>
      obtain ⟨hentry, hwritten⟩ := List.forall_mem_cons.mp h
      obtain ⟨hne, hhead, hkey⟩ := hentry.1
      have hline := isBreak_entryText hentry
      obtain ⟨c, cs, hcons⟩ : ∃ c cs, entryText entry = c :: cs ∧ entry.1.head? = some c := by
        obtain ⟨c, cs, hcons⟩ := List.exists_cons_of_ne_nil hne
        exact ⟨c, _, by rw [entryText, hcons]; rfl, by rw [hcons]; rfl⟩
      have hdash : c ≠ '-' := fun hdash => hhead (hcons.2.trans (congrArg some hdash))
      have hdot : c ≠ '.' := ne_of_test (hkey c (List.mem_of_head? hcons.2)) rfl
      obtain ⟨hc, hcs⟩ := List.forall_mem_cons.mp (hcons.1 ▸ hline)
      rw [lines_cons, hcons.1, List.cons_append, isUnmarked, startsMark_cons hdash hdot, hc,
        isUnmarked_append hcs, isUnmarked]
      simp [show isBreak '\n' = true from rfl, ih hwritten]

/-- A mapping of names, and of little more, is a document. -/
theorem document_of_names
    (hchars : ∀ c ∈ src, isNameChar c = true ∨ c ∈ [':', ' ', ',', '\x7b', '\x7d', '\n'])
    (hunmarked : isUnmarked true src = true) (hmapping : MappingText src (written.map plainEntry)) :
    Document (String.ofList src)
      (written.map fun entry => (plainScalar entry.1, plainScalar entry.2)) := by
  have hmarks : ∀ c ∈ [':', ' ', ',', '\x7b', '\x7d', '\n'],
      isPrintable c = true ∧ c ≠ '\r' ∧ c ≠ '\u0085' := by
    simp [isPrintable]
  have hplain : plainBreaks src = src := by
    refine plainBreaks_eq fun c hc => ?_
    rcases hchars c hc with hname | hmark
    · exact ⟨ne_of_test hname rfl, ne_of_test hname rfl⟩
    · exact (hmarks c hmark).2
  constructor
  case printable =>
    rw [String.toList_ofList, List.all_eq_true]
    intro c hc
    rcases hchars c hc with hname | hmark
    · exact isPrintable_of_isNameChar hname
    · exact (hmarks c hmark).1
  case unmarked =>
    rwa [String.toList_ofList, hplain]
  case mapping =>
    rw [String.toList_ofList, hplain]
    refine ⟨_, hmapping, ?_⟩
    rw [List.map_map]
    rfl

/-- **Lines of names are a document.** -/
theorem document_lines (h : ∀ entry ∈ written, IsNamed entry) :
    Document (String.ofList (lines written))
      (written.map fun entry => (plainScalar entry.1, plainScalar entry.2)) := by
  refine document_of_names (fun c hc => ?_) (isUnmarked_lines h) (mappingText_lines h)
  obtain ⟨entry, hentry, hmem⟩ := List.mem_flatMap.mp hc
  rcases List.mem_append.mp hmem with hmem | hmem
  · exact (mem_entryText (h entry hentry) c hmem).imp_right fun hmark =>
      (show [':', ' '] ⊆ [':', ' ', ',', '\x7b', '\x7d', '\n'] by simp) hmark
  · exact .inr (List.mem_singleton.mp hmem ▸ by simp)

/-- **Names in braces are a document.** -/
theorem document_braces (h : ∀ entry ∈ written, IsNamed entry) :
    Document (String.ofList ('\x7b' :: (braced written ++ ['\n'])))
      (written.map fun entry => (plainScalar entry.1, plainScalar entry.2)) := by
  have hlead : Lines false [] (some 0) := .token .nil
  have hmapping := MappingText.flow hlead (flowEntries_braced h (.blanks .nil))
  refine document_of_names ?_ ?_ hmapping
  · intro c hc
    rcases List.mem_cons.mp hc with rfl | hc
    · exact .inr (by simp)
    rcases List.mem_append.mp hc with hc | hc
    · exact (mem_braced h c hc).imp_right fun hmark =>
        (show [':', ' ', ',', '\x7d'] ⊆ [':', ' ', ',', '\x7b', '\x7d', '\n'] by simp) hmark
    · exact .inr (List.mem_singleton.mp hc ▸ by simp)
  · have hline : ∀ c ∈ braced written, isBreak c = false := by
      intro c hc
      have hmarks : ∀ c ∈ [':', ' ', ',', '\x7d'], isBreak c = false := by simp [isBreak]
      rcases mem_braced h c hc with hname | hmark
      · exact (isWord_of_isNameChar hname).2.1
      · exact hmarks c hmark
    rw [isUnmarked, startsMark_cons (by decide) (by decide),
      show isBreak '\x7b' = false from rfl, isUnmarked_append hline]
    rfl

end MessageCalls.Yaml
