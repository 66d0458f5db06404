import MessageCalls.Proofs.Yaml.FlowMapping
/-!
# MessageCalls.Proofs.Yaml.Documents

A text that is written as the rules say is read as the mapping that it says. The tokens of the text
are those of its entries (`MappingText.leads`), and the tokens of entries are read as their keys and
values (`readEntries_eq`, `readFlowEntries_eq`). **So every document is read**
(`Document.ofText?_eq`), and it has no other reading (`Document.unique`).
-/

namespace MessageCalls.Yaml

variable {n fuel : Nat} {next : Option Nat} {site : Site} {src behind : List Char}
  {rest stops : List Token} {named : List (List Char × Node)} {stems : List (List Char × Bytes)}
  {entry : Entry} {entries : List Entry}

/-! ### What is written has no tags -/

theorem InlineScalar.tag_eq {flow : Bool} {indent : Nat} {s : Scalar}
    (h : InlineScalar flow indent behind src s) : s.tag = none := by
  cases h <;> rfl

theorem BlockNode.tag_eq {tabs : Bool} {value : Option Scalar}
    (h : BlockNode n tabs behind src value next) : ∀ s ∈ value, s.tag = none := by
  cases h with
  | empty => exact nofun
  | inline _ hs => rintro _ ⟨⟩; exact hs.tag_eq
  | block _ hs => rintro _ ⟨⟩; cases hs; rfl

theorem FlowNode.tag_eq {value : Option Scalar} (h : FlowNode behind src value) :
    ∀ s ∈ value, s.tag = none := by
  cases h with
  | empty => exact nofun
  | scalar _ hs => rintro _ ⟨⟩; exact hs.tag_eq

/-- The key and the value of an entry have no tags. -/
def Entry.Untagged (entry : Entry) : Prop := entry.key.tag = none ∧ entry.value.tag = none

theorem Entry.Untagged.full {key : Scalar} {value : Option Scalar} (hkey : key.tag = none)
    (hvalue : ∀ s ∈ value, s.tag = none) : (Entry.full key value).Untagged := by
  cases value with
  | none => exact ⟨hkey, rfl⟩
  | some value => exact ⟨hkey, hvalue value rfl⟩

/-- In a block mapping a key has a mark or a colon. -/
theorem Entries.untagged (h : Entries n next src entries) :
    ∀ entry ∈ entries, entry.Untagged ∧ ∀ key, entry ≠ .bare key := by
  induction h with
  | done => exact nofun
  | implicit hkey hvalue _ ih =>
      exact List.forall_mem_cons.mpr
        ⟨⟨.full hkey.scalar.tag_eq hvalue.tag_eq, nofun⟩, ih⟩
  | explicit hkey hvalue _ ih =>
      exact List.forall_mem_cons.mpr
        ⟨⟨.full (hkey.tag_eq _ rfl) hvalue.tag_eq, nofun⟩, ih⟩
  | marked hkey _ ih =>
      exact List.forall_mem_cons.mpr ⟨⟨⟨hkey.tag_eq _ rfl, rfl⟩, nofun⟩, ih⟩

theorem FlowEntry.untagged (h : FlowEntry behind src entry) : entry.Untagged := by
  cases h with
  | bare hkey => exact ⟨hkey.tag_eq, rfl⟩
  | implicit hkey _ hvalue => exact .full hkey.scalar.tag_eq hvalue.tag_eq
  | explicit hkey _ _ hvalue => exact .full (hkey.tag_eq _ rfl) hvalue.tag_eq
  | marked hkey => exact ⟨hkey.tag_eq _ rfl, rfl⟩

theorem FlowEntries.untagged (h : FlowEntries src entries) :
    ∀ entry ∈ entries, entry.Untagged := by
  induction h with
  | close => exact nofun
  | last _ hentry => exact List.forall_mem_cons.mpr ⟨hentry.untagged, nofun⟩
  | cons _ hentry _ ih => exact List.forall_mem_cons.mpr ⟨hentry.untagged, ih⟩

/-! ### Keys and values -/

theorem Feed.skip?_eq (t : Token) :
    Feed.skip? { tokens := t :: rest, named, stems } t = some { tokens := rest, named, stems } := by
  simp [Feed.skip?, Feed.sees, Feed.skip]

theorem Feed.skip?_of_ne {t u : Token} (h : u ≠ t) :
    Feed.skip? { tokens := u :: rest, named, stems } t = none := by
  simp [Feed.skip?, Feed.sees, h]

theorem readNode_scalar {s : Scalar} (hs : s.tag = none) (hfuel : 0 < fuel) :
    readNode fuel site { tokens := s.token :: rest, named, stems } =
      some (.scalar s, { tokens := rest, named, stems }) := by
  obtain ⟨fuel, rfl⟩ := Nat.exists_eq_add_one.mpr hfuel
  obtain ⟨style, tag, text⟩ := s
  obtain rfl : tag = none := hs
  simp [readNode, Scalar.token, Feed.properties?, Properties.register, Feed.skip]

theorem readUnless_scalar {s : Scalar} (hs : s.tag = none)
    (hstops : ∀ style text, Token.scalar style text ∉ stops) (hfuel : 1 < fuel) :
    readUnless fuel site stops { tokens := s.token :: rest, named, stems } =
      some (.scalar s, { tokens := rest, named, stems }) := by
  obtain ⟨fuel, rfl⟩ := Nat.exists_eq_add_one.mpr (Nat.zero_lt_of_lt hfuel)
  rw [readUnless, if_neg (by simpa [Feed.sees, Scalar.token] using hstops _ _)]
  exact readNode_scalar hs (by omega)

/-! ### Entries -/

/-- A value is read, or nothing in front of what ends it. -/
theorem readValue_eq {t : Token} (h : entry.Untagged)
    (hstops : ∀ style text, Token.scalar style text ∉ stops) (ht : t ∈ stops) (hvalue : t ≠ .value)
    (hfuel : 2 < fuel) :
    readValue fuel site stops { tokens := entry.valueTokens ++ t :: rest, named, stems } =
      some (.scalar entry.value, { tokens := t :: rest, named, stems }) := by
  obtain ⟨fuel, rfl⟩ := Nat.exists_eq_add_one.mpr (Nat.zero_lt_of_lt hfuel)
  rw [readValue]
  cases entry with
  | bare | marked =>
      rw [Entry.valueTokens, List.nil_append, Feed.skip?_of_ne hvalue]
      rfl
  | full key value =>
      rw [Entry.valueTokens, List.cons_append, Feed.skip?_eq]
      cases value with
      | none =>
          obtain ⟨fuel, rfl⟩ := Nat.exists_eq_add_one.mpr (show 0 < fuel by omega)
          exact if_pos (by simpa [Feed.sees] using ht)
      | some value => exact readUnless_scalar h.2 hstops (by omega)

/-- The keys and the values of entries. -/
def nodes (entries : List Entry) : List (Node × Node) :=
  entries.map fun entry => (.scalar entry.key, .scalar entry.value)

/-- **The tokens of a block mapping are read as its keys and values.** -/
theorem readEntries_eq (h : ∀ entry ∈ entries, entry.Untagged ∧ ∀ key, entry ≠ .bare key)
    (hfuel : entries.length + 3 < fuel) :
    readEntries fuel
        { tokens := entries.flatMap Entry.tokens ++ .blockEnds :: rest, named, stems } =
      some (nodes entries, { tokens := rest, named, stems }) := by
  induction entries generalizing fuel with
  | nil =>
      obtain ⟨fuel, rfl⟩ := Nat.exists_eq_add_one.mpr (Nat.zero_lt_of_lt hfuel)
      simp [readEntries, Feed.skip?, Feed.sees, Feed.skip, nodes]
  | cons entry entries ih =>
      obtain ⟨fuel, rfl⟩ := Nat.exists_eq_add_one.mpr (Nat.zero_lt_of_lt hfuel)
      obtain ⟨⟨huntagged, hmarked⟩, hentries⟩ := List.forall_mem_cons.mp h
      rw [List.length_cons] at hfuel
      -- Behind an entry another key follows, or the end of the mapping.
      obtain ⟨t, more, hnext, ht⟩ : ∃ t more,
          entries.flatMap Entry.tokens ++ .blockEnds :: rest = t :: more ∧
          (t = .key ∨ t = .blockEnds) := by
        cases entries with
        | nil => exact ⟨_, _, rfl, .inr rfl⟩
        | cons other entries =>
            have hother := Entry.tokens_eq (hentries other List.mem_cons_self).2
            exact ⟨.key, _, by rw [List.flatMap_cons, hother]; rfl, .inl rfl⟩
      have hread := ih hentries (show entries.length + 3 < fuel by omega)
      rw [hnext] at hread
      rw [List.flatMap_cons, List.append_assoc, hnext, Entry.tokens_eq hmarked, readEntries]
      simp only [List.cons_append, Feed.skip?_eq]
      rw [readUnless_scalar huntagged.1 (by simp) (by omega)]
      simp only [Option.bind_eq_bind, Option.bind_some]
      rw [readValue_eq huntagged (by simp) (by rcases ht with rfl | rfl <;> decide)
        (by rcases ht with rfl | rfl <;> decide) (by omega)]
      simp only [Option.bind_some, hread]
      rfl

/-- An entry of a flow mapping is read in front of the comma or the brace behind it. -/
theorem readFlowEntry_eq {t : Token} (h : entry.Untagged) (ht : t = .comma ∨ t = .rightBrace)
    (hfuel : 3 < fuel) :
    readFlowEntry fuel { tokens := entry.tokens ++ t :: rest, named, stems } =
      some (.scalar entry.key, .scalar entry.value, { tokens := t :: rest, named, stems }) := by
  obtain ⟨fuel, rfl⟩ := Nat.exists_eq_add_one.mpr (Nat.zero_lt_of_lt hfuel)
  by_cases hbare : ∃ key, entry = .bare key
  · obtain ⟨key, rfl⟩ := hbare
    have hmark : key.token ≠ .key := by simp [Scalar.token]
    have hkey : key.tag = none := h.1
    simp only [readFlowEntry, Entry.tokens, List.singleton_append, Feed.skip?_of_ne hmark,
      readNode_scalar hkey (show 0 < fuel by omega)]
    rfl
  · rw [Entry.tokens_eq (not_exists.mp hbare), readFlowEntry]
    simp only [List.cons_append, Feed.skip?_eq]
    rw [readUnless_scalar h.1 (by simp) (by omega)]
    simp only [Option.bind_eq_bind, Option.bind_some]
    rw [readValue_eq h (by simp) (by rcases ht with rfl | rfl <;> decide)
      (by rcases ht with rfl | rfl <;> decide) (by omega)]
    rfl

theorem readFlowEntries_rightBrace {first : Bool} (hfuel : 0 < fuel) :
    readFlowEntries fuel first { tokens := .rightBrace :: rest, named, stems } =
      some ([], { tokens := rest, named, stems }) := by
  obtain ⟨fuel, rfl⟩ := Nat.exists_eq_add_one.mpr hfuel
  simp [readFlowEntries, Feed.sees, Feed.skip]

/-- Behind a comma entries are read as behind the opening brace. -/
theorem readFlowEntries_comma :
    readFlowEntries fuel false { tokens := .comma :: rest, named, stems } =
      readFlowEntries fuel true { tokens := rest, named, stems } := by
  cases fuel with
  | zero => rfl
  | succ fuel =>
      rw [readFlowEntries, readFlowEntries, if_neg (by simp [Feed.sees])]
      simp only [Bool.false_eq_true, if_false, if_true, Feed.skip?_eq, Option.bind_eq_bind,
        Option.bind_some, Option.pure_def]
      split <;> rfl

/-- **The tokens of a flow mapping are read as its keys and values.** -/
theorem readFlowEntries_eq {tokens : List Token} (hbraced : Braced entries tokens)
    (h : ∀ entry ∈ entries, entry.Untagged) (hfuel : entries.length + 4 < fuel) :
    readFlowEntries fuel true { tokens := tokens ++ rest, named, stems } =
      some (nodes entries, { tokens := rest, named, stems }) := by
  have hbrace : ∀ {entry : Entry} {rest : List Token},
      Feed.sees { tokens := entry.tokens ++ rest, named, stems } [.rightBrace] = false := by
    rintro (_ | _ | _) rest <;> simp [Feed.sees, Entry.tokens, Scalar.token]
  induction hbraced generalizing fuel with
  | close =>
      exact readFlowEntries_rightBrace (Nat.zero_lt_of_lt hfuel)
  | @last entry =>
      obtain ⟨fuel, rfl⟩ := Nat.exists_eq_add_one.mpr (Nat.zero_lt_of_lt hfuel)
      obtain ⟨huntagged, -⟩ := List.forall_mem_cons.mp h
      rw [readFlowEntries, List.append_assoc, List.singleton_append]
      simp only [hbrace, Bool.false_eq_true, if_false, if_true, Option.bind_eq_bind,
        Option.bind_some]
      rw [readFlowEntry_eq huntagged (.inr rfl) (by omega)]
      simp only [Option.bind_some, readFlowEntries_rightBrace (show 0 < fuel by omega)]
      rfl
  | @cons entry entries tokens _ ih =>
      obtain ⟨fuel, rfl⟩ := Nat.exists_eq_add_one.mpr (Nat.zero_lt_of_lt hfuel)
      obtain ⟨huntagged, hentries⟩ := List.forall_mem_cons.mp h
      rw [List.length_cons] at hfuel
      rw [readFlowEntries, List.append_assoc, List.cons_append]
      simp only [hbrace, Bool.false_eq_true, if_false, if_true, Option.bind_eq_bind,
        Option.bind_some]
      rw [readFlowEntry_eq huntagged (.inl rfl) (by omega)]
      simp only [Option.bind_some, readFlowEntries_comma, ih hentries (show _ < fuel by omega)]
      rfl

/-! ### Documents -/

/-- The document of a list of tokens without marks of a document or directives. -/
theorem Node.ofTokens?_eq {t : Token} {node : Node} (ht : t = .mappingBegins ∨ t = .leftBrace)
    (h : ∀ stems, readNode (4 * (rest.length + 1) + 16) .block { tokens := t :: rest, stems } =
      some (node, { tokens := [], stems })) :
    Node.ofTokens? (t :: rest) = some node := by
  have hbegins : ∀ stems, Feed.skip? { tokens := t :: rest, stems } .documentBegins = none :=
    fun stems => Feed.skip?_of_ne (by rcases ht with rfl | rfl <;> decide)
  have hdirectives : directives? false [] (t :: rest) = some ([], t :: rest) := by
    rcases ht with rfl | rfl <;> rfl
  rw [Node.ofTokens?, hdirectives]
  rcases ht with rfl | rfl <;> simp [hbegins, h, guard]

theorem length_le_tokens (entries : List Entry) :
    entries.length ≤ (entries.flatMap Entry.tokens).length := by
  induction entries with
  | nil => exact Nat.le_refl _
  | cons entry entries ih =>
      have hentry : 0 < entry.tokens.length := by cases entry <;> simp [Entry.tokens]
      rw [List.flatMap_cons, List.length_append, List.length_cons]
      omega

theorem Braced.length_le {tokens : List Token} (h : Braced entries tokens) :
    entries.length ≤ tokens.length := by
  induction h with
  | close => exact Nat.zero_le _
  | last => simp
  | cons _ ih =>
      simp only [List.length_append, List.length_cons]
      omega

theorem ofTokens?_block (h : ∀ entry ∈ entries, entry.Untagged ∧ ∀ key, entry ≠ .bare key) :
    Node.ofTokens? (.mappingBegins :: (entries.flatMap Entry.tokens ++ [.blockEnds])) =
      some (.mapping (nodes entries)) := by
  refine Node.ofTokens?_eq (.inl rfl) fun stems => ?_
  have hfuel : entries.length + 3 <
      4 * ((entries.flatMap Entry.tokens ++ [Token.blockEnds]).length + 1) + 15 := by
    have := length_le_tokens entries
    rw [List.length_append]
    omega
  simp only [readNode, Feed.properties?, Properties.register, Feed.skip, List.tail_cons,
    readEntries_eq h hfuel, Option.bind_eq_bind, Option.bind_some, Option.map_some]

theorem ofTokens?_flow {tokens : List Token} (hbraced : Braced entries tokens)
    (h : ∀ entry ∈ entries, entry.Untagged) :
    Node.ofTokens? (.leftBrace :: tokens) = some (.mapping (nodes entries)) := by
  refine Node.ofTokens?_eq (.inr rfl) fun stems => ?_
  have hfuel : entries.length + 4 < 4 * (tokens.length + 1) + 15 := by
    have := hbraced.length_le
    omega
  have hread : readFlowEntries (4 * (tokens.length + 1) + 15) true
      { tokens := tokens ++ [], stems } = some (nodes entries, { tokens := [], stems }) :=
    readFlowEntries_eq hbraced h hfuel
  rw [List.append_nil] at hread
  simp only [readNode, Feed.properties?, Properties.register, Feed.skip, List.tail_cons, hread,
    Option.bind_eq_bind, Option.bind_some, Option.map_some]

/-! ### Whole texts -/

/-- The gap at the head of a text is passed over. -/
theorem Lines.leads {lead : List Char} {tokens : List Token} (h : Lines false lead next)
    (hbehind : Resumes (Place.through {} lead) behind) (hnone : next = none → behind = [])
    (hyields : Layout.Yields { cursor := ⟨Place.through {} lead, behind⟩ } tokens) :
    Layout.Leads { cursor := ⟨{}, lead ++ behind⟩ } tokens := by
  exact Layout.leads_of_gap_block rfl (h.gap_eq (.inr rfl) hbehind hnone) rfl hyields

/-- The opening brace is read. The mapping could be a key, but need not be one. -/
theorem yields_leftBrace {p : Place} {tokens : List Token}
    (hunmarked : Unmarked p ('\x7b' :: src))
    (hleads : ∀ outer, Around 1 outer → Layout.Leads {
      cursor := ⟨p.past '\x7b', src⟩, tokens := [.leftBrace], outer } tokens) :
    Layout.Yields { cursor := ⟨p, '\x7b' :: src⟩ } tokens := by
  let t : Layout := { cursor := ⟨p, '\x7b' :: src⟩ }
  have hnext : t.next? = some {
      cursor := ⟨p.past '\x7b', src⟩, tokens := [.leftBrace], outer := [t.candidate] } := by
    rw [Layout.next?_eq rfl (by decide) hunmarked, Layout.token?]
    show t.openFlow? .leftBrace = _
    rw [Layout.openFlow?, Layout.saveKey?_eq rfl]
    rfl
  have hround : Around 1 [t.candidate] :=
    ⟨rfl, List.forall_mem_singleton.mpr (Layout.optional_candidate (.inr (by simp [t])))⟩
  exact .of_next? (.inr (by simp)) hnext (Nat.lt_succ_self _) (hleads _ hround)

/-- **A text that is a mapping has the tokens of its entries.** -/
theorem MappingText.leads (h : MappingText src entries) (hunmarked : Unmarked {} src) :
    ∃ tokens, Layout.Leads { cursor := ⟨{}, src⟩ } tokens ∧
      (tokens = [] ∧ entries = [] ∨ Node.ofTokens? tokens = some (.mapping (nodes entries))) := by
  cases h with
  | nothing h =>
      refine ⟨[], ?_, .inl ⟨rfl, rfl⟩⟩
      rw [← List.append_nil src]
      exact h.leads (.inl rfl) (fun _ => rfl)
        (Layout.yields_finish (t := { cursor := ⟨Place.through {} src, []⟩ }) rfl rfl nofun)
  | block hlead h =>
      refine ⟨_, hlead.leads h.resumes nofun ?_, .inr (ofTokens?_block h.untagged)⟩
      exact h.yields (.inr ⟨rfl, nofun⟩) (hlead.column_eq rfl) nofun (fun _ => ⟨rfl, rfl⟩)
        hunmarked.through
  | flow hlead h =>
      obtain ⟨tokens, hbraced, hleads⟩ := h.leads
      refine ⟨.leftBrace :: tokens, ?_, .inr (ofTokens?_flow hbraced h.untagged)⟩
      refine hlead.leads (.inr (startsToken_cons rfl rfl (by decide) rfl)) nofun ?_
      exact yields_leftBrace hunmarked.through fun outer houter =>
        hleads [.leftBrace] (hunmarked.through.past rfl) houter

/-- **A document is read** as the mapping that it holds; nothing is the same as an empty mapping. -/
theorem Document.ofText?_eq {text : String} {entries : List (Scalar × Scalar)}
    (h : Document text entries) :
    ∃ node, Node.ofText? text = some node ∧
      (node = .mapping (entries.map fun entry => (.scalar entry.1, .scalar entry.2)) ∨
        node = .empty ∧ entries = []) := by
  obtain ⟨written, hmapping, rfl⟩ := h.mapping
  obtain ⟨tokens, hleads, hnode⟩ := hmapping.leads h.unmarked
  have htokens : tokens? text = some tokens := by
    rw [tokens?, Cursor.start?, if_pos h.printable]
    exact hleads.run?_eq (Nat.le_refl _)
  rw [Node.ofText?, htokens]
  rcases hnode with ⟨rfl, rfl⟩ | hnode
  · exact ⟨.empty, rfl, .inr ⟨rfl, rfl⟩⟩
  · refine ⟨_, hnode, .inl ?_⟩
    rw [nodes, List.map_map]
    rfl

/-- The rules are unambiguous: a document has one reading. -/
theorem Document.unique {text : String} {entries others : List (Scalar × Scalar)}
    (h : Document text entries) (hothers : Document text others) : entries = others := by
  obtain ⟨node, hnode, hmapping⟩ := h.ofText?_eq
  obtain ⟨other, hother, hmapping'⟩ := hothers.ofText?_eq
  obtain rfl : node = other := Option.some.inj (hnode.symm.trans hother)
  have hscalars : ∀ entry other : Scalar × Scalar,
      (Node.scalar entry.1, Node.scalar entry.2) = (.scalar other.1, .scalar other.2) →
        entry = other := by
    rintro ⟨key, value⟩ ⟨key', value'⟩ heq
    simpa using heq
  rcases hmapping with rfl | ⟨rfl, rfl⟩ <;> rcases hmapping' with hsame | ⟨hsame, rfl⟩
  · exact (List.map_inj_right hscalars).mp (Node.mapping.inj hsame)
  · cases hsame
  · cases hsame
  · rfl

end MessageCalls.Yaml
