import MessageCalls.Proofs.Yaml.Steps
/-!
# MessageCalls.Proofs.Yaml.BlockMapping

A block mapping is read as the tokens of its entries. Between two entries the layout has one column
open, or none before the first entry, and no key is pending. **A key or a value takes it to what is
next in that column** (`BlockNode.leads`), and by induction all entries take it to the end of the
text (`Entries.yields`).
-/

namespace MessageCalls.Yaml

variable {flow tabs keys : Bool} {indent n : Nat} {p : Place} {next : Option Nat}
  {lead src rest behind : List Char} {read result all : List Token} {indents : List Nat}

/-- The tokens of an entry. -/
def Entry.tokens : Entry → List Token
  | .bare key => [key.token]
  | .marked key => [.key, key.token]
  | .full key value => .key :: key.token :: .value :: value.toList.map Scalar.token

/-- The tokens of an entry behind its key. -/
def Entry.valueTokens : Entry → List Token
  | .bare _ | .marked _ => []
  | .full _ value => .value :: value.toList.map Scalar.token

/-- An entry starts with a mark unless it is bare; a colon gives one to the key before it. -/
theorem Entry.tokens_eq {entry : Entry} (h : ∀ key, entry ≠ .bare key) :
    entry.tokens = .key :: entry.key.token :: entry.valueTokens := by
  cases entry with
  | bare key => exact absurd rfl (h key)
  | marked | full => rfl

/-! ### Where things start -/

theorem InlineScalar.startsToken {s : Scalar} (h : InlineScalar flow indent behind src s) :
    StartsToken p (src ++ behind) := by
  cases h with
  | plain hstart hmark _ =>
      have hword := (goesOn_of_startsPlain hstart).isWord
      refine ⟨_, _, rfl, hword.1, hword.2, ?_, fun horder => absurd horder (by simp [hmark])⟩
      rintro rfl
      cases hstart
  | single => exact startsToken_cons rfl rfl (by decide) rfl
  | double => exact startsToken_cons rfl rfl (by decide) rfl

theorem BlockScalar.startsToken {s : Scalar} (h : BlockScalar n behind src s) :
    StartsToken p (src ++ behind) := by
  obtain ⟨literal, tail, _, rfl, -⟩ := h.read p
  cases literal <;> exact startsToken_cons rfl rfl (by decide) rfl

theorem startsBlank_of_blanks {blanks : List Char} (h : Blanks tabs blanks) (hne : blanks ≠ []) :
    startsBlank (blanks ++ rest) = true := by
  obtain ⟨c, blanks, rfl⟩ := List.exists_cons_of_ne_nil hne
  simp [startsBlank, isBlank_of_blanks h c List.mem_cons_self]

theorem LineRest.startsBlank (h : LineRest flow tabs src next) (hnone : next = none → behind = []) :
    Yaml.startsBlank (src ++ behind) = true := by
  cases h with
  | @finish blanks comment hblanks hcomment hapart =>
      by_cases hne : blanks = []
      · rw [hne, hapart hne, hnone rfl]
        rfl
      · rw [List.append_assoc]
        exact startsBlank_of_blanks hblanks hne
  | @line blanks comment b src _ hblanks hcomment hapart hbreak hlines =>
      rw [List.append_assoc, List.append_assoc]
      by_cases hne : blanks = []
      · rw [hne, hapart hne]
        simp [Yaml.startsBlank, hbreak]
      · exact startsBlank_of_blanks hblanks hne

/-- A key or a value is set off from the mark before it. -/
theorem BlockNode.startsBlank {value : Option Scalar} (h : BlockNode n tabs behind src value next)
    (hnone : next = none → behind = []) : Yaml.startsBlank (src ++ behind) = true := by
  have hlead : ∀ {lead rest : List Char}, Lead n tabs lead →
      Yaml.startsBlank (lead ++ rest) = true := by
    rintro lead rest (⟨hblanks, hne⟩ | ⟨hlines, -⟩)
    · exact startsBlank_of_blanks hblanks hne
    · exact hlines.startsBlank nofun
  cases h with
  | empty h => exact h.startsBlank hnone
  | inline h => rw [List.append_assoc]; exact hlead h
  | block h => rw [List.append_assoc]; exact hlead h

theorem Entries.resumes {entries : List Entry} (h : Entries n next src entries) :
    Resumes p src := by
  cases h with
  | done => exact .inl rfl
  | implicit hkey => exact .inr hkey.scalar.startsToken
  | explicit => exact .inr (startsToken_cons rfl rfl (by decide) rfl)
  | marked => exact .inr (startsToken_cons rfl rfl (by decide) rfl)

/-- Either the text is over or another entry is next in the column. -/
theorem Entries.next_cases {entries : List Entry} (h : Entries n next src entries) :
    next = none ∧ src = [] ∨ next = some n ∧ src ≠ [] := by
  cases h with
  | done => exact .inl ⟨rfl, rfl⟩
  | implicit | explicit | marked => exact .inr ⟨rfl, by simp⟩

theorem Entries.eq_nil {entries : List Entry} (h : Entries n next src entries)
    (hnext : next = none) : src = [] := by
  rcases h.next_cases with ⟨-, hsrc⟩ | ⟨hn, -⟩
  · exact hsrc
  · cases hn.symm.trans hnext

/-- What is next behind a key or a value stands in the column that the rules tell. -/
theorem BlockNode.column_eq {value : Option Scalar} (h : BlockNode n tabs behind src value next)
    (hbehind : behind ≠ []) : ∀ k ∈ next, (p.through src).column = k := by
  cases h with
  | empty h => exact h.column_eq
  | inline _ _ hrest =>
      rw [Place.through_append, Place.through_append]
      exact hrest.column_eq
  | block _ hs hrest =>
      rw [Place.through_append, Place.through_append]
      exact hrest.column_eq (hs.column_eq (by simp [hbehind]))

/-! ### Keys and values -/

/-- A mapping goes on where a token does not stand further left. -/
theorem head_le (hindents : indents = [n] ∨ indents = []) (hp : n ≤ p.column) :
    ∀ i ∈ indents.head?, i ≤ p.column := by
  intro i hi
  rcases hindents with rfl | rfl
  · exact Option.some.inj hi ▸ hp
  · cases hi

/-- What leads to a scalar is passed over, and the scalar stands further right than its mapping. -/
theorem Lead.leads (h : Lead n tabs lead) (hp : n < p.column) (htabs : tabs = true → keys = false)
    (hbehind : StartsToken (p.through lead) behind)
    (hyields : ∀ keys, n < (p.through lead).column →
      Layout.Yields { cursor := ⟨p.through lead, behind⟩, tokens := read, indents, keys } result) :
    Layout.Leads { cursor := ⟨p, lead ++ behind⟩, tokens := read, indents, keys } result := by
  have hfound : ∃ after, gap false keys false p (lead ++ behind) =
      (after, ⟨p.through lead, behind⟩) ∧ n < (p.through lead).column := by
    cases h with
    | blanks hblanks _ =>
        refine ⟨keys, ?_, ?_⟩
        · rw [gap_blanks hblanks fun htab => .inr (htabs htab), gap_resumes (.inr hbehind)]
        · rw [Place.through_of_oneLine p (isBreak_of_blanks hblanks)]
          exact Nat.lt_add_right _ hp
    | lines hlines hcolumn =>
        obtain ⟨after, hgap, -⟩ :=
          hlines.gap_eq keys (fun htab => .inr (htabs htab)) (.inr hbehind) nofun
        exact ⟨after, hgap, hlines.column_eq _ rfl ▸ hcolumn⟩
  obtain ⟨after, hgap, hcolumn⟩ := hfound
  exact Layout.leads_of_gap_block rfl hgap rfl (hyields after hcolumn)

/-- **A key or a value of a block mapping is read**, and what is next in the column of the mapping
is found. If anything is, no key is pending there, and one may stand there. -/
theorem BlockNode.leads {value : Option Scalar} (h : BlockNode n tabs behind src value next)
    (hp : n < p.column) (htabs : tabs = true → keys = false)
    (hunmarked : Unmarked p (src ++ behind)) (hbehind : Resumes (p.through src) behind)
    (hnone : next = none → behind = []) (hnext : ∀ k ∈ next, k = n)
    (hyields : ∀ key keys, Optional key → (next ≠ none → key = none ∧ keys = true) →
      Layout.Yields {
        cursor := ⟨p.through src, behind⟩
        tokens := value.toList.map Scalar.token ++ read
        indents := [n], key, keys } result) :
    Layout.Leads { cursor := ⟨p, src ++ behind⟩, tokens := read, indents := [n], keys }
      result := by
  cases h with
  | empty h =>
      obtain ⟨after, hgap, hafter⟩ := h.gap_eq keys (fun htab => .inr (htabs htab)) hbehind hnone
      exact Layout.leads_of_gap_block rfl hgap rfl
        (hyields none after nofun fun hne => ⟨rfl, by simp [hafter hne]⟩)
  | @inline lead rest src _ s hlead hs hrest =>
      rw [List.append_assoc, List.append_assoc] at hunmarked ⊢
      rw [Place.through_append, Place.through_append] at hbehind hyields
      refine hlead.leads hp htabs hs.startsToken fun keys hcolumn => ?_
      have hright := head_le (.inl rfl) (Nat.le_of_lt hcolumn)
      -- Right of the column of the mapping a scalar could be a key, but no colon has to follow.
      have hoptional : Optional (Layout.candidate {
          cursor := ⟨p.through lead, src ++ (rest ++ behind)⟩
          tokens := read, indents := [n], keys }) :=
        Layout.optional_candidate (.inr fun heq => Nat.ne_of_lt hcolumn (Option.some.inj heq))
      obtain ⟨key, hreach, hkey, hdropped⟩ :=
        hoptional.reaching?_eq (((p.through lead).through src).through rest)
      have hend : next ≠ none →
          (((p.through lead).through src).through rest).column < n + 1 := by
        intro hne
        obtain ⟨k, hk⟩ := Option.ne_none_iff_exists'.mp hne
        rw [hrest.column_eq k hk, hnext k hk]
        exact Nat.lt_succ_self n
      refine Layout.yields_inline hs rfl hunmarked.through (.inr hright) rfl ⟨rfl, nofun⟩
        (hrest.found hbehind hnone hend) hreach ?_
      rintro after outer hafter ⟨houter, -⟩
      rw [List.length_eq_zero_iff.mp houter]
      -- On another line the scalar is out of reach of a colon.
      refine hyields key after hkey fun hne => ⟨hdropped fun k hk => ?_, hafter hne⟩
      rw [Layout.place_candidate k hk]
      exact Nat.lt_of_le_of_lt (Place.line_le_through _ src) (hrest.line_lt hne)
  | @block lead rest src s _ hlead hs hrest =>
      rw [List.append_assoc, List.append_assoc] at hunmarked ⊢
      rw [Place.through_append, Place.through_append] at hbehind hyields
      refine hlead.leads hp htabs hs.startsToken fun keys hcolumn => ?_
      have hright := head_le (.inl rfl) (Nat.le_of_lt hcolumn)
      obtain ⟨c, hread, hlength, hgap⟩ := Layout.next?_block hs rfl hunmarked.through
        (t := {
          cursor := ⟨p.through lead, src ++ (rest ++ behind)⟩
          tokens := read, indents := [n], keys }) rfl rfl nofun
      rw [hrest.gap_eq (.inr rfl) hbehind hnone] at hgap
      refine .of_next? (.inr hright) hread hlength ?_
      exact Layout.leads_of_gap_block rfl hgap rfl (hyields none true nofun fun _ => ⟨rfl, rfl⟩)

/-! ### Entries -/

/-- The tokens before an entry. The mapping begins with its first one, in front of which no column
is open. -/
def opened (indents : List Nat) (read : List Token) : List Token :=
  if indents.isEmpty then .mappingBegins :: read else read

theorem begun_eq {key : Option PendingKey} (hindents : indents = [n] ∨ indents = [])
    (hp : p.column = n) :
    Layout.begun { cursor := ⟨p, src⟩, tokens := read, indents, key, keys } =
      { cursor := ⟨p, src⟩, tokens := opened indents read, indents := [n], key, keys } := by
  rcases hindents with rfl | rfl
  · simp [Layout.begun, Layout.indent, opened, hp]
  · simp [Layout.begun, Layout.indent, Layout.flow, opened, hp]

theorem toList_token_reverse (value : Option Scalar) :
    (value.toList.map Scalar.token).reverse = value.toList.map Scalar.token := by
  cases value <;> rfl

/-- A key or a value is read, and the entries behind it are. -/
theorem BlockNode.leads_entries {value : Option Scalar} {entries : List Entry}
    (hnode : BlockNode n tabs behind src value next) (h : Entries n next behind entries)
    (hp : n < p.column) (htabs : tabs = true → keys = false)
    (hunmarked : Unmarked p (src ++ behind))
    (hyields : ∀ (q : Place) (read : List Token) (key : Option PendingKey) (keys : Bool),
      (∀ k ∈ next, q.column = k) → Optional key → (next ≠ none → key = none ∧ keys = true) →
      Unmarked q behind →
      Layout.Yields { cursor := ⟨q, behind⟩, tokens := read, indents := [n], key, keys }
        (read.reverse ++ result))
    (hall : all = read.reverse ++ (value.toList.map Scalar.token ++ result)) :
    Layout.Leads { cursor := ⟨p, src ++ behind⟩, tokens := read, indents := [n], keys } all := by
  have hn : ∀ k ∈ next, k = n := by
    rintro k hk
    rcases h.next_cases with ⟨hnone, -⟩ | ⟨hsome, -⟩
    · cases hnone.symm.trans hk
    · exact Option.some.inj (hk.symm.trans hsome)
  have hcolumn : ∀ k ∈ next, (p.through src).column = k := by
    rcases h.next_cases with ⟨rfl, -⟩ | ⟨-, hbehind⟩
    · exact nofun
    · exact hnode.column_eq hbehind
  refine hnode.leads hp htabs hunmarked h.resumes h.eq_nil hn fun key keys hkey hsettled => ?_
  have hrest := hyields _ (value.toList.map Scalar.token ++ read) key keys hcolumn hkey hsettled
    hunmarked.through
  rwa [List.reverse_append, toList_token_reverse, List.append_assoc, ← hall] at hrest

/-- **Entries of a block mapping are read**, in the column of the mapping and up to the end of the
text. -/
theorem Entries.yields {entries : List Entry} (h : Entries n next src entries)
    {key : Option PendingKey} (hindents : indents = [n] ∨ indents = [] ∧ next ≠ none)
    (hcolumn : ∀ k ∈ next, p.column = k) (hkey : Optional key)
    (hsettled : next ≠ none → key = none ∧ keys = true) (hunmarked : Unmarked p src) :
    Layout.Yields { cursor := ⟨p, src⟩, tokens := read, indents, key, keys }
      ((opened indents read).reverse ++ (entries.flatMap Entry.tokens ++ [.blockEnds])) := by
  induction h generalizing p read indents key keys with
  | done =>
      obtain rfl : indents = [n] := hindents.resolve_right fun h => h.2 rfl
      exact Layout.yields_finish
        (t := { cursor := ⟨p, []⟩, tokens := read, indents := [n], key, keys }) rfl rfl hkey
  | @implicit src blanks next name value entries keySrc node hname hvalue h ih =>
      obtain ⟨rfl, rfl⟩ := hsettled nofun
      have hp : p.column = n := hcolumn n rfl
      have hopen := hindents.imp_right And.left
      have hblank := hvalue.startsBlank h.eq_nil
      refine Layout.yields_implicit hname rfl hunmarked (.inr (head_le hopen hp.ge)) rfl rfl
        ⟨rfl, nofun⟩ (.inr hblank) (fun _ => hblank) ?_
      rintro outer ⟨houter, -⟩
      rw [List.length_eq_zero_iff.mp houter, begun_eq hopen hp]
      have hline : ∀ c ∈ keySrc ++ (blanks ++ [':']), isBreak c = false := by
        intro c hc
        simp only [List.mem_append, List.mem_singleton] at hc
        rcases hc with hc | hc | rfl
        · exact hname.oneLine c hc
        · exact isBreak_of_blanks hname.apart c hc
        · rfl
      have hmarked : Unmarked (p.through (keySrc ++ (blanks ++ [':']))) (node ++ src) :=
        Unmarked.through (by simpa using hunmarked)
      exact hvalue.leads_entries h (hp ▸ Place.column_through_pos p (by simp) hline)
        (fun _ => rfl) hmarked (fun _ _ _ _ => ih (.inl rfl)) (by simp [Entry.tokens])
  | @explicit src next name value entries keySrc node hname hvalue h ih =>
      obtain ⟨rfl, rfl⟩ := hsettled nofun
      have hp : p.column = n := hcolumn n rfl
      have hopen := hindents.imp_right And.left
      refine Layout.yields_keyMark rfl hunmarked (.inr (head_le hopen hp.ge)) rfl rfl
        (.inr (hname.startsBlank nofun)) ?_
      rw [begun_eq hopen hp]
      have hmarked := hunmarked.past rfl
      have hcolon : ((p.past '?').through keySrc).column = n := hname.column_eq nofun n rfl
      refine hname.leads (hp ▸ Nat.lt_succ_self _) nofun hmarked
        (.inr (startsToken_cons rfl rfl (by decide) rfl)) nofun (by rintro k ⟨⟩; rfl) ?_
      intro key keys _ hsettled
      obtain ⟨rfl, rfl⟩ := hsettled nofun
      refine Layout.yields_colon rfl hmarked.through (.inr (head_le (.inl rfl) hcolon.ge)) rfl
        (.inr rfl) (.inr (hvalue.startsBlank h.eq_nil)) ?_
      rw [begun_eq (.inl rfl) hcolon]
      exact hvalue.leads_entries h (hcolon ▸ Nat.lt_succ_self _) nofun (hmarked.through.past rfl)
        (fun _ _ _ _ => ih (.inl rfl)) (by simp [Entry.tokens, opened])
  | @marked next src name entries keySrc hname h ih =>
      obtain ⟨rfl, rfl⟩ := hsettled nofun
      have hp : p.column = n := hcolumn n rfl
      have hopen := hindents.imp_right And.left
      refine Layout.yields_keyMark rfl hunmarked (.inr (head_le hopen hp.ge)) rfl rfl
        (.inr (hname.startsBlank h.eq_nil)) ?_
      rw [begun_eq hopen hp]
      exact hname.leads_entries h (hp ▸ Nat.lt_succ_self _) nofun (hunmarked.past rfl)
        (fun _ _ _ _ => ih (.inl rfl)) (by simp [Entry.tokens])

end MessageCalls.Yaml
