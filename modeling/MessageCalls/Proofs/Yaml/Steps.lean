import Mathlib.Data.List.TakeWhile
import Mathlib.Data.Option.Basic
import MessageCalls.Proofs.Yaml.Behind
import MessageCalls.Proofs.Yaml.Blocks
/-!
# MessageCalls.Proofs.Yaml.Steps

Tokens one by one. A layout at a token `Yields` the tokens of a text if reading from there on gives
them, whatever the fuel; a layout behind a token `Leads` to them if the next token does. **One token
read takes a layout to the next one** (`Layout.Yields.of_next?`), and there is one lemma for each
token of a mapping: a scalar (`Layout.yields_inline`, `Layout.next?_block`), a key without a mark
(`Layout.yields_implicit`), the mark of a key and its colon (`Layout.yields_keyMark`,
`Layout.yields_colon`).
-/

namespace MessageCalls.Yaml

variable {after : Bool} {n depth : Nat} {p : Place} {c : Char} {src rest behind : List Char}
  {tokens : List Token}

/-! ### Gaps and keys -/

/-- A gap takes characters and adds none. -/
theorem length_gap_le (flow keys comment : Bool) (p : Place) (cs : List Char) :
    (gap flow keys comment p cs).2.rest.length ≤ cs.length := by
  induction cs generalizing keys comment p with
  | nil => exact Nat.le_refl _
  | cons c cs ih =>
      rw [gap]
      split
      · exact Nat.le_succ_of_le (ih _ _ _)
      split
      · exact Nat.le_succ_of_le (ih _ _ _)
      split
      · exact Nat.le_succ_of_le (ih _ _ _)
      · exact Nat.le_refl _

/-- A colon need not follow. -/
def Optional (key : Option PendingKey) : Prop := ∀ k ∈ key, k.required = false

theorem any_required (h : Optional key) : key.any (·.required) = false := by
  cases key with
  | none => rfl
  | some k => exact h k rfl

theorem Layout.dropKey?_eq {t : Layout} (h : Optional t.key) :
    t.dropKey? = some { t with key := none } := by
  rw [dropKey?, any_required h]
  rfl

/-- A key that is not required may go out of reach, and nothing else happens to it. -/
theorem Optional.reaching?_eq {key : Option PendingKey} (h : Optional key) (p : Place) :
    ∃ left, Layout.reaching? p key = some left ∧ Optional left ∧
      ((∀ k ∈ key, k.place.line < p.line) → left = none) := by
  cases key with
  | none => exact ⟨none, rfl, h, fun _ => rfl⟩
  | some k =>
      by_cases hreach : k.reaches p = true
      · refine ⟨some k, by simp [Layout.reaching?, hreach], h, fun hline => ?_⟩
        rw [PendingKey.reaches, Bool.and_eq_true, decide_eq_true_eq] at hreach
        exact absurd (hline k rfl) (by omega)
      · exact ⟨none, by simp [Layout.reaching?, hreach, h k rfl], nofun, fun _ => rfl⟩

/-- So many flow collections are open, and none of them has to be a key. -/
def Around (depth : Nat) (outer : List (Option PendingKey)) : Prop :=
  outer.length = depth ∧ ∀ key ∈ outer, Optional key

theorem Around.reaching?_eq {outer : List (Option PendingKey)} (h : Around depth outer)
    (p : Place) : ∃ left, outer.mapM (Layout.reaching? p) = some left ∧ Around depth left := by
  obtain ⟨rfl, h⟩ := h
  induction outer with
  | nil => exact ⟨[], rfl, rfl, nofun⟩
  | cons key outer ih =>
      obtain ⟨left, hkey, hleft, -⟩ := (h key List.mem_cons_self).reaching?_eq p
      obtain ⟨others, houter, hlength, hothers⟩ := ih fun k hk => h k (List.mem_cons_of_mem _ hk)
      refine ⟨left :: others, ?_, by rw [List.length_cons, hlength, List.length_cons], ?_⟩
      · simp [List.mapM_cons, hkey, houter]
      · exact List.forall_mem_cons.mpr ⟨hleft, hothers⟩

/-- The token of a scalar. -/
def Scalar.token (s : Scalar) : Token := .scalar s.style s.text.toList

namespace Layout

variable {s t u : Layout}

/-! ### Reading on -/

/-- What reading does with so much fuel at a token. -/
def here? (fuel : Nat) (t : Layout) : Option (List Token) :=
  if t.cursor.rest.isEmpty then do return (← (t.dedent none).dropKey?).tokens.reverse
  else do run? fuel (← (t.dedent (some t.cursor.column)).next?)

theorem run?_succ (fuel : Nat) (s : Layout) : run? (fuel + 1) s = s.toToken?.bind (here? fuel) := by
  rw [run?]
  cases s.toToken? with
  | none => rfl
  | some t =>
      simp only [Option.bind_eq_bind, Option.bind_some, here?]

/-- From a token on the rest of the text is read as tokens. -/
def Yields (t : Layout) (tokens : List Token) : Prop :=
  ∀ fuel, t.cursor.rest.length ≤ fuel → here? fuel t = some tokens

/-- Behind a token the rest of the text is read as tokens. -/
def Leads (s : Layout) (tokens : List Token) : Prop :=
  ∃ t, s.toToken? = some t ∧ t.Yields tokens

theorem toToken?_eq {found : Cursor} {after : Bool} {left : Option PendingKey}
    {outer : List (Option PendingKey)}
    (hgap : gap s.flow s.keys false s.cursor.toPlace s.cursor.rest = (after, found))
    (hkey : reaching? found.toPlace s.key = some left)
    (houter : s.outer.mapM (reaching? found.toPlace) = some outer) :
    s.toToken? = some { s with cursor := found, keys := after, key := left, outer } := by
  simp only [toToken?, hgap, hkey, houter, Option.bind_eq_bind, Option.bind_some, Option.pure_def]

theorem leads_of_gap {found : Cursor} {key : Option PendingKey}
    (hgap : gap s.flow s.keys false s.cursor.toPlace s.cursor.rest = (after, found))
    (hkey : reaching? found.toPlace s.key = some key) (houter : Around depth s.outer)
    (hyields : ∀ outer, Around depth outer →
      Yields { s with cursor := found, keys := after, key, outer } tokens) : s.Leads tokens := by
  obtain ⟨outer, hleft, hround⟩ := houter.reaching?_eq found.toPlace
  exact ⟨_, toToken?_eq hgap hkey hleft, hyields outer hround⟩

/-- Outside of flow collections no key is pending but one. -/
theorem leads_of_gap_block {found : Cursor} {key : Option PendingKey} (houter : s.outer = [])
    (hgap : gap s.flow s.keys false s.cursor.toPlace s.cursor.rest = (after, found))
    (hkey : reaching? found.toPlace s.key = some key)
    (hyields : Yields { s with cursor := found, keys := after, key } tokens) : s.Leads tokens := by
  refine leads_of_gap hgap hkey ⟨rfl, by rw [houter]; exact nofun⟩ ?_
  rintro outer ⟨hlength, -⟩
  rw [houter] at hlength hyields
  rw [List.length_eq_zero_iff.mp hlength]
  exact hyields

theorem length_toToken?_le (h : s.toToken? = some t) :
    t.cursor.rest.length ≤ s.cursor.rest.length := by
  simp only [toToken?, Option.bind_eq_bind, Option.bind_eq_some_iff] at h
  obtain ⟨_, -, _, -, h⟩ := h
  obtain rfl := Option.some.inj h
  exact length_gap_le _ _ _ _ _

/-- As much fuel as there is text is enough. -/
theorem Leads.run?_eq {fuel : Nat} (h : s.Leads tokens) (hfuel : s.cursor.rest.length ≤ fuel) :
    run? (fuel + 1) s = some tokens := by
  obtain ⟨t, ht, hyields⟩ := h
  rw [run?_succ, ht]
  exact hyields fuel (Nat.le_trans (length_toToken?_le ht) hfuel)

/-- One token is read. -/
theorem Yields.of_next?
    (hdedent : t.flow = true ∨ ∀ i ∈ t.indents.head?, i ≤ t.cursor.column)
    (hnext : t.next? = some u) (hlength : u.cursor.rest.length < t.cursor.rest.length)
    (hu : u.Leads tokens) : t.Yields tokens := by
  have hrest : t.cursor.rest ≠ [] := fun hnil => by simp [hnil] at hlength
  have hkeep : t.dedent (some t.cursor.column) = t := by
    rw [dedent]
    split
    · rfl
    · next hflow =>
        have hnone : (t.indents.takeWhile fun i => (some t.cursor.column).all (· < i)) = [] := by
          cases hindents : t.indents with
          | nil => rfl
          | cons i indents =>
              have hle := hdedent.resolve_left hflow i (by rw [hindents]; rfl)
              simp [Nat.not_lt.mpr hle]
        rw [hnone]
        rfl
  intro fuel hfuel
  cases fuel with
  | zero => omega
  | succ fuel =>
      rw [here?, if_neg (by simpa using hrest), hkeep, hnext]
      exact hu.run?_eq (by omega)

/-- At the end of the text the block collections end. -/
theorem yields_finish (hrest : t.cursor.rest = []) (hflow : t.flow = false)
    (hkey : Optional t.key) :
    t.Yields (t.tokens.reverse ++ List.replicate t.indents.length .blockEnds) := by
  intro fuel _
  have hall : (t.indents.takeWhile fun i => (none : Option Nat).all (· < i)) = t.indents :=
    List.takeWhile_eq_self_iff.mpr fun _ _ => rfl
  have hsame : (t.dedent none).key = t.key := by
    rw [dedent]
    split <;> rfl
  rw [here?, if_pos (by simp [hrest]), dropKey?_eq (hsame ▸ hkey)]
  simp only [Option.bind_eq_bind, Option.bind_some, Option.pure_def, dedent, hflow, hall]
  simp

/-! ### Which token is next -/

theorem not_atMark {mark : List Char → Bool}
    (h : t.cursor.column = 0 → mark t.cursor.rest = false) : ¬ t.cursor.atMark mark = true := by
  by_cases hcolumn : t.cursor.column = 0
  · simp [Cursor.atMark, h hcolumn]
  · simp [Cursor.atMark, hcolumn]

/-- What is no mark of a document and no directive is a token. -/
theorem next?_eq (hrest : t.cursor.rest = c :: rest) (hpercent : c ≠ '%')
    (hunmarked : Unmarked t.cursor.toPlace t.cursor.rest) : t.next? = t.token? := by
  have hmark : t.cursor.column = 0 →
      startsDocument t.cursor.rest = false ∧ endsDocument t.cursor.rest = false := by
    intro hcolumn
    have hnone := hunmarked.startsMark hcolumn
    rwa [startsMark, Bool.or_eq_false_iff] at hnone
  rw [next?, if_neg (not_atMark fun h => (hmark h).1), if_neg (not_atMark fun h => (hmark h).2),
    if_neg (not_atMark fun _ => by simp [hrest, hpercent])]

/-- A plain scalar is known by the character that it starts with. -/
theorem token?_plain (hstart : startsPlain t.flow t.cursor.rest = true) : t.token? = t.plain? := by
  rw [token?]
  split
  -- The other tokens start with characters that no plain scalar starts with.
  all_goals rename_i hrest; rw [hrest] at hstart
  all_goals try cases hstart
  rename_i c rest _ _ _ _ _ _ _ _ _ _
  have hbar : c ≠ '|' ∧ c ≠ '>' := by refine ⟨?_, ?_⟩ <;> rintro rfl <;> cases hstart
  have hdash : ¬ (decide (c = '-') && startsBlank rest) = true := by
    by_cases hc : c = '-'
    · rw [startsPlain, if_pos hc] at hstart
      simpa using fun _ => hstart
    · simp [hc]
  have hmarks : ∀ d, d = '?' ∨ d = ':' →
      ¬ (decide (c = d) && (t.flow || startsBlank rest)) = true := by
    intro d hd
    by_cases hc : c = d
    · subst hc
      rw [startsPlain, if_neg (by rintro rfl; revert hd; decide), if_pos (by simpa using hd)]
        at hstart
      simp only [Bool.and_eq_true, Bool.not_eq_true'] at hstart
      simp [hstart.1, hstart.2]
    · simp [hc]
  rw [if_neg hdash, if_neg (hmarks _ (.inl rfl)), if_neg (hmarks _ (.inr rfl)),
    if_neg (by simp [hbar.1]), if_neg (by simp [hbar.2]), if_pos hstart]

/-! ### Scalars -/

/-- The key that the token at this place could be. -/
def candidate (t : Layout) : Option PendingKey :=
  if t.keys then
    some {
      place := t.cursor.toPlace
      index := t.tokens.length
      required := !t.flow && t.indents.head? = some t.cursor.column }
  else none

/-- A colon has to follow only where a block mapping has its keys. -/
theorem optional_candidate (h : t.flow = true ∨ t.indents.head? ≠ some t.cursor.column) :
    Optional t.candidate := by
  intro k hk
  rw [candidate] at hk
  split at hk
  · obtain rfl := Option.some.inj hk
    rcases h with h | h <;> simp [h]
  · cases hk

theorem place_candidate : ∀ k ∈ t.candidate, k.place = t.cursor.toPlace := by
  intro k hk
  rw [candidate] at hk
  split at hk
  · rw [← Option.some.inj hk]
  · cases hk

theorem saveKey?_eq (hkey : t.key = none) : t.saveKey? = some { t with key := t.candidate } := by
  rw [saveKey?, candidate]
  split
  · simp only [dropKey?, hkey, Option.any_none, Bool.false_eq_true, if_false, Option.bind_eq_bind,
      Option.bind_some, Option.pure_def]
    rfl
  · rw [← hkey]

/-- A quoted scalar is read behind its opening quote. -/
theorem quoted?_eq {text : List Char} {c : Cursor}
    {read : Place → Space → List Char → Option (List Char × Cursor)} (hkey : t.key = none)
    (hread : read (t.cursor.advance 1).toPlace {} (t.cursor.advance 1).rest = some (text, c)) :
    t.quoted? read = some { t with
      tokens := .scalar .quoted text :: t.tokens, cursor := c, keys := false,
      key := t.candidate } := by
  simp only [quoted?, keyed?, saveKey?_eq hkey, Option.bind_eq_bind, Option.bind_some, hread,
    Option.map_some, Option.pure_def, emit]

theorem plain?_eq {text : List Char} {crossed : Bool} {c : Cursor} (hkey : t.key = none)
    (hread : plain t.flow t.textColumn t.cursor.toPlace {} t.cursor.rest =
      some (text, crossed, c)) :
    t.plain? = some { t with
      tokens := .scalar .plain text :: t.tokens, cursor := c, keys := crossed,
      key := t.candidate } := by
  simp only [plain?, saveKey?_eq hkey, Option.bind_eq_bind, Option.bind_some, textColumn, flow]
    at hread ⊢
  rw [hread]
  rfl

/-- **A plain or a quoted scalar is read.** Behind it the next token is found. -/
theorem next?_inline {scalar : Scalar} {settled : Prop} {found : Cursor}
    (hs : InlineScalar t.flow t.textColumn behind src scalar)
    (hcursor : t.cursor = ⟨p, src ++ behind⟩) (hunmarked : Unmarked p (src ++ behind))
    (hkey : t.key = none)
    (hfound : FoundBehind scalar.style t.flow t.textColumn (p.through src) behind settled found) :
    ∃ c keys, t.next? = some { t with
        tokens := scalar.token :: t.tokens, cursor := c, keys,
        key := t.candidate } ∧
      c.rest.length < t.cursor.rest.length ∧
      ∃ after, gap t.flow keys false c.toPlace c.rest = (after, found) ∧
        (settled → after = true) := by
  have hmarked : Unmarked t.cursor.toPlace t.cursor.rest := by rwa [hcursor]
  have hlt : behind.length < t.cursor.rest.length := by
    have hne : src ≠ [] := by cases hs <;> exact List.cons_ne_nil _ _
    simpa [hcursor] using List.length_pos_iff.mpr hne
  cases hs with
  -- A plain scalar takes a part of what is behind it, and a quoted one ends at its quote.
  | @plain c src text hstart hmark htail =>
      obtain ⟨crossed, d, hread, hlength, hplain⟩ := hfound.plain rfl
      refine ⟨d, crossed, ?_, Nat.lt_of_le_of_lt hlength hlt, hplain⟩
      have hpercent : c ≠ '%' := by rintro rfl; cases hstart
      rw [next?_eq (by rw [hcursor]; rfl) hpercent hmarked, token?_plain (by rwa [hcursor]),
        plain?_eq hkey (by rw [hcursor]; exact plain_eq hstart htail hunmarked hread)]
      simp [Scalar.token]
  | @single src text htail =>
      have hread : singleQuoted (p.past '\'') {} (src ++ behind) =
          some (text, ⟨p.through ('\'' :: src), behind⟩) := by
        rw [htail.read (hunmarked.past rfl) hfound.apart, Place.through_cons_of_not_isBreak _ rfl]
      refine ⟨⟨p.through ('\'' :: src), behind⟩, false, ?_, hlt, hfound.quoted⟩
      have htoken : t.token? = t.quoted? singleQuoted := by rw [token?, hcursor]; rfl
      rw [next?_eq (by rw [hcursor]; rfl) (by decide) hmarked, htoken,
        quoted?_eq hkey (by rw [hcursor]; exact hread)]
      simp [Scalar.token]
  | @double src text htail =>
      have hread : doubleQuoted (p.past '"') {} (src ++ behind) =
          some (text, ⟨p.through ('"' :: src), behind⟩) := by
        rw [Place.through_cons_of_not_isBreak _ rfl]
        exact htail.read nofun (hunmarked.past rfl)
      refine ⟨⟨p.through ('"' :: src), behind⟩, false, ?_, hlt, hfound.quoted⟩
      have htoken : t.token? = t.quoted? doubleQuoted := by rw [token?, hcursor]; rfl
      rw [next?_eq (by rw [hcursor]; rfl) (by decide) hmarked, htoken,
        quoted?_eq hkey (by rw [hcursor]; exact hread)]
      simp [Scalar.token]

/-- **A scalar that is set off as a block is read** in a mapping at a column. Behind it the next
token is found at the same place as behind its text. -/
theorem next?_block {scalar : Scalar} (hs : BlockScalar n behind src scalar)
    (hcursor : t.cursor = ⟨p, src ++ behind⟩) (hunmarked : Unmarked p (src ++ behind))
    (hflow : t.flow = false) (hindents : t.indents.head? = some n) (hkey : Optional t.key) :
    ∃ c, t.next? = some { t with
        tokens := scalar.token :: t.tokens, cursor := c, keys := true, key := none } ∧
      c.rest.length < t.cursor.rest.length ∧
      gap false true false c.toPlace c.rest = gap false true false (p.through src) behind := by
  obtain ⟨literal, tail, c, rfl, hstyle, hread, hlength, hgap⟩ := hs.read p
  have hmarked : Unmarked t.cursor.toPlace t.cursor.rest := by rwa [hcursor]
  have hadvance : t.cursor.advance 1 = ⟨p.past (if literal then '|' else '>'), tail ++ behind⟩ := by
    rw [hcursor]
    rfl
  have hblock : t.block? scalar.style = some { t with
      tokens := scalar.token :: t.tokens, cursor := c, keys := true, key := none } := by
    have hliteral : decide (scalar.style = .literal) = literal := by
      rw [hstyle]
      cases literal <;> rfl
    simp only [block?, dropKey?_eq hkey, hindents, hadvance, hliteral, hread, Option.bind_eq_bind,
      Option.bind_some, Option.pure_def, emit, Scalar.token]
  refine ⟨c, ?_, ?_, hgap true⟩
  · rw [next?_eq (by rw [hcursor]; rfl) (by cases literal <;> decide) hmarked, ← hblock, hstyle]
    cases literal <;> simp [token?, hcursor, hflow]
  · rw [hcursor]
    simp only [List.length_append, List.length_cons] at hlength ⊢
    omega

/-! ### Marks -/

/-- A colon that ends a key is one. -/
theorem next?_colon (hcursor : t.cursor = ⟨p, ':' :: behind⟩)
    (hunmarked : Unmarked p (':' :: behind)) (hcolon : t.flow = true ∨ startsBlank behind = true) :
    t.next? = t.colon? := by
  rw [next?_eq (by rw [hcursor]) (by decide) (by rwa [hcursor]), token?, hcursor]
  rcases hcolon with h | h <;> simp [h]

/-- A mark of a key is one. -/
theorem next?_keyMark (hcursor : t.cursor = ⟨p, '?' :: behind⟩)
    (hunmarked : Unmarked p ('?' :: behind)) (hmark : t.flow = true ∨ startsBlank behind = true) :
    t.next? = t.keyMark? := by
  rw [next?_eq (by rw [hcursor]) (by decide) (by rwa [hcursor]), token?, hcursor]
  rcases hmark with h | h <;> simp [h]

/-! ### Keys and values -/

/-- The layout with a mapping that begins in this column, if none has. -/
def begun (t : Layout) : Layout := t.indent t.cursor.column .mappingBegins 0

theorem flow_eq {outer : List (Option PendingKey)} (h : Around depth s.outer)
    (houter : Around depth outer) : (!outer.isEmpty) = s.flow := by
  rw [flow, Bool.eq_iff_iff]
  simp only [Bool.not_eq_true', List.isEmpty_eq_false_iff, ← List.length_pos_iff, h.1, houter.1]

/-- A plain or a quoted scalar and the gap behind it are read. -/
theorem yields_inline {scalar : Scalar} {settled : Prop} {found : Cursor}
    {key : Option PendingKey}
    (hs : InlineScalar t.flow t.textColumn behind src scalar)
    (hcursor : t.cursor = ⟨p, src ++ behind⟩) (hunmarked : Unmarked p (src ++ behind))
    (hdedent : t.flow = true ∨ ∀ i ∈ t.indents.head?, i ≤ t.cursor.column)
    (hkey : t.key = none) (houter : Around depth t.outer)
    (hfound : FoundBehind scalar.style t.flow t.textColumn (p.through src) behind settled found)
    (hreach : reaching? found.toPlace t.candidate = some key)
    (hyields : ∀ after outer, (settled → after = true) → Around depth outer →
      Yields { t with
        tokens := scalar.token :: t.tokens, cursor := found, keys := after, key, outer } tokens) :
    t.Yields tokens := by
  obtain ⟨c, keys, hnext, hlength, after, hgap, hafter⟩ :=
    next?_inline hs hcursor hunmarked hkey hfound
  exact .of_next? hdedent hnext hlength
    (leads_of_gap hgap hreach houter fun outer => hyields after outer hafter)

/-- A mapping that begins in front of some tokens is the same as one that begins before they are
read. -/
theorem indent_append (read : List Token) (h : s.tokens = read ++ t.tokens)
    (hflow : s.flow = t.flow) (hindents : s.indents = t.indents) (column : Nat) (begins : Token) :
    s.indent column begins read.length = { s with
      tokens := read ++ (t.indent column begins 0).tokens
      indents := (t.indent column begins 0).indents } := by
  rw [indent, indent, hflow, hindents]
  split
  · rw [h, List.take_left, List.drop_left]
    rfl
  · rw [← hindents, ← h]

/-- A colon makes a key of the token before it, and the mapping begins in front of that token. -/
theorem colon?_key {key : PendingKey} {token : Token} (hkey : s.key = some key)
    (htokens : s.tokens = token :: t.tokens) (hindex : key.index = t.tokens.length)
    (hflow : s.flow = t.flow) (hindents : s.indents = t.indents) :
    s.colon? = some { s with
      cursor := s.cursor.advance 1
      tokens := .value :: token :: .key :: (t.indent key.place.column .mappingBegins 0).tokens
      indents := (t.indent key.place.column .mappingBegins 0).indents
      key := none, keys := false } := by
  have hbegun := indent_append
    (s := { s with tokens := [token] ++ Token.key :: t.tokens, key := some key })
    [token, .key] rfl hflow hindents key.place.column .mappingBegins
  have hsince : (token :: t.tokens).length - key.index = 1 := by
    rw [hindex, List.length_cons, Nat.add_sub_cancel_left]
  simp only [colon?, hkey, htokens, hsince]
  exact congrArg (fun begun : Layout =>
    some { begun.emitMark .value 1 with key := none, keys := false }) hbegun

/-- A key without a mark and its colon are read. -/
theorem yields_implicit {key : Scalar} {blanks : List Char}
    (h : ImplicitKey t.flow behind src blanks key)
    (hcursor : t.cursor = ⟨p, src ++ (blanks ++ ':' :: behind)⟩)
    (hunmarked : Unmarked p (src ++ (blanks ++ ':' :: behind)))
    (hdedent : t.flow = true ∨ ∀ i ∈ t.indents.head?, i ≤ t.cursor.column)
    (hkey : t.key = none) (hkeys : t.keys = true) (houter : Around depth t.outer)
    (hcolon : t.flow = true ∨ startsBlank behind = true)
    (hplain : key.style = .plain → startsBlank behind = true)
    (hleads : ∀ outer, Around depth outer → Leads {
      cursor := ⟨p.through (src ++ (blanks ++ [':'])), behind⟩
      tokens := .value :: key.token :: .key :: t.begun.tokens
      indents := t.begun.indents, outer, keys := false } tokens) : t.Yields tokens := by
  have hplace : (p.through src).through blanks =
      { line := p.line, column := p.column + (src ++ blanks).length,
        offset := p.offset + byteLength (src ++ blanks) } := by
    rw [← Place.through_append]
    refine Place.through_of_oneLine p fun c hc => ?_
    rcases List.mem_append.mp hc with hc | hc
    · exact h.oneLine c hc
    · exact isBreak_of_blanks h.apart c hc
  let candidate : PendingKey := ⟨p, t.tokens.length, !t.flow && t.indents.head? = some p.column⟩
  have hreach : reaching? ((p.through src).through blanks) t.candidate = some (some candidate) := by
    have hreaches : candidate.reaches ((p.through src).through blanks) = true := by
      simp only [PendingKey.reaches, hplace, candidate, decide_true, Bool.true_and,
        decide_eq_true_eq]
      exact Nat.add_le_add_left h.reach _
    have hcandidate : t.candidate = some candidate := by
      rw [Layout.candidate, if_pos hkeys, hcursor]
    rw [hcandidate, reaching?, if_pos (by simpa using hreaches)]
  refine yields_inline (h.scalar.of_oneLine h.oneLine _) hcursor hunmarked hdedent hkey houter
    (found_colon h.apart hplain) hreach fun after outer _ hround => ?_
  -- The colon finds the key before it, and the mapping begins in front of the key.
  let u : Layout := { t with
    tokens := key.token :: t.tokens, cursor := ⟨(p.through src).through blanks, ':' :: behind⟩,
    keys := after, key := some candidate, outer }
  have hflow : u.flow = t.flow := flow_eq houter hround
  have hnext : u.next? = some {
      cursor := ⟨p.through (src ++ (blanks ++ [':'])), behind⟩
      tokens := .value :: key.token :: .key :: t.begun.tokens
      indents := t.begun.indents, outer, keys := false } := by
    rw [next?_colon rfl ?_ (hcolon.imp_left hflow.trans),
      colon?_key (t := t) rfl rfl rfl hflow rfl]
    · have hpast : ((p.through src).through blanks).past ':' =
          p.through (src ++ (blanks ++ [':'])) := by
        rw [Place.through_append, Place.through_append, Place.through_cons_of_not_isBreak _ rfl]
        rfl
      simp only [begun, hcursor, ← hpast]
      rfl
    · rw [← List.append_assoc] at hunmarked
      rw [← Place.through_append]
      exact hunmarked.through
  refine Yields.of_next? (hdedent.imp hflow.trans fun hle i hi => ?_) hnext ?_
    (hleads outer hround)
  · refine Nat.le_trans (hle i hi) ?_
    rw [hcursor]
    simp only [hplace, Nat.le_add_right]
  · exact Nat.lt_succ_self _

/-- The mark of a key is read. -/
theorem yields_keyMark (hcursor : t.cursor = ⟨p, '?' :: behind⟩)
    (hunmarked : Unmarked p ('?' :: behind))
    (hdedent : t.flow = true ∨ ∀ i ∈ t.indents.head?, i ≤ t.cursor.column)
    (hkey : t.key = none) (hkeys : t.keys = true)
    (hmark : t.flow = true ∨ startsBlank behind = true)
    (hleads : Leads { t.begun with
      cursor := ⟨p.past '?', behind⟩, tokens := .key :: t.begun.tokens,
      key := none, keys := !t.flow } tokens) : t.Yields tokens := by
  have hnext : t.next? = some { t.begun with
      cursor := ⟨p.past '?', behind⟩, tokens := .key :: t.begun.tokens,
      key := none, keys := !t.flow } := by
    have hadvance : t.cursor.advance 1 = ⟨p.past '?', behind⟩ := by rw [hcursor]; rfl
    have hsame : t.begun.key = t.key ∧ t.begun.cursor = t.cursor := by
      rw [begun, indent]
      split <;> exact ⟨rfl, rfl⟩
    have hdrop : t.begun.dropKey? = some { t.begun with key := none } :=
      dropKey?_eq (by rw [hsame.1, hkey]; nofun)
    rw [next?_keyMark hcursor hunmarked hmark]
    rw [begun] at hsame hdrop
    simp only [keyMark?, headMark?, hkeys, Bool.or_true, guard, if_true, hdrop,
      Option.bind_eq_bind, Option.bind_some, Option.pure_def, emitMark, emit, hsame.2, hadvance]
    rfl
  refine .of_next? hdedent hnext ?_ hleads
  rw [hcursor]
  exact Nat.lt_succ_self _

/-- The colon behind a key with a mark is read. -/
theorem yields_colon (hcursor : t.cursor = ⟨p, ':' :: behind⟩)
    (hunmarked : Unmarked p (':' :: behind))
    (hdedent : t.flow = true ∨ ∀ i ∈ t.indents.head?, i ≤ t.cursor.column)
    (hkey : t.key = none) (hkeys : t.flow = true ∨ t.keys = true)
    (hcolon : t.flow = true ∨ startsBlank behind = true)
    (hleads : Leads { t.begun with
      cursor := ⟨p.past ':', behind⟩, tokens := .value :: t.begun.tokens,
      keys := !t.flow } tokens) : t.Yields tokens := by
  have hnext : t.next? = some { t.begun with
      cursor := ⟨p.past ':', behind⟩, tokens := .value :: t.begun.tokens,
      keys := !t.flow } := by
    have hadvance : t.cursor.advance 1 = ⟨p.past ':', behind⟩ := by rw [hcursor]; rfl
    have hsame : t.begun.cursor = t.cursor := by
      rw [begun, indent]
      split <;> rfl
    have hguard : (t.flow || t.keys) = true := by simpa using hkeys
    rw [next?_colon hcursor hunmarked hcolon]
    rw [begun] at hsame
    simp only [colon?, hkey, hguard, guard, if_true, Option.bind_eq_bind, Option.bind_some,
      Option.pure_def, emitMark, emit, hsame, hadvance]
    rfl
  refine .of_next? hdedent hnext ?_ hleads
  rw [hcursor]
  exact Nat.lt_succ_self _

end Layout

end MessageCalls.Yaml
