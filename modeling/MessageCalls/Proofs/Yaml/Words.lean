import MessageCalls.Proofs.Yaml.Gap
/-!
# MessageCalls.Proofs.Yaml.Words

Plain and quoted scalars are read as the rules write them. The three readers pass over the space
between two words in the same way (`Passes`), which is shown once. **Quoted scalars are read up to
their closing quote** (`SingleTail.read`, `DoubleTail.read`) whatever follows, and **a plain scalar
is read as far as it goes on** (`PlainTail.read`).
-/

namespace MessageCalls.Yaml

variable {flow joined : Bool} {indent : Nat} {p : Place} {c : Char}
  {blanks src space spaced text breaks rest behind : List Char} {α : Type}

/-! ### Space between words -/

/-- A reader keeps account of the blanks and line breaks that it passes over. A tab in the
indentation of a line is none of them. -/
structure Passes (indent : Nat) (read : Place → Space → List Char → α) : Prop where
  lineBreak : ∀ (p : Place) (s : Space) {c : Char} (rest : List Char), isBreak c = true →
    read p s (c :: rest) = read p.nextLine (s.lineBreak c) rest
  blank : ∀ (p : Place) (s : Space) {c : Char} (rest : List Char), isBlank c = true →
    (c = '\t' → s.crossed = true → indent ≤ p.column) →
    read p s (c :: rest) = read (p.past c) (s.blank c) rest

theorem passes_plain (flow : Bool) (indent : Nat) : Passes indent (plain flow indent) where
  lineBreak p s c rest h := by rw [plain, if_pos h]
  blank p s c rest h htab := by
    rw [plain, if_neg (by simp [isBreak_of_isBlank h]), if_pos h, if_neg]
    simp only [Bool.and_eq_true, decide_eq_true_eq, not_and, Nat.not_lt]
    rintro ⟨hc, hcrossed⟩
    exact htab hc hcrossed

theorem passes_singleQuoted : Passes 0 singleQuoted where
  lineBreak p s c rest h := by
    have hquote : c ≠ '\'' := ne_of_test h rfl
    rw [singleQuoted.eq_4 _ _ _ _ (by simp [hquote]) (by simp [hquote]), if_pos h]
  blank p s c rest h _ := by
    have hquote : c ≠ '\'' := ne_of_test h rfl
    rw [singleQuoted.eq_4 _ _ _ _ (by simp [hquote]) (by simp [hquote]),
      if_neg (by simp [isBreak_of_isBlank h]), if_pos h]

/-- A character that is no quote and no backslash has no meaning of its own in a double-quoted
scalar. -/
theorem doubleQuoted_cons (p : Place) (s : Space) (hquote : c ≠ '"') (hslash : c ≠ '\\') :
    doubleQuoted p s (c :: rest) =
      if isBreak c then doubleQuoted p.nextLine (s.lineBreak c) rest
      else if isBlank c then doubleQuoted (p.past c) (s.blank c) rest
      else if s.crossed && p.column = 0 && startsMark (c :: rest) then none
      else (doubleQuoted (p.past c) {} rest).map fun (text, behind) =>
        (s.text ++ c :: text, behind) := by
  rw [doubleQuoted] <;> simp [hquote, hslash]

theorem passes_doubleQuoted : Passes 0 doubleQuoted where
  lineBreak p s c rest h := by
    have hquote : c ≠ '"' := ne_of_test h rfl
    have hslash : c ≠ '\\' := ne_of_test h rfl
    rw [doubleQuoted_cons p s hquote hslash, if_pos h]
  blank p s c rest h _ := by
    have hquote : c ≠ '"' := ne_of_test h rfl
    have hslash : c ≠ '\\' := ne_of_test h rfl
    rw [doubleQuoted_cons p s hquote hslash, if_neg (by simp [isBreak_of_isBlank h]), if_pos h]

namespace Passes

variable {read : Place → Space → List Char → α} {s : Space}

/-- Blanks are passed over; they are kept on the line of a word and dropped on further lines. -/
theorem blanks_eq (hread : Passes indent read) (h : Blanks true blanks)
    (htabs : s.crossed = true → '\t' ∉ blanks.take (indent - p.column)) :
    read p s (blanks ++ rest) =
      read (p.through blanks) (if s.crossed then s else { s with kept := s.kept ++ blanks })
        rest := by
  induction blanks generalizing p s with
  | nil => simp
  | cons c blanks ih =>
      have hblank := isBlank_of_blanks h c List.mem_cons_self
      have hstep : read p s (c :: (blanks ++ rest)) =
          read (p.past c) (s.blank c) (blanks ++ rest) := by
        refine hread.blank p s _ hblank ?_
        -- A tab left of the indentation would be the first one of the blanks that are excluded.
        rintro rfl hcrossed
        refine Nat.le_of_not_lt fun hcolumn => ?_
        obtain ⟨k, hk⟩ : ∃ k, indent - p.column = k + 1 := ⟨indent - p.column - 1, by omega⟩
        have hnot := htabs hcrossed
        rw [hk, List.take_succ_cons] at hnot
        exact hnot List.mem_cons_self
      have hcrossed : (s.blank c).crossed = s.crossed := by
        rw [Space.blank]
        split <;> rfl
      rw [List.cons_append, hstep,
        Place.through_cons_of_not_isBreak p (isBreak_of_isBlank hblank), ih (blanks_tail h) ?_]
      · rw [hcrossed, Space.blank]
        split <;> simp
      · rw [hcrossed]
        intro hs hmem
        refine htabs hs ?_
        have hcolumn : (p.past c).column = p.column + 1 := rfl
        cases hk : indent - p.column with
        | zero => rw [show indent - (p.past c).column = 0 by omega] at hmem; exact absurd hmem nofun
        | succ k =>
            rw [show indent - (p.past c).column = k by omega] at hmem
            exact List.mem_cons_of_mem _ hmem

/-- Behind a line break, the further ones are all that is kept. -/
theorem wrapped (hread : Passes indent read) (h : Wrapped indent src breaks) (hp : p.column = 0)
    (hs : s.crossed = true) (rest : List Char) :
    read p s (src ++ rest) = read (p.through src) { s with kept := s.kept ++ breaks } rest ∧
      indent ≤ (p.through src).column := by
  induction h generalizing p s with
  | head hblanks htabs hwidth =>
      refine ⟨?_, ?_⟩
      · rw [hread.blanks_eq hblanks fun _ => by rwa [hp, Nat.sub_zero], if_pos hs, List.append_nil]
      · rw [Place.through_of_oneLine p (isBreak_of_blanks hblanks), hp, Nat.zero_add]
        exact hwidth
  | @line blanks c src breaks hblanks htabs hbreak _ ih =>
      have hstep : read p s (blanks ++ c :: (src ++ rest)) =
          read (p.through blanks).nextLine (s.lineBreak c) (src ++ rest) := by
        rw [hread.blanks_eq hblanks fun _ => by rwa [hp, Nat.sub_zero], if_pos hs,
          hread.lineBreak _ _ _ hbreak]
      have hkept : s.lineBreak c = { s with kept := s.kept ++ [c] } := if_pos hs
      rw [Place.through_append, Place.through_cons_of_isBreak _ hbreak, List.append_assoc,
        List.cons_append, hstep, hkept]
      have hrest := ih (p := (p.through blanks).nextLine)
        (s := { s with kept := s.kept ++ [c] }) rfl hs
      rw [List.append_assoc] at hrest
      exact hrest

/-- The space between two words is passed over, and what it means is the text of the space. If it
holds a line break, the next word is indented. -/
theorem spacing (hread : Passes indent read) (h : Spacing indent space spaced) (p : Place)
    (rest : List Char) :
    ∃ s : Space, read p {} (space ++ rest) = read (p.through space) s rest ∧ s.text = spaced ∧
      (s.crossed = true → indent ≤ (p.through space).column) ∧ (space = [] → s = {}) := by
  cases h with
  | blanks hblanks =>
      refine ⟨{ kept := space }, ?_, rfl, nofun, by rintro rfl; rfl⟩
      rw [hread.blanks_eq hblanks (by simp)]
      rfl
  | @folded blanks src breaks hblanks hwrapped =>
      obtain ⟨hrest, hcolumn⟩ := hread.wrapped (p := (p.through blanks).nextLine)
        (s := { crossed := true, folded := true }) hwrapped rfl rfl rest
      refine ⟨{ crossed := true, folded := true, kept := breaks }, ?_, ?_, fun _ => ?_, by simp⟩
      · rw [List.append_assoc, hread.blanks_eq hblanks (by simp), List.cons_append,
          hread.lineBreak _ _ _ rfl, Place.through_append, Place.through_cons_of_isBreak _ rfl]
        exact hrest
      · cases breaks <;> rfl
      · rwa [Place.through_append, Place.through_cons_of_isBreak _ rfl]
  | @kept blanks c src breaks hblanks hbreak husual hwrapped =>
      obtain ⟨hrest, hcolumn⟩ := hread.wrapped (p := (p.through blanks).nextLine)
        (s := { crossed := true, kept := [c] }) hwrapped rfl rfl rest
      refine ⟨{ crossed := true, kept := c :: breaks }, ?_, rfl, fun _ => ?_, by simp⟩
      · have hline : Space.lineBreak { kept := [] ++ blanks } c =
            { crossed := true, kept := [c] } := by
          simp [Space.lineBreak, husual]
        rw [List.append_assoc, hread.blanks_eq hblanks (by simp), List.cons_append,
          hread.lineBreak _ _ _ hbreak, Place.through_append,
          Place.through_cons_of_isBreak _ hbreak]
        rw [if_neg (by simp), hline]
        exact hrest
      · rwa [Place.through_append, Place.through_cons_of_isBreak _ hbreak]

end Passes

/-! ### Quoted scalars -/

/-- A quoted scalar goes on with a character that is no mark of a document at the head of a line. -/
theorem crossed_startsMark {s : Space} (h : Unmarked p src) :
    (s.crossed && decide (p.column = 0) && startsMark src) = false := by
  by_cases hp : p.column = 0
  · rw [h.startsMark hp, Bool.and_false]
  · simp [hp]

/-- **A single-quoted scalar is read up to its closing quote.** -/
theorem SingleTail.read (h : SingleTail src text) (hunmarked : Unmarked p (src ++ behind))
    (hbehind : behind.head? ≠ some '\'') :
    singleQuoted p {} (src ++ behind) = some (text, ⟨p.through src, behind⟩) := by
  induction h generalizing p with
  | @close space spaced hspace =>
      obtain ⟨s, hread, hs, -, -⟩ := passes_singleQuoted.spacing hspace p ('\'' :: behind)
      rw [List.append_assoc, List.singleton_append, hread, Place.through_append,
        singleQuoted.eq_3 _ _ _ (by rintro rest rfl; exact hbehind rfl), hs]
      rfl
  | @word space spaced c src text hspace hword hquote _ ih =>
      obtain ⟨s, hread, hs, -, -⟩ := passes_singleQuoted.spacing hspace p (c :: (src ++ behind))
      rw [List.append_assoc, List.cons_append] at hunmarked
      have hmark := crossed_startsMark (s := s) hunmarked.through
      have hplace : p.through (space ++ c :: src) = ((p.through space).past c).through src := by
        rw [Place.through_append, Place.through_cons_of_not_isBreak _ hword.2]
      have hrest := hunmarked.through.past hword.2
      rw [List.append_assoc, List.cons_append, hread,
        singleQuoted.eq_4 _ _ _ _ (by simp [hquote]) (by simp [hquote]),
        if_neg (by simp [hword.2]), if_neg (by simp [hword.1]), if_neg (by rw [hmark]; simp),
        ih hrest, hs, hplace]
      rfl
  | @quote space spaced src text hspace _ ih =>
      obtain ⟨s, hread, hs, -, -⟩ :=
        passes_singleQuoted.spacing hspace p ('\'' :: '\'' :: (src ++ behind))
      have hplace : p.through (space ++ '\'' :: '\'' :: src) =
          ((p.through space).pastAll ['\'', '\'']).through src := by
        rw [Place.through_append, Place.through_cons_of_not_isBreak _ rfl,
          Place.through_cons_of_not_isBreak _ rfl]
        rfl
      rw [List.append_assoc, List.cons_append, List.cons_append] at hunmarked
      have hrest : Unmarked ((p.through space).pastAll ['\'', '\'']) (src ++ behind) :=
        (hunmarked.through.past rfl).past rfl
      rw [List.append_assoc, List.cons_append, List.cons_append, hread, singleQuoted, ih hrest, hs,
        hplace]
      rfl

/-- The space at the start of a double-quoted scalar, or behind an escaped line break. -/
def Space.start (joined : Bool) : Space := if joined then .joined else {}

theorem Space.start_false : Space.start false = {} := rfl

theorem Space.start_true : Space.start true = .joined := rfl

theorem Padding.read (h : Padding joined space spaced) (hp : joined = true → p.column = 0)
    (rest : List Char) :
    ∃ s : Space, doubleQuoted p (.start joined) (space ++ rest) =
      doubleQuoted (p.through space) s rest ∧ s.text = spaced := by
  cases h with
  | spacing h =>
      obtain ⟨s, hread, hs, -, -⟩ := passes_doubleQuoted.spacing h p rest
      exact ⟨s, hread, hs⟩
  | joined h =>
      obtain ⟨hread, -⟩ := passes_doubleQuoted.wrapped (s := .joined) h (hp rfl) rfl rest
      exact ⟨_, hread, rfl⟩

theorem isBreak_of_hexValue? {n : Nat} (h : hexValue? c = some n) : isBreak c = false := by
  refine Bool.eq_false_iff.mpr fun hbreak => ?_
  rcases isBreak_cases hbreak with rfl | rfl | rfl <;> cases h

/-- A number of a character is spelled on one line. -/
theorem isBreak_of_hexEscape? {digits : List Char} (h : hexEscape? digits = some c) :
    ∀ d ∈ digits, isBreak d = false := by
  have hnumber : ∀ (digits : List Char) (n m : Nat),
      digits.foldlM (fun n c => (hexValue? c).map (16 * n + ·)) n = some m →
      ∀ d ∈ digits, isBreak d = false := by
    intro digits
    induction digits with
    | nil => exact fun _ _ _ => nofun
    | cons d digits ih =>
        intro n m h e he
        rw [List.foldlM_cons, Option.bind_eq_bind, Option.bind_eq_some_iff] at h
        obtain ⟨k, hk, hrest⟩ := h
        obtain ⟨v, hv, -⟩ := Option.map_eq_some_iff.mp hk
        rcases List.mem_cons.mp he with rfl | he
        · exact isBreak_of_hexValue? hv
        · exact ih _ _ hrest e he
  obtain ⟨n, hn, -⟩ := Option.bind_eq_some_iff.mp h
  exact hnumber digits 0 n hn

theorem isBreak_of_escaped? {d : Char} (h : escaped? c = some d) : isBreak c = false := by
  refine Bool.eq_false_iff.mpr fun hbreak => ?_
  rcases isBreak_cases hbreak with rfl | rfl | rfl <;> cases h

theorem Escape.isBreak {written : List Char} (h : Escape written c) :
    ∀ d ∈ written, Yaml.isBreak d = false := by
  cases h with
  | @letter b c h =>
      intro d hd
      rcases List.mem_cons.mp hd with rfl | hd
      · rfl
      · rw [List.mem_singleton.mp hd]
        exact isBreak_of_escaped? h
  | @number mark c digits hwidth h =>
      intro d hd
      rcases List.mem_cons.mp hd with rfl | hd
      · rfl
      rcases List.mem_cons.mp hd with rfl | hd
      · simp only [List.mem_cons, Prod.mk.injEq, List.not_mem_nil, or_false] at hwidth
        rcases hwidth with ⟨rfl, -⟩ | ⟨rfl, -⟩ | ⟨rfl, -⟩ <;> rfl
      · exact isBreak_of_hexEscape? h d hd

/-- An escaped character is read for the one it stands for. -/
theorem Escape.read {written : List Char} {s : Space} (h : Escape written c) (p : Place)
    (rest : List Char) :
    doubleQuoted p s (written ++ rest) =
      (doubleQuoted (p.through written) {} rest).map fun (text, behind) =>
        (s.text ++ c :: text, behind) := by
  rw [← Place.pastAll_eq_through p h.isBreak]
  cases h with
  | @letter b c h =>
      have hx : b ≠ 'x' ∧ b ≠ 'u' ∧ b ≠ 'U' := by
        refine ⟨?_, ?_, ?_⟩ <;> rintro rfl <;> cases h
      have hread : doubleQuoted p s ('\\' :: b :: rest) =
          (escaped? b).bind fun c =>
            (doubleQuoted (p.pastAll ['\\', b]) {} rest).bind fun x =>
              some (s.text ++ c :: x.1, x.2) := by
        rw [doubleQuoted.eq_6 _ _ _ _ (by simp [hx.1]) (by simp [hx.2.1]) (by simp [hx.2.2]),
          if_neg (by simp [isBreak_of_escaped? h])]
        rfl
      rw [List.cons_append, List.singleton_append, hread, h]
      cases doubleQuoted (p.pastAll ['\\', b]) {} rest <;> rfl
  | @number mark c digits hwidth h =>
      simp only [List.mem_cons, Prod.mk.injEq, List.not_mem_nil, or_false] at hwidth
      -- The reader has the digits of each width one by one.
      rcases hwidth with ⟨rfl, hlength⟩ | ⟨rfl, hlength⟩ | ⟨rfl, hlength⟩
      · match digits, hlength with
        | [a, b], _ =>
          simp only [List.cons_append, List.nil_append, doubleQuoted, h]
          cases doubleQuoted (p.pastAll ['\\', 'x', a, b]) {} rest <;> rfl
      · match digits, hlength with
        | [a, b, d, e], _ =>
          simp only [List.cons_append, List.nil_append, doubleQuoted, h]
          cases doubleQuoted (p.pastAll ['\\', 'u', a, b, d, e]) {} rest <;> rfl
      · match digits, hlength with
        | [a, b, d, e, f, g, i, j], _ =>
          simp only [List.cons_append, List.nil_append, doubleQuoted, h]
          cases doubleQuoted (p.pastAll ['\\', 'U', a, b, d, e, f, g, i, j]) {} rest <;> rfl

/-- **A double-quoted scalar is read up to its closing quote.** -/
theorem DoubleTail.read (h : DoubleTail joined src text) (hp : joined = true → p.column = 0)
    (hunmarked : Unmarked p (src ++ behind)) :
    doubleQuoted p (.start joined) (src ++ behind) = some (text, ⟨p.through src, behind⟩) := by
  induction h generalizing p with
  | @close joined space spaced hspace =>
      obtain ⟨s, hread, hs⟩ := hspace.read hp ('"' :: behind)
      rw [List.append_assoc, List.singleton_append, hread, Place.through_append, doubleQuoted, hs]
      rfl
  | @word joined space spaced c src text hspace hword hquote hslash _ ih =>
      obtain ⟨s, hread, hs⟩ := hspace.read hp (c :: (src ++ behind))
      rw [List.append_assoc, List.cons_append] at hunmarked
      have hmark := crossed_startsMark (s := s) hunmarked.through
      have hrest := hunmarked.through.past hword.2
      have hread' := ih (p := (p.through space).past c) nofun hrest
      rw [List.append_assoc, List.cons_append, hread, doubleQuoted_cons _ _ hquote hslash,
        if_neg (by simp [hword.2]), if_neg (by simp [hword.1]), if_neg (by rw [hmark]; simp),
        Place.through_append, Place.through_cons_of_not_isBreak _ hword.2, hs]
      rw [Space.start_false] at hread'
      rw [hread']
      rfl
  | @escape joined space spaced c src text written hspace hc _ ih =>
      obtain ⟨s, hread, hs⟩ := hspace.read hp (written ++ (src ++ behind))
      rw [List.append_assoc, List.append_assoc] at hunmarked
      have hrest := ih (p := (p.through space).through written) nofun
        hunmarked.through.through
      rw [Space.start_false] at hrest
      rw [List.append_assoc, List.append_assoc, hread, hc.read, hrest, hs, Place.through_append,
        Place.through_append]
      rfl
  | @join joined space spaced b src text hspace hbreak _ ih =>
      obtain ⟨s, hread, hs⟩ := hspace.read hp ('\\' :: b :: (src ++ behind))
      have hplace : p.through (space ++ '\\' :: b :: src) =
          (p.through space).nextLine.through src := by
        rw [Place.through_append, Place.through_cons_of_not_isBreak _ rfl,
          Place.through_cons_of_isBreak _ hbreak]
        rfl
      rw [List.append_assoc, List.cons_append, List.cons_append] at hunmarked
      have hrest : Unmarked (p.through space).nextLine (src ++ behind) :=
        (hunmarked.through.past rfl).nextLine hbreak
      have hb : b ≠ 'x' ∧ b ≠ 'u' ∧ b ≠ 'U' :=
        ⟨ne_of_test hbreak rfl, ne_of_test hbreak rfl, ne_of_test hbreak rfl⟩
      have hread' := ih (p := (p.through space).nextLine) (fun _ => rfl) hrest
      rw [Space.start_true] at hread'
      rw [List.append_assoc, List.cons_append, List.cons_append, hread,
        doubleQuoted.eq_6 _ _ _ _ (by simp [hb.1]) (by simp [hb.2.1]) (by simp [hb.2.2]),
        if_pos hbreak, hread', hs, hplace]
      rfl

/-! ### Plain scalars -/

/-- What may follow inside of a plain scalar does not end it. -/
theorem GoesOn.endsPlain {s : Space} (hc : GoesOn flow space c rest) (hs : space = [] → s = {})
    (hcolumn : s.crossed = true → indent ≤ p.column) (hunmarked : Unmarked p (c :: rest)) :
    Yaml.endsPlain flow indent p s c rest = false := by
  have hcomment : (decide (c = '#') && (s.crossed || !s.kept.isEmpty)) = false := by
    by_cases hhash : c = '#'
    · rw [hs (hc.noComment hhash)]
      simp
    · simp [hhash]
  have hline : (s.crossed && !flow && decide (p.column < indent)) = false := by
    cases hcrossed : s.crossed with
    | false => rfl
    | true => simp [Nat.not_lt.mpr (hcolumn hcrossed)]
  have hkey : (decide (c = ':') && startsBlank rest) = false := by
    by_cases hcolon : c = ':'
    · rw [hc.noKey hcolon, Bool.and_false]
    · simp [hcolon]
  have hflow : (flow && isFlowIndicator c) = false := by
    cases hf : flow with
    | false => rfl
    | true => exact (hc.inFlow hf).1
  rw [Yaml.endsPlain, hcomment, crossed_startsMark hunmarked, hline, hkey, hflow]
  rfl

theorem GoesOn.isStrayColon (hc : GoesOn flow space c rest) :
    Yaml.isStrayColon flow c rest = false := by
  cases hf : flow with
  | false => rfl
  | true => rw [← hf]; exact (hc.inFlow hf).2

/-- The first character of a plain scalar could be any of them. -/
theorem goesOn_of_startsPlain (h : startsPlain flow (c :: rest) = true) :
    GoesOn flow [] c rest := by
  rw [startsPlain] at h
  split at h
  · next hc =>
      subst hc
      exact ⟨⟨rfl, rfl⟩, fun _ => rfl, nofun, fun _ => ⟨rfl, by simp [isStrayColon]⟩⟩
  split at h
  · next hc =>
      rw [Bool.and_eq_true, Bool.not_eq_true', Bool.not_eq_true'] at h
      rw [Bool.or_eq_true, decide_eq_true_eq, decide_eq_true_eq] at hc
      rw [h.1]
      rcases hc with rfl | rfl
      · exact ⟨⟨rfl, rfl⟩, fun _ => rfl, nofun, nofun⟩
      · exact ⟨⟨rfl, rfl⟩, fun _ => rfl, fun _ => h.2, nofun⟩
  · next hc =>
      rw [Bool.or_eq_true, decide_eq_true_eq, decide_eq_true_eq] at hc
      rw [Bool.not_eq_true', Bool.or_eq_false_iff, Bool.or_eq_false_iff, isIndicator,
        Bool.or_eq_false_iff] at h
      have hcolon : c ≠ ':' := fun hcolon => hc (.inr hcolon)
      exact ⟨h.1, fun _ => rfl, fun h => absurd h hcolon,
        fun _ => ⟨h.2.1, by simp [isStrayColon, hcolon]⟩⟩

theorem plain_word {s : Space} (hword : isBlank c = false ∧ isBreak c = false)
    (hends : endsPlain flow indent p s c rest = false) (hstray : isStrayColon flow c rest = false) :
    plain flow indent p s (c :: rest) =
      (plain flow indent (p.past c) {} rest).map fun (text, crossed, behind) =>
        (s.text ++ c :: text, crossed, behind) := by
  rw [plain, if_neg (by simp [hword.2]), if_neg (by simp [hword.1]), if_neg (by simp [hends]),
    if_neg (by simp [hstray])]

/-- A plain scalar is read as far as it goes on. -/
theorem PlainTail.read (h : PlainTail flow indent behind src text)
    (hunmarked : Unmarked p (src ++ behind)) :
    plain flow indent p {} (src ++ behind) =
      (plain flow indent (p.through src) {} behind).map fun (more, crossed, c) =>
        (text ++ more, crossed, c) := by
  induction h generalizing p with
  | done =>
      rw [List.nil_append, Place.through_nil]
      cases plain flow indent p {} behind <;> rfl
  | @word space spaced c src text hspace hc _ ih =>
      obtain ⟨s, hread, htext, hcolumn, hempty⟩ :=
        (passes_plain flow indent).spacing hspace p (c :: (src ++ behind))
      rw [List.append_assoc, List.cons_append] at hunmarked
      have hends := hc.endsPlain hempty hcolumn hunmarked.through
      rw [List.append_assoc, List.cons_append, hread,
        plain_word hc.isWord hends hc.isStrayColon, ih (hunmarked.through.past hc.isWord.2),
        Place.through_append, Place.through_cons_of_not_isBreak _ hc.isWord.2, htext]
      cases plain flow indent (((p.through space).past c).through src) {} behind <;> simp

/-- A plain scalar is read up to where it ends. -/
theorem plain_eq {crossed : Bool} {d : Cursor}
    (hstart : startsPlain flow (c :: src ++ behind) = true)
    (htail : PlainTail flow indent behind src text)
    (hunmarked : Unmarked p (c :: src ++ behind))
    (hread : plain flow indent (p.through (c :: src)) {} behind = some ([], crossed, d)) :
    plain flow indent p {} (c :: src ++ behind) = some (c :: text, crossed, d) := by
  have hgoes : GoesOn flow [] c (src ++ behind) := goesOn_of_startsPlain hstart
  have hends : endsPlain flow indent p {} c (src ++ behind) = false :=
    hgoes.endsPlain (fun _ => rfl) nofun hunmarked
  rw [Place.through_cons_of_not_isBreak _ hgoes.isWord.2] at hread
  rw [List.cons_append, plain_word hgoes.isWord hends hgoes.isStrayColon,
    htail.read (hunmarked.past hgoes.isWord.2), hread]
  simp [Space.text]

/-- On a single line the indentation does not matter. -/
theorem Spacing.of_oneLine (h : Spacing indent space spaced)
    (hline : ∀ c ∈ space, isBreak c = false) (other : Nat) : Spacing other space spaced := by
  cases h with
  | blanks hblanks => exact .blanks hblanks
  | folded => exact absurd (hline '\n' (by simp)) (by decide)
  | @kept blanks c src breaks _ hbreak _ _ =>
      rw [hline c (by simp)] at hbreak
      cases hbreak

theorem PlainTail.of_oneLine (h : PlainTail flow indent behind src text)
    (hline : ∀ c ∈ src, isBreak c = false) (other : Nat) :
    PlainTail flow other behind src text := by
  induction h with
  | done => exact .done
  | word hspace hc _ ih =>
      exact .word (hspace.of_oneLine (fun d hd => hline d (List.mem_append_left _ hd)) other) hc
        (ih fun d hd => hline d (List.mem_append_right _ (List.mem_cons_of_mem _ hd)))

theorem InlineScalar.of_oneLine {s : Scalar} (h : InlineScalar flow indent behind src s)
    (hline : ∀ c ∈ src, isBreak c = false) (other : Nat) :
    InlineScalar flow other behind src s := by
  cases h with
  | plain hstart hmark h =>
      exact .plain hstart hmark
        (h.of_oneLine (fun d hd => hline d (List.mem_cons_of_mem _ hd)) other)
  | single h => exact .single h
  | double h => exact .double h

end MessageCalls.Yaml
