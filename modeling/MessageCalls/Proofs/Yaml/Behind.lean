import MessageCalls.Proofs.Yaml.Words
/-!
# MessageCalls.Proofs.Yaml.Behind

Where the next token is found behind a scalar. A quoted scalar ends at its quote, and a gap follows.
A plain scalar runs on through blanks and line breaks until something ends it, so that it takes a
part of the gap with it. **It makes no difference to what is found next** (`FoundBehind`), be it in
front of the colon of a key (`found_colon`), in a block mapping (`LineRest.found`) or in a
flow mapping (`FlowGap.found`).
-/

namespace MessageCalls.Yaml

variable {flow tabs : Bool} {indent : Nat} {p : Place} {c : Char} {next : Option Nat}
  {style : Style} {blanks comment src rest behind : List Char}

/-- Behind a space a plain scalar ends in front of a text. -/
def Stops (flow : Bool) (indent : Nat) (p : Place) (s : Space) : List Char → Prop
  | [] => True
  | c :: rest => isBlank c = false ∧ isBreak c = false ∧ endsPlain flow indent p s c rest = true

theorem plain_stops {s : Space} (h : Stops flow indent p s behind) :
    plain flow indent p s behind = some ([], s.crossed, ⟨p, behind⟩) := by
  cases behind with
  | nil => rfl
  | cons c rest =>
      obtain ⟨hblank, hbreak, hends⟩ := h
      rw [plain, if_neg (by simp [hbreak]), if_neg (by simp [hblank]), if_pos hends]

/-- A comment behind a blank or on a line of its own ends a plain scalar. -/
theorem stops_hash {s : Space} (h : s.crossed = true ∨ s.kept ≠ []) :
    Stops flow indent p s ('#' :: rest) := by
  refine ⟨rfl, rfl, ?_⟩
  rcases h with h | h <;> simp [endsPlain, h]

/-- A colon in front of a blank ends a plain scalar. -/
theorem stops_colon {s : Space} (h : startsBlank rest = true) :
    Stops flow indent p s (':' :: rest) :=
  ⟨rfl, rfl, by simp [endsPlain, h]⟩

/-- A bracket or a comma of a flow collection ends a plain scalar in it. -/
theorem stops_flowIndicator {s : Space} (h : isFlowIndicator c = true) :
    Stops true indent p s (c :: rest) := by
  have hword : isBlank c = false ∧ isBreak c = false := by
    simp only [isFlowIndicator, Bool.or_eq_true, decide_eq_true_eq] at h
    rcases h with (((rfl | rfl) | rfl) | rfl) | rfl <;> exact ⟨rfl, rfl⟩
  exact ⟨hword.1, hword.2, by simp [endsPlain, h]⟩

/-- Lines of comments behind a plain scalar are passed over, be it by the scalar or by the gap
behind it. -/
theorem Lines.plain_eq {s : Space} (h : Lines flow src next) (hs : s.crossed = true)
    (hindent : flow = true → indent = 0)
    (hstops : ∀ s : Space, s.crossed = true → Stops flow indent (p.through src) s behind)
    (hbehind : Resumes (p.through src) behind) (hnone : next = none → behind = []) :
    ∃ c, plain flow indent p s (src ++ behind) = some ([], true, c) ∧
      c.rest.length ≤ (src ++ behind).length ∧
      gap flow true false c.toPlace c.rest = (true, ⟨p.through src, behind⟩) := by
  have hblanks_eq : ∀ {blanks : List Char} (p : Place) (s : Space) (rest : List Char),
      Blanks flow blanks → s.crossed = true →
      plain flow indent p s (blanks ++ rest) = plain flow indent (p.through blanks) s rest := by
    intro blanks p s rest hblanks hs
    rw [(passes_plain flow indent).blanks_eq hblanks.mono, if_pos hs]
    intro _ hmem
    rcases hblanks _ (List.mem_of_mem_take hmem) with htab | ⟨hflow, -⟩
    · exact absurd htab (by decide)
    · rw [hindent hflow, Nat.zero_sub] at hmem
      exact absurd hmem nofun
  induction h generalizing p s with
  | @token blanks hblanks =>
      refine ⟨⟨p.through blanks, behind⟩, ?_, ?_, gap_resumes hbehind⟩
      · rw [hblanks_eq _ _ _ hblanks hs, plain_stops (hstops s hs), hs]
      · simp
  | @finish blanks comment hblanks hcomment =>
      rw [hnone rfl, List.append_nil]
      cases hcomment with
      | none =>
          refine ⟨⟨p.through blanks, []⟩, ?_, Nat.zero_le _, ?_⟩
          · rw [hblanks_eq _ _ _ hblanks hs, ← hs]
            rfl
          · rw [List.append_nil]
            rfl
      | @text text h =>
          refine ⟨⟨p.through blanks, '#' :: text⟩, ?_, by simp, ?_⟩
          · rw [hblanks_eq _ _ _ hblanks hs, plain_stops (stops_hash (.inl hs)), hs]
          · rw [gap_comment_finish (.text h), Place.through_append]
  | @line blanks comment c src next hblanks hcomment hbreak hlines ih =>
      rw [Place.through_line] at hstops hbehind ⊢
      cases hcomment with
      | none =>
          -- The scalar itself runs on over the line break.
          rw [List.nil_append, Place.through_cons_of_isBreak _ hbreak, Place.through_nil] at *
          obtain ⟨d, hread, hlength, hgap⟩ := ih (p := (p.through blanks).nextLine)
            (s := s.lineBreak c) (by simp [Space.lineBreak, hs]) hstops hbehind hnone
          refine ⟨d, ?_, ?_, hgap⟩
          · rw [List.append_nil, List.append_assoc, hblanks_eq _ _ _ hblanks hs, List.cons_append,
              (passes_plain flow indent).lineBreak _ _ _ hbreak, hread]
          · refine Nat.le_trans hlength ?_
            simp only [List.length_append, List.length_cons]
            omega
      | @text text h =>
          -- The comment ends the scalar, and the gap takes the lines from there on.
          refine ⟨⟨p.through blanks, '#' :: text ++ c :: (src ++ behind)⟩, ?_, by simp, ?_⟩
          · rw [List.append_assoc, List.append_assoc, hblanks_eq _ _ _ hblanks hs, List.cons_append,
              List.cons_append, plain_stops (stops_hash (.inl hs)), hs]
            rfl
          · rw [gap_comment_line (.text h) hbreak, Bool.true_or,
              hlines.gap_eq (.inr rfl) hbehind hnone]

/-- The rest of a line and the lines behind a plain scalar are passed over, be it by the scalar or
by the gap behind it. -/
theorem LineRest.plain_eq (h : LineRest flow tabs src next) (hindent : flow = true → indent = 0)
    (hstops : ∀ s : Space, s.crossed = true → Stops flow indent (p.through src) s behind)
    (hbehind : Resumes (p.through src) behind) (hnone : next = none → behind = []) :
    ∃ crossed c, plain flow indent p {} (src ++ behind) = some ([], crossed, c) ∧
      c.rest.length ≤ (src ++ behind).length ∧
      ∃ after, gap flow crossed false c.toPlace c.rest = (after, ⟨p.through src, behind⟩) ∧
        (flow = false → next ≠ none → after = true) := by
  have hblanks_eq : ∀ {blanks : List Char} (rest : List Char), Blanks tabs blanks →
      plain flow indent p {} (blanks ++ rest) =
        plain flow indent (p.through blanks) { kept := blanks } rest := by
    intro blanks rest hblanks
    rw [(passes_plain flow indent).blanks_eq hblanks.mono (by simp)]
    rfl
  cases h with
  | @finish blanks comment hblanks hcomment hapart =>
      rw [hnone rfl, List.append_nil]
      cases hcomment with
      | none =>
          refine ⟨false, ⟨p.through blanks, []⟩, ?_, Nat.zero_le _, false, ?_, by simp⟩
          · rw [hblanks_eq _ hblanks]
            rfl
          · rw [List.append_nil]
            rfl
      | @text text h =>
          refine ⟨false, ⟨p.through blanks, '#' :: text⟩, ?_, by simp, false, ?_, by simp⟩
          · exact (hblanks_eq _ hblanks).trans (plain_stops (stops_hash (.inr fun hnil =>
              absurd (hapart hnil) nofun)))
          · rw [gap_comment_finish (.text h), Place.through_append]
  | @line blanks comment c src _ hblanks hcomment hapart hbreak hlines =>
      rw [Place.through_line] at hstops hbehind ⊢
      cases hcomment with
      | none =>
          rw [List.nil_append, Place.through_cons_of_isBreak _ hbreak, Place.through_nil] at *
          obtain ⟨d, hread, hlength, hgap⟩ := hlines.plain_eq (p := (p.through blanks).nextLine)
            (s := Space.lineBreak { kept := blanks } c) (by simp [Space.lineBreak]; split <;> rfl)
            hindent hstops hbehind hnone
          refine ⟨true, d, ?_, ?_, true, hgap, fun _ _ => rfl⟩
          · rw [List.append_nil, List.append_assoc, hblanks_eq _ hblanks, List.cons_append,
              (passes_plain flow indent).lineBreak _ _ _ hbreak, hread]
          · refine Nat.le_trans hlength ?_
            simp only [List.length_append, List.length_cons]
            omega
      | @text text h =>
          refine ⟨false, ⟨p.through blanks, '#' :: text ++ c :: (src ++ behind)⟩, ?_, by simp,
            !flow, ?_, by simp +contextual⟩
          · rw [List.append_assoc, List.append_assoc, hblanks_eq _ hblanks, List.cons_append,
              List.cons_append,
              plain_stops (stops_hash (.inr fun hnil => absurd (hapart hnil) nofun))]
            rfl
          · rw [gap_comment_line (.text h) hbreak, Bool.false_or,
              hlines.gap_eq (by cases flow <;> simp) hbehind hnone]

/-! ### The next token -/

/-- Behind a scalar of some style that ends at a place, the next token is found at another one. If
it is `settled` that a line is crossed, then a key may stand there. -/
structure FoundBehind (style : Style) (flow : Bool) (indent : Nat) (p : Place)
    (behind : List Char) (settled : Prop) (found : Cursor) : Prop where
  apart : behind.head? ≠ some '\''
  quoted : ∃ after, gap flow false false p behind = (after, found) ∧ (settled → after = true)
  plain : style = .plain → ∃ crossed c, plain flow indent p {} behind = some ([], crossed, c) ∧
    c.rest.length ≤ behind.length ∧
    ∃ after, gap flow crossed false c.toPlace c.rest = (after, found) ∧ (settled → after = true)

/-- No quote follows blanks, unless one follows the text behind them. -/
theorem Blanks.apart (h : Blanks tabs blanks) (hrest : rest.head? ≠ some '\'') :
    (blanks ++ rest).head? ≠ some '\'' := by
  cases blanks with
  | nil => exact hrest
  | cons c blanks => rcases h c List.mem_cons_self with rfl | ⟨-, rfl⟩ <;> simp

theorem Comment.apart (h : Comment comment) (hrest : rest.head? ≠ some '\'') :
    (comment ++ rest).head? ≠ some '\'' := by
  cases h with
  | none => exact hrest
  | text => simp

theorem LineRest.apart (h : LineRest flow tabs src next) (hnone : next = none → behind = []) :
    (src ++ behind).head? ≠ some '\'' := by
  cases h with
  | finish hblanks hcomment _ =>
      rw [hnone rfl, List.append_assoc]
      exact hblanks.apart (hcomment.apart (by simp))
  | line hblanks hcomment _ hbreak _ =>
      rw [List.append_assoc, List.append_assoc]
      refine hblanks.apart (hcomment.apart ?_)
      simpa using ne_of_test hbreak rfl

/-- In a block mapping the next token stands in the column of the mapping, where a plain value
ends. -/
theorem LineRest.found (h : LineRest false tabs src next)
    (hbehind : Resumes (p.through src) behind) (hnone : next = none → behind = [])
    (hcolumn : next ≠ none → (p.through src).column < indent) :
    FoundBehind style false indent p (src ++ behind) (next ≠ none) ⟨p.through src, behind⟩ where
  apart := h.apart hnone
  quoted := h.gap_eq false (fun _ => .inr rfl) hbehind hnone
  plain _ := by
    have hstops : ∀ s : Space, s.crossed = true →
        Stops false indent (p.through src) s behind := by
      intro s hs
      obtain rfl | ⟨c, rest, rfl, hblank, hbreak, -, -⟩ := hbehind
      · trivial
      · refine ⟨hblank, hbreak, ?_⟩
        have hlt := hcolumn fun hnext => absurd (hnone hnext) (List.cons_ne_nil c rest)
        simp [endsPlain, hs, hlt]
    obtain ⟨crossed, c, hread, hlength, after, hgap, hafter⟩ :=
      h.plain_eq (fun hflow => absurd hflow Bool.false_ne_true) hstops hbehind hnone
    exact ⟨crossed, c, hread, hlength, after, hgap, hafter rfl⟩

/-- What ends a scalar in a flow mapping: a comma, a brace, or a colon. The colon behind a plain one
stands in front of a blank. -/
def EndsInFlow (style : Style) : List Char → Prop
  | [] => False
  | c :: rest => c = ',' ∨ c = '\x7d' ∨ c = ':' ∧ (style = .plain → startsBlank rest = true)

theorem EndsInFlow.stops (h : EndsInFlow .plain behind) (s : Space) :
    Stops true indent p s behind := by
  cases behind with
  | nil => trivial
  | cons c rest =>
      rcases h with rfl | rfl | ⟨rfl, h⟩
      · exact stops_flowIndicator rfl
      · exact stops_flowIndicator rfl
      · exact stops_colon (h rfl)

theorem EndsInFlow.startsToken (h : EndsInFlow style behind) : StartsToken p behind := by
  cases behind with
  | nil => exact h.elim
  | cons c rest =>
      rcases h with rfl | rfl | ⟨rfl, -⟩ <;>
        exact startsToken_cons rfl rfl (by decide) rfl

theorem EndsInFlow.apart (h : EndsInFlow style behind) : behind.head? ≠ some '\'' := by
  cases behind with
  | nil => exact h.elim
  | cons c rest => rcases h with rfl | rfl | ⟨rfl, -⟩ <;> simp

theorem FlowGap.found (h : FlowGap src) (hbehind : EndsInFlow style behind) :
    FoundBehind style true 0 p (src ++ behind) False ⟨p.through src, behind⟩ where
  apart := by
    cases h with
    | blanks hblanks => exact hblanks.apart hbehind.apart
    | lines h => exact h.apart nofun
  quoted := ⟨false, h.gap_eq false (.inr hbehind.startsToken), False.elim⟩
  plain := by
    rintro rfl
    cases h with
    | blanks hblanks =>
        refine ⟨false, ⟨p.through src, behind⟩, ?_, by simp, false,
          gap_resumes (.inr hbehind.startsToken), False.elim⟩
        rw [(passes_plain true 0).blanks_eq hblanks (by simp), plain_stops (hbehind.stops _)]
        rfl
    | lines h =>
        obtain ⟨crossed, c, hread, hlength, after, hgap, -⟩ :=
          h.plain_eq (fun _ => rfl) (fun s _ => hbehind.stops s) (.inr hbehind.startsToken) nofun
        exact ⟨crossed, c, hread, hlength, after, hgap, False.elim⟩

/-- Behind a key its colon is found on the same line. -/
theorem found_colon (hblanks : Blanks true blanks)
    (hplain : style = .plain → startsBlank rest = true) :
    FoundBehind style flow indent p (blanks ++ ':' :: rest) False
      ⟨p.through blanks, ':' :: rest⟩ where
  apart := hblanks.apart (by simp)
  quoted := ⟨false, by
    rw [gap_blanks hblanks fun _ => .inr rfl]
    exact gap_resumes (.inr (startsToken_cons rfl rfl (by decide) rfl)), False.elim⟩
  plain hstyle := by
    refine ⟨false, ⟨p.through blanks, ':' :: rest⟩, ?_, by simp, false,
      gap_resumes (.inr (startsToken_cons rfl rfl (by decide) rfl)), False.elim⟩
    rw [(passes_plain flow indent).blanks_eq hblanks (by simp),
      plain_stops (stops_colon (hplain hstyle))]
    rfl

end MessageCalls.Yaml
