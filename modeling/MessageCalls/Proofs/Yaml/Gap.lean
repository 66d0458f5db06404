import MessageCalls.Proofs.Yaml.Grammar
/-!
# MessageCalls.Proofs.Yaml.Gap

What stands between two tokens is passed over. A text leads from one place to another
(`Place.through`), and **a gap is left at the place it leads to**, whatever it is made of
(`Lines.gap_eq`, `LineRest.gap_eq`, `FlowGap.gap_eq`): what follows is the end of the text or a
character that starts a token (`Resumes`).
-/

namespace MessageCalls.Yaml

variable {flow tabs keys : Bool} {p : Place} {c : Char} {next : Option Nat}
  {cs blanks comment src rest behind : List Char}

/-! ### Characters -/

/-- A character that passes a test is none that fails it. -/
theorem ne_of_test {test : Char → Bool} {d : Char} (hc : test c = true) (hd : test d = false) :
    c ≠ d := by
  rintro rfl
  cases hc.symm.trans hd

theorem isBreak_cases (h : isBreak c = true) : c = '\n' ∨ c = '\u2028' ∨ c = '\u2029' := by
  simpa [isBreak, or_assoc] using h

theorem isBlank_cases (h : isBlank c = true) : c = ' ' ∨ c = '\t' := by
  simpa [isBlank] using h

theorem ne_of_isBlank_eq_false (h : isBlank c = false) : c ≠ ' ' ∧ c ≠ '\t' := by
  simpa [isBlank] using h

theorem isBreak_of_isBlank (h : isBlank c = true) : isBreak c = false := by
  rcases isBlank_cases h with rfl | rfl <;> rfl

/-! ### Places -/

namespace Place

/-- The place behind a text. -/
def through (p : Place) (cs : List Char) : Place :=
  cs.foldl (fun p c => if isBreak c then p.nextLine else p.past c) p

@[simp] theorem through_nil (p : Place) : p.through [] = p := rfl

theorem through_append (p : Place) (cs ds : List Char) :
    p.through (cs ++ ds) = (p.through cs).through ds :=
  List.foldl_append

theorem through_cons_of_isBreak (p : Place) (h : isBreak c = true) (cs : List Char) :
    p.through (c :: cs) = p.nextLine.through cs := by
  rw [through, List.foldl_cons, if_pos h, through]

theorem through_cons_of_not_isBreak (p : Place) (h : isBreak c = false) (cs : List Char) :
    p.through (c :: cs) = (p.past c).through cs := by
  rw [through, List.foldl_cons, if_neg (by simp [h]), through]

/-- A text on one line leads as far as its characters. -/
theorem through_of_oneLine (p : Place) (h : ∀ c ∈ cs, isBreak c = false) :
    p.through cs =
      { line := p.line, column := p.column + cs.length,
        offset := p.offset + byteLength cs } := by
  induction cs generalizing p with
  | nil => rfl
  | cons c cs ih =>
      rw [through_cons_of_not_isBreak p (h c List.mem_cons_self),
        ih _ fun d hd => h d (List.mem_cons_of_mem c hd)]
      simp only [past, List.length_cons, byteLength, mk.injEq, true_and]
      omega

/-- A line leads from its blanks over its comment to the head of the next line. -/
theorem through_line (p : Place) (blanks comment : List Char) (c : Char) (src : List Char) :
    p.through (blanks ++ comment ++ c :: src) =
      ((p.through blanks).through (comment ++ [c])).through src := by
  rw [← through_append, ← through_append]
  simp

theorem pastAll_eq_through (p : Place) (h : ∀ c ∈ cs, isBreak c = false) :
    p.pastAll cs = p.through cs := by
  induction cs generalizing p with
  | nil => rfl
  | cons c cs ih =>
      rw [through_cons_of_not_isBreak p (h c List.mem_cons_self),
        ← ih _ fun d hd => h d (List.mem_cons_of_mem c hd)]
      rfl

theorem line_le_through (p : Place) (cs : List Char) : p.line ≤ (p.through cs).line := by
  induction cs generalizing p with
  | nil => exact Nat.le_refl _
  | cons c cs ih =>
      cases hc : isBreak c with
      | false =>
          rw [through_cons_of_not_isBreak p hc]
          exact ih (p.past c)
      | true =>
          rw [through_cons_of_isBreak p hc]
          exact Nat.le_trans (Nat.le_succ _) (ih p.nextLine)

theorem column_through_pos (p : Place) (hne : cs ≠ []) (h : ∀ c ∈ cs, isBreak c = false) :
    p.column < (p.through cs).column := by
  rw [through_of_oneLine p h]
  exact Nat.lt_add_of_pos_right (List.length_pos_iff.mpr hne)

end Place

/-! ### Marks of a document -/

/-- From a place on, no line starts with a mark of a document. -/
def Unmarked (p : Place) (cs : List Char) : Prop := isUnmarked (decide (p.column = 0)) cs = true

theorem Unmarked.past (h : Unmarked p (c :: rest)) (hc : isBreak c = false) :
    Unmarked (p.past c) rest := by
  rw [Unmarked, isUnmarked, Bool.and_eq_true] at h
  rw [Unmarked, show decide ((p.past c).column = 0) = isBreak c by rw [hc]; rfl]
  exact h.2

theorem Unmarked.nextLine (h : Unmarked p (c :: rest)) (hc : isBreak c = true) :
    Unmarked p.nextLine rest := by
  rw [Unmarked, isUnmarked, Bool.and_eq_true] at h
  rw [Unmarked, show decide (p.nextLine.column = 0) = isBreak c by rw [hc]; rfl]
  exact h.2

theorem Unmarked.through (h : Unmarked p (src ++ rest)) : Unmarked (p.through src) rest := by
  induction src generalizing p with
  | nil => exact h
  | cons c src ih =>
      cases hc : isBreak c with
      | false =>
          rw [Place.through_cons_of_not_isBreak p hc]
          exact ih (h.past hc)
      | true =>
          rw [Place.through_cons_of_isBreak p hc]
          exact ih (h.nextLine hc)

theorem Unmarked.startsMark (h : Unmarked p cs) (hp : p.column = 0) : startsMark cs = false := by
  cases cs with
  | nil => rfl
  | cons c cs =>
      rw [Unmarked, isUnmarked, Bool.and_eq_true, hp] at h
      simpa using h.1

/-! ### Characters that start a token -/

/-- What follows a gap starts a token. -/
def StartsToken (p : Place) (cs : List Char) : Prop :=
  ∃ c rest, cs = c :: rest ∧ isBlank c = false ∧ isBreak c = false ∧ c ≠ '#' ∧
    (isOrderMark c = true → p.column ≠ 0)

theorem startsToken_cons (hblank : isBlank c = false) (hbreak : isBreak c = false) (hhash : c ≠ '#')
    (hmark : isOrderMark c = false) : StartsToken p (c :: rest) :=
  ⟨c, rest, rfl, hblank, hbreak, hhash, fun h => absurd (hmark.symm.trans h) Bool.false_ne_true⟩

/-- What follows a gap starts a token, or is the end of the text. -/
def Resumes (p : Place) (cs : List Char) : Prop := cs = [] ∨ StartsToken p cs

theorem gap_resumes (h : Resumes p behind) :
    gap flow keys false p behind = (keys, ⟨p, behind⟩) := by
  obtain rfl | ⟨c, rest, rfl, hblank, hbreak, hhash, hmark⟩ := h
  · rfl
  · obtain ⟨hspace, htab⟩ := ne_of_isBlank_eq_false hblank
    have hcolumn : (isOrderMark c && decide (p.column = 0)) = false := by
      cases hc : isOrderMark c with
      | false => rfl
      | true => simpa using hmark hc
    simp [gap, hbreak, hspace, htab, hhash, hcolumn]

/-! ### Gaps -/

theorem isBlank_of_blanks (h : Blanks tabs blanks) : ∀ c ∈ blanks, isBlank c = true := by
  intro c hc
  rcases h c hc with rfl | ⟨-, rfl⟩ <;> rfl

theorem isBreak_of_blanks (h : Blanks tabs blanks) : ∀ c ∈ blanks, isBreak c = false := fun c hc =>
  isBreak_of_isBlank (isBlank_of_blanks h c hc)

theorem blanks_tail (h : Blanks tabs (c :: cs)) : Blanks tabs cs := fun d hd =>
  h d (List.mem_cons_of_mem c hd)

theorem Blanks.nil {tabs : Bool} : Blanks tabs [] := List.forall_mem_nil _

theorem Blanks.mono (h : Blanks tabs blanks) : Blanks true blanks := fun c hc =>
  (h c hc).imp_right fun htab => ⟨rfl, htab.2⟩

theorem gap_blanks (h : Blanks tabs blanks) (htabs : tabs = true → flow = true ∨ keys = false) :
    gap flow keys false p (blanks ++ rest) = gap flow keys false (p.through blanks) rest := by
  induction blanks generalizing p with
  | nil => rfl
  | cons c blanks ih =>
      have hbreak := isBreak_of_blanks h c List.mem_cons_self
      rw [Place.through_cons_of_not_isBreak p hbreak, ← ih (blanks_tail h), List.cons_append, gap,
        if_neg (by simp [hbreak]), if_pos]
      rcases h c List.mem_cons_self with rfl | ⟨htab, rfl⟩
      · rfl
      · rcases htabs htab with hflow | hkeys
        · simp [hflow]
        · simp [hkeys]

/-- The characters of a comment are passed over up to a line break. -/
theorem gap_true (h : ∀ c ∈ cs, isBreak c = false) :
    gap flow keys true p (cs ++ rest) = gap flow keys true (p.through cs) rest := by
  induction cs generalizing p with
  | nil => rfl
  | cons c cs ih =>
      have hbreak := h c List.mem_cons_self
      rw [Place.through_cons_of_not_isBreak p hbreak,
        ← ih fun d hd => h d (List.mem_cons_of_mem c hd), List.cons_append, gap,
        if_neg (by simp [hbreak]), if_pos (by simp)]

theorem gap_comment_finish (h : Comment comment) :
    gap flow keys false p comment = (keys, ⟨p.through comment, []⟩) := by
  cases h with
  | none => rfl
  | @text text h =>
      have hrest : gap flow keys true (p.past '#') (text ++ []) =
          gap flow keys true ((p.past '#').through text) [] := gap_true h
      rw [List.append_nil] at hrest
      rw [gap, if_neg (by decide), if_neg (by simp [isOrderMark]), if_pos rfl, hrest,
        Place.through_cons_of_not_isBreak p rfl]
      rfl

theorem gap_comment_line (h : Comment comment) (hc : isBreak c = true) :
    gap flow keys false p (comment ++ c :: rest) =
      gap flow (keys || !flow) false (p.through (comment ++ [c])) rest := by
  have hbreak : ∀ comment q, gap flow keys comment q (c :: rest) =
      gap flow (keys || !flow) false (q.through [c]) rest := by
    intro comment q
    rw [gap, if_pos hc, Place.through_cons_of_isBreak q hc, Place.through_nil]
  rw [Place.through_append]
  cases h with
  | none => exact hbreak false p
  | text h =>
      rw [List.cons_append, gap, if_neg (by decide), if_neg (by simp [isOrderMark]), if_pos rfl,
        gap_true h, hbreak, Place.through_cons_of_not_isBreak p rfl]

/-- Lines of comments are passed over. In block context a key may stand at the head of a line. -/
theorem Lines.gap_eq (h : Lines flow src next) (hkeys : flow = true ∨ keys = true)
    (hbehind : Resumes (p.through src) behind) (hnone : next = none → behind = []) :
    gap flow keys false p (src ++ behind) = (keys, ⟨p.through src, behind⟩) := by
  have hor : (keys || !flow) = keys := by
    rcases hkeys with hkeys | hkeys <;> simp [hkeys]
  induction h generalizing p with
  | token hblanks =>
      rw [gap_blanks hblanks fun hflow => .inl hflow, gap_resumes hbehind]
  | finish hblanks hcomment =>
      rw [hnone rfl, List.append_nil, gap_blanks hblanks fun hflow => .inl hflow,
        gap_comment_finish hcomment, Place.through_append]
  | @line blanks comment c src next hblanks hcomment hbreak _ ih =>
      rw [Place.through_line] at hbehind
      rw [Place.through_line, List.append_assoc, List.append_assoc,
        gap_blanks hblanks fun hflow => .inl hflow, List.cons_append,
        gap_comment_line hcomment hbreak, hor, ih hbehind hnone]

/-- The rest of a line and the lines behind it are passed over. -/
theorem LineRest.gap_eq (h : LineRest flow tabs src next) (keys : Bool)
    (htabs : tabs = true → flow = true ∨ keys = false)
    (hbehind : Resumes (p.through src) behind) (hnone : next = none → behind = []) :
    ∃ after, gap flow keys false p (src ++ behind) = (after, ⟨p.through src, behind⟩) ∧
      (next ≠ none → after = (keys || !flow)) := by
  cases h with
  | finish hblanks hcomment _ =>
      refine ⟨keys, ?_, fun hne => absurd rfl hne⟩
      rw [hnone rfl, List.append_nil, gap_blanks hblanks htabs, gap_comment_finish hcomment,
        Place.through_append]
  | @line blanks comment c src _ hblanks hcomment _ hbreak hlines =>
      refine ⟨keys || !flow, ?_, fun _ => rfl⟩
      rw [Place.through_line] at hbehind
      rw [Place.through_line, List.append_assoc, List.append_assoc, gap_blanks hblanks htabs,
        List.cons_append, gap_comment_line hcomment hbreak, hlines.gap_eq ?_ hbehind hnone]
      cases flow <;> simp

theorem FlowGap.gap_eq (h : FlowGap src) (keys : Bool) (hbehind : Resumes (p.through src) behind) :
    gap true keys false p (src ++ behind) = (keys, ⟨p.through src, behind⟩) := by
  cases h with
  | blanks hblanks =>
      rw [gap_blanks hblanks fun _ => .inl rfl, gap_resumes hbehind]
  | lines hlines =>
      obtain ⟨after, hgap, hafter⟩ := hlines.gap_eq keys (fun _ => .inl rfl) hbehind nofun
      rw [hgap, hafter nofun]
      simp

/-! ### Where gaps lead -/

/-- What is next stands in the column that the blanks before it tell. -/
theorem Lines.column_eq (h : Lines flow src next) (hp : p.column = 0) :
    ∀ k ∈ next, (p.through src).column = k := by
  induction h generalizing p with
  | token hblanks =>
      rintro k ⟨⟩
      rw [Place.through_of_oneLine p (isBreak_of_blanks hblanks), hp, Nat.zero_add]
  | finish => exact nofun
  | line _ _ hbreak _ ih =>
      rw [Place.through_append, Place.through_cons_of_isBreak _ hbreak]
      exact ih rfl

theorem LineRest.column_eq (h : LineRest flow tabs src next) :
    ∀ k ∈ next, (p.through src).column = k := by
  cases h with
  | finish => exact nofun
  | line _ _ _ hbreak hlines =>
      rw [Place.through_append, Place.through_cons_of_isBreak _ hbreak]
      exact hlines.column_eq rfl

/-- What is next stands on another line. -/
theorem LineRest.line_lt (h : LineRest flow tabs src next) (hnext : next ≠ none) :
    p.line < (p.through src).line := by
  cases h with
  | finish => exact absurd rfl hnext
  | line _ _ _ hbreak _ =>
      rw [Place.through_append, Place.through_cons_of_isBreak _ hbreak]
      calc p.line ≤ (p.through _).line := Place.line_le_through _ _
        _ < (p.through _).nextLine.line := Nat.lt_succ_self _
        _ ≤ _ := Place.line_le_through _ _

end MessageCalls.Yaml
