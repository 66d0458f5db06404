import MessageCalls.Proofs.Yaml.Gap
/-!
# MessageCalls.Proofs.Yaml.Blocks

Scalars set off as blocks are read as the rules write them. Lines are read one by one
(`TextLines.read`), at an indentation that the header or the lines themselves tell
(`BlankLines.widest?_eq`). **The text ends in front of what is indented less**
(`BlockScalar.read`), and the next token is found as if the gap began there.
-/

namespace MessageCalls.Yaml

variable {literal : Bool} {chomping : Chomping} {indent n column width : Nat}
  {p : Place} {c : Char} {held : Breaks}
  {blanks comment src text breaks rest behind line : List Char}

/-! ### Lines -/

theorem isBreak_of_spaces (width : Nat) : ∀ c ∈ List.replicate width ' ', isBreak c = false := by
  intro c hc
  rw [List.eq_of_mem_replicate hc]
  rfl

/-- Spaces of the indentation are passed over. -/
theorem blockLines_spaces (h : p.column + width ≤ indent) :
    blockLines literal chomping indent p false held (List.replicate width ' ' ++ rest) =
      blockLines literal chomping indent (p.through (List.replicate width ' ')) false held
        rest := by
  induction width generalizing p with
  | zero => rfl
  | succ width ih =>
      have hlt : p.column < indent := by omega
      have hstep : (p.past ' ').column + width ≤ indent := by
        rw [show (p.past ' ').column = p.column + 1 from rfl]
        omega
      rw [List.replicate_succ, List.cons_append, blockLines, if_neg (by decide), if_neg (by decide),
        if_pos hlt, if_pos rfl, ih hstep, Place.through_cons_of_not_isBreak _ rfl]

/-- The characters of a line are kept. -/
theorem blockLines_inside (h : ∀ c ∈ line, isBreak c = false) :
    blockLines literal chomping indent p true held (line ++ rest) =
      (blockLines literal chomping indent (p.through line) true held rest).map
        fun (text, behind) => (line ++ text, behind) := by
  induction line generalizing p with
  | nil =>
      rw [List.nil_append, Place.through_nil]
      cases blockLines literal chomping indent p true held rest <;> rfl
  | cons c line ih =>
      have hc := h c List.mem_cons_self
      rw [List.cons_append, blockLines, if_neg (by simp [hc]), if_pos rfl,
        ih fun d hd => h d (List.mem_cons_of_mem c hd), Place.through_cons_of_not_isBreak _ hc]
      cases blockLines literal chomping indent ((p.past c).through line) true held rest <;> rfl

theorem BlankLines.mono (h : BlankLines indent src breaks) (hle : indent ≤ n) :
    BlankLines n src breaks := by
  induction h with
  | nil => exact .nil
  | line hwidth hbreak _ ih => exact .line (Nat.le_trans hwidth hle) hbreak ih

/-- Behind blank lines stands the head of a line. -/
theorem BlankLines.column_eq (h : BlankLines indent src breaks) (hp : p.column = 0) :
    (p.through src).column = 0 := by
  induction h generalizing p with
  | nil => exact hp
  | line _ hbreak _ ih =>
      rw [Place.through_append, Place.through_cons_of_isBreak _ hbreak]
      exact ih rfl

/-- Of blank lines the line breaks are kept for the text. -/
theorem BlankLines.read (h : BlankLines indent src breaks) (hp : p.column = 0) :
    blockLines literal chomping indent p false held (src ++ rest) =
      blockLines literal chomping indent (p.through src) false
        { held with further := held.further ++ breaks } rest := by
  induction h generalizing p held with
  | nil => simp
  | @line width b src breaks hwidth hbreak _ ih =>
      have hplace : p.through (List.replicate width ' ' ++ b :: src) =
          (p.through (List.replicate width ' ')).nextLine.through src := by
        rw [Place.through_append, Place.through_cons_of_isBreak _ hbreak]
      have hspaces : p.column + width ≤ indent := by omega
      rw [hplace, List.append_assoc, blockLines_spaces hspaces, List.cons_append, blockLines,
        if_pos hbreak, ih rfl]
      simp

/-- Behind a block the next token is found, whether or not the block has taken the blanks in front
of it. -/
theorem Outdented.read (h : Outdented indent behind) (hp : p.column = 0) (literal : Bool)
    (chomping : Chomping) (held : Breaks) :
    ∃ c, blockLines literal chomping indent p false held behind = some (held.last chomping, c) ∧
      c.rest.length ≤ behind.length ∧
      ∀ keys, gap false keys false c.toPlace c.rest = gap false keys false p behind := by
  have hspaces : ∀ width, Blanks false (List.replicate width ' ') := fun width c hc =>
    .inl (List.eq_of_mem_replicate hc)
  cases h with
  | @finish width hwidth =>
      refine ⟨⟨p.through (List.replicate width ' '), []⟩, ?_, Nat.zero_le _, fun keys => ?_⟩
      · rw [← List.append_nil (List.replicate width ' '), blockLines_spaces (by omega),
          List.append_nil]
        rfl
      · rw [← List.append_nil (List.replicate width ' '), gap_blanks (hspaces width) nofun,
          List.append_nil]
  | @token width c rest hwidth hword =>
      refine ⟨⟨p.through (List.replicate width ' '), c :: rest⟩, ?_, ?_, fun keys =>
        (gap_blanks (hspaces width) nofun).symm⟩
      · have hcolumn : (p.through (List.replicate width ' ')).column < indent := by
          rw [Place.through_of_oneLine p (isBreak_of_spaces width), hp, Nat.zero_add,
            List.length_replicate]
          exact hwidth
        obtain ⟨hspace, htab⟩ := ne_of_isBlank_eq_false hword.1
        rw [blockLines_spaces (by omega), blockLines, if_neg (by simp [hword.2]),
          if_neg (by decide), if_pos hcolumn, if_neg hspace, if_neg htab]
      · simp

/-- The first character of a line that is indented far enough belongs to the text. -/
theorem blockLines_line (hp : p.column = 0)
    (hline : ∀ d ∈ c :: line, isBreak d = false) :
    blockLines literal chomping indent p false held
        (List.replicate indent ' ' ++ c :: (line ++ rest)) =
      (blockLines literal chomping indent (p.through (List.replicate indent ' ' ++ c :: line)) true
          { blank := isBlank c } rest).map
        fun (text, behind) => (held.text literal (isBlank c) ++ c :: (line ++ text), behind) := by
  have hc := hline c List.mem_cons_self
  have hcolumn : ¬ (p.through (List.replicate indent ' ')).column < indent := by
    rw [Place.through_of_oneLine p (isBreak_of_spaces indent), hp, Nat.zero_add,
      List.length_replicate]
    exact Nat.lt_irrefl indent
  rw [blockLines_spaces (by omega), blockLines, if_neg (by simp [hc]), if_neg (by decide),
    if_neg hcolumn, blockLines_inside fun d hd => hline d (List.mem_cons_of_mem c hd),
    Place.through_append, Place.through_cons_of_not_isBreak _ hc]
  cases blockLines literal chomping indent _ true { blank := isBlank c } rest <;> rfl

/-- Behind the lines of a block stands the head of a line, unless the text is over. -/
theorem TextLines.column_eq {tells : Bool}
    (h : TextLines literal chomping indent behind tells held src text) (hp : p.column = 0)
    (hbehind : behind ≠ []) : (p.through src).column = 0 := by
  induction h generalizing p with
  | finish hblank => exact hblank.column_eq hp
  | @line blanks c line b src text _ _ _ _ _ _ hbreak _ ih =>
      rw [show blanks ++ (List.replicate indent ' ' ++ c :: (line ++ b :: src)) =
          (blanks ++ (List.replicate indent ' ' ++ c :: line)) ++ b :: src by simp,
        Place.through_append, Place.through_cons_of_isBreak _ hbreak]
      exact ih rfl
  | cut _ _ _ hnil => exact absurd hnil hbehind

/-- **The lines of a block are read as its text**, up to what is indented less. -/
theorem TextLines.read {tells : Bool}
    (h : TextLines literal chomping indent behind tells held src text) (hp : p.column = 0)
    (hheld : held.further = []) :
    ∃ c, blockLines literal chomping indent p false held (src ++ behind) = some (text, c) ∧
      c.rest.length ≤ (src ++ behind).length ∧
      ∀ keys, gap false keys false c.toPlace c.rest =
        gap false keys false (p.through src) behind := by
  induction h generalizing p with
  | @finish src held further hblank hbehind =>
      have hcolumn := hblank.column_eq hp
      obtain ⟨c, hrest, hlength, hgap⟩ :=
        hbehind.read hcolumn literal chomping { held with further }
      refine ⟨c, ?_, ?_, hgap⟩
      · rw [hblank.read hp, hheld, List.nil_append, hrest]
      · rw [List.length_append]
        omega
  | @line blanks c line b src text tells held further hblank _ hline hbreak _ ih =>
      have hcolumn := hblank.column_eq hp
      let q := (p.through blanks).through (List.replicate indent ' ' ++ c :: line)
      -- The break behind a line is what the next one starts from.
      obtain ⟨d, hrest, hlength, hgap⟩ := ih (p := q.nextLine) rfl rfl
      have hplace : p.through (blanks ++ (List.replicate indent ' ' ++ c :: (line ++ b :: src))) =
          q.nextLine.through src := by
        rw [Place.through_append,
          show List.replicate indent ' ' ++ c :: (line ++ b :: src) =
            (List.replicate indent ' ' ++ c :: line) ++ b :: src by simp,
          Place.through_append, Place.through_cons_of_isBreak _ hbreak]
      rw [hplace]
      refine ⟨d, ?_, ?_, hgap⟩
      · have hend : blockLines literal chomping indent q true { blank := isBlank c }
            (b :: (src ++ behind)) = some (text, d) := by
          rw [blockLines, if_pos hbreak, if_pos rfl, hrest]
        rw [show blanks ++ (List.replicate indent ' ' ++ c :: (line ++ b :: src)) ++ behind =
            blanks ++ (List.replicate indent ' ' ++ c :: (line ++ b :: (src ++ behind))) by simp,
          hblank.read hp, hheld, List.nil_append, blockLines_line hcolumn hline, hend]
        rfl
      · refine Nat.le_trans hlength ?_
        simp only [List.length_append, List.length_cons]
        omega
  | @cut blanks c line tells held further hblank _ hline hbehind =>
      subst hbehind
      have hcolumn := hblank.column_eq hp
      let q := (p.through blanks).through (List.replicate indent ' ' ++ c :: line)
      have hplace : p.through (blanks ++ (List.replicate indent ' ' ++ c :: line)) = q := by
        rw [Place.through_append]
      rw [hplace]
      refine ⟨⟨q, []⟩, ?_, Nat.zero_le _, fun _ => rfl⟩
      have hend : blockLines literal chomping indent q true { blank := isBlank c } [] =
          some ([], ⟨q, []⟩) := by
        rw [blockLines]
        cases chomping <;> rfl
      rw [List.append_nil, hblank.read hp, hheld, List.nil_append, ← List.append_nil line,
        blockLines_line hcolumn hline, List.append_nil, hend]
      simp

/-! ### Indentation -/

theorem widest?_spaces :
    widest? column width (List.replicate n ' ' ++ rest) = widest? (column + n) width rest := by
  induction n generalizing column with
  | zero => rfl
  | succ n ih =>
      rw [List.replicate_succ, List.cons_append, widest?, if_pos rfl, ih, Nat.add_assoc,
        Nat.add_comm 1 n]

/-- Blank lines are no wider than the indentation that is found. -/
theorem BlankLines.widest?_eq (h : BlankLines indent src breaks) (width : Nat)
    (rest : List Char) :
    ∃ wider, widest? 0 width (src ++ rest) = widest? 0 wider rest ∧ width ≤ wider ∧
      (width ≤ indent → wider ≤ indent) ∧ BlankLines wider src breaks := by
  induction h generalizing width with
  | nil => exact ⟨width, rfl, Nat.le_refl _, id, .nil⟩
  | @line most b src breaks hwidth hbreak _ ih =>
      obtain ⟨wider, hwidest, hle, hindent, hblank⟩ := ih (max width most)
      have hspace : b ≠ ' ' := ne_of_test hbreak rfl
      have htab : b ≠ '\t' := ne_of_test hbreak rfl
      refine ⟨wider, ?_, by omega, fun hle => hindent (by omega), .line (by omega) hbreak hblank⟩
      rw [List.append_assoc, widest?_spaces, List.cons_append, widest?, if_neg hspace, if_neg htab,
        if_pos hbreak, Nat.zero_add, hwidest]

theorem widest?_word (hword : isBlank c = false ∧ isBreak c = false) :
    widest? 0 width (List.replicate n ' ' ++ c :: rest) = some (max width n) := by
  obtain ⟨hspace, htab⟩ := ne_of_isBlank_eq_false hword.1
  rw [widest?_spaces, widest?, if_neg hspace, if_neg htab, if_neg (by simp [hword.2]),
    Nat.zero_add]

theorem Outdented.widest?_eq (h : Outdented indent behind) (width : Nat) :
    ∃ most ≤ indent, widest? 0 width behind = some (max width most) := by
  cases h with
  | @finish most hwidth =>
      refine ⟨most, hwidth, ?_⟩
      rw [← List.append_nil (List.replicate most ' '), widest?_spaces, Nat.zero_add]
      rfl
  | @token most c rest hwidth hword => exact ⟨most, Nat.le_of_lt hwidth, widest?_word hword⟩

theorem Outdented.mono (h : Outdented indent behind) (hle : indent ≤ n) : Outdented n behind := by
  cases h with
  | finish hwidth => exact .finish (Nat.le_trans hwidth hle)
  | token hwidth hword => exact .token (Nat.lt_of_lt_of_le hwidth hle) hword

/-- The first line of a block tells how far it is indented. -/
theorem TextLines.widest?_eq (h : TextLines literal chomping indent behind true held src text) :
    widest? 0 0 (src ++ behind) = some indent := by
  have hfirst : ∀ {blanks rest further : List Char} {c : Char}, BlankLines indent blanks further →
      isBlank c = false ∧ isBreak c = false →
      widest? 0 0 (blanks ++ (List.replicate indent ' ' ++ c :: rest)) = some indent := by
    intro blanks rest further c hblank hword
    obtain ⟨wider, hwidest, -, hindent, -⟩ := hblank.widest?_eq 0 _
    rw [hwidest, widest?_word hword, Nat.max_eq_right (hindent (Nat.zero_le _))]
  cases h with
  | line hblank htells hline _ _ =>
      rw [List.append_assoc, List.append_assoc, List.cons_append]
      exact hfirst hblank ⟨htells rfl, hline _ List.mem_cons_self⟩
  | cut hblank htells hline _ =>
      rw [List.append_assoc, List.append_assoc, List.cons_append]
      exact hfirst hblank ⟨htells rfl, hline _ List.mem_cons_self⟩

/-! ### Headers -/

theorem ofChar?_of_indentOf? (h : indentOf? c = some width) : Chomping.ofChar? c = none := by
  have hne : c ≠ '-' ∧ c ≠ '+' := by
    refine ⟨?_, ?_⟩ <;> rintro rfl <;> cases h
  rw [Chomping.ofChar?]
  · exact hne.1
  · exact hne.2

/-- A header is read up to a character that has no place in one. -/
theorem HeaderText.ofChars_eq {header : List Char} {asked : BlockHeader}
    (h : HeaderText header asked)
    (hend : ∀ d ∈ rest.head?, Chomping.ofChar? d = none ∧ indentOf? d = none) :
    BlockHeader.ofChars (header ++ rest) = (asked, header.length) := by
  have hindent : rest.head?.bind indentOf? = none := by
    cases rest with
    | nil => rfl
    | cons d rest => exact (hend d rfl).2
  have hchomping : rest.head?.bind Chomping.ofChar? = none := by
    cases rest with
    | nil => rfl
    | cons d rest => exact (hend d rfl).1
  cases h with
  | detected h =>
      cases h with
      | clip =>
          cases rest with
          | nil => rfl
          | cons d rest => simp [BlockHeader.ofChars, hend d rfl]
      | strip => simp [BlockHeader.ofChars, Chomping.ofChar?, hindent]
      | keep => simp [BlockHeader.ofChars, Chomping.ofChar?, hindent]
  | digitFirst hdigit h =>
      have hnone := ofChar?_of_indentOf? hdigit
      cases h with
      | clip => simp [BlockHeader.ofChars, hnone, hdigit, hchomping]
      | strip =>
          simp [BlockHeader.ofChars, hnone, hdigit,
            show Chomping.ofChar? '-' = some .strip from rfl]
      | keep =>
          simp [BlockHeader.ofChars, hnone, hdigit,
            show Chomping.ofChar? '+' = some .keep from rfl]
  | digitLast hdigit h =>
      have hnone := ofChar?_of_indentOf? hdigit
      cases h with
      | clip => simp [BlockHeader.ofChars, hnone, hdigit, hchomping]
      | strip => simp [BlockHeader.ofChars, hdigit, Chomping.ofChar?]
      | keep => simp [BlockHeader.ofChars, hdigit, Chomping.ofChar?]

theorem isBreak_of_indentOf? (h : indentOf? c = some width) : isBreak c = false := by
  refine Bool.eq_false_iff.mpr fun hbreak => ?_
  rcases isBreak_cases hbreak with rfl | rfl | rfl <;> cases h

theorem ChompingMark.isBreak {mark : List Char} (h : ChompingMark mark chomping) :
    ∀ d ∈ mark, Yaml.isBreak d = false := by
  cases h with
  | clip => exact List.forall_mem_nil _
  | strip | keep => exact List.forall_mem_singleton.mpr rfl

/-- A header stands on one line. -/
theorem HeaderText.isBreak {header : List Char} {asked : BlockHeader}
    (h : HeaderText header asked) : ∀ d ∈ header, Yaml.isBreak d = false := by
  cases h with
  | detected h => exact h.isBreak
  | digitFirst hdigit h => exact List.forall_mem_cons.mpr ⟨isBreak_of_indentOf? hdigit, h.isBreak⟩
  | digitLast hdigit h =>
      exact List.forall_mem_append.mpr
        ⟨h.isBreak, List.forall_mem_singleton.mpr (isBreak_of_indentOf? hdigit)⟩

/-- A header ends in front of blanks or a line break. -/
theorem header_ends {b : Char} (hblanks : Blanks true blanks) (hapart : blanks = [] → comment = [])
    (hbreak : Yaml.isBreak b = true) :
    ∀ d ∈ (blanks ++ comment ++ b :: rest).head?,
      Chomping.ofChar? d = none ∧ indentOf? d = none := by
  cases blanks with
  | nil =>
      rw [hapart rfl]
      rintro d ⟨⟩
      rcases isBreak_cases hbreak with rfl | rfl | rfl <;> exact ⟨rfl, rfl⟩
  | cons c blanks =>
      rintro d ⟨⟩
      rcases hblanks c List.mem_cons_self with rfl | ⟨-, rfl⟩ <;> exact ⟨rfl, rfl⟩

theorem Cursor.advance_length {cs : List Char} (h : ∀ c ∈ cs, isBreak c = false) :
    (⟨p, cs ++ rest⟩ : Cursor).advance cs.length = ⟨p.through cs, rest⟩ := by
  rw [Cursor.advance, List.take_left', List.drop_left', Place.pastAll_eq_through p h] <;> rfl

theorem Cursor.span_eq {kind : Char → Bool} {run : List Char} (hrun : ∀ c ∈ run, kind c = true)
    (hend : ∀ c ∈ rest.head?, kind c = false) (hline : ∀ c ∈ run, isBreak c = false) :
    (⟨p, run ++ rest⟩ : Cursor).span kind = (run, ⟨p.through run, rest⟩) := by
  have htake : (run ++ rest).takeWhile kind = run := by
    rw [List.takeWhile_append_of_pos hrun]
    cases rest with
    | nil => simp
    | cons c rest => simp [hend c rfl]
  simp only [Cursor.span, htake, Cursor.advance_length hline]

/-- Behind the header nothing but a comment is left on the line. -/
theorem Cursor.nextLine?_eq {b : Char} (hblanks : Blanks true blanks) (hcomment : Comment comment)
    (hbreak : isBreak b = true) :
    (⟨p, blanks ++ comment ++ b :: rest⟩ : Cursor).nextLine? =
      some ⟨p.through (blanks ++ comment ++ [b]), rest⟩ := by
  have hb : isBlank b = false := Bool.eq_false_iff.mpr fun hblank =>
    Bool.false_ne_true ((isBreak_of_isBlank hblank).symm.trans hbreak)
  have hend : ∀ c ∈ (comment ++ b :: rest).head?, isBlank c = false := by
    cases hcomment with
    | none => rintro c ⟨⟩; exact hb
    | text => rintro c ⟨⟩; rfl
  have hskip : (⟨p, blanks ++ (comment ++ b :: rest)⟩ : Cursor).skipBlanks =
      ⟨p.through blanks, comment ++ b :: rest⟩ := by
    rw [Cursor.skipBlanks, Cursor.span_eq (isBlank_of_blanks hblanks) hend
      (isBreak_of_blanks hblanks)]
  have hplace : p.through (blanks ++ comment ++ [b]) =
      ((p.through blanks).through comment).nextLine := by
    rw [Place.through_append, Place.through_append, Place.through_cons_of_isBreak _ hbreak,
      Place.through_nil]
  rw [hplace, Cursor.nextLine?, List.append_assoc, hskip]
  cases hcomment with
  | none =>
      have hhash : b ≠ '#' := ne_of_test hbreak rfl
      simp [hbreak, hhash]
  | @text text h =>
      have hline : ∀ d ∈ '#' :: text, isBreak d = false := by
        intro d hd
        rcases List.mem_cons.mp hd with rfl | hd
        · rfl
        · exact h d hd
      have hspan : (⟨p.through blanks, '#' :: (text ++ b :: rest)⟩ : Cursor).span
          (fun d => !isBreak d) = ('#' :: text, ⟨(p.through blanks).through ('#' :: text),
            b :: rest⟩) :=
        Cursor.span_eq (fun d hd => by simp [hline d hd]) (by rintro d ⟨⟩; simp [hbreak]) hline
      simp only [List.cons_append, List.head?_cons, if_true, hspan, hbreak]

/-! ### Blocks -/

/-- The indentation of a block, as its header or its lines tell it. -/
def indentation? (n : Nat) (asked : BlockHeader) (c : Cursor) : Option Nat :=
  match asked.indent with
  | some width => some (n + width)
  | none => (widest? c.column 0 c.rest).map (max (n + 1))

/-- In a mapping at a column a block is read by its header and its indentation. -/
theorem blockText_eq {c first : Cursor} {asked : BlockHeader} {length : Nat}
    (hheader : BlockHeader.ofChars c.rest = (asked, length))
    (hfirst : (c.advance length).nextLine? = some first)
    (hindent : indentation? n asked first = some indent) :
    blockText literal (some n) c =
      blockLines literal asked.chomping indent first.toPlace false {} first.rest := by
  simp only [blockText, hheader, hfirst, Option.bind_eq_bind, Option.bind_some]
  rw [indentation?] at hindent
  cases hasked : asked.indent with
  | some width =>
      rw [hasked] at hindent
      obtain rfl := Option.some.inj hindent
      rfl
  | none =>
      rw [hasked] at hindent
      have hwidest : (widest? first.column 0 first.rest).map (max (n + 1)) = some indent := hindent
      have hleast : max 1 (n + 1) = n + 1 := Nat.max_eq_right (Nat.le_add_left 1 n)
      simp only [Option.elim_some, hleast, hwidest, Option.bind_some]

theorem BlockBody.read {asked : BlockHeader} (h : BlockBody literal n behind asked src text)
    (hp : p.column = 0) :
    ∃ indent c, indentation? n asked ⟨p, src ++ behind⟩ = some indent ∧
      blockLines literal asked.chomping indent p false {} (src ++ behind) = some (text, c) ∧
      c.rest.length ≤ (src ++ behind).length ∧
      ∀ keys, gap false keys false c.toPlace c.rest =
        gap false keys false (p.through src) behind := by
  cases h with
  | fixed h =>
      obtain ⟨c, hread, hlength, hgap⟩ := h.read hp rfl
      exact ⟨_, c, rfl, hread, hlength, hgap⟩
  | detected hindent h =>
      obtain ⟨c, hread, hlength, hgap⟩ := h.read hp rfl
      refine ⟨_, c, ?_, hread, hlength, hgap⟩
      simp only [indentation?, hp, h.widest?_eq, Option.map_some, Option.some.injEq]
      exact Nat.max_eq_right hindent
  | @blank src chomping indent further h hbehind =>
      obtain ⟨wider, hwidest, -, -, hblank⟩ := h.widest?_eq 0 behind
      obtain ⟨most, hmost, hrest⟩ := hbehind.widest?_eq wider
      -- The indentation that is found is wide enough for the blank lines and what is behind them.
      have hlines : TextLines literal chomping (max (n + 1) (max wider most)) behind false {} src
          (Breaks.last { further } chomping) :=
        .finish (hblank.mono (by omega)) (hbehind.mono (Nat.le_max_left _ _))
      obtain ⟨c, hread, hlength, hgap⟩ := hlines.read hp rfl
      refine ⟨_, c, ?_, hread, hlength, hgap⟩
      simp only [indentation?, hp, hwidest, hrest, Option.map_some]

theorem BlockScalar.column_eq {s : Scalar} (h : BlockScalar n behind src s)
    (hbehind : behind ≠ []) : (p.through src).column = 0 := by
  obtain @⟨header, blanks, comment, b, literal, src, text, asked, -, -, -, -, hbreak, hbody⟩ := h
  rw [show ((if literal then '|' else '>') :: (header ++ (blanks ++ comment ++ b :: src))) =
      ((if literal then '|' else '>') :: (header ++ (blanks ++ comment))) ++ b :: src by simp,
    Place.through_append, Place.through_cons_of_isBreak _ hbreak]
  cases hbody with
  | fixed h => exact h.column_eq rfl hbehind
  | detected _ h => exact h.column_eq rfl hbehind
  | blank h => exact h.column_eq rfl

/-- **A scalar that is set off as a block is read up to what is indented less.** -/
theorem BlockScalar.read {s : Scalar} (h : BlockScalar n behind src s) (p : Place) :
    ∃ literal tail c, src = (if literal then '|' else '>') :: tail ∧
      s.style = (if literal then .literal else .folded) ∧
      blockText literal (some n) ⟨p.past (if literal then '|' else '>'), tail ++ behind⟩ =
        some (s.text.toList, c) ∧
      c.rest.length ≤ (tail ++ behind).length ∧
      ∀ keys, gap false keys false c.toPlace c.rest =
        gap false keys false (p.through src) behind := by
  obtain @⟨header, blanks, comment, b, literal, src, text, asked, hheader, hblanks, hcomment,
    hapart, hbreak, hbody⟩ := h
  have hmark : isBreak (if literal then '|' else '>') = false := by cases literal <;> rfl
  let inside := (p.past (if literal then '|' else '>')).through header
  let first := inside.through (blanks ++ comment ++ [b])
  have hfirst : first.column = 0 := by
    show (inside.through (blanks ++ comment ++ [b])).column = 0
    rw [Place.through_append, Place.through_cons_of_isBreak _ hbreak]
    rfl
  obtain ⟨indent, c, hindent, hread, hlength, hgap⟩ := hbody.read (p := first) hfirst
  have hplace : p.through ((if literal then '|' else '>') ::
      (header ++ (blanks ++ comment ++ b :: src))) = first.through src := by
    rw [Place.through_cons_of_not_isBreak _ hmark, Place.through_append,
      show blanks ++ comment ++ b :: src = blanks ++ comment ++ [b] ++ src by simp,
      Place.through_append]
  refine ⟨literal, header ++ (blanks ++ comment ++ b :: src), c, rfl, rfl, ?_, ?_, ?_⟩
  · have htext : header ++ (blanks ++ comment ++ b :: src) ++ behind =
        header ++ (blanks ++ comment ++ b :: (src ++ behind)) := by simp
    have hnext : (Cursor.advance ⟨p.past (if literal then '|' else '>'),
        header ++ (blanks ++ comment ++ b :: (src ++ behind))⟩ header.length).nextLine? =
          some ⟨first, src ++ behind⟩ := by
      rw [Cursor.advance_length hheader.isBreak, Cursor.nextLine?_eq hblanks hcomment hbreak]
    rw [htext, blockText_eq (hheader.ofChars_eq (header_ends hblanks hapart hbreak)) hnext hindent,
      String.toList_ofList]
    exact hread
  · refine Nat.le_trans hlength ?_
    simp only [List.length_append, List.length_cons]
    omega
  · intro keys
    rw [hplace]
    exact hgap keys

end MessageCalls.Yaml
