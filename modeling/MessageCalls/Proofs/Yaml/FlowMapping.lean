import MessageCalls.Proofs.Yaml.BlockMapping
/-!
# MessageCalls.Proofs.Yaml.FlowMapping

A flow mapping is read as the tokens of its entries between braces. Inside of it one flow collection
is open and no column, and the whole collection could be a key, though it need not be one. **An
entry takes the layout to the comma or the brace behind it** (`FlowEntry.yields`), and the closing
brace to the end of the text (`FlowEntries.leads`).
-/

namespace MessageCalls.Yaml

variable {keys : Bool} {p : Place} {lead src rest behind : List Char}
  {outer : List (Option PendingKey)} {read result : List Token}

/-- The tokens of entries and commas up to a closing brace. A comma may come last. -/
inductive Braced : List Entry → List Token → Prop
  | close : Braced [] [.rightBrace]
  | last {entry : Entry} : Braced [entry] (entry.tokens ++ [.rightBrace])
  | cons {entry : Entry} {entries : List Entry} {tokens : List Token} (h : Braced entries tokens) :
      Braced (entry :: entries) (entry.tokens ++ .comma :: tokens)

/-! ### The layout inside of braces -/

theorem Layout.flow_of_around {t : Layout} (h : Around 1 t.outer) : t.flow = true := by
  obtain ⟨key, hkey⟩ := List.length_eq_one_iff.mp h.1
  rw [flow, hkey]
  rfl

/-- In a flow collection no block collection begins. -/
theorem Layout.begun_of_flow {t : Layout} (h : t.flow = true) : t.begun = t := by
  simp [begun, indent, h]

/-- A gap in front of a token is passed over. -/
theorem FlowGap.leads (h : FlowGap lead) (hbehind : StartsToken (p.through lead) behind)
    (houter : Around 1 outer)
    (hyields : ∀ outer, Around 1 outer → Layout.Yields
      { cursor := ⟨p.through lead, behind⟩, tokens := read, outer, keys } result) :
    Layout.Leads { cursor := ⟨p, lead ++ behind⟩, tokens := read, outer, keys } result := by
  have hgap := h.gap_eq keys (.inr hbehind)
  exact Layout.leads_of_gap (by rw [Layout.flow_of_around houter]; exact hgap) rfl houter hyields

/-! ### Keys and values -/

/-- A scalar and the gap behind it are read. It is no key if none may stand there. -/
theorem yields_flowScalar {s : Scalar} (hs : InlineScalar true 0 (rest ++ behind) src s)
    (hrest : FlowGap rest) (hbehind : EndsInFlow s.style behind)
    (hunmarked : Unmarked p (src ++ (rest ++ behind))) (houter : Around 1 outer)
    (hyields : ∀ key after outer, Optional key → (keys = false → key = none) → Around 1 outer →
      Layout.Yields {
        cursor := ⟨(p.through src).through rest, behind⟩, tokens := s.token :: read
        key, outer, keys := after } result) :
    Layout.Yields { cursor := ⟨p, src ++ (rest ++ behind)⟩, tokens := read, outer, keys }
      result := by
  let t : Layout := { cursor := ⟨p, src ++ (rest ++ behind)⟩, tokens := read, outer, keys }
  have hflow : t.flow = true := Layout.flow_of_around houter
  obtain ⟨key, hreach, hkey, -⟩ :=
    (Layout.optional_candidate (.inl hflow)).reaching?_eq ((p.through src).through rest)
  refine Layout.yields_inline (t := t) (hflow ▸ hs) rfl hunmarked (.inl hflow) rfl houter
    (hflow ▸ hrest.found hbehind) hreach fun after outer _ houter => ?_
  refine hyields key after outer hkey (fun hkeys => ?_) houter
  rw [Layout.candidate, if_neg (by simp [t, hkeys])] at hreach
  exact (Option.some.inj hreach).symm

/-- **A key or a value of a flow mapping is read.** -/
theorem FlowNode.leads {value : Option Scalar} (h : FlowNode behind src value)
    (hbehind : ∀ style, (∀ s ∈ value, s.style = style) → EndsInFlow style behind)
    (hunmarked : Unmarked p (src ++ behind)) (houter : Around 1 outer)
    (hyields : ∀ key after outer, Optional key → (keys = false → key = none) → Around 1 outer →
      Layout.Yields {
        cursor := ⟨p.through src, behind⟩
        tokens := value.toList.map Scalar.token ++ read
        key, outer, keys := after } result) :
    Layout.Leads { cursor := ⟨p, src ++ behind⟩, tokens := read, outer, keys } result := by
  cases h with
  | empty h =>
      exact h.leads (hbehind .plain nofun).startsToken houter fun outer houter =>
        hyields none keys outer nofun (fun _ => rfl) houter
  | scalar hlead hs hrest =>
      rw [List.append_assoc, List.append_assoc] at hunmarked ⊢
      rw [Place.through_append, Place.through_append] at hyields
      exact hlead.leads hs.startsToken houter fun outer houter =>
        yields_flowScalar hs hrest (hbehind _ (by rintro _ ⟨⟩; rfl)) hunmarked.through houter
          hyields

/-! ### Entries -/

/-- The mark of a key is read. No key without a mark may stand behind it. -/
theorem yields_flowKeyMark (hunmarked : Unmarked p ('?' :: behind)) (houter : Around 1 outer)
    (hleads : Layout.Leads {
      cursor := ⟨p.past '?', behind⟩, tokens := .key :: read, outer, keys := false } result) :
    Layout.Yields { cursor := ⟨p, '?' :: behind⟩, tokens := read, outer } result := by
  let t : Layout := { cursor := ⟨p, '?' :: behind⟩, tokens := read, outer }
  have hflow : t.flow = true := Layout.flow_of_around houter
  refine Layout.yields_keyMark (t := t) rfl hunmarked (.inl hflow) rfl rfl (.inl hflow) ?_
  rw [Layout.begun_of_flow hflow, hflow]
  exact hleads

theorem FlowEntry.startsToken {entry : Entry} (h : FlowEntry behind src entry) :
    StartsToken p (src ++ behind) := by
  cases h with
  | bare hkey => rw [List.append_assoc]; exact hkey.startsToken
  | implicit hkey => simpa using hkey.scalar.startsToken
  | explicit => exact startsToken_cons rfl rfl (by decide) rfl
  | marked => exact startsToken_cons rfl rfl (by decide) rfl

/-- **An entry of a flow mapping is read** up to the comma or the brace behind it. -/
theorem FlowEntry.yields {entry : Entry} (h : FlowEntry behind src entry)
    (hbehind : ∀ style, EndsInFlow style behind) (hunmarked : Unmarked p (src ++ behind))
    (houter : Around 1 outer)
    (hyields : ∀ key keys outer, Optional key → Around 1 outer →
      Layout.Yields {
        cursor := ⟨p.through src, behind⟩
        tokens := entry.tokens.reverse ++ read
        key, outer, keys } result) :
    Layout.Yields { cursor := ⟨p, src ++ behind⟩, tokens := read, outer, keys := true } result := by
  cases h with
  | bare hname hrest =>
      rw [List.append_assoc] at hunmarked ⊢
      rw [Place.through_append] at hyields
      exact yields_flowScalar hname hrest (hbehind _) hunmarked houter
        fun key after outer hkey _ houter => hyields key after outer hkey houter
  | @implicit src blanks name value node hname hcolon hvalue =>
      rw [show src ++ (blanks ++ ':' :: node) ++ behind =
        src ++ (blanks ++ ':' :: (node ++ behind)) by simp] at hunmarked ⊢
      let t : Layout := {
        cursor := ⟨p, src ++ (blanks ++ ':' :: (node ++ behind))⟩, tokens := read, outer }
      have ht : t.flow = true := Layout.flow_of_around houter
      refine Layout.yields_implicit (t := t) (ht ▸ hname) rfl hunmarked (.inl ht) rfl rfl
        houter (.inl ht) hcolon fun outer houter => ?_
      rw [Layout.begun_of_flow ht]
      have hmarked : Unmarked (p.through (src ++ (blanks ++ [':']))) (node ++ behind) :=
        Unmarked.through (by simpa using hunmarked)
      refine hvalue.leads (fun style _ => hbehind style) hmarked houter
        fun key after outer hkey _ houter => ?_
      simpa [Entry.tokens, toList_token_reverse, ← Place.through_append] using
        hyields key after outer hkey houter
  | @explicit src name value node hname hapart hcolon hvalue =>
      rw [show '?' :: (src ++ ':' :: node) ++ behind =
        '?' :: (src ++ ':' :: (node ++ behind)) by simp] at hunmarked ⊢
      refine yields_flowKeyMark hunmarked houter ?_
      have hends : ∀ style, (∀ s ∈ some name, s.style = style) →
          EndsInFlow style (':' :: (node ++ behind)) := fun style hstyle =>
        .inr (.inr ⟨rfl, fun hplain => hcolon ((hstyle name rfl).trans hplain)⟩)
      refine hname.leads hends (hunmarked.past rfl) houter fun key after outer _ hkey houter => ?_
      obtain rfl := hkey rfl
      -- No key is pending behind a mark, so that the colon belongs to the mark.
      let t : Layout := {
        cursor := ⟨(p.past '?').through src, ':' :: (node ++ behind)⟩
        tokens := name.token :: .key :: read, outer, keys := after }
      have ht : t.flow = true := Layout.flow_of_around houter
      refine Layout.yields_colon (t := t) rfl (hunmarked.past rfl).through (.inl ht) rfl (.inl ht)
        (.inl ht) ?_
      rw [Layout.begun_of_flow ht]
      refine hvalue.leads (fun style _ => hbehind style)
        ((hunmarked.past rfl).through.past rfl) houter fun key after outer hkey _ houter => ?_
      have hplace : p.through ('?' :: (src ++ ':' :: node)) =
          (((p.past '?').through src).past ':').through node := by
        rw [Place.through_cons_of_not_isBreak _ rfl, Place.through_append,
          Place.through_cons_of_not_isBreak _ rfl]
      rw [hplace] at hyields
      simpa [Entry.tokens, toList_token_reverse] using hyields key after outer hkey houter
  | @marked src name hname hapart =>
      refine yields_flowKeyMark hunmarked houter ?_
      refine hname.leads (fun style _ => hbehind style) (hunmarked.past rfl) houter
        fun key after outer hkey _ houter => ?_
      rw [Place.through_cons_of_not_isBreak _ rfl] at hyields
      exact hyields key after outer hkey houter

/-! ### The whole mapping -/

/-- The closing brace is read, and the rest of its line up to the end of the text. -/
theorem yields_rightBrace {key : Option PendingKey} (hrest : LineRest false true rest none)
    (hunmarked : Unmarked p ('\x7d' :: rest)) (hkey : Optional key) (houter : Around 1 outer)
    (hresult : result = read.reverse ++ [.rightBrace]) :
    Layout.Yields { cursor := ⟨p, '\x7d' :: rest⟩, tokens := read, key, outer, keys } result := by
  obtain ⟨around, rfl⟩ := List.length_eq_one_iff.mp houter.1
  let t : Layout := { cursor := ⟨p, '\x7d' :: rest⟩, tokens := read, key, outer := [around], keys }
  have hnext : t.next? = some {
      cursor := ⟨p.past '\x7d', rest⟩, tokens := .rightBrace :: read, key := around,
      keys := false } := by
    rw [Layout.next?_eq rfl (by decide) hunmarked, Layout.token?]
    show t.closeFlow? .rightBrace = _
    rw [Layout.closeFlow?, Layout.dropKey?_eq (t := t) hkey]
    rfl
  refine .of_next? (.inl rfl) hnext (Nat.lt_succ_self _) ?_
  have haround : Optional around := houter.2 around List.mem_cons_self
  obtain ⟨left, hreach, hleft, -⟩ := haround.reaching?_eq ((p.past '\x7d').through rest)
  have hend : Resumes ((p.past '\x7d').through rest) [] := .inl rfl
  obtain ⟨after, hgap, -⟩ := hrest.gap_eq false (fun _ => .inr rfl) hend fun _ => rfl
  rw [List.append_nil] at hgap
  refine Layout.leads_of_gap_block rfl hgap hreach ?_
  have hfinish := Layout.yields_finish (t := {
    cursor := ⟨(p.past '\x7d').through rest, []⟩, tokens := .rightBrace :: read, key := left,
    keys := after }) rfl rfl hleft
  simpa [hresult] using hfinish

theorem yields_comma {key : Option PendingKey} (hunmarked : Unmarked p (',' :: rest))
    (hkey : Optional key) (houter : Around 1 outer)
    (hleads : Layout.Leads {
      cursor := ⟨p.past ',', rest⟩, tokens := .comma :: read, outer, keys := true } result) :
    Layout.Yields { cursor := ⟨p, ',' :: rest⟩, tokens := read, key, outer, keys } result := by
  let t : Layout := { cursor := ⟨p, ',' :: rest⟩, tokens := read, key, outer, keys }
  have hnext : t.next? = some {
      cursor := ⟨p.past ',', rest⟩, tokens := .comma :: read, outer, keys := true } := by
    rw [Layout.next?_eq rfl (by decide) hunmarked, Layout.token?]
    show t.comma? = _
    rw [Layout.comma?, Layout.dropKey?_eq (t := t) hkey]
    rfl
  exact .of_next? (.inl (Layout.flow_of_around houter)) hnext (Nat.lt_succ_self _) hleads

/-- **The entries of a flow mapping are read**, its closing brace and the rest of the text. -/
theorem FlowEntries.leads {entries : List Entry} (h : FlowEntries src entries) :
    ∃ tokens, Braced entries tokens ∧ ∀ {p outer} (read), Unmarked p src → Around 1 outer →
      Layout.Leads { cursor := ⟨p, src⟩, tokens := read, outer, keys := true }
        (read.reverse ++ tokens) := by
  induction h with
  | @close lead rest hlead hrest =>
      refine ⟨_, .close, fun read hunmarked houter => ?_⟩
      refine hlead.leads (startsToken_cons rfl rfl (by decide) rfl) houter fun outer houter => ?_
      exact yields_rightBrace hrest hunmarked.through nofun houter rfl
  | @last lead rest src entry hlead hentry hrest =>
      refine ⟨_, .last, fun read hunmarked houter => ?_⟩
      have hbehind : ∀ style, EndsInFlow style ('\x7d' :: rest) := fun _ => .inr (.inl rfl)
      refine hlead.leads hentry.startsToken houter fun outer houter => ?_
      refine hentry.yields hbehind hunmarked.through houter fun key keys outer hkey houter => ?_
      exact yields_rightBrace hrest hunmarked.through.through hkey houter (by simp)
  | @cons lead rest src entry entries hlead hentry _ ih =>
      obtain ⟨tokens, hbraced, hleads⟩ := ih
      refine ⟨_, .cons hbraced, fun read hunmarked houter => ?_⟩
      have hbehind : ∀ style, EndsInFlow style (',' :: rest) := fun _ => .inl rfl
      refine hlead.leads hentry.startsToken houter fun outer houter => ?_
      refine hentry.yields hbehind hunmarked.through houter fun key keys outer hkey houter => ?_
      refine yields_comma hunmarked.through.through hkey houter ?_
      simpa using hleads (.comma :: (entry.tokens.reverse ++ read))
        (hunmarked.through.through.past rfl) houter

end MessageCalls.Yaml
