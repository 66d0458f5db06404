import MessageCalls.Json.Records
import MessageCalls.Proofs.Json.Digits
import MessageCalls.Proofs.Json.Text
/-!
# MessageCalls.Proofs.Json.RoundTrip

Every value survives its text. A codec is lossless if it writes documents that a reader gives back,
and reads from each the value that was written (`Codec.Lossless`); **codecs made of lossless ones
are lossless**, so the proofs follow the shapes of the records: numbers, texts, hexadecimal
quantities, lists, values that may be missing, maps, enumerations and named fields.

`Codec.roundTrips_records` says it of every record that has a JSON form.
-/

namespace MessageCalls

/-- Items read one by one, each from what was written for it. -/
theorem mapM_map_eq_some {α β γ : Type} {write : α → β} {read? : β → Option γ} {value : α → γ}
    {xs : List α} (h : ∀ x ∈ xs, read? (write x) = some (value x)) :
    (xs.map write).mapM read? = some (xs.map value) := by
  induction xs with
  | nil => rfl
  | cons x xs ih =>
      have hrest := ih fun y hy => h y (List.mem_cons_of_mem _ hy)
      simp [h x (by simp), hrest]

namespace Json

/-! ### Named fields -/

/-- Every name finds its own field. -/
theorem filter_eq_singleton {fields : List (String × Json)}
    (hnodup : (fields.map Prod.fst).Nodup) {name : String} {doc : Json}
    (hmem : (name, doc) ∈ fields) :
    (fields.map fun f => (some f.1, f.2)).filter (fun f => f.1 = some name) =
      [(some name, doc)] := by
  induction fields with
  | nil => cases hmem
  | cons field fields ih =>
      rw [List.map_cons, List.nodup_cons] at hnodup
      rcases List.mem_cons.mp hmem with rfl | hrest
      · have hnone : ∀ f ∈ fields, f.1 ≠ name := fun f hf hname =>
          hnodup.1 (List.mem_map.mpr ⟨f, hf, hname⟩)
        rw [List.map_cons, List.filter_cons_of_pos (by simp), List.cons.injEq]
        refine ⟨rfl, List.filter_eq_nil_iff.mpr fun f hf => ?_⟩
        obtain ⟨other, hother, rfl⟩ := List.mem_map.mp hf
        simpa using hnone other hother
      · have hne : field.1 ≠ name := fun hname =>
          hnodup.1 (List.mem_map.mpr ⟨(name, doc), hrest, hname.symm⟩)
        simpa [hne] using ih hnodup.2 hrest

/-- The documents of a record are found by the names of its fields. -/
theorem fields?_record {fields : List (String × Json)} (hnodup : (fields.map Prod.fst).Nodup)
    (short : Bool) :
    fields? (fields.map Prod.fst) short (.record fields) =
      some (fields.map fun f => some f.2) := by
  have hall : (fields.map fun f => (some f.1, f.2)).all (fun f => f.1.isSome) = true := by simp
  rw [record, fields?, if_pos hall]
  refine mapM_map_eq_some fun f hf => ?_
  rw [filter_eq_singleton hnodup hf]

end Json

namespace Codec

/-- What a codec writes is read back as the value it was written for. -/
structure Lossless {α : Type} (c : Codec α) : Prop where
  /-- Only documents are written that a reader gives back. -/
  writable : ∀ value, (c.write value).Writable
  reads : ∀ value, c.read? (c.write value) = some value

variable {α : Type} {c : Codec α}

theorem Lossless.decode?_encode (h : c.Lossless) (value : α) :
    c.decode? (c.encode value) = some value := by
  rw [decode?, encode, Json.parse?_compact (h.writable value), Option.bind_some, h.reads]

/-! ### Numbers, truth values and texts -/

theorem lossless_uint64 : uint64.Lossless where
  writable _ := .natural _
  reads n := by simp [uint64, below, n.toNat_lt]

theorem lossless_byte : byte.Lossless where
  writable _ := .natural _
  reads n := by simp [byte, below, n.toNat_lt]

theorem lossless_flag : flag.Lossless := ⟨fun b => .bool b, fun _ => rfl⟩

theorem lossless_text : text.Lossless := ⟨fun s => .text s, fun _ => rfl⟩

theorem lossless_address : address.Lossless where
  writable _ := .text _
  reads a := by
    have hread := exactly?_hex a.length_toBytes
    simp [address, Json.text, Address.text, hread]

theorem lossless_word : word.Lossless where
  writable _ := .text _
  reads w := by
    have hread := exactly?_hex w.length_toBytes
    simp [word, Json.text, Word.text, wordOfText?, hread]

theorem lossless_amount : amount.Lossless where
  writable _ := .text _
  reads v := by
    have hlength : (Nat.toDigits 16 v.toNat).length ≤ 64 :=
      (Nat.length_toDigits_le_iff (by decide) (by decide)).mpr v.isLt
    obtain ⟨bytes, hbytes, hvalue⟩ := Option.map_eq_some_iff.mp (hexBytes?_toDigits v.toNat)
    change (do
      guard (hexPart _ ≠ [] ∧ (hexPart _).length ≤ 64)
      return BitVec.ofNat 256 (← hexBytes? (hexPart _)).toNat) = some v
    rw [hexPart_mark, (Option.guard_eq_some' ()).mpr ⟨Nat.toDigits_ne_nil, hlength⟩, hbytes]
    simp [hvalue]

/-! ### Lists, missing values and maps -/

theorem lossless_list (h : c.Lossless) : (list c).Lossless where
  writable items := .array fun item hitem => by
    obtain ⟨x, -, rfl⟩ := List.mem_map.mp hitem
    exact h.writable x
  reads items := by
    show (items.map c.write).mapM c.read? = some items
    rw [mapM_map_eq_some fun x _ => h.reads x, List.map_id']

theorem lossless_bytes : bytes.Lossless := lossless_list lossless_byte

/-- A value that may be missing is told from a missing one if it is never written as such. -/
theorem lossless_option (h : c.Lossless) (hnull : ∀ value, c.write value ≠ .null) :
    (option c).Lossless where
  writable
    | some value => h.writable value
    | none => .null
  reads
    | some value => by
        have hread : (option c).read? (c.write value) = (c.read? (c.write value)).map some := by
          cases hdoc : c.write value with
          | null => exact absurd hdoc (hnull value)
          | _ => rfl
        exact hread.trans (by rw [h.reads]; rfl)
    | none => rfl

theorem foldl_insert_toList (s : Storage) :
    s.toList.foldl (fun m slot => m.insert slot.1 slot.2) ∅ = s := by
  have hmany : ∀ (slots : List (Word × Word)) (m : Storage),
      slots.foldl (fun m slot => m.insert slot.1 slot.2) m = m.insertMany slots := by
    intro slots
    induction slots with
    | nil => intro m; rw [Std.ExtTreeMap.insertMany_nil]; rfl
    | cons slot slots ih => intro m; rw [List.foldl_cons, ih, Std.ExtTreeMap.insertMany_cons]
  rw [hmany]
  refine Std.ExtTreeMap.ext_getElem? fun key => ?_
  cases hkey : s[key]? with
  | some value =>
      exact Std.ExtTreeMap.getElem?_insertMany_list_of_mem Std.ReflCmp.compare_self
        Std.ExtTreeMap.distinct_keys_toList
        (Std.ExtTreeMap.mem_toList_iff_getElem?_eq_some.mpr hkey)
  | none =>
      rw [Std.ExtTreeMap.getElem?_insertMany_list_of_contains_eq_false]
      · simp
      · rw [Bool.eq_false_iff, ne_eq, List.contains_iff_mem, List.mem_map]
        rintro ⟨⟨k, value⟩, hmem, rfl⟩
        rw [Std.ExtTreeMap.mem_toList_iff_getElem?_eq_some] at hmem
        simp [hmem] at hkey

/-- A slot is read from a field of an object. -/
def insertSlot (s : Storage) (field : Option String × Json) : Option Storage := do
  return s.insert (← wordOfText? (← field.1)) (← word.read? field.2)

theorem insertSlot_written (s : Storage) (slot : Word × Word) :
    insertSlot s (some (Word.text slot.1), word.write slot.2) = some (s.insert slot.1 slot.2) := by
  have hkey : wordOfText? (Word.text slot.1) = some slot.1 := lossless_word.reads slot.1
  simp [insertSlot, hkey, lossless_word.reads]

theorem foldlM_insertSlot (slots : List (Word × Word)) (s : Storage) :
    (slots.map fun slot => (some (Word.text slot.1), word.write slot.2)).foldlM insertSlot s =
      some (slots.foldl (fun m slot => m.insert slot.1 slot.2) s) := by
  induction slots generalizing s with
  | nil => rfl
  | cons slot slots ih =>
      rw [List.map_cons, List.foldlM_cons, insertSlot_written]
      exact ih _

theorem lossless_storage : storage.Lossless where
  writable s := .record fun f hf => by
    obtain ⟨slot, -, rfl⟩ := List.mem_map.mp hf
    exact lossless_word.writable slot.2
  reads s := by
    have hread := foldlM_insertSlot s.toList ∅
    rw [foldl_insert_toList] at hread
    show (List.map _ (s.toList.map _)).foldlM insertSlot ∅ = some s
    rw [List.map_map]
    exact hread

/-! ### Records -/

/-- A record is lossless if the documents of its fields are. -/
theorem lossless_record {names : List String} {short : Bool} {fields : α → List (String × Json)}
    {build : List (Option Json) → Option α}
    (hwrite : ∀ value, c.write value = .record (fields value))
    (hread : ∀ j, c.read? j = Json.fields? names short j >>= build)
    (hnames : ∀ value, (fields value).map Prod.fst = names) (hnodup : names.Nodup)
    (hwritable : ∀ value, ∀ f ∈ fields value, f.2.Writable)
    (hbuild : ∀ value, build ((fields value).map fun f => some f.2) = some value) :
    c.Lossless where
  writable value := by
    rw [hwrite]
    exact .record (hwritable value)
  reads value := by
    have hfields := Json.fields?_record ((hnames value).symm ▸ hnodup) short
    rw [hnames] at hfields
    rw [hwrite, hread, hfields]
    exact hbuild value

theorem lossless_identity : identity.Lossless :=
  lossless_record (fun _ => rfl) (fun _ => rfl) (fun _ => rfl) (by decide)
    (by simp [lossless_address.writable, lossless_amount.writable])
    (by simp [lossless_address.reads, lossless_amount.reads])

theorem lossless_budget : budget.Lossless :=
  lossless_record (fun _ => rfl) (fun _ => rfl) (fun _ => rfl) (by decide)
    (by simp [lossless_uint64.writable, lossless_amount.writable])
    (by simp [lossless_uint64.reads, lossless_amount.reads])

theorem lossless_log : log.Lossless :=
  lossless_record (fun _ => rfl) (fun _ => rfl) (fun _ => rfl) (by decide)
    (by simp [lossless_address.writable, (lossless_list lossless_word).writable,
      lossless_bytes.writable])
    (by simp [lossless_address.reads, (lossless_list lossless_word).reads, lossless_bytes.reads])

theorem lossless_chainFacts : chainFacts.Lossless :=
  lossless_record (fun _ => rfl) (fun _ => rfl) (fun _ => rfl) (by decide)
    (by simp [lossless_address.writable, lossless_amount.writable])
    (by simp [lossless_address.reads, lossless_amount.reads])

theorem lossless_accountBasics : accountBasics.Lossless :=
  lossless_record (fun _ => rfl) (fun _ => rfl) (fun _ => rfl) (by decide)
    (by simp [lossless_uint64.writable, lossless_amount.writable])
    (by simp [lossless_uint64.reads, lossless_amount.reads])

theorem lossless_account : account.Lossless :=
  lossless_record (fun _ => rfl) (fun _ => rfl) (fun _ => rfl) (by decide)
    (by simp [lossless_uint64.writable, lossless_amount.writable, lossless_storage.writable,
      lossless_bytes.writable])
    (by simp [lossless_uint64.reads, lossless_amount.reads, lossless_storage.reads,
      lossless_bytes.reads])

/-- A number is told from a missing one. -/
theorem lossless_limit : (option uint64).Lossless :=
  lossless_option lossless_uint64 fun _ hnull => by cases hnull

theorem lossless_config : config.Lossless :=
  lossless_record (fun _ => rfl) (fun _ => rfl) (fun _ => rfl) (by decide)
    (by simp [lossless_uint64.writable, lossless_flag.writable, lossless_limit.writable])
    (by simp [readOr, lossless_uint64.reads, lossless_flag.reads, lossless_limit.reads])

/-! ### Enumerations -/

/-- A value of an enumeration that carries something. -/
theorem writable_tagged (tag : String) {carried : Json} (h : carried.Writable) :
    (Json.record [(tag, carried)]).Writable :=
  .record (by simpa using h)

theorem lossless_halt : halt.Lossless where
  writable h := by
    cases h with
    | other message => exact writable_tagged "Other" (lossless_text.writable message)
    | _ => exact .text _
  reads h := by
    cases h with
    | other message => rfl
    | _ => decide

theorem lossless_abort : abort.Lossless where
  writable a := by
    cases a with
    | other message => exact writable_tagged "Other" (lossless_text.writable message)
    | _ => exact .text _
  reads a := by
    cases a with
    | other message => rfl
    | _ => decide

theorem lossless_callKind : callKind.Lossless where
  writable k := .text _
  reads k := by cases k <;> decide

theorem lossless_exit : exit.Lossless where
  writable e := by
    cases e with
    | stopped => exact writable_tagged "Succeed" (.text "Stopped")
    | returned => exact writable_tagged "Succeed" (.text "Returned")
    | reverted => exact writable_tagged "Revert" (.text "Reverted")
    | halted cause => exact writable_tagged "Error" (lossless_halt.writable cause)
    | aborted cause => exact writable_tagged "Fatal" (lossless_abort.writable cause)
  reads e := by
    cases e with
    | halted cause =>
        show (halt.read? (halt.write cause)).map Exit.halted = some (.halted cause)
        rw [lossless_halt.reads]
        rfl
    | aborted cause =>
        show (abort.read? (abort.write cause)).map Exit.aborted = some (.aborted cause)
        rw [lossless_abort.reads]
        rfl
    | _ => decide

theorem lossless_failure : failure.Lossless where
  writable f := by
    cases f with
    | reverted data => exact writable_tagged "ExecutionReverted" (lossless_bytes.writable data)
    | halted cause => exact writable_tagged "Error" (lossless_halt.writable cause)
    | aborted cause => exact writable_tagged "Fatal" (lossless_abort.writable cause)
  reads f := by
    cases f with
    | reverted data =>
        show (bytes.read? (bytes.write data)).map Failure.reverted = some (.reverted data)
        rw [lossless_bytes.reads]
        rfl
    | halted cause =>
        show (halt.read? (halt.write cause)).map Failure.halted = some (.halted cause)
        rw [lossless_halt.reads]
        rfl
    | aborted cause =>
        show (abort.read? (abort.write cause)).map Failure.aborted = some (.aborted cause)
        rw [lossless_abort.reads]
        rfl

/-- A halt is told from a missing one. -/
theorem lossless_step_halt : (option halt).Lossless :=
  lossless_option lossless_halt fun h hnull => by cases h <;> cases hnull

theorem lossless_stepLog : stepLog.Lossless :=
  lossless_record (fun _ => rfl) (fun _ => rfl) (fun _ => rfl) (by decide)
    (by simp [lossless_uint64.writable, lossless_byte.writable,
      (lossless_list lossless_amount).writable, lossless_bytes.writable, lossless_storage.writable,
      lossless_step_halt.writable])
    (by simp [lossless_uint64.reads, lossless_byte.reads, (lossless_list lossless_amount).reads,
      lossless_bytes.reads, lossless_storage.reads, lossless_step_halt.reads])

/-! ### Texts -/

/-- Values survive being written and read. -/
structure RoundTrips (c : Codec α) : Prop where
  /-- The text of a value is read, and as that value. -/
  decodes : ∀ value, c.decode? (c.encode value) = some value
  /-- Whatever text a value is read from, its own text is read as the same value, and written for
  what is read is the same text. -/
  settles : ∀ text value, c.decode? text = some value →
    c.decode? (c.encode value) = some value ∧
      (c.decode? (c.encode value)).map c.encode = some (c.encode value)

theorem Lossless.roundTrips (h : c.Lossless) : c.RoundTrips where
  decodes := h.decode?_encode
  settles _ value _ := by
    rw [h.decode?_encode]
    exact ⟨rfl, rfl⟩

/-- **Every record that has a JSON form survives its text.** -/
theorem roundTrips_records :
    config.RoundTrips ∧ chainFacts.RoundTrips ∧ identity.RoundTrips ∧ budget.RoundTrips ∧
      callKind.RoundTrips ∧ log.RoundTrips ∧ stepLog.RoundTrips ∧ exit.RoundTrips ∧
      halt.RoundTrips ∧ abort.RoundTrips ∧ failure.RoundTrips ∧ accountBasics.RoundTrips ∧
      account.RoundTrips :=
  ⟨lossless_config.roundTrips, lossless_chainFacts.roundTrips, lossless_identity.roundTrips,
    lossless_budget.roundTrips, lossless_callKind.roundTrips, lossless_log.roundTrips,
    lossless_stepLog.roundTrips, lossless_exit.roundTrips, lossless_halt.roundTrips,
    lossless_abort.roundTrips, lossless_failure.roundTrips, lossless_accountBasics.roundTrips,
    lossless_account.roundTrips⟩

end Codec

end MessageCalls
