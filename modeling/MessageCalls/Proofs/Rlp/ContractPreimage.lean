import MessageCalls.ContractAddress
import MessageCalls.Proofs.Rlp.Forms
/-!
# MessageCalls.Proofs.Rlp.ContractPreimage

What is hashed for the address of a new contract tells its creator and the creator's nonce: a reader
gives both back, and **it reads them from these bytes alone** (`readCreation?_eq_some_iff`). So two
creations are given one address only where the hash lets two different byte strings end in the same
20 bytes.
-/

namespace MessageCalls

variable {bytes : Bytes} {c : Address} {n : Nonce}

namespace Rlp

/-- A short string is written behind one byte at most. -/
theorem length_string_le {contents : Bytes} (h : contents.length ≤ 55) :
    (string contents).length ≤ contents.length + 1 := by
  cases hlow : isLowByte contents with
  | true =>
      rw [string_of_isLowByte hlow]
      exact Nat.le_succ _
  | false =>
      rw [string_of_not_isLowByte hlow, header, if_pos h]
      exact Nat.le_refl _

end Rlp

theorem length_digits_nonce_le (n : Nonce) : (Rlp.digits n.toNat).length ≤ 8 :=
  Rlp.length_digits_le n.toNat_lt

/-- What is hashed is the form of the list of the creator's bytes and the nonce's digits. -/
theorem listForm_contractPreimage (c : Address) (n : Nonce) :
    Rlp.ListForm [Address.toBytes c, Rlp.digits n.toNat] (contractPreimage c n) := by
  have hcreator := Address.length_toBytes c
  have hnonce := length_digits_nonce_le n
  refine Rlp.listForm_list ?_ ?_
  · simp only [List.mem_cons, List.not_mem_nil, or_false, forall_eq_or_imp, forall_eq]
    omega
  · have hfirst : (Rlp.string (Address.toBytes c)).length ≤ _ := Rlp.length_string_le (by omega)
    have hsecond : (Rlp.string (Rlp.digits n.toNat)).length ≤ _ := Rlp.length_string_le (by omega)
    simp only [List.map_cons, List.map_nil, List.flatten_cons, List.flatten_nil,
      List.length_append, List.length_nil]
    omega

/-- The creator and the nonce that are told by what is hashed for an address: the strings of a list
of two, the one of 20 bytes and the other a number of 64 bits without leading zeros. -/
def readCreation? (bytes : Bytes) : Option (Address × Nonce) :=
  match Rlp.readList? bytes with
  | some [creator, spelled] =>
    if creator.length = 20 ∧ spelled.head? ≠ some 0 ∧ spelled.length ≤ 8 then
      some (Address.ofBytes creator, UInt64.ofNat (Bytes.toNat spelled))
    else none
  | _ => none

theorem readCreation?_contractPreimage (c : Address) (n : Nonce) :
    readCreation? (contractPreimage c n) = some (c, n) := by
  have hnonce := Rlp.minimal_digits n.toNat
  rw [readCreation?, Rlp.readList?_eq_some_iff.mpr (listForm_contractPreimage c n)]
  dsimp only
  rw [if_pos ⟨Address.length_toBytes c, hnonce.leads, length_digits_nonce_le n⟩, hnonce.spells,
    Address.ofBytes_toBytes, UInt64.ofNat_toNat]

/-- **A creator and a nonce are read from what is hashed for them, and from nothing else.** -/
theorem readCreation?_eq_some_iff :
    readCreation? bytes = some (c, n) ↔ bytes = contractPreimage c n := by
  constructor
  · intro h
    unfold readCreation? at h
    split at h
    · next creator spelled hread =>
        split at h
        · next hgood =>
            obtain ⟨hcreator, hleads, hwidth⟩ := hgood
            obtain ⟨rfl, rfl⟩ := Prod.mk.inj (Option.some.inj h)
            have hform := (Rlp.readList?_eq_some_iff.mp hread).eq_list
            have hspelled : spelled = Rlp.digits (Bytes.toNat spelled) :=
              Rlp.Minimal.eq_digits ⟨rfl, hleads⟩
            have hnonce : Bytes.toNat spelled < 2 ^ 64 :=
              calc Bytes.toNat spelled < 256 ^ spelled.length := Bytes.toNat_lt spelled
                _ ≤ 256 ^ 8 := Nat.pow_le_pow_right (by decide) hwidth
                _ = 2 ^ 64 := rfl
            rw [contractPreimage, Address.toBytes_ofBytes hcreator, UInt64.toNat_ofNat',
              Nat.mod_eq_of_lt hnonce, Rlp.number, ← hspelled]
            exact hform
        · cases h
    · cases h
  · rintro rfl
    exact readCreation?_contractPreimage c n

/-- Two different byte strings whose hashes end in the same 20 bytes. -/
def Collide (bytes others : Bytes) : Prop :=
  bytes ≠ others ∧
    (Word.toBytes (Hash.Keccak.digest bytes)).drop 12 =
      (Word.toBytes (Hash.Keccak.digest others)).drop 12

theorem contractAddress_eq_iff {c' : Address} {n' : Nonce} :
    contractAddress c n = contractAddress c' n' ↔
      (Word.toBytes (Hash.Keccak.digest (contractPreimage c n))).drop 12 =
        (Word.toBytes (Hash.Keccak.digest (contractPreimage c' n'))).drop 12 := by
  rw [← Word.toBytes_lowAddress, ← Word.toBytes_lowAddress, Address.toBytes_inj]
  rfl

/-- **Contract addresses come from an unambiguous preimage.** It is the one form of the list of the
20 bytes of the creator and the nonce without leading zeros; it gives the creator and the nonce
back, and no other bytes do; creations with one preimage are the same; and creations that are not
the same share an address only if their preimages collide. -/
theorem unambiguous_contractPreimage (c : Address) (n : Nonce) :
    (∃ spelled, Rlp.Minimal spelled n.toNat ∧
      ∀ form, Rlp.ListForm [Address.toBytes c, spelled] form ↔ form = contractPreimage c n) ∧
    (∀ bytes, readCreation? bytes = some (c, n) ↔ bytes = contractPreimage c n) ∧
    ∀ c' n',
      (contractPreimage c n = contractPreimage c' n' ↔ c = c' ∧ n = n') ∧
      (contractAddress c n = contractAddress c' n' ↔
        c = c' ∧ n = n' ∨ Collide (contractPreimage c n) (contractPreimage c' n')) := by
  refine ⟨⟨_, Rlp.minimal_digits n.toNat, fun form => ⟨fun h => h.eq_list, fun h => ?_⟩⟩,
    fun _ => readCreation?_eq_some_iff, fun c' n' => ?_⟩
  · rw [h]
    exact listForm_contractPreimage c n
  have hpreimage : contractPreimage c n = contractPreimage c' n' ↔ c = c' ∧ n = n' := by
    rw [← readCreation?_eq_some_iff, readCreation?_contractPreimage, Option.some.injEq,
      Prod.mk.injEq]
  refine ⟨hpreimage, ?_⟩
  rw [Collide, ← contractAddress_eq_iff, ← hpreimage]
  constructor
  · intro haddress
    exact (em _).imp_right fun hother => ⟨hother, haddress⟩
  · rintro (hsame | ⟨-, haddress⟩)
    · rw [contractAddress, hsame]
      rfl
    · exact haddress

end MessageCalls
