import Mathlib.Data.List.TakeDrop
import MessageCalls.Proofs.Native.Schedule
/-!
# MessageCalls.Proofs.Native.Recovery

What recovery reads, and what it answers. It reads the first 128 bytes of an input, padded with
zeros (`Native.normalized`); **every input is answered, and none is refused but for its price**. The
answer is the address of the key that signed (`Native.SignedBy`), or nothing if there is no such key
(`Native.recovers`). What a signature is and which key has made it is for the primitives to say.
-/

namespace MessageCalls.Native

variable {p : Primitives} {input padded : Bytes}

/-! ### Padded inputs -/

/-- The first 128 bytes of an input, followed by as many zeros as are missing. -/
def normalized (input : Bytes) : Bytes :=
  input.take 128 ++ List.replicate (128 - input.length) 0

@[simp] theorem length_normalized (input : Bytes) : (normalized input).length = 128 := by
  rw [normalized, List.length_append, List.length_take, List.length_replicate]
  omega

/-- A string of 128 bytes is read as it is. -/
theorem normalized_of_length (h : input.length = 128) : normalized input = input := by
  rw [normalized, List.take_of_length_le (Nat.le_of_eq h), h, Nat.sub_self, List.replicate_zero,
    List.append_nil]

theorem signedInput?_eq (input : Bytes) : signedInput? input = some (normalized input) := by
  have hknown : input.slice? 0 (min input.length 128) = some (input.take 128) := by
    rw [Bytes.slice?_of_le (Nat.zero_le _) (Nat.min_le_left _ _), List.drop_zero, Nat.sub_zero,
      Nat.min_comm, ← List.take_eq_take_min]
  have hlength : (input.take 128).length = min 128 input.length := List.length_take
  have hwritten : Bytes.overwrite? (List.replicate 128 0) 0 (input.take 128) =
      some (normalized input) := by
    rw [Bytes.overwrite?_of_le, List.take_zero, List.nil_append, List.drop_replicate, hlength,
      show 128 - (0 + min 128 input.length) = 128 - input.length by omega]
    · rfl
    · rw [List.length_replicate]
      omega
  rw [signedInput?, hknown]
  exact hwritten

/-! ### What is recovered -/

/-- The key that signed a padded input, in the view of the primitives. The word behind the message
is 27 or 28 and tells the choice among the keys that fit the signature, which fills the rest. -/
inductive SignedBy (p : Primitives) (padded : Bytes) (key : Secp256k1.PublicKey) : Prop
  | intro {v : UInt8} {signature : p.Signature} {choice : p.Choice}
      (hhigh : ∀ i, 32 ≤ i → i < 63 → padded[i]? = some 0) (hplace : padded[63]? = some v)
      (hv : v = 27 ∨ v = 28)
      (hsignature : p.signature? ((padded.drop 64).take 64) = some signature)
      (hchoice : p.choice? (v - 27) = some choice)
      (hkey : p.recover? (Word.ofBytes (padded.take 32)) signature choice = some key)

/-- Twelve zeros and the last 20 bytes of the hash of a key without its mark. -/
def signerData (p : Primitives) (key : Secp256k1.PublicKey) : Bytes :=
  List.replicate 12 0 ++ (Word.toBytes (p.keccak (key.toList.drop 1))).drop 12

/-- What is answered to a padded input: the signer, or nothing if nobody signed. -/
inductive Recovers (p : Primitives) (padded : Bytes) : Bytes → Prop
  | signed {key : Secp256k1.PublicKey} (h : SignedBy p padded key) :
      Recovers p padded (signerData p key)
  | unsigned (h : ∀ key, ¬ SignedBy p padded key) : Recovers p padded []

theorem high_eq_iff :
    (padded.drop 32).take 31 = List.replicate 31 0 ↔
      ∀ i, 32 ≤ i → i < 63 → padded[i]? = some 0 := by
  constructor
  · intro h i hfrom hto
    have hplace := congrArg (·[i - 32]?) h
    simp only [List.getElem?_take, List.getElem?_drop, List.getElem?_replicate] at hplace
    rw [if_pos (by omega), if_pos (by omega), show 32 + (i - 32) = i by omega] at hplace
    exact hplace
  · intro h
    refine List.ext_getElem? fun i => ?_
    rw [List.getElem?_take, List.getElem?_drop, List.getElem?_replicate]
    split
    · exact h _ (by omega) (by omega)
    · rfl

/-- The hash of a key is cut to the bytes of an address. -/
theorem signerData_eq (p : Primitives) (key : Secp256k1.PublicKey) :
    (do
      let coordinates ← Bytes.slice? key.toList 1 65
      Bytes.overwrite? (Word.toBytes (p.keccak coordinates)) 0 (List.replicate 12 0)) =
      some (signerData p key) := by
  have hkey : key.toList.length = 65 := Vector.length_toList
  have hcoordinates : Bytes.slice? key.toList 1 65 = some (key.toList.drop 1) := by
    rw [Bytes.slice?_of_le (by decide) (Nat.le_of_eq hkey.symm), List.take_of_length_le]
    exact Nat.le_of_eq (by rw [List.length_drop, hkey])
  rw [hcoordinates, Option.bind_eq_bind, Option.bind_some]
  refine Bytes.overwrite?_of_le ?_
  rw [List.length_replicate, Word.length_toBytes]
  decide

/-- What a key that signed fits, given the byte that tells the choice. -/
theorem SignedBy.reads {v : UInt8} {key : Secp256k1.PublicKey} (h : SignedBy p padded key)
    (hplace : padded[63]? = some v) :
    (v = 27 ∨ v = 28) ∧ ∃ signature choice,
      p.signature? ((padded.drop 64).take 64) = some signature ∧
      p.choice? (v - 27) = some choice ∧
      p.recover? (Word.ofBytes (padded.take 32)) signature choice = some key := by
  obtain ⟨-, hplace', hv, hsignature, hchoice, hkey⟩ := h
  obtain rfl := Option.some.inj (hplace.symm.trans hplace')
  exact ⟨hv, _, _, hsignature, hchoice, hkey⟩

/-- **Every input is recovered from, and no step leaves its bounds.** -/
theorem recovers (p : Primitives) (input : Bytes) :
    ∃ data, recovered? p input = some data ∧ Recovers p (normalized input) data := by
  have hlength := length_normalized input
  rw [recovered?, signedInput?_eq, Option.bind_eq_bind, Option.bind_some]
  generalize normalized input = padded at hlength
  have hhigh : padded.slice? 32 63 = some ((padded.drop 32).take 31) :=
    Bytes.slice?_of_le (by decide) (by omega)
  have hmessage : padded.slice? 0 32 = some (padded.take 32) :=
    Bytes.slice?_of_le (by decide) (by omega)
  have hnumbers : padded.slice? 64 128 = some ((padded.drop 64).take 64) :=
    Bytes.slice?_of_le (by decide) (by omega)
  obtain ⟨v, hplace⟩ : ∃ v, padded[63]? = some v := ⟨_, List.getElem?_eq_getElem (by omega)⟩
  simp only [hhigh, hmessage, hnumbers, hplace, Option.bind_eq_bind, Option.bind_some]
  split
  · next hmalformed =>
      refine ⟨[], rfl, .unsigned fun key hsigned => ?_⟩
      rcases hmalformed with hlow | hv
      · obtain ⟨hzeros, -⟩ := hsigned
        exact hlow (high_eq_iff.mpr hzeros)
      · exact hv (by simpa using (hsigned.reads hplace).1)
  next hformed =>
  obtain ⟨hzeros, hv⟩ := not_or.mp hformed
  replace hzeros := high_eq_iff.mp (not_not.mp hzeros)
  replace hv : v = 27 ∨ v = 28 := by simpa using not_not.mp hv
  have hsteps : stepsAbove? v 27 = some (v - 27) := by
    rcases hv with rfl | rfl <;> rfl
  rw [hsteps]
  cases hsignature : p.signature? ((padded.drop 64).take 64) with
  | none =>
      refine ⟨[], rfl, .unsigned fun key hsigned => ?_⟩
      obtain ⟨-, _, _, hsignature', -⟩ := hsigned.reads hplace
      cases hsignature.symm.trans hsignature'
  | some signature =>
  dsimp only [Option.bind_some]
  cases hchoice : p.choice? (v - 27) with
  | none =>
      refine ⟨[], rfl, .unsigned fun key hsigned => ?_⟩
      obtain ⟨-, _, _, -, hchoice', -⟩ := hsigned.reads hplace
      cases hchoice.symm.trans hchoice'
  | some choice =>
  dsimp only
  cases hkey : p.recover? (Word.ofBytes (padded.take 32)) signature choice with
  | none =>
      refine ⟨[], rfl, .unsigned fun key hsigned => ?_⟩
      obtain ⟨-, _, _, hsignature', hchoice', hkey'⟩ := hsigned.reads hplace
      cases hsignature.symm.trans hsignature'
      cases hchoice.symm.trans hchoice'
      cases hkey.symm.trans hkey'
  | some key =>
      exact ⟨signerData p key, signerData_eq p key,
        .signed ⟨hzeros, hplace, hv, hsignature, hchoice, hkey⟩⟩

/-! ### The answer -/

theorem output_recovery {data : Bytes} (h : recovered? p input = some data) :
    recovery.output p input = data := by
  rw [output, h, Option.getD_some]

theorem output_normalized (p : Primitives) (input : Bytes) :
    recovery.output p (normalized input) = recovery.output p input := by
  rw [output, output, recovered?, recovered?, signedInput?_eq, signedInput?_eq,
    normalized_of_length (length_normalized input)]

theorem run_recovery (p : Primitives) (input : Bytes) (limit : Nrg) :
    recovery.run p input limit =
      if limit.toNat < 3000 then .error .outOfNrg
      else .ok ⟨recovery.output p input, 3000⟩ := by
  refine (charges_run p (asks_recovery input) limit).eq ?_
  split
  · next hlow => exact .refused hlow
  · next henough => exact .answered rfl (Nat.not_lt.mp henough)

/-- Inputs that are the same once they are padded are answered alike. -/
theorem run_eq_of_normalized_eq {other : Bytes} (p : Primitives)
    (h : normalized other = normalized input) (limit : Nrg) :
    recovery.run p other limit = recovery.run p input limit := by
  rw [run_recovery, run_recovery, ← output_normalized p other, h, output_normalized]

/-- **Recovery reads a padded input and never misfires.** No step leaves its bounds; the data are
the signer of the padded input, or there are none if nobody signed it; they are given for 3000 by
every limit that allows it; and inputs that are the same once they are padded, as an input and its
padded form are, get the same answer. -/
theorem recovery_reads_padded (p : Primitives) (input : Bytes) :
    (∃ data, recovered? p input = some data ∧ Recovers p (normalized input) data ∧
      ∀ limit identity,
        (NativeSet.standardOver p).run recovery.address input limit identity =
          some (if limit.toNat < 3000 then .error .outOfNrg else .ok ⟨data, 3000⟩)) ∧
    normalized (normalized input) = normalized input ∧
    ∀ other, normalized other = normalized input → ∀ limit identity,
      (NativeSet.standardOver p).run recovery.address other limit identity =
        (NativeSet.standardOver p).run recovery.address input limit identity := by
  obtain ⟨data, hdata, hrecovers⟩ := recovers p input
  refine ⟨⟨data, hdata, hrecovers, fun limit identity => ?_⟩,
    normalized_of_length (length_normalized input), fun other hsame limit identity => ?_⟩
  · rw [run_address, run_recovery, output_recovery hdata]
  · rw [run_address, run_address, run_eq_of_normalized_eq p hsame]

/-- An input that ends inside its last field is signed, and what follows the 128 bytes of a longer
one does not count. The primitives know this one signature, with the key that it has on the
curve. -/
theorem recovery_reads_padded_signature :
    let message : Word := 0x3ee7bc5b32c116a61d9dde19d6f527257ba2b00b58d32aaeab364ca29eb51fc8
    let r := 0x6ee6f270c58ca16941332698616f6161d44da5ba9ec83e031274208f346d1a0e
    let s := 0x5d87206292beecfabbf18d040378df6a20cca86d68ec2505fc27e7c15bebc3
    let key := Secp256k1.PublicKey.ofCoordinates
      0x9ffb8dbf5fed406c2fb151f753a1e74b27ecaef81c39efd61cc4e43246146791
      0x31ee0a1de47effed584d3648dd80d7a129a500d438677addeb7291ef3f3931f9
    let p : Primitives := {
      Primitives.standard with
      keccak := fun bytes =>
        if bytes = key.toList.drop 1 then
          0x2da03965530f32754c9848186ba3f1dddbd0e50199c9885afcae2fbacb27a2b0 else 0
      recover? := fun m sig choice =>
        if m = message ∧ sig.r = r ∧ sig.s = 256 * s ∧ choice.isOdd = false ∧
          choice.isReduced = false then some key else none }
    let input := Word.toBytes message ++ bigEndian 32 27 ++ bigEndian 32 r ++ bigEndian 31 s
    let other := input ++ [0, 1, 2]
    normalized other = normalized input ∧ SignedBy p (normalized input) key ∧
      (NativeSet.standardOver p).run recovery.address input 5000 (.external 0) =
        some (.ok ⟨List.replicate 12 0 ++
          Address.toBytes 0x6ba3f1dddbd0e50199c9885afcae2fbacb27a2b0, 3000⟩) ∧
      (NativeSet.standardOver p).run recovery.address other 5000 (.external 0) =
        (NativeSet.standardOver p).run recovery.address input 5000 (.external 0) := by
  intro message r s key p input other
  have hsame : normalized other = normalized input := by decide +kernel
  have hsigned : SignedBy p (normalized input) key := by
    let signature : Secp256k1.Signature := ⟨r, 256 * s⟩
    let choice : Secp256k1.PointChoice := ⟨false, false⟩
    have hplace : (normalized input)[63]? = some 27 := by decide +kernel
    have hmessage : Word.ofBytes ((normalized input).take 32) = message := by decide +kernel
    have hnumbers : ((normalized input).drop 64).take 64 =
        bigEndian 32 r ++ bigEndian 32 (256 * s) := by decide +kernel
    have hsignature : p.signature? (((normalized input).drop 64).take 64) = some signature := by
      rw [hnumbers]
      dsimp only [p, Primitives.standard]
      exact Secp256k1.Signature.ofBytes?_append (by decide +kernel) (by decide +kernel)
    have hchoice : p.choice? (27 - 27) = some choice := rfl
    have hkey : p.recover? (Word.ofBytes ((normalized input).take 32)) signature choice =
        some key := by
      rw [hmessage]
      dsimp only [p]
      exact if_pos ⟨rfl, rfl, rfl, rfl, rfl⟩
    exact ⟨high_eq_iff.mp (by decide +kernel), hplace, .inl rfl, hsignature, hchoice, hkey⟩
  obtain ⟨⟨data, -, hrecovers, hrun⟩, -, halike⟩ := recovery_reads_padded p input
  refine ⟨hsame, hsigned, ?_, halike other hsame 5000 (.external 0)⟩
  cases hrecovers with
  | unsigned hnone => exact absurd hsigned (hnone key)
  | @signed key' hsigned' =>
      obtain rfl : key' = key := by
        obtain ⟨-, -, -, -, -, hkey⟩ := hsigned'
        dsimp only [p] at hkey
        split at hkey
        · exact (Option.some.inj hkey).symm
        · cases hkey
      rw [hrun]
      have hdata : signerData p key = List.replicate 12 0 ++
          Address.toBytes 0x6ba3f1dddbd0e50199c9885afcae2fbacb27a2b0 := by decide +kernel
      rw [hdata]
      rfl

end MessageCalls.Native
