import MessageCalls.Hash.Keccak
import MessageCalls.Rlp
/-!
# MessageCalls.ContractAddress

Where a new contract lives: the last 20 bytes of the Keccak-256 hash of the pair of its creator's
address and nonce.
-/

namespace MessageCalls

/-- What is hashed for the address of the contract that `caller` creates with a nonce: the
recursive length form of the pair. -/
def contractPreimage (caller : Address) (nonce : Nonce) : Bytes :=
  Rlp.list [Rlp.string (Address.toBytes caller), Rlp.number nonce.toNat]

/-- The address of the contract that `caller` creates with a nonce. -/
def contractAddress (caller : Address) (nonce : Nonce) : Address :=
  Word.lowAddress (Hash.Keccak.digest (contractPreimage caller nonce))

end MessageCalls
