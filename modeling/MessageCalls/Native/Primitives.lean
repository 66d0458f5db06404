import MessageCalls.Hash.Keccak
import MessageCalls.Hash.Ripemd160
import MessageCalls.Hash.Sha256
import MessageCalls.Secp256k1
/-!
# MessageCalls.Native.Primitives

What the standard native contracts are built on: three hash functions, and a scheme of signatures
from which the key of the signer can be recovered. The contracts are written for any such
primitives, and what is proved of them holds for any; `Primitives.standard` are those of the
machine.
-/

namespace MessageCalls

/-- Hash functions with digests of fixed widths, and a scheme of signatures. -/
structure Primitives where
  sha256 : Bytes → Word
  ripemd160 : Bytes → Address
  keccak : Bytes → Word
  Signature : Type
  /-- What tells which of the keys that fit a signature is meant. -/
  Choice : Type
  /-- The signature that bytes spell. -/
  signature? : Bytes → Option Signature
  choice? : UInt8 → Option Choice
  /-- The key that signed a message, with a mark in front. -/
  recover? : Word → Signature → Choice → Option Secp256k1.PublicKey

/-- SHA-256, RIPEMD-160, Keccak-256, and signatures on the curve secp256k1. -/
def Primitives.standard : Primitives where
  sha256 := Hash.Sha256.digest
  ripemd160 := Hash.Ripemd160.digest
  keccak := Hash.Keccak.digest
  Signature := Secp256k1.Signature
  Choice := Secp256k1.PointChoice
  signature? := Secp256k1.Signature.ofBytes?
  choice? := Secp256k1.PointChoice.ofByte?
  recover? := Secp256k1.recover?

end MessageCalls
