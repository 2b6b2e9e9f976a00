import Qstees.Model.Primitives

/-!
# Merkle roots

`sha256D64` hashes a pair.
-/

namespace Qstees

variable (sha256D64 : UInt256 → UInt256 → UInt256)

/-- The scan of a level: two hashes that are hashed together are equal. -/
def repeatsPair : List UInt256 → Bool
  | a :: b :: hashes => a == b || repeatsPair hashes
  | _ => false

/-- The level above; the last hash of an odd one is doubled. -/
def nextLevel : List UInt256 → List UInt256
  | a :: b :: hashes => sha256D64 a b :: nextLevel hashes
  | [a] => [sha256D64 a a]
  | [] => []

/-- The levels, and whether two equal hashes met. -/
def merkleLoop : Nat → List UInt256 → Bool → UInt256 × Bool
  | fuel + 1, a :: b :: hashes, mutation =>
    merkleLoop fuel (nextLevel sha256D64 (a :: b :: hashes)) (mutation || repeatsPair (a :: b :: hashes))
  | _, hashes, mutation => (hashes.headD 0, mutation)

/-- The root, with `mutated`. -/
def computeMerkleRoot (hashes : List UInt256) : UInt256 × Bool := merkleLoop sha256D64 hashes.length hashes false

/-- The part of `CheckBlock` about the root. -/
def checkMerkleRoot (hashMerkleRoot : UInt256) (vtx : List CTransaction) : Except String Unit :=
  let (hashMerkleRoot2, mutated) := computeMerkleRoot sha256D64 (vtx.map CTransaction.hash)
  if hashMerkleRoot ≠ hashMerkleRoot2 then .error "bad-txnmrklroot"
  else if mutated then .error "bad-txns-duplicate"
  else .ok ()

end Qstees
