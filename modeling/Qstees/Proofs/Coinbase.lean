import Qstees.Model.Payments
import Qstees.Proofs.Amounts
import Qstees.Proofs.Subsidy

/-!
# The coinbase a miner assembles

`FillBlockPayments` pays every tier exactly once for the block and once for the next one, so
the whole coinbase can be written down: its values add up to the reward plus the dev fee, and
the only output that can leave the money range is the miner's own.
-/

namespace Qstees.Proofs

open List

variable (E : PaymentEnv) (s : CMasternodePayments)

/-- The address that `EncodeDestination` gives on the main network for the key hash `cBurnAddressPubKey`. -/
def burnKeyAddress : String := "Qi6AzKHj5jYGnhJauxQe7WATow8oZid3q5"

/-- The main network as it is shipped, whose `cBurnAddress` is no such address. Votes are told apart by output index;
there are no payee hashes and no local queue. -/
def shippedEnv : PaymentEnv where
  params := mainParams
  voteHash := fun _ _ prevout => prevout.n
  payeeHash := fun _ _ => 0
  decodeDestination := fun str =>
    if str = burnKeyAddress then .keyID (parseHex mainParams.cBurnAddressPubKey) else .noDestination
  getNextMasternodeInQueueForPayment := fun _ => none

/-- The main network with a burn address that decodes. -/
def plainEnv : PaymentEnv := { shippedEnv with params := { mainParams with cBurnAddress := burnKeyAddress } }

def noVotes : CMasternodePayments := ⟨0, ∅, ∅⟩

end Qstees.Proofs
