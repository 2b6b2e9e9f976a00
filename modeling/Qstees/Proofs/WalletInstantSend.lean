import Qstees.Proofs.CreateTransaction
import Qstees.Proofs.Interest
import Qstees.Proofs.LockRequests
import Qstees.Proofs.TermDeposit

/-!
# InstantSend payments of the wallet

`CTxLockRequest::IsValid` values the inputs at their nominal values, and asks five confirmations of each. What
`CreateTransaction` returns passes the other checks by construction; it lists its coins without the filter that
`AvailableCoins` has for such payments.
-/

namespace Qstees.Proofs

open CWallet List CTxLockRequest

/-- Unspent coins have values, and no set of them exceeds the supply. -/
structure SoundCoins (ctx : WalletContext) : Prop where
  nonneg : ∀ (o : COutPoint) (coin : Coin), ctx.getUTXOCoin o = some coin → 0 ≤ coin.out.nValue
  total : ∀ (os : List COutPoint) (coins : List Coin), os.Nodup →
    List.Forall₂ (fun o coin => ctx.getUTXOCoin o = some coin) os coins →
      (coins.map fun coin => coin.out.nValue).sum ≤ MAX_MONEY

lemma SoundCoins.range {ctx : WalletContext} (h : SoundCoins ctx) {o : COutPoint} {coin : Coin}
    (hcoin : ctx.getUTXOCoin o = some coin) : 0 ≤ coin.out.nValue ∧ coin.out.nValue ≤ MAX_MONEY :=
  ⟨h.nonneg o coin hcoin, by simpa using h.total [o] [coin] (nodup_singleton o) (.cons hcoin .nil)⟩

section Locking

variable {E : WalletEnv} {ctx : WalletContext} {fees : FeeContext} {rand : Randomness} {wallet : CWallet}
    {args : CreateArgs}

section Spent

variable {r : Created} {coins : List CInputCoin} {nValueIn : Int} {utxos : List Coin}

end Spent

end Locking

end Qstees.Proofs
