import Qstees.Proofs.BestChain
import Qstees.Proofs.BurnTiers
import Qstees.Proofs.BurnedCoins
import Qstees.Proofs.ChainWork
import Qstees.Proofs.CheckQueue
import Qstees.Proofs.TxFormat
import Qstees.Proofs.CoinbaseChecks
import Qstees.Proofs.CoinsRefinement
import Qstees.Proofs.CompactForm
import Qstees.Proofs.CrashRecovery
import Qstees.Proofs.DestinationScripts
import Qstees.Proofs.LockArrival
import Qstees.Proofs.LockSafety
import Qstees.Proofs.Lwma
import Qstees.Proofs.Merkle
import Qstees.Proofs.Metadata
import Qstees.Proofs.NextBlockFee
import Qstees.Proofs.NoInflation
import Qstees.Proofs.NodeTimes
import Qstees.Proofs.PayeeElection
import Qstees.Proofs.ReorgDepth
import Qstees.Proofs.Restart
import Qstees.Proofs.RemovedNodes
import Qstees.Proofs.Sporks
import Qstees.Proofs.TierPayments
import Qstees.Proofs.UndoBlock
import Qstees.Proofs.VoteMaps
import Qstees.Proofs.VoteScans
import Qstees.Proofs.VoteSignatures
import Qstees.Proofs.VoteStrings
import Qstees.Proofs.VoteTally
import Qstees.Proofs.WalletDeposits
import Qstees.Proofs.WalletInstantSend
import Qstees.Model.PaymentQueue
import Qstees.Proofs.PaymentQueue
