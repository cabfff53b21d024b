import QCoin.Consensus.Alteration
import QCoin.Consensus.ChainSeparation
import QCoin.Consensus.KeyReuse
import QCoin.Consensus.Proposal
import QCoin.Ledger.Atomicity
import QCoin.Ledger.Commutation
import QCoin.Ledger.Specification
import QCoin.Ledger.Spendability
import QCoin.Ledger.StateCommitment
import QCoin.Ledger.Supply
import QCoin.Node.Broadcast
import QCoin.Node.CatchUp
import QCoin.Node.Cluster
import QCoin.Node.Dispatch
import QCoin.Node.Gossip
import QCoin.Node.Http
import QCoin.Node.Identity
import QCoin.Node.Inclusion
import QCoin.Node.IterationOrder
import QCoin.Node.Mempool
import QCoin.Node.PanicFree
import QCoin.Node.Progress
import QCoin.Node.Provenance
import QCoin.Node.RateLimit
import QCoin.Node.Rotation
import QCoin.Node.SaveFailures
import QCoin.Node.Snapshot
import QCoin.Node.Startup
import QCoin.Node.SubmitClient
import QCoin.Node.Survival
import QCoin.Node.Sync
import QCoin.Script.Encodings
import QCoin.Script.Multisig
import QCoin.Script.Timelock
import QCoin.Support.FileSystem
