import Ade.Proof.Wal.Replay
import Ade.Proof.Wal.Recovery
import Ade.Proof.ChainDb.Store
import Ade.Proof.Rollback.Materialize
import Ade.Proof.Consensus.ForkChoice
import Ade.Proof.Ledger.CoinConservation
import Ade.Proof.Receive.Reducer
import Ade.Proof.Codec.Skip
import Ade.Proof.Codec.NativeScript
import Ade.Proof.Ledger.EpochBoundary
import Ade.Proof.Ledger.PoolLifecycle
import Ade.Proof.Ledger.FingerprintCache
import Ade.Proof.Ledger.GovCert
import Ade.Proof.Ledger.RecordTerminals
import Ade.Proof.Ledger.GovernanceRun
import Ade.Proof.Ledger.TxEffect
import Ade.Proof.Consensus.OpCert
import Ade.Proof.Consensus.HeaderRuns
import Ade.Proof.Consensus.Nonce
import Ade.Proof.Consensus.TimingAnchor
import Ade.Proof.Consensus.EraExtension
import Ade.Proof.Codec.NativeScriptItems
import Ade.Proof.Ledger.EpochAccumulator
import Ade.Proof.Network.Reassembly
import Ade.Proof.Network.Responders
import Ade.Proof.Network.Messages
import Ade.Proof.Network.ServedChain
import Ade.Proof.Consensus.KesWindow
import Ade.Proof.Ledger.Abstention
import Ade.Proof.Wal.Delimited
import Ade.Proof.Codec.Pointer
import Ade.Proof.Codec.Governance
import Ade.Proof.Network.BlockFetch
import Ade.Proof.Ledger.ParamUpdate
import Ade.Proof.Codec.ConwayWire
import Ade.Proof.Consensus.VrfLeader
import Ade.Proof.Wal.Checksum
import Ade.Proof.Crypto.KesSum
import Ade.Proof.Ledger.Value
import Ade.Proof.Ledger.Scripts
import Ade.Proof.Ledger.RequiredSigners
import Ade.Proof.Ledger.ScriptWitnesses
import Ade.Proof.Ledger.FrozenLeadership
import Ade.Proof.Ledger.VoteCapture
import Ade.Proof.Ledger.ProposalDeposits
import Ade.Proof.Ledger.RewardBuffers
import Ade.Proof.BlockValidity.ForwardSync
import Ade.Proof.Ledger.Mempool
import Ade.Proof.Participant.Runs
import Ade.Library.Conversation
import Ade.Network.LocalMessages
import Ade.Network.Conversations
import Ade.Proof.Network.LocalMessages
import Ade.Proof.Network.Conversations
import Ade.Participant.Loop
import Ade.Proof.Participant.Loop
import Ade.Participant.Feed
import Ade.Proof.Participant.Feed
