import ZwaProtocol.Library.ByteStrings
import ZwaProtocol.Library.AsciiText
import ZwaProtocol.Library.DecimalText
import ZwaProtocol.Library.PaddedNumerals
import ZwaProtocol.Library.PrattCertificate
import ZwaProtocol.Library.Machine
import ZwaProtocol.Library.Words
import ZwaProtocol.Library.SelfDelimiting
import ZwaProtocol.Library.HashStaging
import ZwaProtocol.Library.HashChain
import ZwaProtocol.Library.MerkleTree
import ZwaProtocol.Library.MerkleRoots
import ZwaProtocol.Library.ConstraintSystem
import ZwaProtocol.Library.BitDecomposition
import ZwaProtocol.Protocol.Lifecycle
import ZwaProtocol.Protocol.Error
import ZwaProtocol.Protocol.FieldLimbs
import ZwaProtocol.Protocol.Field
import ZwaProtocol.Protocol.ScalarField
import ZwaProtocol.Protocol.Values
import ZwaProtocol.Protocol.FieldText
import ZwaProtocol.Protocol.Bytes
import ZwaProtocol.Protocol.Envelope
import ZwaProtocol.Protocol.Intent
import ZwaProtocol.Protocol.Replay
import ZwaProtocol.Protocol.FieldOrder
import ZwaProtocol.Protocol.TransitionTable
import ZwaProtocol.Protocol.ReplayRun
import ZwaProtocol.Protocol.TradeHistory
import ZwaProtocol.Protocol.ConstructionLock
import ZwaProtocol.Protocol.Reconciliation
import ZwaProtocol.Protocol.Settlement
import ZwaProtocol.Protocol.ExpiryContract
import ZwaProtocol.Protocol.RecordInvariant
import ZwaProtocol.Protocol.Independence
import ZwaProtocol.Protocol.LifecycleBudget
import ZwaProtocol.Protocol.Terminal
import ZwaProtocol.Protocol.Atomicity
import ZwaProtocol.Protocol.DeadEnds
import ZwaProtocol.Protocol.LifecycleWords
import ZwaProtocol.Protocol.SettlementActive
import ZwaProtocol.Protocol.Reachability
import ZwaProtocol.Protocol.TradeLifetime
import ZwaProtocol.Protocol.ClockedWords
import ZwaProtocol.Protocol.Deadlines
import ZwaProtocol.Commitments.Limbs
import ZwaProtocol.Commitments.Trade
import ZwaProtocol.Commitments.CanonicalBytes
import ZwaProtocol.Commitments.TradeBinding
import ZwaProtocol.Commitments.IntentReplay
import ZwaProtocol.Circuits.ZkOrigin
import ZwaProtocol.Commitments.TradeRange
import ZwaProtocol.Credentials.Values
import ZwaProtocol.Credentials.Envelope
import ZwaProtocol.Credentials.Credential
import ZwaProtocol.Credentials.CredentialBinding
import ZwaProtocol.Credentials.LeafBinding
import ZwaProtocol.Credentials.DomainSeparation
import ZwaProtocol.Credentials.RawByteCommitments
import ZwaProtocol.Credentials.RootFreshness
import ZwaProtocol.Circuits.Common
import ZwaProtocol.Circuits.Provenance
import ZwaProtocol.Circuits.Eligibility
import ZwaProtocol.Circuits.EligibilityStatement
import ZwaProtocol.Circuits.ExpiryComparison
import ZwaProtocol.Circuits.Splicing
import ZwaProtocol.Circuits.SharedEngine
import ZwaProtocol.Circuits.SharedEligibility
import ZwaProtocol.Circuits.EngineTree
import ZwaProtocol.Circuits.TreeMembership
import ZwaProtocol.Circuits.ApprovedReceiver
import ZwaProtocol.Circuits.EngineHex
import ZwaProtocol.Circuits.HexForms
import ZwaProtocol.Circuits.EngineAgreement
import ZwaProtocol.Circuits.SchemaRanges
import ZwaProtocol.Circuits.ProvenanceStatement
import ZwaProtocol.Circuits.EngineLimbs
import ZwaProtocol.Circuits.EngineAcceptance
import ZwaProtocol.Circuits.EngineBinding
import ZwaProtocol.Circuits.EngineRoots
import ZwaProtocol.Circuits.Registry
import ZwaProtocol.Circuits.Compliance
import ZwaProtocol.Circuits.SignedRegistry
import ZwaProtocol.Circuits.FixtureGenerator
import ZwaProtocol.Circuits.FixtureEvidence
import ZwaProtocol.Circuits.LegacyLeaves
import ZwaProtocol.Circuits.Validators
