import Pilotfish.Binary64
import Pilotfish.Base64
import Pilotfish.BigEndian
import Pilotfish.Sha256
import Pilotfish.Effect
import Pilotfish.Run
import Pilotfish.Raising
import Pilotfish.Ties
import Pilotfish.HashChain
import Pilotfish.Python
import Pilotfish.FloatArith
import Pilotfish.Dict
import Pilotfish.DateTime
import Pilotfish.Cbor
import Pilotfish.Runtime
import Pilotfish.Models
import Pilotfish.Rules
import Pilotfish.Bundle
import Pilotfish.Messages
import Pilotfish.Decide
import Pilotfish.Envelope
import Pilotfish.Epoch
import Pilotfish.BundleStore
import Pilotfish.Signer
import Pilotfish.Rollback
import Pilotfish.Governance
import Pilotfish.Updates
import Pilotfish.FloorPolicy
import Pilotfish.EvidenceOrder
import Pilotfish.FileSink
import Pilotfish.Receipts
import Pilotfish.Restarts
import Pilotfish.Dataplane
import Pilotfish.Cycle
import Pilotfish.EffectAudit
import Pilotfish.Selectors
import Pilotfish.Tamper
import Pilotfish.Narrowing
import Pilotfish.FutureEvidence
import Pilotfish.FloorStrictness
import Pilotfish.BundleFormat
import Pilotfish.Refusals
import Pilotfish.TypedRefusals
import Pilotfish.SharedMark
import Pilotfish.Turns
import Pilotfish.TurnOrder
import Pilotfish.RecordFirst
import Pilotfish.FloorAdmission
import Pilotfish.WireForm
import Pilotfish.Publication
import Pilotfish.SignatureCover
import Pilotfish.ValidityWindow
import Pilotfish.LogAdmission
import Pilotfish.Aliases
import Pilotfish.Telemetry
import Pilotfish.DegradedPolicy
import Pilotfish.Directives
import Pilotfish.DecisionLifetime
import Pilotfish.EvidenceHash
import Pilotfish.Ageing
import Pilotfish.PolicyFile
import Pilotfish.Contact
import Pilotfish.Links
import Pilotfish.Metrics
import Pilotfish.Baselines
import Pilotfish.Simulation
import Pilotfish.SameWorld
import Pilotfish.Accounting
import Pilotfish.EventTimes
import Pilotfish.Oracle
import Pilotfish.LogPrefix
import Pilotfish.Inventory
import Pilotfish.Damping
import Pilotfish.Tariff
import Pilotfish.Overage
import Pilotfish.Outcomes
import Pilotfish.GovernedRuns
import Pilotfish.Network
import Pilotfish.Convergence
import Pilotfish.FiniteArith
import Pilotfish.Availability
import Pilotfish.Scenarios
import Pilotfish.Completion
import Pilotfish.DegradedTime
import Pilotfish.CleanRuns
import Pilotfish.Headroom
import Pilotfish.Comparison
import Pilotfish.CommandLine
import Pilotfish.Flapping
