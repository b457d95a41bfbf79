import Countersign.Data.SortedSet
import Countersign.Hash.Blake3
import Countersign.Hash.Sha512
import Countersign.Signature.Ed25519
import Countersign.Identifier
import Countersign.MetaTx.Payload
import Countersign.Fault
import Countersign.Access.Registry
import Countersign.TimeLock
import Countersign.Workflow.Catalog
import Countersign.Dispatch
import Countersign.Event
import Countersign.Ledger
import Countersign.MetaTx.Verifier
import Countersign.Config
import Countersign.Governance
import Countersign.Engine.Command
import Countersign.Json.Reader
import Countersign.Json.Writer
import Countersign.Uuid
import Countersign.Wire.Config
import Countersign.Wire.Event
import Countersign.Wire.Payload
import Countersign.Wire.Registry
import Countersign.Toml.Config
import Countersign.Ledger.Command
import Countersign.Proofs.Ledger
import Countersign.Proofs.Conditions
import Countersign.Proofs.Dispatch
import Countersign.Proofs.Attempt
import Countersign.Proofs.Transition
import Countersign.Proofs.Run
import Countersign.Proofs.Frame
import Countersign.Proofs.Governance
import Countersign.Proofs.Authorization
import Countersign.Proofs.Canonical
import Countersign.Proofs.Commitment
import Countersign.Proofs.Submission
import Countersign.Proofs.Replay
import Countersign.Proofs.SignedContent
import Countersign.Proofs.Effects
import Countersign.Proofs.PeriodHistory
import Countersign.Proofs.Release
import Countersign.Proofs.TwoSteps
import Countersign.Proofs.Atomicity
import Countersign.Proofs.Conformance
import Countersign.Proofs.Access
import Countersign.Proofs.Bookkeeping
import Countersign.Proofs.Permission
import Countersign.Proofs.GrantTable
import Countersign.Proofs.Events
import Countersign.Proofs.Integrity
import Countersign.Proofs.Roles
import Countersign.Proofs.Preparation
import Countersign.Proofs.Independence
import Countersign.Proofs.Json
import Countersign.Proofs.Wire
import Countersign.Proofs.Identifier
import Countersign.Proofs.Construction
import Countersign.Proofs.Closable
import Countersign.Proofs.PeriodRequest
import Countersign.Proofs.Breach
