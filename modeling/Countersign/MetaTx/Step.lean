import Countersign.Identifier
import Countersign.Transaction

/-!
# Steps of the meta-transaction track

A `MetaStep` is one of the three ways to use a payload. Each has the action of the signer and the
action of the relayer, who submits it as a `Relay`.
-/

namespace Countersign.MetaTx

/-- A use of a payload. -/
inductive MetaStep where
  | requestAndApprove
  | approve
  | cancel
  deriving DecidableEq, Repr

namespace MetaStep

def signing : MetaStep → Action
  | requestAndApprove => .signMetaRequestAndApprove
  | approve => .signMetaApprove
  | cancel => .signMetaCancel

def executing : MetaStep → Action
  | requestAndApprove => .executeMetaRequestAndApprove
  | approve => .executeMetaApprove
  | cancel => .executeMetaCancel

/-- Both actions, in the order in which they enter a record's history. -/
def pair (s : MetaStep) : List Action := [s.signing, s.executing]

/-- The step on a pending record that a signing action stands for. -/
def closing? : Action → Option MetaStep
  | .signMetaApprove => some approve
  | .signMetaCancel => some cancel
  | _ => none

theorem counterpart?_signing (s : MetaStep) : s.signing.counterpart? = some s.executing := by
  cases s <;> rfl

end MetaStep

/-- Who submits a payload, and at which gas price. -/
structure Relay where
  relayer : Identity
  gasPrice : Amount
  deriving DecidableEq, Repr

end Countersign.MetaTx
