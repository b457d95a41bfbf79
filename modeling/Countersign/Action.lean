import Countersign.Data.Key

/-!
# Lifecycle actions

The nine actions that a role can be granted on a function. The delay track has a request, an approval
and a cancellation; on the meta-transaction track each step is a pair, a signing action of the signer
and an executing action of the relayer (`Action.counterpart?`).
-/

namespace Countersign

inductive Action where
  | timeDelayRequest
  | timeDelayApprove
  | timeDelayCancel
  | signMetaRequestAndApprove
  | signMetaApprove
  | signMetaCancel
  | executeMetaRequestAndApprove
  | executeMetaApprove
  | executeMetaCancel
  deriving DecidableEq, Repr

namespace Action

def all : List Action :=
  [timeDelayRequest, timeDelayApprove, timeDelayCancel, signMetaRequestAndApprove,
    signMetaApprove, signMetaCancel, executeMetaRequestAndApprove, executeMetaApprove,
    executeMetaCancel]

/-- The number that stands for the action in what is signed. -/
def ordinal : Action → UInt8
  | timeDelayRequest => 0
  | timeDelayApprove => 1
  | timeDelayCancel => 2
  | signMetaRequestAndApprove => 3
  | signMetaApprove => 4
  | signMetaCancel => 5
  | executeMetaRequestAndApprove => 6
  | executeMetaApprove => 7
  | executeMetaCancel => 8

/-- Whether a workflow may open with the action. -/
def isRequest : Action → Bool
  | timeDelayRequest | signMetaRequestAndApprove => true
  | _ => false

/-- Whether the action closes a record. -/
def isTerminal : Action → Bool
  | timeDelayApprove | timeDelayCancel | executeMetaRequestAndApprove | executeMetaApprove
  | executeMetaCancel => true
  | _ => false

def isSigning : Action → Bool
  | signMetaRequestAndApprove | signMetaApprove | signMetaCancel => true
  | _ => false

/-- The relayer's action that goes with a signing action. -/
def counterpart? : Action → Option Action
  | signMetaRequestAndApprove => some executeMetaRequestAndApprove
  | signMetaApprove => some executeMetaApprove
  | signMetaCancel => some executeMetaCancel
  | _ => none

def name : Action → String
  | timeDelayRequest => "TIME_DELAY_REQUEST"
  | timeDelayApprove => "TIME_DELAY_APPROVE"
  | timeDelayCancel => "TIME_DELAY_CANCEL"
  | signMetaRequestAndApprove => "SIGN_META_REQUEST_AND_APPROVE"
  | signMetaApprove => "SIGN_META_APPROVE"
  | signMetaCancel => "SIGN_META_CANCEL"
  | executeMetaRequestAndApprove => "EXECUTE_META_REQUEST_AND_APPROVE"
  | executeMetaApprove => "EXECUTE_META_APPROVE"
  | executeMetaCancel => "EXECUTE_META_CANCEL"

def inspect : Action → String
  | timeDelayRequest => "TimeDelayRequest"
  | timeDelayApprove => "TimeDelayApprove"
  | timeDelayCancel => "TimeDelayCancel"
  | signMetaRequestAndApprove => "SignMetaRequestAndApprove"
  | signMetaApprove => "SignMetaApprove"
  | signMetaCancel => "SignMetaCancel"
  | executeMetaRequestAndApprove => "ExecuteMetaRequestAndApprove"
  | executeMetaApprove => "ExecuteMetaApprove"
  | executeMetaCancel => "ExecuteMetaCancel"

def ofName? (s : String) : Option Action := all.find? fun a => a.name == s

theorem ordinal_injective {a b : Action} (h : a.ordinal = b.ordinal) : a = b := by
  revert h
  cases a <;> cases b <;> decide

theorem mem_all (a : Action) : a ∈ all := by cases a <;> decide

theorem ofName?_name (a : Action) : ofName? a.name = some a := by cases a <;> decide

theorem isSigning_iff {a : Action} : a.isSigning = true ↔ a.counterpart?.isSome = true := by
  cases a <;> decide

end Action

instance : Key UInt8 where

instance : Key Action := .lift Action.ordinal fun _ _ => Action.ordinal_injective

end Countersign
