import Countersign.Data.SortedSet
import Countersign.Identifier

/-!
# Roles and declared functions

A `Role` is a named set of identities with a limit. A `FunctionSchema` declares a function through
which an operation type is driven, and the actions that it supports.
-/

namespace Countersign

/-- A named set of identities that permissions are granted to. -/
structure Role where
  id : RoleId
  name : String
  maxMembers : UInt64
  /-- A protected role cannot be defined again, and its members can only be replaced. -/
  isProtected : Bool
  members : SortedSet Identity
  deriving DecidableEq, Repr

def Role.isFull (r : Role) : Bool := decide (r.maxMembers.toNat ≤ r.members.size)

structure FunctionParam where
  name : String
  kind : String
  deriving DecidableEq, Repr

structure FunctionSchema where
  selector : Selector
  signature : String
  operation : OperationType
  actions : SortedSet Action
  params : List FunctionParam
  deriving DecidableEq, Repr

namespace FunctionSchema

def ofSignature (signature : String) (operation : OperationType) (actions : List Action)
    (params : List FunctionParam) : FunctionSchema :=
  ⟨.ofSignature signature, signature, operation, .ofList actions, params⟩

def supports (f : FunctionSchema) (a : Action) : Bool := f.actions.contains a

end FunctionSchema

end Countersign
