import Countersign.Data.SortedMap
import Countersign.Fault

/-!
# Workflows

A `WorkflowPath` is a declared sequence of actions, which the `Catalog` accepts only if it leads from a
request to a terminal action. The catalog holds the operation types with their paths; a record may
only follow sequences with which some path of its type starts (`Catalog.permits`).
-/

namespace Countersign

/-! ## Paths -/

/-- A declared sequence of actions from a request to a terminal action. -/
structure WorkflowPath where
  name : String
  actions : List Action
  deriving DecidableEq, Repr

namespace WorkflowPath

open Countersign.Action

/-- The paths that the engine can drive. -/
def standardSet : List WorkflowPath :=
  [⟨"time-delay approve", [timeDelayRequest, timeDelayApprove]⟩,
   ⟨"time-delay cancel", [timeDelayRequest, timeDelayCancel]⟩,
   ⟨"meta-tx approve", [timeDelayRequest, signMetaApprove, executeMetaApprove]⟩,
   ⟨"meta-tx cancel", [timeDelayRequest, signMetaCancel, executeMetaCancel]⟩,
   ⟨"meta-tx request and approve", [signMetaRequestAndApprove, executeMetaRequestAndApprove]⟩]

def startsWith (p : WorkflowPath) (sequence : List Action) : Bool :=
  sequence.isPrefixOf p.actions

/-- What is wrong with the actions of a path: it has at least two, the first a request, the last
terminal, and none between is either. -/
def flaw? (p : WorkflowPath) : Option WorkflowFlaw :=
  match p.actions with
  | first :: second :: rest =>
    let last := (second :: rest).getLast (by simp)
    let inner := (second :: rest).dropLast
    if !first.isRequest then some (.badStart p.name)
    else if !last.isTerminal then some (.badEnd p.name)
    else if inner.any fun a => a.isTerminal || a.isRequest then some (.badMiddle p.name)
    else none
  | _ => some (.tooShort p.name)

end WorkflowPath

/-! ## Operation types -/

structure OperationEntry where
  id : OperationType
  name : String
  paths : List WorkflowPath
  deriving DecidableEq, Repr

structure Catalog where
  entries : SortedMap OperationType OperationEntry
  deriving DecidableEq, Repr

namespace Catalog

def empty : Catalog := ⟨.empty⟩

def lookup (c : Catalog) (id : OperationType) : Except Fault OperationEntry :=
  match c.entries.get? id with
  | some entry => .ok entry
  | none => .error (.unknownOperationType id)

def contains (c : Catalog) (id : OperationType) : Bool := c.entries.contains id

/-- Whether some declared path of the type begins with a sequence. -/
def permits (c : Catalog) (id : OperationType) (sequence : List Action) : Bool :=
  match c.entries.get? id with
  | some entry => entry.paths.any fun p => p.startsWith sequence
  | none => false

def requirePaths (paths : List WorkflowPath) : Except Fault Unit :=
  match paths.findSome? WorkflowPath.flaw? with
  | some flaw => .error (.invalidWorkflow flaw)
  | none => .ok ()

/-- Registers an operation type; registering it again with the same content changes nothing. -/
def register (c : Catalog) (id : OperationType) (name : String) (paths : List WorkflowPath) :
    Except Fault (Catalog × OperationType) := do
  ensure (name ≠ "") (.invalidWorkflow .emptyName)
  ensure (paths ≠ []) (.invalidWorkflow (.noPath name))
  requirePaths paths
  match c.entries.get? id with
  | some entry =>
    ensure (entry = ⟨id, name, paths⟩) (.operationTypeExists name)
    return (c, id)
  | none => return (⟨c.entries.insert id ⟨id, name, paths⟩⟩, id)

def registerNamed (c : Catalog) (name : String) (paths : List WorkflowPath) :
    Except Fault (Catalog × OperationType) :=
  c.register (.ofName name) name paths

end Catalog

end Countersign
