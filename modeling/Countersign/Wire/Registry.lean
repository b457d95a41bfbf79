import Countersign.Access.Role
import Countersign.Ledger
import Countersign.Wire.Identifier
import Countersign.Workflow.Catalog

/-!
# Wire forms of what is registered

Roles, declared functions and operation types, and the counts of a ledger.
-/

namespace Countersign

open Wire (encode slots? required)

instance : Wire Role where
  encode r := .fields
    [("hash", encode r.id), ("name", encode r.name), ("max_members", encode r.maxMembers),
      ("protected", encode r.isProtected), ("members", encode r.members)]
  decode c j := do
    let c ← c.enter?
    let [id, name, maxMembers, isProtected, members] ←
      slots? ["hash", "name", "max_members", "protected", "members"] j | none
    return {
      id := ← required c id
      name := ← required c name
      maxMembers := ← required c maxMembers
      isProtected := ← required c isProtected
      members := ← required c members }

instance : Wire FunctionParam where
  encode p := .fields [("name", encode p.name), ("kind", encode p.kind)]
  decode c j := do
    let c ← c.enter?
    let [name, kind] ← slots? ["name", "kind"] j | none
    return { name := ← required c name, kind := ← required c kind }

instance : Wire FunctionSchema where
  encode f := .fields
    [("selector", encode f.selector), ("signature", encode f.signature),
      ("operation_type", encode f.operation), ("supported_actions", encode f.actions),
      ("params", encode f.params)]
  decode c j := do
    let c ← c.enter?
    let [selector, signature, operation, actions, params] ←
      slots? ["selector", "signature", "operation_type", "supported_actions", "params"] j | none
    return {
      selector := ← required c selector
      signature := ← required c signature
      operation := ← required c operation
      actions := ← required c actions
      params := ← required c params }

instance : Wire WorkflowPath where
  encode p := .fields [("name", encode p.name), ("actions", encode p.actions)]
  decode c j := do
    let c ← c.enter?
    let [name, actions] ← slots? ["name", "actions"] j | none
    return { name := ← required c name, actions := ← required c actions }

instance : Wire OperationEntry where
  encode e := .fields [("id", encode e.id), ("name", encode e.name), ("paths", encode e.paths)]
  decode c j := do
    let c ← c.enter?
    let [id, name, paths] ← slots? ["id", "name", "paths"] j | none
    return { id := ← required c id, name := ← required c name, paths := ← required c paths }

instance : Wire StatusCounts where
  encode n := .fields
    [("pending", encode n.pending), ("completed", encode n.completed),
      ("cancelled", encode n.cancelled), ("failed", encode n.failed)]
  decode c j := do
    let c ← c.enter?
    let [pending, completed, cancelled, failed] ←
      slots? ["pending", "completed", "cancelled", "failed"] j | none
    return {
      pending := ← required c pending
      completed := ← required c completed
      cancelled := ← required c cancelled
      failed := ← required c failed }

end Countersign
