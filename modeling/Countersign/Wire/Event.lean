import Countersign.Event
import Countersign.Uuid
import Countersign.Wire.Transaction

/-!
# Wire forms of events

An event is passed on as a `Notice`, under an identifier of its own. What happened is a union with the
tag `event`.
-/

namespace Countersign

open Wire (encode slots? required tagged?)

/-- An event with the identifier under which it is passed on. -/
structure Notice where
  id : Uuid
  event : Event
  deriving DecidableEq, Repr

instance : Wire Uuid where
  encode u := .text u.text
  decode
    | _, .string (some s) => Uuid.ofText? s
    | _, _ => none

namespace EventKind

def decodeActor (c : WireContext) (j : Json) : Option (Identity × Action) := do
  let [actor, action] ← slots? ["by", "action"] j | none
  return (← required c actor, ← required c action)

def decodeVariant (c : WireContext) (tag : String) (rest : Json) : Option EventKind :=
  match tag with
  | "requested" => do
    let [requester, releaseTime] ← slots? ["requester", "release_time"] rest | none
    return .requested (← required c requester) (← required c releaseTime)
  | "approved" => do
    let (actor, action) ← decodeActor c rest
    return .approved actor action
  | "cancelled" => do
    let (actor, action) ← decodeActor c rest
    return .cancelled actor action
  | "executed" => do
    let [status, result] ← slots? ["status", "result"] rest | none
    return .executed (← required c status) (← required c result)
  | _ => none

end EventKind

instance : Wire EventKind where
  encode
    | .requested requester releaseTime => .fields
      [("event", .text "requested"), ("requester", encode requester),
        ("release_time", encode releaseTime)]
    | .approved actor action => .fields
      [("event", .text "approved"), ("by", encode actor), ("action", encode action)]
    | .cancelled actor action => .fields
      [("event", .text "cancelled"), ("by", encode actor), ("action", encode action)]
    | .executed status result => .fields
      [("event", .text "executed"), ("status", encode status), ("result", encode result)]
  decode c j := do
    let c ← c.enter?
    let (tag, rest) ← tagged? "event" c j
    EventKind.decodeVariant { c with inUnion := true } tag rest

instance : Wire Notice where
  encode n := .fields
    [("event_id", encode n.id), ("tx_id", encode n.event.txId),
      ("operation_type", encode n.event.operation), ("at", encode n.event.time),
      ("kind", encode n.event.kind)]
  decode c j := do
    let c ← c.enter?
    let [id, txId, operation, time, kind] ←
      slots? ["event_id", "tx_id", "operation_type", "at", "kind"] j | none
    return {
      id := ← required c id
      event := {
        txId := ← required c txId
        operation := ← required c operation
        time := ← required c time
        kind := ← required c kind } }

end Countersign
