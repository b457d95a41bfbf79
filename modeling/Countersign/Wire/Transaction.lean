import Countersign.Wire.Identifier

/-!
# Wire forms of transaction records

An `Execution` is a union with the tag `type`; requests, payments and records are structures.
-/

namespace Countersign

open Wire (encode encodeOption slots? required optional tagged? isBare)

namespace Execution

def decodeVariant (c : WireContext) (tag : String) (rest : Json) : Option Execution :=
  match tag with
  | "none" => if isBare rest then some .none else Option.none
  | "standard" => do
    let [selector, params] ← slots? ["selector", "params"] rest | Option.none
    return .standard (← required c selector) (← required c params)
  | "raw" => do
    let [payload] ← slots? ["payload"] rest | Option.none
    return .raw (← required c payload)
  | _ => Option.none

end Execution

instance : Wire Execution where
  encode
    | .none => .fields [("type", .text "none")]
    | .standard selector params =>
      .fields [("type", .text "standard"), ("selector", encode selector), ("params", encode params)]
    | .raw payload => .fields [("type", .text "raw"), ("payload", encode payload)]
  decode c j := do
    let c ← c.enter?
    let (tag, rest) ← tagged? "type" c j
    Execution.decodeVariant { c with inUnion := true } tag rest

instance : Wire Payment where
  encode p := .fields
    [("recipient", encode p.recipient), ("native_amount", encode p.nativeAmount),
      ("token", encodeOption p.token), ("token_amount", encode p.tokenAmount)]
  decode c j := do
    let c ← c.enter?
    let [recipient, nativeAmount, token, tokenAmount] ←
      slots? ["recipient", "native_amount", "token", "token_amount"] j | none
    return {
      recipient := ← required c recipient
      nativeAmount := ← required c nativeAmount
      token := ← optional c token
      tokenAmount := ← required c tokenAmount }

instance : Wire Request where
  encode r := .fields
    [("requester", encode r.requester), ("target", encode r.target), ("value", encode r.value),
      ("gas_limit", encode r.gasLimit), ("operation_type", encode r.operation),
      ("execution", encode r.execution)]
  decode c j := do
    let c ← c.enter?
    let [requester, target, value, gasLimit, operation, execution] ←
      slots? ["requester", "target", "value", "gas_limit", "operation_type", "execution"] j | none
    return {
      requester := ← required c requester
      target := ← required c target
      value := ← required c value
      gasLimit := ← required c gasLimit
      operation := ← required c operation
      execution := ← required c execution }

instance : Wire Record where
  encode r := .fields
    [("id", encode r.id), ("params", encode r.request), ("status", encode r.status),
      ("handler_selector", encode r.handler), ("created_at", encode r.createdAt),
      ("release_time", encode r.releaseTime), ("message", encodeOption r.message),
      ("result", encode r.result), ("payment", encodeOption r.payment),
      ("history", encode r.history)]
  decode c j := do
    let c ← c.enter?
    let [id, request, status, handler, createdAt, releaseTime, message, result, payment, history] ←
      slots? ["id", "params", "status", "handler_selector", "created_at", "release_time", "message",
        "result", "payment", "history"] j | none
    return {
      id := ← required c id
      request := ← required c request
      status := ← required c status
      handler := ← required c handler
      createdAt := ← required c createdAt
      releaseTime := ← required c releaseTime
      message := ← optional c message
      result := ← required c result
      payment := ← optional c payment
      history := ← required c history }

end Countersign
