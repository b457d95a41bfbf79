import Countersign.MetaTx.Payload
import Countersign.Wire.Transaction

/-!
# Wire forms of payloads

The form of `Signed` is what a relayer is handed and submits.
-/

namespace Countersign.MetaTx

open Wire (encode encodeOption slots? required optional)

instance : Wire Terms where
  encode t := .fields
    [("chain_id", encode t.chainId), ("handler_contract", encode t.contract),
      ("handler_selector", encode t.handler), ("action", encode t.action),
      ("deadline", encode t.deadline), ("max_gas_price", encode t.maxGasPrice),
      ("signer", encode t.signer), ("nonce", encode t.nonce)]
  decode c j := do
    let c ← c.enter?
    let [chainId, contract, handler, action, deadline, maxGasPrice, signer, nonce] ←
      slots? ["chain_id", "handler_contract", "handler_selector", "action", "deadline",
        "max_gas_price", "signer", "nonce"] j | none
    return {
      chainId := ← required c chainId
      contract := ← required c contract
      handler := ← required c handler
      action := ← required c action
      deadline := ← required c deadline
      maxGasPrice := ← required c maxGasPrice
      signer := ← required c signer
      nonce := ← required c nonce }

instance : Wire Snapshot where
  encode s := .fields
    [("tx_id", encode s.txId), ("params", encode s.request), ("payment", encodeOption s.payment)]
  decode c j := do
    let c ← c.enter?
    let [txId, request, payment] ← slots? ["tx_id", "params", "payment"] j | none
    return {
      txId := ← required c txId
      request := ← required c request
      payment := ← optional c payment }

instance : Wire Draft where
  encode d := .fields
    [("snapshot", encode d.snapshot), ("params", encode d.terms), ("digest", encode d.digest),
      ("encoded_call_data", encode d.callData)]
  decode c j := do
    let c ← c.enter?
    let [snapshot, terms, digest, callData] ←
      slots? ["snapshot", "params", "digest", "encoded_call_data"] j | none
    return {
      snapshot := ← required c snapshot
      terms := ← required c terms
      digest := ← required c digest
      callData := ← required c callData }

instance : Wire Signed where
  encode tx := .fields
    [("snapshot", encode tx.snapshot), ("params", encode tx.terms), ("digest", encode tx.digest),
      ("signature", encode tx.signature), ("encoded_call_data", encode tx.callData)]
  decode c j := do
    let c ← c.enter?
    let [snapshot, terms, digest, signature, callData] ←
      slots? ["snapshot", "params", "digest", "signature", "encoded_call_data"] j | none
    return {
      snapshot := ← required c snapshot
      terms := ← required c terms
      digest := ← required c digest
      signature := ← required c signature
      callData := ← required c callData }

end Countersign.MetaTx
