import Countersign.MetaTx.Payload
import Countersign.Proofs.Canonical

/-!
# What a signer commits to

The preimage of a commitment begins with fields of fixed kinds (`headFields`) and ends with others
(`tailFields`). In between stand the data of the execution and the payment, whose layout depends on
a byte in front of them. Hence the preimage determines snapshot and terms, and no preimage goes on
where another one ends (`preimage_injective`).
-/

namespace Countersign.MetaTx

open Canonical (Field Kind)

variable {s s' : Snapshot} {t t' : Terms} {a b : Bytes}

/-- The bytes of an execution that come in any length. -/
def executionData : Execution → Bytes
  | .none => []
  | .standard _ params => params
  | .raw payload => payload

/-! ## The parts of a preimage -/

/-- The fields before the data of the execution. -/
def headFields (s : Snapshot) (t : Terms) : List Field :=
  [.word t.chainId, .fixed t.contract.bytes.toList, .word t.nonce, .word s.txId.number,
    .fixed s.request.requester.bytes.toList, .fixed s.request.target.bytes.toList,
    .amount s.request.value, .word s.request.gasLimit, .fixed s.request.operation.bytes.toList,
    .byte s.request.execution.kind.ordinal]

/-- The fields after the payment. -/
def tailFields (t : Terms) : List Field :=
  [.fixed t.handler.bytes.toList, .byte t.action.ordinal, .word t.deadline,
    .amount t.maxGasPrice, .fixed t.signer.bytes.toList]

def headKinds : List Kind :=
  [.word, .fixed 32, .word, .word, .fixed 32, .fixed 32, .amount, .word, .fixed 32, .byte]

def tailKinds : List Kind := [.fixed 4, .byte, .word, .amount, .fixed 32]

def executionKinds : ExecutionKind → List Kind
  | .none => []
  | .standard => [.fixed 4, .sized]
  | .raw => [.sized]

/-- The kinds of a payment's fields after the presence byte. -/
def paymentKinds : List Kind := [.fixed 32, .amount, .optional (.fixed 32), .amount]

theorem fields_eq :
    fields s t = headFields s t ++ (executionFields s.request.execution ++
      (paymentFields s.payment ++ tailFields t)) := by
  simp [fields, headFields, requestFields, tailFields]

theorem preimage_append :
    preimage s t ++ a = Canonical.withLength (utf8 domain) ++
      ((headFields s t).flatMap Field.encode ++
        ((executionFields s.request.execution).flatMap Field.encode ++
          ((paymentFields s.payment).flatMap Field.encode ++
            ((tailFields t).flatMap Field.encode ++ a)))) := by
  rw [preimage, Canonical.preimage, fields_eq]
  simp only [List.flatMap_append, List.append_assoc]

/-! ## The kinds of the parts -/

theorem headFields_hasKind : List.Forall₂ Field.HasKind (headFields s t) headKinds :=
  .cons (.word _) <| .cons (.fixed t.contract.bytes.length_toList) <| .cons (.word _) <|
    .cons (.word _) <| .cons (.fixed s.request.requester.bytes.length_toList) <|
    .cons (.fixed s.request.target.bytes.length_toList) <| .cons (.amount _) <| .cons (.word _) <|
    .cons (.fixed s.request.operation.bytes.length_toList) <| .cons (.byte _) .nil

theorem tailFields_hasKind : List.Forall₂ Field.HasKind (tailFields t) tailKinds :=
  .cons (.fixed t.handler.bytes.length_toList) <| .cons (.byte _) <| .cons (.word _) <|
    .cons (.amount _) <| .cons (.fixed t.signer.bytes.length_toList) .nil

theorem executionFields_hasKind {x : Execution} (h : (executionData x).length < UInt64.size) :
    List.Forall₂ Field.HasKind (executionFields x) (executionKinds x.kind) := by
  cases x with
  | none => exact .nil
  | standard selector params =>
    exact .cons (.fixed selector.bytes.length_toList) (.cons (.sized h) .nil)
  | raw payload => exact .cons (.sized h) .nil

/-- The fields of a payment after the presence byte. -/
def presentFields (p : Payment) : List Field :=
  [.fixed p.recipient.bytes.toList, .amount p.nativeAmount, tokenField p.token,
    .amount p.tokenAmount]

theorem tokenField_hasKind (token : Option Identity) :
    (tokenField token).HasKind (.optional (.fixed 32)) := by
  cases token with
  | none => exact .absent _
  | some token => exact .present (.fixed token.bytes.length_toList)

theorem presentFields_hasKind {p : Payment} :
    List.Forall₂ Field.HasKind (presentFields p) paymentKinds :=
  .cons (.fixed p.recipient.bytes.length_toList) <| .cons (.amount _) <|
    .cons (tokenField_hasKind p.token) <| .cons (.amount _) .nil

/-! ## What the parts determine -/

theorem identity_toList_inj {i j : Identity} : i.bytes.toList = j.bytes.toList ↔ i = j :=
  ⟨fun h => Identity.bytes_injective (FixedBytes.ext h), fun h => h ▸ rfl⟩

theorem selector_toList_inj {i j : Selector} : i.bytes.toList = j.bytes.toList ↔ i = j :=
  ⟨fun h => Selector.bytes_injective (FixedBytes.ext h), fun h => h ▸ rfl⟩

theorem operation_toList_inj {i j : OperationType} : i.bytes.toList = j.bytes.toList ↔ i = j :=
  ⟨fun h => OperationType.bytes_injective (FixedBytes.ext h), fun h => h ▸ rfl⟩

theorem kind_ordinal_inj {i j : ExecutionKind} : i.ordinal = j.ordinal ↔ i = j := by
  cases i <;> cases j <;> decide

theorem headFields_inj (h : headFields s t = headFields s' t') :
    (t.chainId = t'.chainId ∧ t.contract = t'.contract ∧ t.nonce = t'.nonce ∧ s.txId = s'.txId) ∧
      s.request.requester = s'.request.requester ∧ s.request.target = s'.request.target ∧
      s.request.value = s'.request.value ∧ s.request.gasLimit = s'.request.gasLimit ∧
      s.request.operation = s'.request.operation ∧
      s.request.execution.kind = s'.request.execution.kind := by
  simp only [headFields, List.cons.injEq, Field.word.injEq, Field.fixed.injEq, Field.amount.injEq,
    Field.byte.injEq, identity_toList_inj, operation_toList_inj, kind_ordinal_inj, and_true] at h
  obtain ⟨h1, h2, h3, h4, h5⟩ := h
  exact ⟨⟨h1, h2, h3, TxId.number_injective h4⟩, h5⟩

theorem tailFields_inj (h : tailFields t = tailFields t') :
    t.handler = t'.handler ∧ t.action = t'.action ∧ t.deadline = t'.deadline ∧
      t.maxGasPrice = t'.maxGasPrice ∧ t.signer = t'.signer := by
  simp only [tailFields, List.cons.injEq, Field.word.injEq, Field.fixed.injEq, Field.amount.injEq,
    Field.byte.injEq, identity_toList_inj, selector_toList_inj, and_true] at h
  obtain ⟨h1, h2, h3⟩ := h
  exact ⟨h1, Action.ordinal_injective h2, h3⟩

theorem executionFields_inj {x y : Execution} (hk : x.kind = y.kind)
    (h : executionFields x = executionFields y) : x = y := by
  cases x with
  | none => cases y <;> first | rfl | cases hk
  | standard selector params =>
    cases y with
    | standard selector' params' =>
      simp only [executionFields, List.cons.injEq, Field.fixed.injEq, Field.sized.injEq,
        selector_toList_inj, and_true] at h
      rw [h.1, h.2]
    | none => cases hk
    | raw => cases hk
  | raw payload =>
    cases y with
    | raw payload' =>
      simp only [executionFields, List.cons.injEq, Field.sized.injEq, and_true] at h
      rw [h]
    | none => cases hk
    | standard => cases hk

theorem tokenField_inj {x y : Option Identity} (h : tokenField x = tokenField y) : x = y := by
  cases x <;> cases y <;> simp_all [tokenField, identity_toList_inj]

theorem presentFields_inj {p q : Payment} (h : presentFields p = presentFields q) : p = q := by
  simp only [presentFields, List.cons.injEq, Field.fixed.injEq, Field.amount.injEq,
    identity_toList_inj, and_true] at h
  obtain ⟨h1, h2, h3, h4⟩ := h
  have ht := tokenField_inj h3
  cases p
  cases q
  simp_all

/-! ## Reading the parts back -/

theorem execution_append_inj {x y : Execution} (hk : x.kind = y.kind)
    (hx : (executionData x).length < UInt64.size) (hy : (executionData y).length < UInt64.size)
    (h : (executionFields x).flatMap Field.encode ++ a =
      (executionFields y).flatMap Field.encode ++ b) : x = y ∧ a = b := by
  have hy' := executionFields_hasKind hy
  rw [← hk] at hy'
  obtain ⟨hxy, hab⟩ := Field.encodeAll_append_inj (executionFields_hasKind hx) hy' h
  exact ⟨executionFields_inj hk hxy, hab⟩

theorem payment_append_inj {p q : Option Payment}
    (h : (paymentFields p).flatMap Field.encode ++ a =
      (paymentFields q).flatMap Field.encode ++ b) : p = q ∧ a = b := by
  cases p with
  | none =>
    cases q with
    | none => exact ⟨rfl, (List.cons.inj h).2⟩
    | some q => exact absurd (List.cons.inj h).1 (by decide)
  | some p =>
    cases q with
    | none => exact absurd (List.cons.inj h).1 (by decide)
    | some q =>
      have hrest : (presentFields p).flatMap Field.encode ++ a =
          (presentFields q).flatMap Field.encode ++ b := (List.cons.inj h).2
      obtain ⟨hpq, hab⟩ :=
        Field.encodeAll_append_inj presentFields_hasKind presentFields_hasKind hrest
      exact ⟨congrArg some (presentFields_inj hpq), hab⟩

/-- The head is read back whatever the lengths are. -/
theorem head_of_preimage (h : preimage s t ++ a = preimage s' t' ++ b) :
    headFields s t = headFields s' t' ∧
      (executionFields s.request.execution).flatMap Field.encode ++
        ((paymentFields s.payment).flatMap Field.encode ++
          ((tailFields t).flatMap Field.encode ++ a)) =
      (executionFields s'.request.execution).flatMap Field.encode ++
        ((paymentFields s'.payment).flatMap Field.encode ++
          ((tailFields t').flatMap Field.encode ++ b)) := by
  rw [preimage_append, preimage_append] at h
  exact Field.encodeAll_append_inj headFields_hasKind headFields_hasKind (List.append_cancel_left h)

theorem length_tail : ((tailFields t).flatMap Field.encode).length = 61 := by
  simp [tailFields, Field.encode, FixedBytes.length_toList]

/-- So is the tail, since it always has the same length. -/
theorem tail_of_preimage (h : preimage s t = preimage s' t') : tailFields t = tailFields t' := by
  have hp : preimage s t ++ [] = preimage s' t' ++ [] := congrArg (· ++ []) h
  obtain ⟨-, hrest⟩ := head_of_preimage hp
  -- Nothing bounds the data in between, so the two sides are cut from the end.
  rw [← List.append_assoc, ← List.append_assoc ((executionFields s'.request.execution).flatMap _)]
    at hrest
  obtain ⟨-, htail⟩ := List.append_inj' hrest (by
    rw [List.length_append, List.length_append, length_tail, length_tail])
  exact (Field.encodeAll_append_inj tailFields_hasKind tailFields_hasKind htail).1

/-- A commitment is read back from the front of any byte string. -/
theorem preimage_append_inj (hs : (executionData s.request.execution).length < UInt64.size)
    (hs' : (executionData s'.request.execution).length < UInt64.size)
    (h : preimage s t ++ a = preimage s' t' ++ b) : s = s' ∧ t = t' ∧ a = b := by
  obtain ⟨hhead, h⟩ := head_of_preimage h
  obtain ⟨⟨h1, h2, h3, h4⟩, h5, h6, h7, h8, h9, hk⟩ := headFields_inj hhead
  obtain ⟨hx, h⟩ := execution_append_inj hk hs hs' h
  obtain ⟨hp, h⟩ := payment_append_inj h
  obtain ⟨htail, hab⟩ := Field.encodeAll_append_inj tailFields_hasKind tailFields_hasKind h
  obtain ⟨h10, h11, h12, h13, h14⟩ := tailFields_inj htail
  refine ⟨?_, ?_, hab⟩
  · obtain ⟨_, ⟨⟩, _⟩ := s
    obtain ⟨_, ⟨⟩, _⟩ := s'
    simp_all
  · cases t
    cases t'
    simp_all

/-- Snapshot and terms are determined by their preimage, and no preimage goes on where another one
ends, as long as parameters and payloads have lengths that fit in a word. -/
theorem preimage_injective (hs : (executionData s.request.execution).length < UInt64.size)
    (hs' : (executionData s'.request.execution).length < UInt64.size) :
    (preimage s t = preimage s' t' → s = s' ∧ t = t') ∧
      (preimage s t <+: preimage s' t' → preimage s t = preimage s' t') := by
  constructor
  · intro h
    obtain ⟨hsnapshot, hterms, -⟩ := preimage_append_inj hs hs' (congrArg (· ++ []) h)
    exact ⟨hsnapshot, hterms⟩
  · rintro ⟨rest, h⟩
    obtain ⟨rfl, rfl, -⟩ := preimage_append_inj hs hs' (h.trans (List.append_nil _).symm)
    rfl

/-- A snapshot of which only the execution is of interest. -/
def snapshotOf (x : Execution) : Snapshot :=
  .ofRequest ⟨.zero, .zero, 0, 0, ⟨.zero 32⟩, x⟩

/-- A call cannot be passed off as a payload of the same bytes. -/
theorem preimage_call_apart_from_payload :
    let terms : Terms := ⟨1, .zero, .zero, .signMetaApprove, 0, 0, .zero, 0⟩
    let call := preimage (snapshotOf (.standard .zero [7])) terms
    let payload := preimage (snapshotOf (.raw [0, 0, 0, 0, 7])) terms
    call ≠ payload ∧ ¬ call <+: payload := by
  intro terms call payload
  have h : (call = payload → snapshotOf (.standard .zero [7]) = snapshotOf (.raw [0, 0, 0, 0, 7]) ∧
      terms = terms) ∧ (call <+: payload → call = payload) :=
    preimage_injective (by decide) (by decide)
  have hne : call ≠ payload := fun he => absurd (h.1 he).1 (by decide)
  exact ⟨hne, fun hp => hne (h.2 hp)⟩

end Countersign.MetaTx
