import Countersign.Proofs.Frame
import Countersign.Proofs.Governance
import Countersign.Proofs.Submission

/-!
# What the components say about each other

Roles, functions, operation types and records refer to each other by identifiers. `Integral` says
that nothing refers to what is not there, and that every record and its payment are well-formed:
functions and grants (`AccessRegistry.Backed`) and records (`Engine.Backs`) are checked when they
come in, and what they refer to stays. What is registered also never changes, and registering it
again changes nothing.
-/

namespace Countersign

open MetaTx (MetaStep)

/-! ## Requests and payments -/

/-- A call needs a function or a payload and a target; without a call there is no value. -/
def Request.Callable (r : Request) : Prop :=
  match r.execution with
  | .none => r.value = 0
  | .standard selector _ => selector ≠ .zero ∧ r.target ≠ .zero
  | .raw payload => payload ≠ [] ∧ r.target ≠ .zero

/-- Requests of the governing operation type, and only those, call the engine: without value, and
with an update whose period is not zero. The others call something, or they have no value. -/
structure Request.WellFormed (engine : Identity) (r : Request) : Prop where
  target : r.target = engine ↔ r.operation = Governance.operation
  governs : r.operation = Governance.operation → r.value = 0 ∧
    ∃ u : Governance.PeriodUpdate,
      r.execution = .standard Governance.setPeriod u.encode ∧ u.period ≠ 0
  calls : r.operation ≠ Governance.operation → r.Callable

/-- A payment is not made for a call of the engine, and not to nobody, and amounts of a token name
the token. -/
structure Payment.WellFormed (engine : Identity) (r : Request) (p : Payment) : Prop where
  target : r.target ≠ engine
  recipient : p.isEmpty = false → p.recipient ≠ .zero
  token : p.token = none → p.tokenAmount = 0

section Flaws

variable {engine : Identity} {r : Request} {p : Payment}

theorem value_eq_zero_of_flaw (h : executionFlaw? engine r = none) (target : r.target = engine) :
    r.value = 0 := by
  have governs : r.target = engine ↔ r.operation = Governance.operation := target_of_flaw h
  unfold executionFlaw? at h
  rw [if_neg (not_not_intro governs), if_pos target] at h
  split at h
  · cases h
  · next hv => exact Decidable.not_not.mp hv

theorem executionFlaw?_of_other (target : r.target = engine ↔ r.operation = Governance.operation)
    (other : r.operation ≠ Governance.operation) :
    executionFlaw? engine r = none ↔ r.Callable := by
  have outward : r.target ≠ engine := fun ht => other (target.mp ht)
  unfold executionFlaw? Request.Callable
  rw [if_neg (not_not_intro target), if_neg outward]
  cases r.execution with
  | none => simp
  | standard selector params =>
    by_cases hs : selector = .zero <;> by_cases ht : r.target = .zero <;>
      simp [hs, ht, Selector.isZero_iff, Identity.isZero_iff]
  | raw payload =>
    by_cases hp : payload = [] <;> by_cases ht : r.target = .zero <;>
      simp [hp, ht, Identity.isZero_iff]

theorem executionFlaw?_eq_none_iff : executionFlaw? engine r = none ↔ r.WellFormed engine := by
  constructor
  · intro h
    have target := target_of_flaw h
    exact ⟨target, fun governs => ⟨value_eq_zero_of_flaw h (target.mpr governs),
      exists_update_of_flaw h governs⟩, fun other => (executionFlaw?_of_other target other).mp h⟩
  · intro h
    by_cases governs : r.operation = Governance.operation
    · obtain ⟨value, u, execution, period⟩ := h.governs governs
      simp [executionFlaw?, h.target.mpr governs, governs, value, execution,
        Governance.PeriodUpdate.decode?_encode, period]
    · exact (executionFlaw?_of_other h.target governs).mpr (h.calls governs)

theorem paymentFlaw?_eq_none_iff : paymentFlaw? engine r p = none ↔ p.WellFormed engine r := by
  have asked : paymentFlaw? engine r p = none ↔ r.target ≠ engine ∧
      (p.isEmpty = false → p.recipient ≠ .zero) ∧ (p.token = none → p.tokenAmount = 0) := by
    unfold paymentFlaw?
    by_cases ht : r.target = engine <;> by_cases hr : p.recipient = .zero <;>
      cases he : p.isEmpty <;> cases hk : p.token <;> simp [ht, hr, Identity.isZero_iff]
  exact asked.trans ⟨fun ⟨target, recipient, token⟩ => ⟨target, recipient, token⟩,
    fun h => ⟨h.target, h.recipient, h.token⟩⟩

end Flaws

/-! ## Functions and grants -/

namespace AccessRegistry

/-- Every function stands under its selector and belongs to a registered operation type; and what is
granted is granted to a role that is defined, on a function that is declared and supports it. -/
structure Backed (registered : OperationType → Prop) (r : AccessRegistry) : Prop where
  functions : ∀ s f, r.functions.get? s = some f → f.selector = s ∧ registered f.operation
  roles : ∀ id, r.grants.contains id = true → r.roles.contains id = true
  supported : ∀ id s actions, (r.grantsOf id).get? s = some actions →
    ∃ f, r.functions.get? s = some f ∧ ∀ a, actions.contains a = true → f.supports a = true

variable {registered : OperationType → Prop} {r r' : AccessRegistry} {c : AccessCommand}
  {reply : AccessReply} {id j : RoleId} {s t : Selector} {actions : List Action}

theorem backed_empty : Backed registered empty where
  functions _ _ h := by cases h
  roles _ h := by cases h
  supported _ _ _ h := by cases h

theorem Backed.mono {more : OperationType → Prop} (h : r.Backed registered)
    (stay : ∀ operation, registered operation → more operation) : r.Backed more where
  functions s f hs := ⟨(h.functions s f hs).1, stay _ (h.functions s f hs).2⟩
  roles := h.roles
  supported := h.supported

/-- A change of the roles takes nothing away from a role that is there. -/
theorem Backed.withRoles (h : r.Backed registered) {role : Role} :
    Backed registered { r with roles := r.roles.insert id role } where
  functions := h.functions
  roles j hj := by
    rw [SortedMap.contains_insert, h.roles j hj]
    split <;> rfl
  supported := h.supported

theorem Backed.declared {f : FunctionSchema} (h : r.Backed registered)
    (free : r.functions.get? f.selector = none) (hf : registered f.operation) :
    Backed registered { r with functions := r.functions.insert f.selector f } where
  functions s g hs := by
    rw [SortedMap.get?_insert] at hs
    split at hs
    · next same =>
      cases hs
      exact ⟨same.symm, hf⟩
    · exact h.functions s g hs
  roles := h.roles
  supported j s held hs := by
    obtain ⟨g, hg, supports⟩ := h.supported j s held hs
    exact ⟨g, SortedMap.get?_insert_of_free free hg, supports⟩

theorem Backed.granting {f : FunctionSchema} (h : r.Backed registered)
    (found : r.roles.contains id = true) (declared : r.functions.get? s = some f)
    (supports : ∀ a ∈ actions, f.supports a = true) :
    (r.granting id s actions).Backed registered where
  functions := h.functions
  roles j hj := by
    have hj : (r.grants.insert id _).contains j = true := hj
    rw [SortedMap.contains_insert] at hj
    split at hj
    · next same => rw [same]; exact found
    · exact h.roles j hj
  supported j t held ht := by
    rw [grantsOf_granting] at ht
    split at ht
    · next same =>
      rw [SortedMap.get?_insert] at ht
      split at ht
      · next same =>
        cases ht
        rw [same]
        refine ⟨f, declared, fun a ha => ?_⟩
        rw [SortedSet.contains_insertAll] at ha
        split at ha
        · next listed => exact supports a listed
        · cases hs : (r.grantsOf id).get? s with
          | none => rw [hs] at ha; cases ha
          | some before =>
            rw [hs] at ha
            obtain ⟨g, hg, supports⟩ := h.supported id s before hs
            rw [declared] at hg
            cases hg
            exact supports a ha
      · exact h.supported id t held ht
    · exact h.supported j t held ht

/-- What is left after a revocation had been there before. -/
theorem exists_of_revokeActions {table : SortedMap Selector (SortedSet Action)}
    {left : SortedSet Action} (h : (revokeActions table s actions).get? t = some left) :
    ∃ held, table.get? t = some held ∧ ∀ a, left.contains a = true → held.contains a = true := by
  cases ht : table.get? t with
  | none =>
    unfold revokeActions at h
    split at h
    · rw [ht] at h; cases h
    · next held hs =>
      have hne : t ≠ s := by
        rintro rfl
        rw [hs] at ht
        cases ht
      dsimp only at h
      split at h
      · rw [SortedMap.get?_erase_ne hne, ht] at h; cases h
      · rw [SortedMap.get?_insert_ne hne, ht] at h; cases h
  | some held =>
    refine ⟨held, rfl, fun a ha => ?_⟩
    have hc : (((revokeActions table s actions).get? t).getD .empty).contains a =
        if t = s ∧ a ∈ actions then false else ((table.get? t).getD .empty).contains a :=
      contains_revokeActions
    rw [h, ht, Option.getD_some, Option.getD_some, ha] at hc
    split at hc
    · cases hc
    · exact hc.symm

theorem contains_grants_of_revoking (h : (r.revoking id s actions).grants.contains j = true) :
    r.grants.contains j = true := by
  unfold revoking at h
  split at h
  · exact h
  · next table ht =>
    by_cases hj : j = id
    · subst hj
      exact SortedMap.contains_iff.mpr ⟨table, ht⟩
    · dsimp only at h
      split at h
      · rwa [SortedMap.contains, SortedMap.get?_erase_ne hj] at h
      · rwa [SortedMap.contains, SortedMap.get?_insert_ne hj] at h

theorem Backed.revoking (h : r.Backed registered) :
    (r.revoking id s actions).Backed registered where
  functions t f ht := by
    rw [revoking_functions] at ht
    exact h.functions t f ht
  roles j hj := by
    rw [revoking_roles]
    exact h.roles j (contains_grants_of_revoking hj)
  supported j t left ht := by
    rw [revoking_functions]
    rw [grantsOf_revoking] at ht
    split at ht
    · obtain ⟨held, hheld, less⟩ := exists_of_revokeActions ht
      obtain ⟨f, hf, supports⟩ := h.supported id t held hheld
      exact ⟨f, hf, fun a ha => supports a (less a ha)⟩
    · exact h.supported j t left ht

theorem Accepts.backed (h : r.Accepts c r' reply) (hr : r.Backed registered)
    (hc : ∀ f, c = .registerFunction f → registered f.operation) : r'.Backed registered := by
  cases h with
  | defined => exact hr.withRoles
  | addMember => exact hr.withRoles
  | removeMember => exact hr.withRoles
  | replaceMember => exact hr.withRoles
  | redefined | redeclared => exact hr
  | declared free => exact hr.declared free (hc _ rfl)
  | grant found declared supported =>
    exact hr.granting (SortedMap.contains_iff.mpr ⟨_, found⟩) declared supported
  | revoke => exact hr.revoking

theorem Backed.of_step (hr : r.Backed registered) (h : r.step c = .ok (r', reply))
    (hc : ∀ f, c = .registerFunction f → registered f.operation) : r'.Backed registered :=
  (accepts_of_step h).backed hr hc

end AccessRegistry

/-! ## Operation types -/

namespace Catalog

/-- Every operation type stands under its identifier and could be registered again as it is. -/
def Readmits (c : Catalog) : Prop :=
  ∀ id entry, c.entries.get? id = some entry →
    c.register id entry.name entry.paths = .ok (c, id)

variable {c c' : Catalog} {id operation : OperationType} {name : String}
  {paths : List WorkflowPath}

theorem readmits_empty : Catalog.empty.Readmits := by
  intro id entry h
  cases h

theorem Readmits.register (hc : c.Readmits) (h : c.register id name paths = .ok (c', operation)) :
    c'.Readmits := by
  obtain ⟨-, named, some, sound, ⟨-, rfl⟩ | ⟨free, rfl⟩⟩ := register_eq_ok_iff.mp h
  · exact hc
  · intro j entry hj
    rw [SortedMap.get?_insert] at hj
    split at hj
    · next same =>
      cases hj
      rw [same]
      exact register_eq_ok_iff.mpr
        ⟨rfl, named, some, sound, .inl ⟨SortedMap.get?_insert_self, rfl⟩⟩
    · -- An older entry is asked for just what was asked for before.
      obtain ⟨-, named, some, sound, ⟨stored, -⟩ | ⟨absent, -⟩⟩ :=
        register_eq_ok_iff.mp (hc j entry hj)
      · exact register_eq_ok_iff.mpr
          ⟨rfl, named, some, sound, .inl ⟨SortedMap.get?_insert_of_free free stored, rfl⟩⟩
      · rw [absent] at hj
        cases hj

end Catalog

namespace Engine

variable {e e' e₀ : Engine} {c : Command} {cs : List Command} {reply : Reply} {id : TxId}
  {r : Record}

/-! ## Records -/

/-- What a record refers to is there: its operation type is registered, and its handler is a
declared function of that type which supports the action that opened the record. Its request and its
payment are well-formed. -/
structure Backs (e : Engine) (r : Record) : Prop where
  registered : e.catalog.contains r.operation = true
  served : ∃ opener rest, r.history = opener :: rest ∧ e.Serves r.handler r.operation [opener]
  request : r.request.WellFormed e.identity
  payment : ∀ p, r.payment = some p → p.WellFormed e.identity r.request

namespace Backs

theorem grows (h : e.Backs r) (g : Grows e e') : e'.Backs r where
  registered := g.contains h.registered
  served := by
    obtain ⟨opener, rest, history, serves⟩ := h.served
    exact ⟨opener, rest, history, g.serves serves⟩
  request := by rw [g.identity]; exact h.request
  payment p hp := by rw [g.identity]; exact h.payment p hp

theorem spending (h : e.Backs r) {signer : Identity} : (e.spending signer).Backs r :=
  ⟨h.registered, h.served, h.request, h.payment⟩

/-- The opening action stays the first one. -/
theorem extended (h : e.Backs r) (actions : List Action) : e.Backs (r.extended actions) where
  registered := h.registered
  served := by
    obtain ⟨opener, rest, history, serves⟩ := h.served
    exact ⟨opener, rest ++ actions, by rw [Record.extended, history, List.cons_append], serves⟩
  request := h.request
  payment := h.payment

theorem closed (h : e.Backs r) (status : Status) (result : Bytes) (message : Option Digest) :
    e.Backs (Ledger.closed r status result message) :=
  ⟨h.registered, h.served, h.request, h.payment⟩

theorem attached (h : e.Backs r) {p : Payment} (flaw : paymentFlaw? e.identity r.request p = none) :
    e.Backs { r with payment := some p } where
  registered := h.registered
  served := h.served
  request := h.request
  payment q hq := by
    cases hq
    exact paymentFlaw?_eq_none_iff.mp flaw

end Backs

theorem backs_newRecord {handler : Selector} {q : Request} {release : UInt64}
    (may : e.MayRequest handler q release) : e.Backs (e.newRecord handler q release) where
  registered := may.registered
  served := ⟨.timeDelayRequest, [], rfl, may.served⟩
  request := executionFlaw?_eq_none_iff.mp may.execution
  payment p hp := by cases hp

theorem backs_signedRecord {tx : MetaTx.Signed} {relay : MetaTx.Relay} {release : UInt64}
    (may : e.MayOpen tx relay release) : e.Backs (e.signedRecord tx release) where
  registered := may.registered
  served := by
    obtain ⟨f, declared, operation, supports⟩ := may.served
    refine ⟨.signMetaRequestAndApprove, [.executeMetaRequestAndApprove], rfl, f, declared,
      operation, fun a ha => supports a ?_⟩
    rw [List.mem_singleton.mp ha]
    decide
  request := executionFlaw?_eq_none_iff.mp may.execution
  payment p hp := paymentFlaw?_eq_none_iff.mp (may.payment p hp)

/-! ## Integrity -/

/-- Nothing refers to what is not there, and all that is stored is well-formed. -/
structure Integral (e : Engine) : Prop where
  catalog : e.catalog.Readmits
  access : e.access.Backed fun operation => e.catalog.contains operation = true
  records : ∀ id r, e.ledger.records.get? id = some r → e.Backs r

theorem Integral.pending (h : e.Integral) (hp : e.ledger.HasPending id r) : e.Backs r :=
  h.records id r hp.stored

/-- The records afterwards, by what there was before the command. -/
theorem Accepts.backs (h : e.Accepts c e' reply) (integral : e.Integral) :
    ∀ id r, e'.ledger.records.get? id = some r → e.Backs r := by
  cases h with
  | request may room =>
    exact Ledger.forall_of_stored integral.records (backs_newRecord may)
      fun _ => Ledger.get?_opening
  | requestPeriod may room =>
    exact Ledger.forall_of_stored integral.records (backs_newRecord may)
      fun _ => Ledger.get?_opening
  | attachPayment may =>
    exact Ledger.forall_of_stored integral.records
      ((integral.pending may.pending).attached may.payment) fun _ => Ledger.get?_put
  | approve may =>
    exact Ledger.forall_of_stored integral.records
      (((integral.pending may.pending).extended _).closed ..) fun _ => get?_approved
  | cancel may =>
    exact Ledger.forall_of_stored integral.records
      (((integral.pending may.pending).extended _).closed ..) fun _ => Ledger.get?_close
  | approveSigned may fits =>
    exact Ledger.forall_of_stored integral.records
      (((integral.pending may.pending).extended _).closed ..) fun _ => get?_approved
  | cancelSigned may fits =>
    exact Ledger.forall_of_stored integral.records
      (((integral.pending may.pending).extended _).closed ..) fun _ => Ledger.get?_close
  | requestSigned may fits room =>
    exact Ledger.forall_of_stored integral.records ((backs_signedRecord may).closed ..)
      fun _ => get?_requestedSigned
  | _ => exact integral.records

theorem contains_of_declarable {f : FunctionSchema}
    (h : e.requireDeclarable (.registerFunction f) = .ok ()) :
    e.catalog.contains f.operation = true := by
  obtain ⟨entry, hentry, -⟩ := map_eq_ok_iff.mp h
  unfold Catalog.lookup at hentry
  split at hentry
  · next entry' stored => exact SortedMap.contains_iff.mpr ⟨entry', stored⟩
  · cases hentry

theorem Accepts.backed (h : e.Accepts c e' reply) (integral : e.Integral) :
    e'.access.Backed fun operation => e.catalog.contains operation = true := by
  cases h with
  | access declarable changed =>
    refine (AccessRegistry.accepts_of_step changed).backed integral.access fun f hf => ?_
    subst hf
    exact contains_of_declarable declarable
  | _ => exact integral.access

theorem Accepts.readmits (h : e.Accepts c e' reply) (hc : e.catalog.Readmits) :
    e'.catalog.Readmits := by
  cases h with
  | registerOperation registered => exact hc.register registered
  | _ => exact hc

theorem Accepts.integral (h : e.Accepts c e' reply) (integral : e.Integral) : e'.Integral where
  catalog := h.readmits integral.catalog
  access := (h.backed integral).mono fun _ => h.grows.contains
  records id r hr := (h.backs integral id r hr).grows h.grows

theorem integral_step (hn : e.ledger.Numbered) (h : e.Integral) (c : Command) :
    (e.step c).1.Integral :=
  invariant_step Accepts.integral
    (fun _ h => ⟨h.catalog, h.access, fun id r hr => (h.records id r hr).spending⟩) hn h c

theorem integral_run (hn : e.ledger.Numbered) (h : e.Integral) (cs : List Command) :
    (e.run cs).Integral :=
  invariant_run integral_step hn h cs

/-! ## New engines -/

/-- The functions of the engine's own govern time-locks. -/
theorem operation_of_mem_initialChanges {owner : Option Identity} {f : FunctionSchema}
    (h : .registerFunction f ∈ initialChanges owner) : f.operation = Governance.operation := by
  simp only [initialChanges, List.mem_cons, List.mem_append, List.mem_map, reduceCtorEq, and_false,
    exists_false, AccessCommand.registerFunction.injEq, List.not_mem_nil, or_false, false_or] at h
  rcases h with rfl | rfl <;> rfl

theorem backed_of_initialAccess {owner : Option Identity} {access : AccessRegistry}
    (h : initialAccess owner = .ok access) :
    access.Backed fun operation => operation = Governance.operation := by
  refine (undergoes_of_initialAccess h).keeps (fun change hm r r' reply backed step => ?_)
    AccessRegistry.backed_empty
  exact backed.of_step step fun f hf => operation_of_mem_initialChanges (hf ▸ hm)

theorem readmits_of_initialCatalog {catalog : Catalog} (h : initialCatalog = .ok catalog) :
    catalog.Readmits ∧ catalog.contains Governance.operation = true := by
  obtain ⟨⟨catalog', operation⟩, registered, rfl⟩ := map_eq_ok_iff.mp h
  refine ⟨Catalog.readmits_empty.register registered, ?_⟩
  obtain ⟨-, -, -, -, ⟨stored, -⟩ | ⟨-, rfl⟩⟩ := Catalog.register_eq_ok_iff.mp registered
  · cases stored
  · exact SortedMap.contains_iff.mpr ⟨_, SortedMap.get?_insert_self⟩

theorem integral_of_create {config : EngineConfig} {clock : UInt64} {sink : EventSink}
    {dispatcher : Dispatcher} (created : create config clock sink dispatcher = .ok e) :
    e.Integral := by
  have new := created_of_create created
  obtain ⟨owner, roles⟩ := new.access
  obtain ⟨readmits, governing⟩ := readmits_of_initialCatalog new.catalog
  refine ⟨readmits, (backed_of_initialAccess roles).mono ?_, new.forall_records⟩
  rintro operation rfl
  exact governing

/-! ## Every reachable engine -/

theorem Integral.readmits_operation (h : e.Integral) {operation : OperationType}
    {entry : OperationEntry} (stored : e.catalog.entries.get? operation = some entry) :
    e.step (.registerOperation operation entry.name entry.paths) =
      (e, .ok (.operation operation)) :=
  (Accepts.registerOperation (h.catalog operation entry stored)).step_eq

theorem Integral.readmits_function (h : e.Integral) {s : Selector} {f : FunctionSchema}
    (declared : e.access.functions.get? s = some f) :
    e.step (.access (.registerFunction f)) = (e, .ok (.access (.selector s))) := by
  obtain ⟨rfl, registered⟩ := h.access.functions s f declared
  obtain ⟨entry, stored⟩ := SortedMap.contains_iff.mp registered
  have declarable : e.requireDeclarable (.registerFunction f) = .ok () := by
    simp only [requireDeclarable, Catalog.lookup, stored, Except.map]
  exact (Accepts.access declarable (AccessRegistry.Accepts.redeclared declared).step_eq).step_eq

/-- Every engine that is ever reached from a new one has integrity. Its operation types and
functions stay as they are whatever happens next, and registering one of them again changes
nothing. -/
theorem integral_of_reaches {config : EngineConfig} {clock : UInt64} {sink : EventSink}
    {dispatcher : Dispatcher} (created : create config clock sink dispatcher = .ok e₀)
    (reached : Reaches e₀ e) :
    e.Integral ∧
    (∀ e', Reaches e e' →
      (∀ operation entry, e.catalog.entries.get? operation = some entry →
        e'.catalog.entries.get? operation = some entry) ∧
      ∀ s f, e.access.functions.get? s = some f → e'.access.functions.get? s = some f) ∧
    (∀ operation entry, e.catalog.entries.get? operation = some entry →
      e.step (.registerOperation operation entry.name entry.paths) =
        (e, .ok (.operation operation))) ∧
    ∀ s f, e.access.functions.get? s = some f →
      e.step (.access (.registerFunction f)) = (e, .ok (.access (.selector s))) := by
  have integral : e.Integral := by
    obtain ⟨cs, rfl⟩ := reaches_iff.mp reached
    exact integral_run (numbered_of_create created) (integral_of_create created) cs
  refine ⟨integral, fun e' later => ?_, fun _ _ => integral.readmits_operation,
    fun _ _ => integral.readmits_function⟩
  obtain ⟨cs, rfl⟩ := reaches_iff.mp later
  exact ⟨(grows_run e cs).operations, (grows_run e cs).functions⟩

end Engine

theorem Sample.paid : holds restored (fun e =>
    match e.ledger.records.get? txId with
    | some r => decide (r.operation = pay ∧ r.payment = some payment)
    | none => false) = true := by
  decide +kernel

/-- The record and its payment are well-formed, and what it refers to can be registered again. -/
theorem Engine.sample_integral : ∃ e₀ r entry f,
    create Sample.config 100 (.memory []) .empty = .ok e₀ ∧
    let e := e₀.run Sample.restored
    e.ledger.records.get? Sample.txId = some r ∧ r.operation = Sample.pay ∧ e.Backs r ∧
    Sample.payment.WellFormed e.identity r.request ∧
    e.catalog.entries.get? Sample.pay = some entry ∧
    e.step (.registerOperation Sample.pay entry.name entry.paths) =
      (e, .ok (.operation Sample.pay)) ∧
    e.access.functions.get? r.handler = some f ∧ f.operation = Sample.pay ∧
    e.step (.access (.registerFunction f)) = (e, .ok (.access (.selector r.handler))) := by
  obtain ⟨e₀, created, h⟩ := Sample.exists_of_holds Sample.paid
  split at h
  · next r stored =>
    obtain ⟨operation, paid⟩ := of_decide_eq_true h
    have reached : Reaches e₀ (e₀.run Sample.restored) := (Reaches.refl e₀).run _
    obtain ⟨integral, -, operations, functions⟩ := integral_of_reaches created reached
    have backs := integral.records _ _ stored
    obtain ⟨entry, registered⟩ := SortedMap.contains_iff.mp backs.registered
    obtain ⟨opener, rest, -, f, declared, served, -⟩ := backs.served
    rw [operation] at registered served
    exact ⟨e₀, r, entry, f, created, stored, operation, backs, backs.payment _ paid, registered,
      operations _ _ registered, declared, served, functions _ _ declared⟩
  · cases h

end Countersign
