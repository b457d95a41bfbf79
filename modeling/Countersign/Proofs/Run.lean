import Countersign.Proofs.Transition

/-!
# Runs

`Grows e e'` is what every step keeps: where the engine is and what is registered, with counters
that never fall. `IsNew` says how an engine comes out of `create`. What holds of such an engine and
is kept by every step holds after every run, as here for the numbers of the records.
-/

namespace Countersign

/-! ## Registrations stay -/

/-- A registration is accepted if name and paths are in order and the operation type is either new
or registered with just this content, and then it stays as it is. -/
theorem Catalog.register_eq_ok_iff {c c' : Catalog} {id operation : OperationType} {name : String}
    {paths : List WorkflowPath} :
    c.register id name paths = .ok (c', operation) ↔
      operation = id ∧ name ≠ "" ∧ paths ≠ [] ∧ requirePaths paths = .ok () ∧
        (c.entries.get? id = some ⟨id, name, paths⟩ ∧ c' = c ∨
          c.entries.get? id = none ∧ c' = ⟨c.entries.insert id ⟨id, name, paths⟩⟩) := by
  cases h : c.entries.get? id with
  | none =>
    simp only [register, h, bind_eq_ok_iff, ensure_eq_ok_iff, exists_unit_iff, pure_eq_ok_iff,
      Prod.mk.injEq, reduceCtorEq, false_and, false_or, true_and]
    constructor
    · rintro ⟨named, some, sound, rfl, rfl⟩
      exact ⟨rfl, named, some, sound, rfl⟩
    · rintro ⟨rfl, named, some, sound, rfl⟩
      exact ⟨named, some, sound, rfl, rfl⟩
  | some entry =>
    simp only [register, h, bind_eq_ok_iff, ensure_eq_ok_iff, exists_unit_iff, pure_eq_ok_iff,
      Prod.mk.injEq, Option.some.injEq, reduceCtorEq, false_and, or_false]
    constructor
    · rintro ⟨named, some, sound, same, rfl, rfl⟩
      exact ⟨rfl, named, some, sound, same, rfl⟩
    · rintro ⟨rfl, named, some, sound, same, rfl⟩
      exact ⟨named, some, sound, same, rfl, rfl⟩

theorem Catalog.get?_of_register {c c' : Catalog} {id operation j : OperationType} {name : String}
    {paths : List WorkflowPath} {entry : OperationEntry}
    (h : c.register id name paths = .ok (c', operation)) (hj : c.entries.get? j = some entry) :
    c'.entries.get? j = some entry := by
  obtain ⟨-, -, -, -, ⟨-, rfl⟩ | ⟨free, rfl⟩⟩ := register_eq_ok_iff.mp h
  · exact hj
  · exact SortedMap.get?_insert_of_free free hj

/-- No change of a registry takes a declared function back. -/
theorem AccessRegistry.get?_of_step {r r' : AccessRegistry} {change : AccessCommand}
    {reply : AccessReply} {s : Selector} {f : FunctionSchema}
    (h : r.step change = .ok (r', reply)) (hs : r.functions.get? s = some f) :
    r'.functions.get? s = some f := by
  cases step_eq_ok_iff.mp h with
  | declared free => exact SortedMap.get?_insert_of_free free hs
  | revoke => rw [revoking_functions, hs]
  | _ => exact hs

/-! ## Changes one after the other -/

/-- A registry comes about from another one by some changes, each of which is accepted. -/
inductive AccessRegistry.Undergoes :
    AccessRegistry → List AccessCommand → AccessRegistry → Prop where
  | nothing (r : AccessRegistry) : Undergoes r [] r
  | first {r r₁ r' : AccessRegistry} {change : AccessCommand} {reply : AccessReply}
      {changes : List AccessCommand} (accepted : r.step change = .ok (r₁, reply))
      (rest : Undergoes r₁ changes r') : Undergoes r (change :: changes) r'

section Undergoes

variable {r r' : AccessRegistry} {changes : List AccessCommand}

/-- What each of the changes keeps holds afterwards. -/
theorem AccessRegistry.Undergoes.keeps {P : AccessRegistry → Prop} (h : r.Undergoes changes r')
    (keeps : ∀ change ∈ changes, ∀ r r' reply, P r → r.step change = .ok (r', reply) → P r')
    (start : P r) : P r' := by
  induction h with
  | nothing r => exact start
  | first accepted rest ih =>
    obtain ⟨kept, later⟩ := List.forall_mem_cons.mp keeps
    exact ih later (kept _ _ _ start accepted)

/-- A function that one of the changes declares is declared afterwards. -/
theorem AccessRegistry.Undergoes.declared {f : FunctionSchema} (h : r.Undergoes changes r')
    (declares : .registerFunction f ∈ changes) : r'.functions.get? f.selector = some f := by
  induction h with
  | nothing r => cases declares
  | first accepted rest ih =>
    rcases List.mem_cons.mp declares with rfl | later
    · refine rest.keeps (fun _ _ _ _ _ stored step => get?_of_step step stored) ?_
      cases step_eq_ok_iff.mp accepted with
      | declared free => exact SortedMap.get?_insert_self
      | redeclared found => exact found
    · exact ih later

end Undergoes

namespace Engine

variable {e e' : Engine} {c : Command} {cs ds : List Command}

/-! ## What every step keeps -/

/-- An engine later on: the same place, with at least the registrations and the counters from
before. -/
structure Grows (e e' : Engine) : Prop where
  identity : e'.identity = e.identity
  chain : e'.verifier.chainId = e.verifier.chainId
  contract : e'.verifier.identity = e.verifier.identity
  operations : ∀ id entry, e.catalog.entries.get? id = some entry →
    e'.catalog.entries.get? id = some entry
  functions : ∀ s f, e.access.functions.get? s = some f → e'.access.functions.get? s = some f
  next : e.ledger.next ≤ e'.ledger.next
  nonce : ∀ signer, e.nonce signer ≤ e'.nonce signer

namespace Grows

theorem refl (e : Engine) : Grows e e where
  identity := rfl
  chain := rfl
  contract := rfl
  operations _ _ h := h
  functions _ _ h := h
  next := UInt64.le_refl _
  nonce _ := UInt64.le_refl _

theorem trans {a b c : Engine} (h : Grows a b) (h' : Grows b c) : Grows a c where
  identity := h'.identity.trans h.identity
  chain := h'.chain.trans h.chain
  contract := h'.contract.trans h.contract
  operations id entry hid := h'.operations id entry (h.operations id entry hid)
  functions s f hs := h'.functions s f (h.functions s f hs)
  next := UInt64.le_trans h.next h'.next
  nonce signer := UInt64.le_trans (h.nonce signer) (h'.nonce signer)

/-- Without a registration and a payload only the ledger's counter is to be compared. -/
theorem same (hi : e'.identity = e.identity) (hv : e'.verifier = e.verifier)
    (hc : e'.catalog = e.catalog) (ha : e'.access = e.access)
    (hn : e.ledger.next ≤ e'.ledger.next) : Grows e e' where
  identity := hi
  chain := by rw [hv]
  contract := by rw [hv]
  operations _ _ h := by rw [hc]; exact h
  functions _ _ h := by rw [ha]; exact h
  next := hn
  nonce _ := by unfold Engine.nonce; rw [hv]; exact UInt64.le_refl _

theorem contains (g : Grows e e') {operation : OperationType}
    (h : e.catalog.contains operation = true) : e'.catalog.contains operation = true := by
  obtain ⟨entry, he⟩ := SortedMap.contains_iff.mp h
  exact SortedMap.contains_iff.mpr ⟨entry, g.operations _ _ he⟩

theorem permits (g : Grows e e') {operation : OperationType} {actions : List Action}
    (h : e.catalog.permits operation actions = true) :
    e'.catalog.permits operation actions = true := by
  unfold Catalog.permits at h ⊢
  split at h
  · next entry he => rw [g.operations _ _ he]; exact h
  · cases h

theorem serves (g : Grows e e') {handler : Selector} {operation : OperationType}
    {actions : List Action} (h : e.Serves handler operation actions) :
    e'.Serves handler operation actions := by
  obtain ⟨schema, hs, ho, ha⟩ := h
  exact ⟨schema, g.functions _ _ hs, ho, ha⟩

theorem spending {signer : Identity} (fits : e.HasNonce signer) : Grows e (e.spending signer) where
  identity := rfl
  chain := rfl
  contract := rfl
  operations _ _ h := h
  functions _ _ h := h
  next := UInt64.le_refl _
  nonce other := by
    show e.nonce other ≤ (e.verifier.spend signer).nonce other
    rw [MetaTx.Verifier.nonce_spend]
    split
    · next h =>
      subst h
      rw [UInt64.le_iff_toNat_le]
      exact (toNat_add_one fits).symm ▸ Nat.le_succ _
    · exact UInt64.le_refl _

end Grows

theorem Accepts.grows {reply : Reply} (h : e.Accepts c e' reply) : Grows e e' := by
  cases h with
  | access declarable changed =>
    exact { Grows.refl e with functions := fun s f hs => AccessRegistry.get?_of_step changed hs }
  | registerOperation registered =>
    exact { Grows.refl e with operations := fun j k hj => Catalog.get?_of_register registered hj }
  | request may room => exact .same rfl rfl rfl rfl (UInt64.le_of_lt room.next_lt)
  | requestPeriod may room => exact .same rfl rfl rfl rfl (UInt64.le_of_lt room.next_lt)
  | approveSigned may fits =>
    exact (Grows.spending fits).trans (.same rfl rfl rfl rfl (UInt64.le_refl _))
  | cancelSigned may fits =>
    exact (Grows.spending fits).trans (.same rfl rfl rfl rfl (UInt64.le_refl _))
  | requestSigned may fits room =>
    exact (Grows.spending fits).trans (.same rfl rfl rfl rfl (UInt64.le_of_lt room.next_lt))
  | _ => exact .same rfl rfl rfl rfl (UInt64.le_refl _)

theorem Rejects.grows (h : e.Rejects c e') : Grows e e' := by
  cases h with
  | unchanged => exact .refl e
  | spent fits => exact .spending fits
  | request | requestPeriod => exact .same rfl rfl rfl rfl (UInt64.le_refl _)
  | requestSigned fits =>
    exact (Grows.spending fits).trans (.same rfl rfl rfl rfl (UInt64.le_refl _))

theorem grows_step (e : Engine) (c : Command) : Grows e (e.step c).1 := by
  rcases accepts_or_rejects e c with ⟨e', reply, h⟩ | ⟨fault, e', h, rejects⟩
  · rw [h.step_eq]; exact h.grows
  · rw [h]; exact rejects.grows

/-! ## The numbers of the records -/

theorem Accepts.numbered {reply : Reply} (h : e.Accepts c e' reply) (hn : e.ledger.Numbered) :
    e'.ledger.Numbered := by
  cases h with
  | request may room => exact hn.opening room rfl
  | requestPeriod may room => exact hn.opening room rfl
  | attachPayment may => exact hn.put may.pending rfl
  | approve may => rw [approved_ledger]; exact hn.close may.pending rfl
  | cancel may => exact hn.close may.pending rfl
  | approveSigned may => rw [approved_ledger]; exact Ledger.Numbered.close hn may.pending rfl
  | cancelSigned may => exact Ledger.Numbered.close hn may.pending rfl
  | requestSigned may fits room =>
    rw [requestedSigned_ledger]
    exact (hn.opening room rfl).close ⟨SortedMap.get?_insert_self, rfl⟩ rfl
  | _ => exact hn

theorem numbered_step (hn : e.ledger.Numbered) (c : Command) : (e.step c).1.ledger.Numbered := by
  rcases accepts_or_keeps hn c with ⟨e', reply, h⟩ | ⟨fault, verifier, h⟩
  · rw [h.step_eq]
    exact h.numbered hn
  · rw [h]
    exact hn

/-! ## Runs -/

@[simp] theorem run_cons : e.run (c :: cs) = (e.step c).1.run cs := rfl

theorem run_append : e.run (cs ++ ds) = (e.run cs).run ds := List.foldl_append

theorem run_concat : e.run (cs ++ [c]) = ((e.run cs).step c).1 := run_append

theorem Reaches.run (h : Reaches e e') (cs : List Command) : Reaches e (e'.run cs) := by
  induction cs generalizing e' with
  | nil => exact h
  | cons c cs ih => exact ih (h.step c)

theorem reaches_iff : Reaches e e' ↔ ∃ cs, e' = e.run cs := by
  constructor
  · intro h
    induction h with
    | refl => exact ⟨[], rfl⟩
    | step _ c ih =>
      obtain ⟨cs, rfl⟩ := ih
      exact ⟨cs ++ [c], run_concat.symm⟩
  · rintro ⟨cs, rfl⟩
    exact (Reaches.refl e).run cs

theorem grows_run (e : Engine) (cs : List Command) : Grows e (e.run cs) := by
  induction cs generalizing e with
  | nil => exact .refl e
  | cons c cs ih => exact (grows_step e c).trans (ih _)

theorem numbered_run (hn : e.ledger.Numbered) (cs : List Command) : (e.run cs).ledger.Numbered := by
  induction cs generalizing e with
  | nil => exact hn
  | cons c cs ih => exact ih (numbered_step hn c)

/-- What every accepted command keeps, and a spent nonce does not touch, is kept by every step that
overwrites no record. -/
theorem invariant_step {P : Engine → Prop}
    (accepts : ∀ {e e' : Engine} {c : Command} {reply : Reply}, e.Accepts c e' reply → P e → P e')
    (spends : ∀ {e : Engine} (signer : Identity), P e → P (e.spending signer))
    (hn : e.ledger.Numbered) (h : P e) (c : Command) : P (e.step c).1 := by
  rcases step_cases hn c with ⟨e', reply, ha⟩ | ⟨fault, hs | ⟨-, tx, relay, -, -, hs⟩⟩
  · rw [ha.step_eq]; exact accepts ha h
  · rw [hs]; exact h
  · rw [hs]; exact spends _ h

theorem invariant_run {P : Engine → Prop}
    (keeps : ∀ {e : Engine}, e.ledger.Numbered → P e → ∀ c, P (e.step c).1)
    (hn : e.ledger.Numbered) (h : P e) (cs : List Command) : P (e.run cs) := by
  induction cs generalizing e with
  | nil => exact h
  | cons c cs ih => exact ih (numbered_step hn c) (keeps hn h c)

/-! ## New engines -/

/-- The parts of a new engine: what is configured and built in, an empty ledger, and the clock, the
sink and the dispatcher it is given. -/
structure Created (config : EngineConfig) (clock : UInt64) (sink : EventSink)
    (dispatcher : Dispatcher) (e : Engine) : Prop where
  access : ∃ owner, initialAccess owner = .ok e.access
  catalog : initialCatalog = .ok e.catalog
  timelock : policyOf config.timelock = .ok e.timelock
  verifier : e.verifier = .create config.chainId e.identity
  ledger : e.ledger = .empty
  clock : e.clock = clock
  sink : e.sink = sink
  dispatcher : e.dispatcher = dispatcher

section Created

variable {config : EngineConfig} {clock : UInt64} {sink : EventSink} {dispatcher : Dispatcher}

theorem created_of_create (h : create config clock sink dispatcher = .ok e) :
    Created config clock sink dispatcher e := by
  simp only [create, bind_eq_ok_iff, pure_eq_ok_iff] at h
  obtain ⟨-, -, identity, -, owner, -, timelock, policy, access, roles, catalog, operations, rfl⟩ :=
    h
  exact ⟨⟨owner, roles⟩, operations, policy, rfl, rfl, rfl, rfl, rfl⟩

/-- A new ledger has no record of which anything could fail to hold. -/
theorem Created.forall_records (h : Created config clock sink dispatcher e)
    {P : TxId → Record → Prop} (id : TxId) (r : Record)
    (hr : e.ledger.records.get? id = some r) : P id r := by
  rw [h.ledger] at hr
  cases hr

/-- The function through which a period is requested on the delay track. -/
def requestFunction : FunctionSchema :=
  .ofSignature Governance.requestSignature Governance.operation delayActions governanceParams

/-- The function through which periods are changed by meta-transactions. -/
def metaFunction : FunctionSchema :=
  .ofSignature Governance.metaSignature Governance.operation metaActions governanceParams

/-- The changes by which the registry of a new engine comes about. -/
def initialChanges (owner : Option Identity) : List AccessCommand :=
  .defineRole RoleId.ownerName 1 true ::
    (owner.toList.map (.addMember RoleId.owner) ++
      [.registerFunction requestFunction, .registerFunction metaFunction,
        .grant RoleId.owner requestFunction.selector delayActions,
        .grant RoleId.owner metaFunction.selector metaActions])

theorem undergoes_of_declarations {r r₁ r₂ r₃ access : AccessRegistry} {request signed : Selector}
    (declared : r.registerFunction requestFunction = .ok (r₁, request))
    (declared' : r₁.registerFunction metaFunction = .ok (r₂, signed))
    (granted : r₂.grant RoleId.owner request delayActions = .ok r₃)
    (granted' : r₃.grant RoleId.owner signed metaActions = .ok access) :
    r.Undergoes [.registerFunction requestFunction, .registerFunction metaFunction,
      .grant RoleId.owner requestFunction.selector delayActions,
      .grant RoleId.owner metaFunction.selector metaActions] access := by
  obtain rfl : request = requestFunction.selector := by
    cases AccessRegistry.accepts_of_registerFunction declared <;> rfl
  obtain rfl : signed = metaFunction.selector := by
    cases AccessRegistry.accepts_of_registerFunction declared' <;> rfl
  exact .first (map_eq_ok_iff.mpr ⟨_, declared, rfl⟩) <|
    .first (map_eq_ok_iff.mpr ⟨_, declared', rfl⟩) <|
    .first (map_eq_ok_iff.mpr ⟨_, granted, rfl⟩) <|
    .first (map_eq_ok_iff.mpr ⟨_, granted', rfl⟩) (.nothing access)

theorem undergoes_of_initialAccess {owner : Option Identity} {access : AccessRegistry}
    (h : initialAccess owner = .ok access) :
    AccessRegistry.empty.Undergoes (initialChanges owner) access := by
  unfold initialAccess at h
  obtain ⟨⟨r₁, role⟩, defined, h⟩ := bind_eq_ok_iff.mp h
  obtain rfl : role = RoleId.owner := AccessRegistry.eq_ofName_of_defineRole defined
  have first : AccessRegistry.empty.step (.defineRole RoleId.ownerName 1 true) =
      .ok (r₁, .role RoleId.owner) := by
    rw [AccessRegistry.step, defined]
    rfl
  refine .first first ?_
  cases owner with
  | none =>
    simp only [bind_eq_ok_iff, pure_eq_ok_iff] at h
    obtain ⟨r₂, rfl, ⟨r₃, request⟩, declared, ⟨r₄, signed⟩, declared', r₅, granted, granted'⟩ := h
    exact undergoes_of_declarations declared declared' granted granted'
  | some identity =>
    simp only [bind_eq_ok_iff] at h
    obtain ⟨r₂, member, ⟨r₃, request⟩, declared, ⟨r₄, signed⟩, declared', r₅, granted, granted'⟩ :=
      h
    exact .first (map_eq_ok_iff.mpr ⟨_, member, rfl⟩)
      (undergoes_of_declarations declared declared' granted granted')

/-- How an engine comes out of `create`: without records and payloads, and its verifier in its
place. -/
structure IsNew (e : Engine) : Prop where
  ledger : e.ledger = .empty
  verifier : e.verifier = .create e.chainId e.identity

theorem isNew_of_create (h : create config clock sink dispatcher = .ok e) : e.IsNew := by
  have created := created_of_create h
  refine ⟨created.ledger, ?_⟩
  rw [chainId, created.verifier]
  rfl

end Created

namespace IsNew

theorem nonce (h : e.IsNew) (signer : Identity) : e.nonce signer = 0 := by
  rw [Engine.nonce, h.verifier]
  rfl

theorem contract_run (h : e.IsNew) (cs : List Command) :
    (e.run cs).verifier.identity = e.identity := by
  rw [(grows_run e cs).contract, h.verifier]
  rfl

theorem statusAt (h : e.IsNew) (id : TxId) : e.ledger.statusAt id = none := by
  rw [h.ledger]
  rfl

theorem numbered (h : e.IsNew) (cs : List Command) : (e.run cs).ledger.Numbered := by
  apply numbered_run
  rw [h.ledger]
  exact Ledger.numbered_empty

end IsNew

theorem numbered_of_create {config : EngineConfig} {clock : UInt64} {sink : EventSink}
    {dispatcher : Dispatcher} (created : create config clock sink dispatcher = .ok e) :
    e.ledger.Numbered :=
  (isNew_of_create created).numbered []

/-! ## Lists kept along with the records -/

/-- Let each entry of a list belong to a record. If what is added belongs to the one record that is
stored, and goes with it whenever the entries before went with what stood there, then the entries of
every record go with it afterwards. -/
theorem forall_filter_append {α : Type} {owner : α → TxId} {Goes : Option Record → List α → Prop}
    {l l' : Ledger} {id : TxId} {r : Record} {log more : List α}
    (stored : ∀ j, l'.records.get? j = if j = id then some r else l.records.get? j)
    (about : ∀ a ∈ more, owner a = id)
    (extended : Goes (l.records.get? id) (log.filter fun a => owner a = id) →
      Goes (some r) ((log.filter fun a => owner a = id) ++ more))
    (goes : ∀ j, Goes (l.records.get? j) (log.filter fun a => owner a = j)) (j : TxId) :
    Goes (l'.records.get? j) ((log ++ more).filter fun a => owner a = j) := by
  rw [stored, List.filter_append]
  by_cases hj : j = id
  · subst hj
    have all : more.filter (fun a => owner a = j) = more :=
      List.filter_eq_self.mpr fun a ha => decide_eq_true (about a ha)
    rw [if_pos rfl, all]
    exact extended (goes j)
  · have none : more.filter (fun a => owner a = j) = [] := by
      refine List.filter_eq_nil_iff.mpr fun a ha => ?_
      rw [about a ha]
      simpa using Ne.symm hj
    rw [if_neg hj, none, List.append_nil]
    exact goes j

end Engine

end Countersign
