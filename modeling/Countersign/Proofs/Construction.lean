import Countersign.Proofs.Governance
import Countersign.Proofs.Submission
import Countersign.Toml.Config

/-!
# New engines

An engine can be built from every valid configuration and from no other: what `create` does after
the configuration is validated cannot fail. `Founded` is what it comes to. The owner's role, the
governing operation type and its two functions are all there is, nothing has happened yet, and the
time-locks are the configured ones.
-/

namespace Countersign

/-! ## Valid configurations -/

/-- An engine's identity and an owner can be read, and no period is zero. -/
structure EngineConfig.Valid (c : EngineConfig) : Prop where
  identity : ∃ i, c.identity = .ok i
  owner : ∃ o, c.ownerIdentity = .ok o
  defaultPeriod : c.timelock.defaultPeriod ≠ 0
  overrides : ∀ entry ∈ c.timelock.overrides.entries, entry.2.period ≠ some 0

theorem EngineConfig.zeroOverride?_eq_none_iff {c : EngineConfig} : c.zeroOverride? = none ↔
    ∀ entry ∈ c.timelock.overrides.entries, entry.2.period ≠ some 0 := by
  simp [zeroOverride?]

theorem EngineConfig.validate_eq_ok_iff {c : EngineConfig} : c.validate = .ok () ↔ c.Valid := by
  simp only [validate, bind_eq_ok_iff]
  constructor
  · rintro ⟨i, identity, o, owner, checked⟩
    split at checked
    · cases checked
    next nonzero =>
      split at checked
      · cases checked
      · next unzeroed =>
        exact ⟨⟨i, identity⟩, ⟨o, owner⟩, nonzero, zeroOverride?_eq_none_iff.mp unzeroed⟩
  · rintro ⟨⟨i, identity⟩, ⟨o, owner⟩, nonzero, positive⟩
    refine ⟨i, identity, o, owner, ?_⟩
    rw [if_neg nonzero, zeroOverride?_eq_none_iff.mpr positive]
    rfl

theorem EngineConfig.valid_of_ofToml {text : String} {c : EngineConfig}
    (h : ofToml text = .ok c) : c.validate = .ok () := by
  unfold ofToml at h
  split at h
  · split at h
    · simp only [bind_eq_ok_iff, mapError_eq_ok_iff, exists_unit_iff, pure_eq_ok_iff] at h
      obtain ⟨validated, rfl⟩ := h
      exact validated
    · cases h
  · cases h

theorem EngineConfig.valid_of_load {files : String → Option String} {path : String}
    {c : EngineConfig} (h : load files path = .ok c) : c.validate = .ok () := by
  unfold load at h
  split at h
  · cases h
  · exact valid_of_ofToml h

namespace TimeLockConfig

/-- No other configured name is of the same operation type as the name. -/
def Alone (c : TimeLockConfig) (name : String) : Prop :=
  ∀ other, c.overrides.contains other = true →
    OperationType.ofName other = OperationType.ofName name → other = name

/-- Of the entries only that of the name itself is about its operation type. -/
theorem filterMap_alone {β : Type} (field : OperationOverride → Option β) {name : String}
    {entries : List (String × OperationOverride)}
    (sorted : entries.Pairwise fun a b => Key.Before a.1 b.1)
    (alone : ∀ entry ∈ entries,
      OperationType.ofName entry.1 = OperationType.ofName name → entry.1 = name) :
    entries.filterMap (fun entry =>
        if OperationType.ofName entry.1 = OperationType.ofName name then field entry.2 else none) =
      ((SortedMap.find name entries).bind field).toList := by
  induction entries with
  | nil => rfl
  | cons entry entries ih =>
    obtain ⟨first, rest⟩ := List.pairwise_cons.mp sorted
    have later := ih rest fun e he => alone e (List.mem_cons_of_mem _ he)
    by_cases h : entry.1 = name
    · have gone : SortedMap.find name entries = none :=
        SortedMap.find_eq_none_of_before fun e he => h ▸ first e he
      rw [gone] at later
      rw [SortedMap.find, if_pos (Key.eq_iff.mpr h.symm), Option.bind_some]
      cases hf : field entry.2 with
      | none => rw [List.filterMap_cons_none (by rw [h, if_pos rfl, hf]), later]; rfl
      | some b => rw [List.filterMap_cons_some (by rw [h, if_pos rfl, hf]), later]; rfl
    · have other : OperationType.ofName entry.1 ≠ OperationType.ofName name := fun same =>
        h (alone entry (List.mem_cons_self ..) same)
      rw [List.filterMap_cons_none (by rw [if_neg other]), later, SortedMap.find,
        if_neg fun same => h (Key.eq_iff.mp same).symm]

theorem getLast?_alone {β : Type} {c : TimeLockConfig} {name : String} (h : c.Alone name)
    (field : OperationOverride → Option β) :
    (c.overrides.entries.filterMap fun entry =>
        if OperationType.ofName entry.1 = OperationType.ofName name then field entry.2
        else none).getLast? = (c.overrides.get? name).bind field := by
  rw [filterMap_alone field c.overrides.sorted fun entry he =>
    h entry.1 (SortedMap.contains_iff.mpr ⟨_, SortedMap.get?_eq_some_iff.mpr he⟩)]
  show ((c.overrides.get? name).bind field).toList.getLast? = _
  cases (c.overrides.get? name).bind field <;> rfl

/-- The operation type of a name has the configured period of the name. -/
theorem periodFor_ofName {c : TimeLockConfig} {name : String} (h : c.Alone name) :
    c.periodFor (.ofName name) =
      ((c.overrides.get? name).bind OperationOverride.period).getD c.defaultPeriod :=
  congrArg (fun period => period.getD c.defaultPeriod) (getLast?_alone h OperationOverride.period)

theorem windowFor_ofName {c : TimeLockConfig} {name : String} (h : c.Alone name) :
    c.windowFor (.ofName name) =
      ((c.overrides.get? name).bind OperationOverride.cancelWindow).getD .anytime :=
  congrArg (fun window => window.getD .anytime) (getLast?_alone h OperationOverride.cancelWindow)

end TimeLockConfig

namespace Engine

/-! ## What is built in -/

theorem selectors_apart : metaFunction.selector ≠ requestFunction.selector := by
  decide +kernel

def ownerRole (members : SortedSet Identity) : Role where
  id := RoleId.owner
  name := RoleId.ownerName
  maxMembers := 1
  isProtected := true
  members

/-- The owner's role and some functions, with nothing granted. -/
def ownerOnly (functions : SortedMap Selector FunctionSchema) (members : SortedSet Identity) :
    AccessRegistry where
  roles := SortedMap.empty.insert RoleId.owner (ownerRole members)
  functions
  grants := .empty

def governingFunctions : SortedMap Selector FunctionSchema :=
  (SortedMap.empty.insert requestFunction.selector requestFunction).insert metaFunction.selector
    metaFunction

def foundingAccess (members : SortedSet Identity) : AccessRegistry :=
  ((ownerOnly governingFunctions members).granting RoleId.owner requestFunction.selector
    delayActions).granting RoleId.owner metaFunction.selector metaActions

def governingEntry : OperationEntry where
  id := Governance.operation
  name := Governance.operationName
  paths := WorkflowPath.standardSet

theorem initialCatalog_eq :
    initialCatalog = .ok ⟨SortedMap.empty.insert Governance.operation governingEntry⟩ :=
  map_eq_ok_iff.mpr ⟨(_, Governance.operation),
    Catalog.register_eq_ok_iff.mpr ⟨rfl, by decide, by decide, rfl, .inr ⟨rfl, rfl⟩⟩, rfl⟩

section Access

variable {r : AccessRegistry} {id : RoleId} {role : Role} {s : Selector} {schema : FunctionSchema}
  {actions : List Action} {i : Identity}

theorem addMember_eq (found : r.roles.get? id = some role)
    (absent : role.members.contains i = false) (room : role.isFull = false) :
    r.addMember id i = .ok (r.withMembers role (role.members.insert i) id) := by
  obtain ⟨r', added, same⟩ :=
    map_eq_ok_iff.mp (AccessRegistry.Accepts.addMember found absent room).step_eq
  cases same
  exact added

theorem registerFunction_eq (schema : FunctionSchema)
    (free : r.functions.get? schema.selector = none) :
    r.registerFunction schema = .ok
      ({ r with functions := r.functions.insert schema.selector schema }, schema.selector) := by
  rw [AccessRegistry.registerFunction, free]

theorem grant_eq (found : r.roles.get? id = some role)
    (declared : r.functions.get? s = some schema)
    (supported : ∀ a ∈ actions, schema.supports a = true) :
    r.grant id s actions = .ok (r.granting id s actions) := by
  obtain ⟨r', granted, same⟩ :=
    map_eq_ok_iff.mp (AccessRegistry.Accepts.grant found declared supported).step_eq
  cases same
  exact granted

end Access

section Founding

variable (functions : SortedMap Selector FunctionSchema) (members : SortedSet Identity)

theorem get?_ownerOnly : (ownerOnly functions members).roles.get? RoleId.owner =
    some (ownerRole members) :=
  SortedMap.get?_insert_self

theorem get?_governingFunctions {s : Selector} {schema : FunctionSchema} :
    governingFunctions.get? s = some schema ↔
      (s = requestFunction.selector ∧ schema = requestFunction) ∨
        (s = metaFunction.selector ∧ schema = metaFunction) := by
  rw [governingFunctions, SortedMap.get?_insert_eq_some_iff, SortedMap.get?_insert_eq_some_iff]
  constructor
  · rintro (h | ⟨-, h | ⟨-, h⟩⟩)
    · exact .inr h
    · exact .inl h
    · cases h
  · rintro (⟨rfl, rfl⟩ | h)
    · exact .inr ⟨selectors_apart.symm, .inl ⟨rfl, rfl⟩⟩
    · exact .inl h

theorem defineRole_owner : AccessRegistry.empty.defineRole RoleId.ownerName 1 true =
    .ok (ownerOnly .empty .empty, RoleId.owner) := by
  have named : RoleId.ownerName ≠ "" := by decide
  unfold AccessRegistry.defineRole
  rw [if_neg named, if_neg (by decide)]
  rfl

theorem addMember_owner {i : Identity} : (ownerOnly functions .empty).addMember RoleId.owner i =
    .ok (ownerOnly functions (SortedSet.empty.insert i)) := by
  have found := get?_ownerOnly functions .empty
  rw [addMember_eq found SortedSet.contains_empty rfl]
  simp only [AccessRegistry.withMembers, ownerOnly, SortedMap.insert_insert]
  rfl

/-- The functions are declared and granted whoever is the owner. -/
theorem declarations_eq :
    (do
      let (r, request) ← (ownerOnly .empty members).registerFunction requestFunction
      let (r, signed) ← r.registerFunction metaFunction
      let r ← r.grant RoleId.owner request delayActions
      r.grant RoleId.owner signed metaActions) = .ok (foundingAccess members) := by
  have request := registerFunction_eq (r := ownerOnly .empty members) requestFunction
    SortedMap.get?_empty
  have signed := registerFunction_eq
    (r := ownerOnly (SortedMap.empty.insert requestFunction.selector requestFunction) members)
    metaFunction (SortedMap.get?_insert_ne selectors_apart)
  have found := get?_ownerOnly governingFunctions members
  have delayed := grant_eq found (get?_governingFunctions.mpr (.inl ⟨rfl, rfl⟩))
    (by decide : ∀ a ∈ delayActions, _)
  refine bind_eq_ok_iff.mpr ⟨_, request, bind_eq_ok_iff.mpr ⟨_, signed, ?_⟩⟩
  refine bind_eq_ok_iff.mpr ⟨_, delayed, ?_⟩
  exact grant_eq found (get?_governingFunctions.mpr (.inr ⟨rfl, rfl⟩)) (by decide)

theorem initialAccess_eq (owner : Option Identity) :
    initialAccess owner = .ok (foundingAccess (.ofList owner.toList)) := by
  refine bind_eq_ok_iff.mpr ⟨_, defineRole_owner, ?_⟩
  cases owner with
  | none => exact bind_eq_ok_iff.mpr ⟨ownerOnly .empty .empty, rfl, declarations_eq .empty⟩
  | some i => exact bind_eq_ok_iff.mpr ⟨_, addMember_owner .empty, declarations_eq (.ofList [i])⟩

end Founding

/-! ## New engines -/

/-- What a new engine is like. Its owner is the configured one and the only member of the only role,
which is protected and grants the two functions that govern time-locks; the governing operation type
is the only one. Nothing is recorded, signed or told the sink, and the time-locks are the configured
ones. -/
structure Founded (config : EngineConfig) (clock : UInt64) (sink : EventSink)
    (dispatcher : Dispatcher) (e : Engine) : Prop where
  identity : config.identity = .ok e.identity
  chainId : e.chainId = config.chainId
  owner : config.ownerIdentity = .ok e.owner
  roles : ∀ id role, e.access.roles.get? id = some role ↔
    id = RoleId.owner ∧ role = ownerRole (.ofList e.owner.toList)
  operations : ∀ operation entry, e.catalog.entries.get? operation = some entry ↔
    operation = Governance.operation ∧ entry = governingEntry
  functions : ∀ s schema, e.access.functions.get? s = some schema ↔
    (s = requestFunction.selector ∧ schema = requestFunction) ∨
      (s = metaFunction.selector ∧ schema = metaFunction)
  grants : ∀ id s a, e.access.grants? id s a = true ↔ id = RoleId.owner ∧
    ((s = requestFunction.selector ∧ a ∈ delayActions) ∨
      (s = metaFunction.selector ∧ a ∈ metaActions))
  ledger : e.ledger = .empty
  nonces : ∀ signer, e.nonce signer = 0
  clock : e.clock = clock
  sink : e.sink = sink
  dispatcher : e.dispatcher = dispatcher
  periods : ∀ name, config.timelock.Alone name → e.timelock.periodFor (.ofName name) =
    ((config.timelock.overrides.get? name).bind OperationOverride.period).getD
      config.timelock.defaultPeriod
  windows : ∀ name, config.timelock.Alone name → e.timelock.cancelWindow (.ofName name) =
    ((config.timelock.overrides.get? name).bind OperationOverride.cancelWindow).getD .anytime

section Create

variable {config : EngineConfig} {clock : UInt64} {sink : EventSink} {dispatcher : Dispatcher}
  {e : Engine}

theorem create_eq_ok_iff : create config clock sink dispatcher = .ok e ↔
    config.validate = .ok () ∧ ∃ identity owner timelock, config.identity = .ok identity ∧
      config.ownerIdentity = .ok owner ∧ policyOf config.timelock = .ok timelock ∧
      { identity, timelock, clock, sink, dispatcher
        access := foundingAccess (.ofList owner.toList)
        catalog := ⟨SortedMap.empty.insert Governance.operation governingEntry⟩
        verifier := .create config.chainId identity
        ledger := .empty } = e := by
  simp only [create, bind_eq_ok_iff, mapError_eq_ok_iff, exists_unit_iff, initialAccess_eq,
    initialCatalog_eq, pure_eq_ok_iff, Except.ok.injEq, exists_eq_left']
  constructor
  · rintro ⟨valid, identity, hi, owner, ho, timelock, ht, same⟩
    exact ⟨valid, identity, owner, timelock, hi, ho, ht, same⟩
  · rintro ⟨valid, identity, owner, timelock, hi, ho, ht, same⟩
    exact ⟨valid, identity, hi, owner, ho, timelock, ht, same⟩

theorem create_eq_error {flaw : ConfigFlaw} (h : config.validate = .error flaw) :
    create config clock sink dispatcher = .error (.invalidConfig flaw) := by
  rw [create, h]
  rfl

theorem exists_create (h : config.validate = .ok ()) :
    ∃ e, create config clock sink dispatcher = .ok e := by
  have valid := EngineConfig.validate_eq_ok_iff.mp h
  obtain ⟨identity, hi⟩ := valid.identity
  obtain ⟨owner, ho⟩ := valid.owner
  have policy := policyOf_eq_ok_iff.mpr ⟨valid.defaultPeriod, valid.overrides, rfl⟩
  exact ⟨_, create_eq_ok_iff.mpr ⟨h, identity, owner, _, hi, ho, policy, rfl⟩⟩

theorem grants?_foundingAccess {members : SortedSet Identity} {id : RoleId} {s : Selector}
    {a : Action} : (foundingAccess members).grants? id s a = true ↔ id = RoleId.owner ∧
      ((s = requestFunction.selector ∧ a ∈ delayActions) ∨
        (s = metaFunction.selector ∧ a ∈ metaActions)) := by
  have nothing : (ownerOnly governingFunctions members).grants? id s a = false := rfl
  rw [foundingAccess, AccessRegistry.grants?_granting, AccessRegistry.grants?_granting, nothing]
  split
  · next h => simp [h]
  next other =>
    split
    · next h => simp [h]
    next other' =>
      simp only [Bool.false_eq_true, false_iff]
      rintro ⟨owner, delayed | signed⟩
      · exact other' ⟨owner, delayed⟩
      · exact other ⟨owner, signed⟩

theorem owner_of_roles {owner : Option Identity} (h : e.access.roles =
    SortedMap.empty.insert RoleId.owner (ownerRole (.ofList owner.toList))) : e.owner = owner := by
  unfold Engine.owner
  rw [h, SortedMap.get?_insert_self]
  cases owner <;> rfl

theorem founded_of_create (h : create config clock sink dispatcher = .ok e) :
    Founded config clock sink dispatcher e := by
  obtain ⟨-, identity, owner, timelock, hi, ho, policy, same⟩ := create_eq_ok_iff.mp h
  have roles : e.access.roles = SortedMap.empty.insert RoleId.owner
      (ownerRole (.ofList owner.toList)) := by
    rw [← same]
    rfl
  have owned : e.owner = owner := owner_of_roles roles
  rw [← owned] at ho roles
  subst same
  exact {
    identity := hi
    chainId := rfl
    owner := ho
    roles := fun id role => by
      rw [roles, SortedMap.get?_insert_eq_some_iff]
      simp
    operations := fun operation entry => by
      rw [SortedMap.get?_insert_eq_some_iff]
      simp
    functions := fun s schema => get?_governingFunctions
    grants := fun id s a => grants?_foundingAccess
    ledger := rfl
    nonces := fun signer => rfl
    clock := rfl
    sink := rfl
    dispatcher := rfl
    periods := fun name alone => by
      rw [(policyOf_spec policy).2, TimeLockConfig.periodFor_ofName alone]
    windows := fun name alone => by
      rw [cancelWindow_of_policyOf policy, TimeLockConfig.windowFor_ofName alone] }

end Create

/-- With any clock, sink and dispatcher an engine can be built from a configuration exactly if the
configuration is valid, and so from every one that is read. The fault is otherwise what validation
finds. -/
theorem created_iff_valid (config : EngineConfig) (clock : UInt64) (sink : EventSink)
    (dispatcher : Dispatcher) :
    ((∃ e, create config clock sink dispatcher = .ok e) ↔ config.validate = .ok ()) ∧
    (∀ flaw, config.validate = .error flaw →
      create config clock sink dispatcher = .error (.invalidConfig flaw) ∧
        (Fault.invalidConfig flaw).message = "invalid configuration: " ++ flaw.message) ∧
    (∀ e, create config clock sink dispatcher = .ok e → Founded config clock sink dispatcher e) ∧
    (∀ text, EngineConfig.ofToml text = .ok config →
      ∃ e, create config clock sink dispatcher = .ok e) ∧
    (∀ files path, EngineConfig.load files path = .ok config →
      ∃ e, create config clock sink dispatcher = .ok e) := by
  refine ⟨⟨?_, exists_create⟩, ?_, ?_, ?_, ?_⟩
  · rintro ⟨e, created⟩
    exact (create_eq_ok_iff.mp created).1
  · intro flaw flawed
    exact ⟨create_eq_error flawed, rfl⟩
  · intro e created
    exact founded_of_create created
  · intro text read
    exact exists_create (EngineConfig.valid_of_ofToml read)
  · intro files path loaded
    exact exists_create (EngineConfig.valid_of_load loaded)

end Engine

namespace Sample

/-- A configuration with an owner and two overrides, as it is written down. -/
def written : String :=
  "owner = \"" ++ owner.hex ++ "\"\n" ++
  "[timelock]\ndefault_period_secs = 3600\n" ++
  "[timelock.overrides.PAY]\nperiod_secs = 60\ncancel_window = \"after_release\"\n" ++
  "[timelock.overrides.PAYEES]\ncancel_window = \"anytime\"\n"

def overriding : EngineConfig :=
  { EngineConfig.standard with
    owner := some owner.hex
    timelock := ⟨3600, .ofList [("PAY", ⟨some 60, some .afterRelease⟩),
      ("PAYEES", ⟨none, some .anytime⟩)]⟩ }

/-- The same with an override that leaves no time at all. -/
def zeroing : EngineConfig :=
  { overriding with timelock := ⟨3600, .ofList [("PAY", ⟨some 0, none⟩)]⟩ }

theorem ofToml_written : EngineConfig.ofToml written = .ok overriding := by
  have read : (EngineConfig.ofToml written).toOption = some overriding := by decide +kernel
  cases h : EngineConfig.ofToml written with
  | error e => rw [h] at read; cases read
  | ok c => rw [h] at read; cases read; rfl

theorem alone_pay : overriding.timelock.Alone "PAY" := by
  have apart : ∀ other ∈ overriding.timelock.overrides.keys,
      OperationType.ofName other = OperationType.ofName "PAY" → other = "PAY" := by
    decide +kernel
  intro other configured
  exact apart other (SortedMap.mem_keys.mpr configured)

end Sample

/-- What is written down is read, and an engine with the written period and window is built from it.
From the configuration with a period of zero there is none. -/
theorem Engine.sample_created : ∃ e,
    create Sample.overriding 100 (.memory []) .empty = .ok e ∧ e.owner = some Sample.owner ∧
      e.timelock.periodFor Sample.pay = 60 ∧ e.timelock.cancelWindow Sample.pay = .afterRelease ∧
      create Sample.zeroing 100 (.memory []) .empty =
        .error (.invalidConfig (.zeroPeriod "PAY")) := by
  obtain ⟨-, -, founded, readable, -⟩ := created_iff_valid Sample.overriding 100 (.memory []) .empty
  obtain ⟨e, created⟩ := readable Sample.written Sample.ofToml_written
  have new := founded e created
  have owned : Sample.overriding.ownerIdentity = .ok (some Sample.owner) := rfl
  refine ⟨e, created, Except.ok.inj (new.owner.symm.trans owned), ?_, ?_, ?_⟩
  · exact new.periods "PAY" Sample.alone_pay
  · exact new.windows "PAY" Sample.alone_pay
  · obtain ⟨-, flawed, -⟩ := created_iff_valid Sample.zeroing 100 (.memory []) .empty
    exact (flawed (.zeroPeriod "PAY") rfl).1

end Countersign
