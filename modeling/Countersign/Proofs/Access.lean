import Countersign.Access.Command

/-!
# What a change of the registry does

`AccessRegistry.Accepts r c r' reply` is the registry's behaviour as a set of rules: the change `c`
is accepted, under conditions on the roles and the functions of `r`, and leads to `r'`.
`step_eq_ok_iff` says that these are all the accepted changes. The lemmas on `granting`, `revoking` and `withMembers`
say what the registry afterwards answers.
-/

namespace Countersign.AccessRegistry

variable {r r' : AccessRegistry} {c : AccessCommand} {reply : AccessReply} {id j : RoleId}
  {role : Role} {s t : Selector} {schema : FunctionSchema} {actions : List Action} {a : Action}
  {i : Identity}

theorem role_eq_ok_iff : r.role id = .ok role ↔ r.roles.get? id = some role := by
  unfold AccessRegistry.role
  cases r.roles.get? id <;> simp

theorem function_eq_ok_iff : r.function s = .ok schema ↔ r.functions.get? s = some schema := by
  unfold AccessRegistry.function
  cases r.functions.get? s <;> simp

theorem requireSupport_eq_ok_iff :
    requireSupport schema s actions = .ok () ↔ ∀ a ∈ actions, schema.supports a = true := by
  rw [requireSupport]
  cases h : actions.find? fun a => !schema.supports a with
  | none =>
    rw [List.find?_eq_none] at h
    simpa using h
  | some a =>
    have hm := List.mem_of_find?_eq_some h
    have hp := List.find?_some h
    simp only [reduceCtorEq, false_iff]
    intro hs
    rw [hs a hm] at hp
    cases hp

/-! ## Members -/

theorem isMember_of_role (h : r.roles.get? id = some role) :
    r.isMember id i = role.members.contains i := by
  unfold isMember
  rw [h]

def withRole (r : AccessRegistry) (role : Role) : AccessRegistry :=
  { r with roles := r.roles.insert role.id role }

theorem isMember_withMembers {members : SortedSet Identity} :
    (r.withMembers role members id).isMember j i =
      if j = id then members.contains i else r.isMember j i := by
  by_cases hj : j = id
  · subst hj
    simp [isMember, withMembers]
  · simp [isMember, withMembers, SortedMap.get?_insert_ne hj, hj]

/-! ## Grants -/

def granting (r : AccessRegistry) (id : RoleId) (s : Selector) (actions : List Action) :
    AccessRegistry :=
  { r with grants := r.grants.insert id ((r.grantsOf id).insert s
      ((((r.grantsOf id).get? s).getD .empty).insertAll actions)) }

def revoking (r : AccessRegistry) (id : RoleId) (s : Selector) (actions : List Action) :
    AccessRegistry :=
  match r.grants.get? id with
  | none => r
  | some bySelector =>
    let left := revokeActions bySelector s actions
    { r with grants := if left.isEmpty then r.grants.erase id else r.grants.insert id left }

@[simp] theorem revoking_roles : (r.revoking id s actions).roles = r.roles := by
  unfold revoking
  split <;> rfl

@[simp] theorem revoking_functions : (r.revoking id s actions).functions = r.functions := by
  unfold revoking
  split <;> rfl

theorem grantsOf_granting : (r.granting id s actions).grantsOf j =
    if j = id then
      (r.grantsOf id).insert s ((((r.grantsOf id).get? s).getD .empty).insertAll actions)
    else r.grantsOf j := by
  unfold granting
  rw [grantsOf, SortedMap.get?_insert]
  split <;> rfl

/-- A role without grants is the same as one with an empty table. -/
theorem grantsOf_revoking : (r.revoking id s actions).grantsOf j =
    if j = id then revokeActions (r.grantsOf id) s actions else r.grantsOf j := by
  cases h : r.grants.get? id with
  | none =>
    have hid : r.grantsOf id = .empty := by rw [grantsOf, h]; rfl
    have same : r.revoking id s actions = r := by simp only [revoking, h]
    rw [same, hid]
    split
    · next hj => rw [hj, hid]; rfl
    · rfl
  | some table =>
    have hid : r.grantsOf id = table := by rw [grantsOf, h]; rfl
    by_cases he : (revokeActions table s actions).isEmpty = true
    · have hempty : revokeActions table s actions = .empty := SortedMap.isEmpty_iff.mp he
      simp only [revoking, h, he, ↓reduceIte, grantsOf, SortedMap.get?_erase, Option.getD_some]
      rw [hempty]
      split <;> rfl
    · simp only [revoking, h, he, Bool.false_eq_true, ↓reduceIte, grantsOf, SortedMap.get?_insert,
        Option.getD_some]
      split <;> rfl

/-- What is left on a selector; one without actions left grants nothing, listed or not. -/
theorem contains_revokeActions {table : SortedMap Selector (SortedSet Action)} :
    (((revokeActions table s actions).get? t).getD .empty).contains a =
      if t = s ∧ a ∈ actions then false else ((table.get? t).getD .empty).contains a := by
  unfold revokeActions
  cases h : table.get? s with
  | none =>
    by_cases ht : t = s
    · subst ht
      simp [h]
    · simp [ht]
  | some held =>
    by_cases ht : t = s
    · subst ht
      by_cases he : (held.eraseAll actions).isEmpty = true
      · have hnone : (held.eraseAll actions).contains a = false := by
          rw [SortedSet.isEmpty_iff.mp he, SortedSet.contains_empty]
        rw [SortedSet.contains_eraseAll] at hnone
        simpa [he, h] using hnone
      · simp [he, h, SortedSet.contains_eraseAll]
    · dsimp only
      split
      · rw [SortedMap.get?_erase_ne ht]; simp [ht]
      · rw [SortedMap.get?_insert_ne ht]; simp [ht]

theorem grants?_eq : r.grants? id s a = (((r.grantsOf id).get? s).getD .empty).contains a := by
  unfold grants?
  cases (r.grantsOf id).get? s <;> rfl

theorem grants?_granting : (r.granting id s actions).grants? j t a =
    if j = id ∧ t = s ∧ a ∈ actions then true else r.grants? j t a := by
  rw [grants?_eq, grants?_eq, grantsOf_granting]
  by_cases hj : j = id
  · subst hj
    by_cases ht : t = s
    · subst ht
      simp [SortedSet.contains_insertAll]
    · simp [ht, SortedMap.get?_insert_ne ht]
  · simp [hj]

theorem grants?_revoking : (r.revoking id s actions).grants? j t a =
    if j = id ∧ t = s ∧ a ∈ actions then false else r.grants? j t a := by
  rw [grants?_eq, grants?_eq, grantsOf_revoking]
  by_cases hj : j = id
  · subst hj
    simp [contains_revokeActions]
  · simp [hj]

theorem isMember_revoking : (r.revoking id s actions).isMember j i = r.isMember j i := by
  unfold isMember
  rw [revoking_roles]

/-- An identity may perform an action if one of its roles grants it. -/
theorem allows_eq_true_iff : r.allows i s a = true ↔
    ∃ id, r.isMember id i = true ∧ r.grants? id s a = true := by
  simp only [allows, List.any_eq_true, Bool.and_eq_true]
  constructor
  · rintro ⟨id, -, granted, member⟩
    exact ⟨id, member, granted⟩
  · rintro ⟨id, member, granted⟩
    refine ⟨id, ?_, granted, member⟩
    -- A role that is not in the table grants nothing.
    cases h : r.grants.get? id with
    | none =>
      rw [grants?_eq, grantsOf, h] at granted
      cases granted
    | some table => exact List.mem_map.mpr ⟨(id, table), SortedMap.get?_eq_some_iff.mp h, rfl⟩

/-! ## The rules -/

/-- A change is accepted with a reply and leads from one registry to another. -/
inductive Accepts (r : AccessRegistry) : AccessCommand → AccessRegistry → AccessReply → Prop where
  | defined {name : String} {maxMembers : UInt64} {isProtected : Bool} (named : name ≠ "")
      (positive : maxMembers ≠ 0) (free : r.roles.get? (.ofName name) = none) :
      Accepts r (.defineRole name maxMembers isProtected)
        (r.withRole ⟨.ofName name, name, maxMembers, isProtected, .empty⟩) (.role (.ofName name))
  | redefined {name : String} {role : Role} (named : name ≠ "") (positive : role.maxMembers ≠ 0)
      (found : r.roles.get? (.ofName name) = some role) (unprotected : role.isProtected = false) :
      Accepts r (.defineRole name role.maxMembers false) r (.role (.ofName name))
  | addMember {id : RoleId} {role : Role} {i : Identity} (found : r.roles.get? id = some role)
      (absent : role.members.contains i = false) (room : role.isFull = false) :
      Accepts r (.addMember id i) (r.withMembers role (role.members.insert i) id) .done
  | removeMember {id : RoleId} {role : Role} {i : Identity} (found : r.roles.get? id = some role)
      (unprotected : role.isProtected = false) (member : role.members.contains i = true) :
      Accepts r (.removeMember id i) (r.withMembers role (role.members.erase i) id) .done
  | replaceMember {id : RoleId} {role : Role} {old new : Identity}
      (found : r.roles.get? id = some role) (member : role.members.contains old = true)
      (absent : old = new ∨ role.members.contains new = false) :
      Accepts r (.replaceMember id old new)
        (r.withMembers role ((role.members.erase old).insert new) id) .done
  | declared {schema : FunctionSchema} (free : r.functions.get? schema.selector = none) :
      Accepts r (.registerFunction schema)
        { r with functions := r.functions.insert schema.selector schema }
        (.selector schema.selector)
  | redeclared {schema : FunctionSchema} (found : r.functions.get? schema.selector = some schema) :
      Accepts r (.registerFunction schema) r (.selector schema.selector)
  | grant {id : RoleId} {role : Role} {s : Selector} {schema : FunctionSchema}
      {actions : List Action} (found : r.roles.get? id = some role)
      (declared : r.functions.get? s = some schema)
      (supported : ∀ a ∈ actions, schema.supports a = true) :
      Accepts r (.grant id s actions) (r.granting id s actions) .done
  | revoke {id : RoleId} {role : Role} {s : Selector} {schema : FunctionSchema}
      {actions : List Action} (found : r.roles.get? id = some role)
      (declared : r.functions.get? s = some schema) :
      Accepts r (.revoke id s actions) (r.revoking id s actions) .done

theorem accepts_of_defineRole {name : String} {maxMembers : UInt64} {isProtected : Bool}
    (h : r.defineRole name maxMembers isProtected = .ok (r', id)) :
    r.Accepts (.defineRole name maxMembers isProtected) r' (.role id) := by
  unfold defineRole at h
  split at h
  · cases h
  split at h
  · cases h
  next named positive =>
    dsimp only at h
    split at h
    · next role found =>
      split at h
      · cases h
      split at h
      · cases h
      next unprotected limits =>
        simp only [ne_eq, not_or, Decidable.not_not] at limits
        obtain ⟨rfl, rfl⟩ := limits
        cases h
        have unprotected : role.isProtected = false := by simpa using unprotected
        rw [unprotected]
        exact .redefined named positive found unprotected
    · next free =>
      cases h
      exact .defined named positive free

theorem eq_ofName_of_defineRole {name : String} {maxMembers : UInt64} {isProtected : Bool}
    (h : r.defineRole name maxMembers isProtected = .ok (r', id)) : id = .ofName name := by
  cases accepts_of_defineRole h <;> rfl

theorem accepts_of_registerFunction (h : r.registerFunction schema = .ok (r', s)) :
    r.Accepts (.registerFunction schema) r' (.selector s) := by
  unfold registerFunction at h
  split at h
  · next found =>
    split at h
    · next same =>
      cases h
      subst same
      exact .redeclared found
    · cases h
  · next free =>
    cases h
    exact .declared free

theorem revoke_eq (found : r.roles.get? id = some role)
    (declared : r.functions.get? s = some schema) :
    r.revoke id s actions = .ok (r.revoking id s actions) := by
  rw [revoke, role_eq_ok_iff.mpr found, function_eq_ok_iff.mpr declared, revoking]
  cases r.grants.get? id <;> rfl

theorem accepts_of_step (h : r.step c = .ok (r', reply)) : r.Accepts c r' reply := by
  cases c <;> obtain ⟨x, hx, he⟩ := map_eq_ok_iff.mp h <;> cases he
  case defineRole => exact accepts_of_defineRole hx
  case registerFunction => exact accepts_of_registerFunction hx
  case addMember =>
    simp only [AccessRegistry.addMember, bind_eq_ok_iff, role_eq_ok_iff, ensure_eq_ok_iff,
      exists_unit_iff, pure_eq_ok_iff] at hx
    obtain ⟨role, found, absent, room, rfl⟩ := hx
    exact .addMember found absent room
  case removeMember =>
    simp only [AccessRegistry.removeMember, bind_eq_ok_iff, role_eq_ok_iff, ensure_eq_ok_iff,
      exists_unit_iff, pure_eq_ok_iff] at hx
    obtain ⟨role, found, unprotected, member, rfl⟩ := hx
    exact .removeMember found unprotected member
  case replaceMember =>
    simp only [AccessRegistry.replaceMember, bind_eq_ok_iff, role_eq_ok_iff, ensure_eq_ok_iff,
      exists_unit_iff, pure_eq_ok_iff] at hx
    obtain ⟨role, found, member, absent, rfl⟩ := hx
    exact .replaceMember found member absent
  case grant =>
    simp only [AccessRegistry.grant, bind_eq_ok_iff, role_eq_ok_iff, function_eq_ok_iff,
      requireSupport_eq_ok_iff, exists_unit_iff, pure_eq_ok_iff] at hx
    obtain ⟨role, found, schema, declared, supported, rfl⟩ := hx
    exact .grant found declared supported
  case revoke =>
    have checked := hx
    simp only [AccessRegistry.revoke, bind_eq_ok_iff, role_eq_ok_iff, function_eq_ok_iff] at checked
    obtain ⟨role, found, schema, declared, -⟩ := checked
    rw [revoke_eq found declared] at hx
    cases hx
    exact .revoke found declared

theorem Accepts.step_eq (h : r.Accepts c r' reply) : r.step c = .ok (r', reply) := by
  cases h with
  | defined named positive free =>
    simp [step, defineRole, named, positive, free, Except.map, withRole]
  | redefined named positive found unprotected =>
    simp [step, defineRole, named, positive, found, unprotected, Except.map]
  | addMember found absent room =>
    simp [step, AccessRegistry.addMember, role_eq_ok_iff.mpr found, absent, room, ensure, bind,
      Except.bind, pure, Except.pure, Except.map]
  | removeMember found unprotected member =>
    simp [step, AccessRegistry.removeMember, role_eq_ok_iff.mpr found, unprotected, member, ensure,
      bind, Except.bind, pure, Except.pure, Except.map]
  | replaceMember found member absent =>
    simp [step, AccessRegistry.replaceMember, role_eq_ok_iff.mpr found, member, absent, ensure,
      bind, Except.bind, pure, Except.pure, Except.map]
  | declared free => simp [step, registerFunction, free, Except.map]
  | redeclared found => simp [step, registerFunction, found, Except.map]
  | grant found declared supported =>
    simp only [step, AccessRegistry.grant, role_eq_ok_iff.mpr found,
      function_eq_ok_iff.mpr declared, requireSupport_eq_ok_iff.mpr supported, bind, Except.bind]
    rfl
  | revoke found declared => rw [step, revoke_eq found declared]; rfl

/-- The rules are all there is to accepted changes. -/
theorem step_eq_ok_iff : r.step c = .ok (r', reply) ↔ r.Accepts c r' reply :=
  ⟨accepts_of_step, Accepts.step_eq⟩

end Countersign.AccessRegistry
