import Countersign.Access.Role
import Countersign.Fault

/-!
# The access registry

`AccessRegistry` holds the roles, the declared functions and the grant table, which gives each role
its actions on each selector. `allows` is the permission check: some role grants the action and has
the identity as a member. An operation that faults leaves the registry as it was.
-/

namespace Countersign

structure AccessRegistry where
  roles : SortedMap RoleId Role
  functions : SortedMap Selector FunctionSchema
  grants : SortedMap RoleId (SortedMap Selector (SortedSet Action))
  deriving DecidableEq, Repr

namespace AccessRegistry

def empty : AccessRegistry := ⟨.empty, .empty, .empty⟩

/-! ## Queries -/

def role (r : AccessRegistry) (id : RoleId) : Except Fault Role :=
  match r.roles.get? id with
  | some role => .ok role
  | none => .error (.unknownRole id)

def function (r : AccessRegistry) (selector : Selector) : Except Fault FunctionSchema :=
  match r.functions.get? selector with
  | some schema => .ok schema
  | none => .error (.unknownFunction selector)

def grantsOf (r : AccessRegistry) (id : RoleId) : SortedMap Selector (SortedSet Action) :=
  (r.grants.get? id).getD .empty

def grants? (r : AccessRegistry) (id : RoleId) (selector : Selector) (action : Action) : Bool :=
  match (r.grantsOf id).get? selector with
  | some actions => actions.contains action
  | none => false

def isMember (r : AccessRegistry) (id : RoleId) (identity : Identity) : Bool :=
  match r.roles.get? id with
  | some role => role.members.contains identity
  | none => false

def allows (r : AccessRegistry) (identity : Identity) (selector : Selector) (action : Action) :
    Bool :=
  r.grants.keys.any fun id => r.grants? id selector action && r.isMember id identity

def rolesOf (r : AccessRegistry) (identity : Identity) : List RoleId :=
  (r.roles.values.filter fun role => role.members.contains identity).map Role.id

/-! ## Roles -/

/-- Defines a role. An unprotected role may be defined again with the same limits. -/
def defineRole (r : AccessRegistry) (name : String) (maxMembers : UInt64) (isProtected : Bool) :
    Except Fault (AccessRegistry × RoleId) :=
  let id := RoleId.ofName name
  if name = "" then .error (.invalidRole .emptyName)
  else if maxMembers = 0 then .error (.invalidRole (.noMembers name))
  else
    match r.roles.get? id with
    | some role =>
      if role.isProtected then .error (.roleExists name)
      else if role.maxMembers ≠ maxMembers ∨ role.isProtected ≠ isProtected then
        .error (.invalidRole (.otherLimits name))
      else .ok (r, id)
    | none =>
      .ok ({ r with roles := r.roles.insert id ⟨id, name, maxMembers, isProtected, .empty⟩ }, id)

def withMembers (r : AccessRegistry) (role : Role) (members : SortedSet Identity)
    (id : RoleId) : AccessRegistry :=
  { r with roles := r.roles.insert id { role with members } }

def addMember (r : AccessRegistry) (id : RoleId) (identity : Identity) :
    Except Fault AccessRegistry := do
  let role ← r.role id
  ensure (role.members.contains identity = false) (.alreadyMember id identity)
  ensure (role.isFull = false) (.roleFull id role.maxMembers)
  return r.withMembers role (role.members.insert identity) id

def removeMember (r : AccessRegistry) (id : RoleId) (identity : Identity) :
    Except Fault AccessRegistry := do
  let role ← r.role id
  ensure (role.isProtected = false) (.protectedRole id)
  ensure (role.members.contains identity = true) (.notMember id identity)
  return r.withMembers role (role.members.erase identity) id

/-- Puts one member in the place of another, also in a protected role. -/
def replaceMember (r : AccessRegistry) (id : RoleId) (old new : Identity) :
    Except Fault AccessRegistry := do
  let role ← r.role id
  ensure (role.members.contains old = true) (.notMember id old)
  ensure (old = new ∨ role.members.contains new = false) (.alreadyMember id new)
  return r.withMembers role ((role.members.erase old).insert new) id

/-! ## Functions and grants -/

/-- Declares a function; declaring it again with the same content changes nothing. -/
def registerFunction (r : AccessRegistry) (schema : FunctionSchema) :
    Except Fault (AccessRegistry × Selector) :=
  match r.functions.get? schema.selector with
  | some declared =>
    if declared = schema then .ok (r, schema.selector)
    else .error (.functionExists schema.selector)
  | none =>
    .ok ({ r with functions := r.functions.insert schema.selector schema }, schema.selector)

def requireSupport (schema : FunctionSchema) (selector : Selector) (actions : List Action) :
    Except Fault Unit :=
  match actions.find? fun a => !schema.supports a with
  | some a => .error (.unsupportedAction selector a)
  | none => .ok ()

def grant (r : AccessRegistry) (id : RoleId) (selector : Selector) (actions : List Action) :
    Except Fault AccessRegistry := do
  let _ ← r.role id
  let schema ← r.function selector
  requireSupport schema selector actions
  let held := ((r.grantsOf id).get? selector).getD .empty
  let bySelector := (r.grantsOf id).insert selector (held.insertAll actions)
  return { r with grants := r.grants.insert id bySelector }

/-- The grants of one role without some actions; selectors left without action disappear. -/
def revokeActions (bySelector : SortedMap Selector (SortedSet Action)) (selector : Selector)
    (actions : List Action) : SortedMap Selector (SortedSet Action) :=
  match bySelector.get? selector with
  | none => bySelector
  | some held =>
    let left := held.eraseAll actions
    if left.isEmpty then bySelector.erase selector else bySelector.insert selector left

/-- Revokes actions on a selector; roles left without grant disappear from the table. -/
def revoke (r : AccessRegistry) (id : RoleId) (selector : Selector) (actions : List Action) :
    Except Fault AccessRegistry := do
  let _ ← r.role id
  let _ ← r.function selector
  match r.grants.get? id with
  | none => return r
  | some bySelector =>
    let left := revokeActions bySelector selector actions
    return { r with
      grants := if left.isEmpty then r.grants.erase id else r.grants.insert id left }

end AccessRegistry

end Countersign
