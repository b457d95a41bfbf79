import Countersign.Proofs.Submission

/-!
# Roles keep their limits

`RoleStep` says what an accepted change of a registry does to the role under one identifier. So a role
keeps its name, its limit and its protection from its definition on, never has more members than its
limit allows, and loses none while it is protected (`Role.Limited`, `Role.Later`). The owner's role of
an engine is protected and has room for one: as soon as it has a member there is always exactly one
owner, whom only a replacement changes (`roles_and_owner_kept`).
-/

namespace Countersign

/-! ## Roles -/

namespace Role

variable {id : RoleId} {r r' r'' : Role}

/-- A role under its identifier, with room for at least one member and no more members than room. -/
structure Limited (id : RoleId) (r : Role) : Prop where
  id : r.id = id
  positive : 1 ≤ r.maxMembers.toNat
  bounded : r.members.size ≤ r.maxMembers.toNat

/-- A role later on: its definition stays, and a protected role has at least as many members. -/
structure Later (r r' : Role) : Prop where
  id : r'.id = r.id
  name : r'.name = r.name
  maxMembers : r'.maxMembers = r.maxMembers
  isProtected : r'.isProtected = r.isProtected
  kept : r.isProtected = true → r.members.size ≤ r'.members.size

theorem Later.refl (r : Role) : r.Later r := ⟨rfl, rfl, rfl, rfl, fun _ => Nat.le_refl _⟩

theorem Later.trans (h : r.Later r') (h' : r'.Later r'') : r.Later r'' where
  id := h'.id.trans h.id
  name := h'.name.trans h.name
  maxMembers := h'.maxMembers.trans h.maxMembers
  isProtected := h'.isProtected.trans h.isProtected
  kept hp := Nat.le_trans (h.kept hp) (h'.kept (h.isProtected.trans hp))

theorem isFull_eq_false_iff : r.isFull = false ↔ r.members.size < r.maxMembers.toNat := by
  rw [isFull, decide_eq_false_iff_not, Nat.not_le]

/-- A replacement leaves as many members as before, also when a member takes its own place. -/
theorem size_replaced {old new : Identity} (member : r.members.contains old = true)
    (absent : old = new ∨ r.members.contains new = false) :
    ((r.members.erase old).insert new).size = r.members.size := by
  have free : (r.members.erase old).contains new = false := by
    rw [SortedSet.contains_erase]
    split
    · rfl
    · next hne => exact absent.resolve_left (Ne.symm hne)
  rw [SortedSet.size_insert free, SortedSet.size_erase member]

end Role

/-! ## One change -/

/-- What an accepted change may do to the role under an identifier. -/
inductive RoleStep (id : RoleId) : AccessCommand → Option Role → Option Role → Prop where
  | kept (c : AccessCommand) (role? : Option Role) : RoleStep id c role? role?
  | defined {name : String} {maxMembers : UInt64} {isProtected : Bool}
      (positive : maxMembers ≠ 0) :
      RoleStep id (.defineRole name maxMembers isProtected) none
        (some ⟨id, name, maxMembers, isProtected, .empty⟩)
  | added {r : Role} {i : Identity} (absent : r.members.contains i = false)
      (room : r.isFull = false) :
      RoleStep id (.addMember id i) (some r) (some { r with members := r.members.insert i })
  | removed {r : Role} {i : Identity} (unprotected : r.isProtected = false)
      (member : r.members.contains i = true) :
      RoleStep id (.removeMember id i) (some r) (some { r with members := r.members.erase i })
  | replaced {r : Role} {old new : Identity} (member : r.members.contains old = true)
      (absent : old = new ∨ r.members.contains new = false) :
      RoleStep id (.replaceMember id old new) (some r)
        (some { r with members := (r.members.erase old).insert new })

namespace RoleStep

variable {id : RoleId} {c : AccessCommand} {role? : Option Role} {r r' : Role}

theorem limited (h : RoleStep id c role? (some r')) (before : ∀ r ∈ role?, r.Limited id) :
    r'.Limited id := by
  cases h with
  | kept => exact before _ rfl
  | defined positive =>
    refine ⟨rfl, ?_, Nat.zero_le _⟩
    exact Nat.one_le_iff_ne_zero.mpr fun h => positive (UInt64.toNat.inj h)
  | added absent room =>
    obtain ⟨hid, positive, -⟩ := before _ rfl
    refine ⟨hid, positive, ?_⟩
    rw [SortedSet.size_insert absent]
    exact Role.isFull_eq_false_iff.mp room
  | removed unprotected member =>
    obtain ⟨hid, positive, bounded⟩ := before _ rfl
    have fewer := Nat.le_of_eq (SortedSet.size_erase member)
    exact ⟨hid, positive, Nat.le_trans (Nat.le_of_succ_le fewer) bounded⟩
  | replaced member absent =>
    obtain ⟨hid, positive, bounded⟩ := before _ rfl
    exact ⟨hid, positive, Nat.le_trans (Nat.le_of_eq (Role.size_replaced member absent)) bounded⟩

/-- A role that is there stays, and is defined as before. -/
theorem later (h : RoleStep id c (some r) role?) : ∃ r', role? = some r' ∧ r.Later r' := by
  cases h with
  | kept => exact ⟨r, rfl, .refl r⟩
  | added absent room =>
    refine ⟨_, rfl, rfl, rfl, rfl, rfl, fun _ => ?_⟩
    rw [SortedSet.size_insert absent]
    exact Nat.le_succ _
  | removed unprotected member =>
    refine ⟨_, rfl, rfl, rfl, rfl, rfl, fun hp => ?_⟩
    rw [unprotected] at hp
    cases hp
  | replaced member absent =>
    exact ⟨_, rfl, rfl, rfl, rfl, rfl,
      fun _ => Nat.le_of_eq (Role.size_replaced member absent).symm⟩

end RoleStep

namespace AccessRegistry

variable {r r' : AccessRegistry} {c : AccessCommand} {reply : AccessReply} {id : RoleId}
  {role : Role}

theorem get?_withMembers {members : SortedSet Identity} {j : RoleId} :
    (r.withMembers role members j).roles.get? id =
      if id = j then some { role with members } else r.roles.get? id :=
  SortedMap.get?_insert

/-- A change of the members of one role leaves the others as they are. -/
theorem roleStep_withMembers {members : SortedSet Identity} {j : RoleId}
    (found : r.roles.get? j = some role)
    (step : id = j → RoleStep id c (some role) (some { role with members })) :
    RoleStep id c (r.roles.get? id) ((r.withMembers role members j).roles.get? id) := by
  rw [get?_withMembers]
  split
  · next hid =>
    rw [hid, found]
    exact hid ▸ step hid
  · exact .kept ..

theorem Accepts.roleStep (h : r.Accepts c r' reply) (id : RoleId) :
    RoleStep id c (r.roles.get? id) (r'.roles.get? id) := by
  cases h with
  | @defined name maxMembers isProtected named positive free =>
    show RoleStep id _ (r.roles.get? id) ((r.roles.insert _ _).get? id)
    rw [SortedMap.get?_insert]
    split
    · next hid =>
      subst hid
      rw [free]
      exact .defined positive
    · exact .kept ..
  | addMember found absent room =>
    exact roleStep_withMembers found fun hid => hid ▸ .added absent room
  | removeMember found unprotected member =>
    exact roleStep_withMembers found fun hid => hid ▸ .removed unprotected member
  | replaceMember found member absent =>
    exact roleStep_withMembers found fun hid => hid ▸ .replaced member absent
  | revoke =>
    rw [revoking_roles]
    exact .kept ..
  | _ => exact .kept ..

/-! ## Whole runs -/

def RolesLimited (r : AccessRegistry) : Prop :=
  ∀ id role, r.roles.get? id = some role → role.Limited id

/-- Every role of a registry is there later on, defined as before. -/
def RolesLater (r r' : AccessRegistry) : Prop :=
  ∀ id role, r.roles.get? id = some role → ∃ role', r'.roles.get? id = some role' ∧ role.Later role'

theorem RolesLater.refl (r : AccessRegistry) : r.RolesLater r :=
  fun _ role found => ⟨role, found, .refl role⟩

theorem RolesLater.trans {r'' : AccessRegistry} (h : r.RolesLater r') (h' : r'.RolesLater r'') :
    r.RolesLater r'' := by
  intro id role found
  obtain ⟨role', found', later⟩ := h id role found
  obtain ⟨role'', found'', later'⟩ := h' id role' found'
  exact ⟨role'', found'', later.trans later'⟩

theorem Accepts.rolesLimited (h : r.Accepts c r' reply) (limited : r.RolesLimited) :
    r'.RolesLimited := by
  intro id role found
  have step := h.roleStep id
  rw [found] at step
  exact step.limited fun before hb => limited id before hb

theorem Accepts.rolesLater (h : r.Accepts c r' reply) : r.RolesLater r' := by
  intro id role found
  have step := h.roleStep id
  rw [found] at step
  exact step.later

theorem rolesLimited_empty : empty.RolesLimited := by
  intro id role found
  cases found

theorem rolesLimited_run (limited : r.RolesLimited) (cs : List AccessCommand) :
    (r.run cs).RolesLimited := by
  induction cs generalizing r with
  | nil => exact limited
  | cons c cs ih =>
    refine ih ?_
    unfold after
    split
    · next r' reply h => exact (step_eq_ok_iff.mp h).rolesLimited limited
    · exact limited

theorem rolesLater_run (r : AccessRegistry) (cs : List AccessCommand) : r.RolesLater (r.run cs) := by
  induction cs generalizing r with
  | nil => exact .refl r
  | cons c cs ih =>
    refine RolesLater.trans ?_ (ih (r.after c))
    unfold after
    split
    · next r' reply h => exact (step_eq_ok_iff.mp h).rolesLater
    · exact .refl r

theorem after_of_step (h : r.step c = .ok (r', reply)) : r.after c = r' := by
  rw [after, h]

/-- A run may begin with one more change. -/
theorem exists_run_cons {r'' : AccessRegistry} (h : r.step c = .ok (r', reply))
    (later : ∃ cs, r'' = r'.run cs) : ∃ cs, r'' = r.run cs := by
  obtain ⟨cs, rfl⟩ := later
  exact ⟨c :: cs, congrArg (fun r => r.run cs) (after_of_step h).symm⟩

/-- Accepted changes are a run like any other. -/
theorem Undergoes.run_eq {cs : List AccessCommand} (h : r.Undergoes cs r') : r' = r.run cs := by
  induction h with
  | nothing r => rfl
  | first accepted rest ih =>
    rw [ih, ← after_of_step accepted]
    rfl

theorem run_append {cs ds : List AccessCommand} : r.run (cs ++ ds) = (r.run cs).run ds :=
  List.foldl_append

end AccessRegistry

namespace Engine

variable {e e₀ : Engine} {c : Command} {i : Identity}

/-! ## The registry of an engine -/

/-- A step changes the registry only by an accepted change of it. -/
theorem access_cases (e : Engine) (c : Command) :
    (e.step c).1.access = e.access ∨ ∃ change reply, c = .access change ∧
      (e.step c).2 = .ok (.access reply) ∧ e.access.Accepts change (e.step c).1.access reply := by
  rcases accepts_or_rejects e c with ⟨e', reply, h⟩ | ⟨fault, e', h, rejects⟩
  · rw [h.step_eq]
    cases h with
    | access declarable changed =>
      exact .inr ⟨_, _, rfl, rfl, AccessRegistry.step_eq_ok_iff.mp changed⟩
    | _ => exact .inl rfl
  · obtain ⟨verifier, ledger, rfl⟩ := rejects.eq_update
    rw [h]
    exact .inl rfl

theorem access_run (e : Engine) (cs : List Command) :
    ∃ changes, (e.run cs).access = e.access.run changes := by
  induction cs generalizing e with
  | nil => exact ⟨[], rfl⟩
  | cons c cs ih =>
    obtain ⟨changes, later⟩ := ih (e.step c).1
    rw [run_cons]
    rcases access_cases e c with same | ⟨change, reply, -, -, accepted⟩
    · exact ⟨changes, by rw [later, same]⟩
    · exact AccessRegistry.exists_run_cons accepted.step_eq ⟨changes, later⟩

/-! ## The owner -/

/-- The owner's role with what a new engine gives it for good. -/
structure HasOwnerRole (e : Engine) (role : Role) : Prop where
  stored : e.access.roles.get? RoleId.owner = some role
  isProtected : role.isProtected = true
  maxMembers : role.maxMembers = 1
  bounded : role.members.size ≤ 1

/-- The owner's role has one member and no other. -/
def OwnedBy (e : Engine) (i : Identity) : Prop :=
  ∃ role, e.HasOwnerRole role ∧ role.members.toList = [i]

theorem exists_ownerRole {config : EngineConfig} {clock : UInt64} {sink : EventSink}
    {dispatcher : Dispatcher} (created : create config clock sink dispatcher = .ok e₀)
    (cs : List Command) : ∃ role, (e₀.run cs).HasOwnerRole role := by
  obtain ⟨owner, roles⟩ := (created_of_create created).access
  obtain ⟨changes, later⟩ := access_run e₀ cs
  let all := (initialChanges owner).tail ++ changes
  have access : (e₀.run cs).access =
      (AccessRegistry.empty.after (.defineRole RoleId.ownerName 1 true)).run all := by
    rw [later, (undergoes_of_initialAccess roles).run_eq, AccessRegistry.run_append]
    rfl
  have defined : (AccessRegistry.empty.after (.defineRole RoleId.ownerName 1 true)).roles.get?
      RoleId.owner = some ⟨RoleId.owner, RoleId.ownerName, 1, true, .empty⟩ :=
    SortedMap.get?_insert_self
  obtain ⟨role, stored, kept⟩ := AccessRegistry.rolesLater_run _ all _ _ defined
  rw [← access] at stored
  have limited : (e₀.run cs).access.RolesLimited := by
    rw [access]
    exact AccessRegistry.rolesLimited_run AccessRegistry.rolesLimited_empty
      (.defineRole RoleId.ownerName 1 true :: all)
  have bounded := (limited _ _ stored).bounded
  rw [kept.maxMembers] at bounded
  exact ⟨role, stored, kept.isProtected, kept.maxMembers, bounded⟩

theorem ownedBy_of_isMember {role : Role} (h : e.HasOwnerRole role)
    (member : e.access.isMember RoleId.owner i = true) : e.OwnedBy i := by
  rw [AccessRegistry.isMember_of_role h.stored] at member
  exact ⟨role, h, SortedSet.toList_eq_singleton member h.bounded⟩

theorem OwnedBy.owner_eq (h : e.OwnedBy i) : e.owner = some i := by
  obtain ⟨role, owned, members⟩ := h
  rw [owner, owned.stored]
  exact congrArg List.head? members

/-- A step leaves the owner, or it is an accepted replacement of the owner. -/
theorem OwnedBy.step (h : e.OwnedBy i) (c : Command) :
    (e.step c).1.OwnedBy i ∨ ∃ new, c = .access (.replaceMember RoleId.owner i new) ∧
      (e.step c).2 = .ok (.access .done) ∧ (e.step c).1.OwnedBy new := by
  obtain ⟨role, owned, members⟩ := h
  rcases access_cases e c with same | ⟨change, reply, rfl, answer, accepted⟩
  · exact .inl ⟨role, ⟨same ▸ owned.stored, owned.isProtected, owned.maxMembers, owned.bounded⟩,
      members⟩
  · have size : role.members.size = 1 := by rw [← SortedSet.length_toList, members]; rfl
    have step := accepted.roleStep RoleId.owner
    rw [owned.stored] at step
    generalize hr : (e.step (.access change)).1.access.roles.get? RoleId.owner = role? at step
    cases step with
    | kept =>
      exact .inl ⟨role, ⟨hr, owned.isProtected, owned.maxMembers, owned.bounded⟩, members⟩
    | added absent room =>
      rw [Role.isFull_eq_false_iff, size, owned.maxMembers] at room
      exact absurd room (Nat.lt_irrefl 1)
    | removed unprotected member =>
      rw [owned.isProtected] at unprotected
      cases unprotected
    | @replaced _ old new member absent =>
      have one := Nat.le_of_eq ((Role.size_replaced member absent).trans size)
      have hold : old = i := by
        have hm := SortedSet.mem_toList.mpr member
        rw [members] at hm
        exact List.mem_singleton.mp hm
      subst hold
      have done : reply = .done := by
        generalize (e.step _).1.access = r at accepted
        cases accepted with
        | replaceMember => rfl
      exact .inr ⟨new, rfl, done ▸ answer, _, ⟨hr, owned.isProtected, owned.maxMembers, one⟩,
        SortedSet.toList_eq_singleton SortedSet.contains_insert_self one⟩

theorem OwnedBy.run (h : e.OwnedBy i) (cs : List Command) : ∃ j, (e.run cs).OwnedBy j := by
  induction cs generalizing e i with
  | nil => exact ⟨i, h⟩
  | cons c cs ih =>
    rcases h.step c with kept | ⟨new, -, -, replaced⟩
    · exact ih kept
    · exact ih replaced

/-- Whatever is done to a registry, each of its roles has room for at least one member and no more
members than room, and keeps its definition; a protected role never has fewer members than before.
So an engine that ever has an owner has exactly one from then on, and another one only by an accepted
replacement of the owner. -/
theorem roles_and_owner_kept :
    (∀ cs id role, (AccessRegistry.empty.run cs).roles.get? id = some role →
      role.Limited id ∧ ∀ ds, ∃ role',
        (AccessRegistry.empty.run (cs ++ ds)).roles.get? id = some role' ∧ role.Later role') ∧
    ∀ config clock sink dispatcher e₀, create config clock sink dispatcher = .ok e₀ →
      ∀ cs i, (e₀.run cs).access.isMember RoleId.owner i = true →
        (e₀.run cs).owner = some i ∧
        (∀ ds, ∃ j, (e₀.run (cs ++ ds)).owner = some j ∧ (e₀.run (cs ++ ds)).OwnedBy j) ∧
        ∀ c, ((e₀.run cs).step c).1.owner ≠ some i →
          ∃ new, c = .access (.replaceMember RoleId.owner i new) ∧
            ((e₀.run cs).step c).2 = .ok (.access .done) ∧
            ((e₀.run cs).step c).1.owner = some new := by
  refine ⟨fun cs id role stored => ⟨?_, fun ds => ?_⟩, ?_⟩
  · exact AccessRegistry.rolesLimited_run AccessRegistry.rolesLimited_empty cs id role stored
  · rw [AccessRegistry.run_append]
    exact AccessRegistry.rolesLater_run _ ds id role stored
  · intro config clock sink dispatcher e₀ created cs i member
    obtain ⟨role, h⟩ := exists_ownerRole created cs
    have owned := ownedBy_of_isMember h member
    refine ⟨owned.owner_eq, fun ds => ?_, fun c changed => ?_⟩
    · obtain ⟨j, later⟩ := owned.run ds
      rw [run_append]
      exact ⟨j, later.owner_eq, later⟩
    · rcases owned.step c with kept | ⟨new, hc, answer, replaced⟩
      · exact absurd kept.owner_eq changed
      · exact ⟨new, hc, answer, replaced.owner_eq⟩

end Engine

/-!
## Two tellers and an owner

A protected role is filled, redefined and emptied without success, and one of its members replaced. The
owner's role is disputed in the same ways before the owner is replaced.
-/

namespace Sample

def stranger : Identity := ⟨.replicate 32 7⟩

def otherStranger : Identity := ⟨.replicate 32 8⟩

def teller : RoleId := .ofName "TELLER"

/-- The third teller is one too many. -/
def staffing : List AccessCommand :=
  [.defineRole "TELLER" 2 true, .addMember teller owner, .addMember teller stranger,
    .addMember teller otherStranger]

def restaffing : List AccessCommand :=
  [.defineRole "TELLER" 9 true, .removeMember teller owner,
    .replaceMember teller owner otherStranger]

def disputes : List Command :=
  [.access (.defineRole RoleId.ownerName 9 false), .access (.removeMember RoleId.owner owner),
    .access (.addMember RoleId.owner stranger),
    .access (.replaceMember RoleId.owner stranger otherStranger)]

def replacement : Command := .access (.replaceMember RoleId.owner owner stranger)

theorem staffed : ∃ role, (AccessRegistry.empty.run staffing).roles.get? teller = some role ∧
    role.isProtected = true ∧ role.members.size = 2 := by
  have h : ((AccessRegistry.empty.run staffing).roles.get? teller).map
      (fun role => decide (role.isProtected = true ∧ role.members.size = 2)) = some true := by
    decide +kernel
  obtain ⟨role, stored, hr⟩ := Option.map_eq_some_iff.mp h
  exact ⟨role, stored, of_decide_eq_true hr⟩

theorem disputed : holds disputes (fun e =>
    decide (e.access.isMember RoleId.owner owner = true ∧
      (e.step replacement).1.owner ≠ some owner)) = true := by
  decide +kernel

end Sample

/-- The tellers are as many as before, and the owner is whoever has taken the owner's place. -/
theorem Engine.sample_owner_replaced :
    (∃ role role', (AccessRegistry.empty.run Sample.staffing).roles.get? Sample.teller = some role ∧
      role.Limited Sample.teller ∧
      (AccessRegistry.empty.run (Sample.staffing ++ Sample.restaffing)).roles.get? Sample.teller =
        some role' ∧ role'.maxMembers = role.maxMembers ∧ 2 ≤ role'.members.size) ∧
    ∃ e₀, create Sample.config 100 (.memory []) .empty = .ok e₀ ∧
      let e := e₀.run Sample.disputes
      e.owner = some Sample.owner ∧ (∃ j, (e₀.run (Sample.disputes ++ [Sample.replacement])).OwnedBy j) ∧
      (e.step Sample.replacement).2 = .ok (.access .done) ∧
      (e.step Sample.replacement).1.owner = some Sample.stranger := by
  obtain ⟨registries, engines⟩ := roles_and_owner_kept
  constructor
  · obtain ⟨role, stored, isProtected, size⟩ := Sample.staffed
    obtain ⟨limited, later⟩ := registries _ _ _ stored
    obtain ⟨role', stored', kept⟩ := later Sample.restaffing
    exact ⟨role, role', stored, limited, stored', kept.maxMembers, size ▸ kept.kept isProtected⟩
  · obtain ⟨e₀, created, h⟩ := Sample.exists_of_holds Sample.disputed
    obtain ⟨member, changed⟩ := of_decide_eq_true h
    obtain ⟨owned, always, replaced⟩ := engines _ _ _ _ _ created _ _ member
    obtain ⟨j, -, owned'⟩ := always [Sample.replacement]
    obtain ⟨new, same, answer, owner⟩ := replaced Sample.replacement changed
    cases same
    exact ⟨e₀, created, owned, ⟨j, owned'⟩, answer, owner⟩

end Countersign
