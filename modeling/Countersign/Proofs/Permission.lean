import Countersign.Proofs.Access

/-!
# The last change counts

Along a run of a registry, some of the accepted changes put an identity into a role or take it out,
and some grant a role an action or take it back. Of each kind the last one counts (`isMember_run`,
`grants?_run`), so an identity may perform an action exactly if some role had the identity put in
last and was granted the action last (`allows_run`).
-/

namespace Countersign

namespace AccessCommand

/-- What a change that mentions an identity does to its membership in a role: it puts the identity
in or takes it out. A member that takes its own place stays in. -/
def membership? (role : RoleId) (i : Identity) : AccessCommand → Option Bool
  | addMember id j => if id = role ∧ j = i then some true else none
  | removeMember id j => if id = role ∧ j = i then some false else none
  | replaceMember id old new =>
    if id ≠ role then none
    else if new = i then some true
    else if old = i then some false
    else none
  | _ => none

/-- Whether a change that lists an action on a selector grants it to a role or takes it back. -/
def granting? (role : RoleId) (s : Selector) (a : Action) : AccessCommand → Option Bool
  | grant id t actions => if role = id ∧ s = t ∧ a ∈ actions then some true else none
  | revoke id t actions => if role = id ∧ s = t ∧ a ∈ actions then some false else none
  | _ => none

end AccessCommand

namespace AccessRegistry

variable {r r' : AccessRegistry} {c : AccessCommand} {cs : List AccessCommand}
  {reply : AccessReply} {id role : RoleId} {i : Identity} {s : Selector} {a : Action}

/-! ## One change -/

theorem isMember_withRole_empty {name : String} {maxMembers : UInt64} {isProtected : Bool}
    (free : r.roles.get? id = none) :
    (r.withRole ⟨id, name, maxMembers, isProtected, .empty⟩).isMember role i =
      r.isMember role i := by
  by_cases hid : role = id
  · subst hid
    simp [isMember, withRole, free]
  · simp [isMember, withRole, SortedMap.get?_insert_ne hid]

theorem Accepts.isMember (h : r.Accepts c r' reply) (role : RoleId) (i : Identity) :
    r'.isMember role i = (c.membership? role i).getD (r.isMember role i) := by
  cases h with
  | defined named positive free => exact isMember_withRole_empty free
  | @addMember id was j found =>
    rw [isMember_withMembers, SortedSet.contains_insert, AccessCommand.membership?]
    by_cases hid : role = id
    · subst hid
      rw [isMember_of_role found]
      by_cases hj : i = j <;> simp [hj, eq_comm]
    · simp [hid, Ne.symm hid]
  | @removeMember id was j found =>
    rw [isMember_withMembers, SortedSet.contains_erase, AccessCommand.membership?]
    by_cases hid : role = id
    · subst hid
      rw [isMember_of_role found]
      by_cases hj : i = j <;> simp [hj, eq_comm]
    · simp [hid, Ne.symm hid]
  | @replaceMember id was old new found =>
    rw [isMember_withMembers, SortedSet.contains_insert, SortedSet.contains_erase,
      AccessCommand.membership?]
    by_cases hid : role = id
    · subst hid
      rw [isMember_of_role found]
      by_cases hn : i = new
      · simp [hn]
      by_cases ho : i = old
      · subst ho
        simp [hn, Ne.symm hn]
      · simp [hn, ho, Ne.symm hn, Ne.symm ho]
    · simp [hid, Ne.symm hid]
  | revoke => exact isMember_revoking
  | _ => rfl

theorem Accepts.grants? (h : r.Accepts c r' reply) (role : RoleId) (s : Selector) (a : Action) :
    r'.grants? role s a = (c.granting? role s a).getD (r.grants? role s a) := by
  cases h with
  | grant =>
    rw [grants?_granting, AccessCommand.granting?]
    split <;> rfl
  | revoke =>
    rw [grants?_revoking, AccessCommand.granting?]
    split <;> rfl
  | _ => rfl

/-- A revocation takes exactly the listed actions on the selector from the role. -/
theorem allows_revoking {actions : List Action} {t : Selector} :
    (r.revoking id s actions).allows i t a = true ↔
      ∃ role, r.isMember role i = true ∧ r.grants? role t a = true ∧
        ¬(role = id ∧ t = s ∧ a ∈ actions) := by
  rw [allows_eq_true_iff]
  refine exists_congr fun role => ?_
  rw [isMember_revoking, grants?_revoking]
  by_cases h : role = id ∧ t = s ∧ a ∈ actions
  · simp [h]
  · simp [h]

/-! ## Whole runs -/

/-- The changes of a sequence that are accepted, in order. -/
def accepted : AccessRegistry → List AccessCommand → List AccessCommand
  | _, [] => []
  | r, c :: cs =>
    match r.step c with
    | .ok (r', _) => c :: r'.accepted cs
    | .error _ => r.accepted cs

/-- What each accepted change either writes or leaves as it was is what the last one has written. -/
theorem last_write_run {read : AccessRegistry → Bool} {write? : AccessCommand → Option Bool}
    (writes : ∀ {r c r' reply}, r.Accepts c r' reply → read r' = (write? c).getD (read r))
    (r : AccessRegistry) (cs : List AccessCommand) :
    read (r.run cs) = ((r.accepted cs).filterMap write?).getLast?.getD (read r) := by
  induction cs generalizing r with
  | nil => rfl
  | cons c cs ih =>
    show read ((r.after c).run cs) = _
    rw [after, accepted]
    rcases h : r.step c with fault | ⟨r', reply⟩
    · exact ih r
    · have first : read r' = (write? c).getD (read r) := writes (step_eq_ok_iff.mp h)
      dsimp only
      rw [ih r', first]
      cases hw : write? c with
      | none => rw [List.filterMap_cons_none hw, Option.getD_none]
      | some b => rw [List.filterMap_cons_some hw, List.getLast?_cons, Option.getD_some]; rfl

theorem isMember_run (r : AccessRegistry) (cs : List AccessCommand) (role : RoleId)
    (i : Identity) : (r.run cs).isMember role i =
      ((r.accepted cs).filterMap (AccessCommand.membership? role i)).getLast?.getD
        (r.isMember role i) :=
  last_write_run (fun h => h.isMember role i) r cs

theorem grants?_run (r : AccessRegistry) (cs : List AccessCommand) (role : RoleId) (s : Selector)
    (a : Action) : (r.run cs).grants? role s a =
      ((r.accepted cs).filterMap (AccessCommand.granting? role s a)).getLast?.getD
        (r.grants? role s a) :=
  last_write_run (fun h => h.grants? role s a) r cs

theorem getD_false_eq_true_iff {o : Option Bool} : o.getD false = true ↔ o = some true := by
  cases o <;> simp

/-- After every run from an empty registry, an identity may perform an action on a selector exactly
if there is a role whose last accepted change that mentions the identity put it in, and whose last
grant or revocation of the action was a grant. A revocation that is accepted then takes effect at
once, on the listed actions of that role and selector and on no others. -/
theorem allows_run (cs : List AccessCommand) :
    (∀ i s a, (empty.run cs).allows i s a = true ↔ ∃ role,
      ((empty.accepted cs).filterMap (AccessCommand.membership? role i)).getLast? = some true ∧
      ((empty.accepted cs).filterMap (AccessCommand.granting? role s a)).getLast? = some true) ∧
    ∀ id s actions r' reply, (empty.run cs).step (.revoke id s actions) = .ok (r', reply) →
      ∀ i t a, r'.allows i t a = true ↔ ∃ role, (empty.run cs).isMember role i = true ∧
        (empty.run cs).grants? role t a = true ∧ ¬(role = id ∧ t = s ∧ a ∈ actions) := by
  constructor
  · intro i s a
    rw [allows_eq_true_iff]
    refine exists_congr fun role => ?_
    rw [isMember_run, grants?_run]
    exact and_congr getD_false_eq_true_iff getD_false_eq_true_iff
  · intro id s actions r' reply revoked i t a
    cases step_eq_ok_iff.mp revoked with
    | revoke => exact allows_revoking

end AccessRegistry

end Countersign
