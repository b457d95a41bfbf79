import Countersign.Proofs.Permission

/-!
# What a grant table lists

The table of a role lists a selector once something is granted on it, and until a revocation leaves
nothing. A grant of no actions lists its selector as well, so what is listed is what is held and what
was last granted with no actions (`ListsGranted`, kept by every accepted change). Actions that are
granted and taken back leave the table as it was, unless they end such an empty listing
(`restored_iff`).
-/

namespace Countersign

namespace AccessCommand

/-- Whether a change is a grant to a role on a selector, or a revocation. -/
def concerns (role : RoleId) (s : Selector) : AccessCommand → Bool
  | grant id t _ => decide (role = id ∧ s = t)
  | revoke id t _ => decide (role = id ∧ s = t)
  | _ => false

end AccessCommand

namespace AccessRegistry

variable {r r' : AccessRegistry} {c : AccessCommand} {cs : List AccessCommand}
  {reply : AccessReply} {id role : RoleId} {s t : Selector} {actions : List Action} {a : Action}

/-- Whether the table of a role lists a selector, with or without actions. -/
def lists (r : AccessRegistry) (role : RoleId) (s : Selector) : Bool := (r.grantsOf role).contains s

/-- The role is granted some action on the selector. -/
def Holds (r : AccessRegistry) (role : RoleId) (s : Selector) : Prop :=
  ∃ a, r.grants? role s a = true

/-! ## One change -/

theorem Holds.lists (h : r.Holds role s) : r.lists role s = true := by
  obtain ⟨a, ha⟩ := h
  unfold AccessRegistry.lists SortedMap.contains
  cases hs : (r.grantsOf role).get? s with
  | none =>
    rw [grants?_eq, hs] at ha
    cases ha
  | some held => rfl

theorem lists_granting : (r.granting id s actions).lists role t =
    if role = id ∧ t = s then true else r.lists role t := by
  unfold lists
  rw [grantsOf_granting]
  by_cases hid : role = id
  · subst hid
    by_cases ht : t = s
    · simp [ht, SortedMap.contains]
    · simp [ht, SortedMap.contains, SortedMap.get?_insert_ne ht]
  · simp [hid]

/-- A selector stays on the list of a revocation only with actions left. -/
theorem exists_of_contains_revokeActions {table : SortedMap Selector (SortedSet Action)}
    (h : (revokeActions table s actions).contains s = true) :
    ∃ a, (((revokeActions table s actions).get? s).getD .empty).contains a = true := by
  unfold revokeActions at h ⊢
  cases hs : table.get? s with
  | none => simp [SortedMap.contains, hs] at h
  | some held =>
    simp only [hs] at h ⊢
    split at h
    · simp [SortedMap.contains] at h
    · next left =>
      rw [if_neg left, SortedMap.get?_insert_self, Option.getD_some]
      exact SortedSet.isEmpty_eq_false_iff.mp (by simpa using left)

theorem contains_revokeActions_ne {table : SortedMap Selector (SortedSet Action)} (h : t ≠ s) :
    (revokeActions table s actions).contains t = table.contains t := by
  unfold revokeActions SortedMap.contains
  split
  · rfl
  · dsimp only
    split
    · rw [SortedMap.get?_erase_ne h]
    · rw [SortedMap.get?_insert_ne h]

theorem lists_revoking_self : (r.revoking id s actions).lists id s = true ↔
    (r.revoking id s actions).Holds id s := by
  refine ⟨fun h => ?_, Holds.lists⟩
  unfold lists at h
  rw [grantsOf_revoking, if_pos rfl] at h
  obtain ⟨a, ha⟩ := exists_of_contains_revokeActions h
  refine ⟨a, ?_⟩
  rw [grants?_eq, grantsOf_revoking, if_pos rfl]
  exact ha

theorem lists_revoking_ne (h : ¬(role = id ∧ t = s)) :
    (r.revoking id s actions).lists role t = r.lists role t := by
  unfold lists
  rw [grantsOf_revoking]
  split
  · next hid =>
    rw [contains_revokeActions_ne fun ht => h ⟨hid, ht⟩, hid]
  · rfl

theorem holds_congr (h : ∀ a, r'.grants? role s a = r.grants? role s a) :
    r'.Holds role s ↔ r.Holds role s :=
  exists_congr fun a => by rw [h]

/-- The selectors listed without actions are those last granted with none, and not taken back since. -/
def ListsGranted (r : AccessRegistry) (last : Option AccessCommand) (role : RoleId) (s : Selector) :
    Prop :=
  r.lists role s = true ↔ r.Holds role s ∨ last = some (.grant role s [])

theorem ListsGranted.of_same {last : Option AccessCommand} (h : r.ListsGranted last role s)
    (lists : r'.lists role s = r.lists role s)
    (granted : ∀ a, r'.grants? role s a = r.grants? role s a) : r'.ListsGranted last role s := by
  unfold ListsGranted
  rw [lists, holds_congr granted]
  exact h

theorem Accepts.listsGranted {last : Option AccessCommand} (h : r.Accepts c r' reply)
    (before : r.ListsGranted last role s) :
    r'.ListsGranted (if c.concerns role s then some c else last) role s := by
  cases h with
  | @grant id was t schema actions =>
    by_cases hc : role = id ∧ s = t
    · obtain ⟨rfl, rfl⟩ := hc
      have lists : (r.granting role s actions).lists role s = true := by
        rw [lists_granting, if_pos ⟨rfl, rfl⟩]
      simp only [ListsGranted, lists, AccessCommand.concerns, and_self, decide_true, ↓reduceIte,
        true_iff, Option.some.injEq, AccessCommand.grant.injEq, true_and]
      cases actions with
      | nil => exact .inr rfl
      | cons a rest => exact .inl ⟨a, by rw [grants?_granting, if_pos (by simp)]⟩
    · have other : (AccessCommand.grant id t actions).concerns role s = false := decide_eq_false hc
      rw [other]
      apply before.of_same
      · rw [lists_granting, if_neg hc]
      · intro a
        rw [grants?_granting, if_neg fun h => hc ⟨h.1, h.2.1⟩]
  | @revoke id was t schema actions =>
    by_cases hc : role = id ∧ s = t
    · obtain ⟨rfl, rfl⟩ := hc
      simp [ListsGranted, lists_revoking_self, AccessCommand.concerns]
    · have other : (AccessCommand.revoke id t actions).concerns role s = false := decide_eq_false hc
      rw [other]
      apply before.of_same
      · exact lists_revoking_ne hc
      · intro a
        rw [grants?_revoking, if_neg fun h => hc ⟨h.1, h.2.1⟩]
  | _ => exact before

/-! ## Whole runs -/

theorem listsGranted_run (cs : List AccessCommand) {last : Option AccessCommand}
    (h : r.ListsGranted last role s) : (r.run cs).ListsGranted
      (((r.accepted cs).filter (AccessCommand.concerns role s)).getLast?.or last) role s := by
  induction cs generalizing r last with
  | nil => exact h
  | cons c cs ih =>
    show ListsGranted ((r.after c).run cs) _ role s
    rw [after, accepted]
    rcases hc : r.step c with fault | ⟨r', reply⟩
    · exact ih h
    · have rest := ih ((step_eq_ok_iff.mp hc).listsGranted h)
      dsimp only
      by_cases concerns : c.concerns role s = true
      · rw [List.filter_cons_of_pos concerns, List.getLast?_cons]
        rw [if_pos concerns] at rest
        cases hl : ((r'.accepted cs).filter (AccessCommand.concerns role s)).getLast? <;>
          simpa [hl] using rest
      · rw [List.filter_cons_of_neg concerns]
        rwa [if_neg concerns] at rest

/-! ## Granting and taking back -/

theorem eraseAll_insertAll {held : SortedSet Action}
    (free : ∀ a ∈ actions, held.contains a = false) :
    (held.insertAll actions).eraseAll actions = held := by
  apply SortedSet.ext_contains
  intro a
  rw [SortedSet.contains_eraseAll, SortedSet.contains_insertAll]
  split
  · next ha => exact (free a ha).symm
  · rfl

/-- Taking back what had not been held before leaves a table without the selector, if nothing else is
held on it, and otherwise the table as it was. -/
theorem revokeActions_insertAll {table : SortedMap Selector (SortedSet Action)}
    {held : SortedSet Action} (free : ∀ a ∈ actions, held.contains a = false) :
    revokeActions (table.insert s (held.insertAll actions)) s actions =
      if held.isEmpty then table.erase s else table.insert s held := by
  unfold revokeActions
  rw [SortedMap.get?_insert_self]
  dsimp only
  rw [eraseAll_insertAll free]
  split
  · apply SortedMap.ext_get?
    intro t
    rw [SortedMap.get?_erase, SortedMap.get?_insert, SortedMap.get?_erase]
    split <;> rfl
  · exact SortedMap.insert_insert

/-- Taking back what had not been granted before restores all tables, unless the selector had been
listed without actions: then it is off the list. -/
theorem restored_iff (free : ∀ a ∈ actions, r.grants? id s a = false) :
    (∀ role, ((r.granting id s actions).revoking id s actions).grantsOf role = r.grantsOf role) ↔
      (r.lists id s = true → r.Holds id s) := by
  have free' : ∀ a ∈ actions, (((r.grantsOf id).get? s).getD .empty).contains a = false := by
    intro a ha
    rw [← grants?_eq]
    exact free a ha
  have table : (∀ role,
      ((r.granting id s actions).revoking id s actions).grantsOf role = r.grantsOf role) ↔
      (if (((r.grantsOf id).get? s).getD .empty).isEmpty then (r.grantsOf id).erase s
        else (r.grantsOf id).insert s (((r.grantsOf id).get? s).getD .empty)) = r.grantsOf id := by
    simp only [grantsOf_revoking, grantsOf_granting, ↓reduceIte, revokeActions_insertAll free']
    constructor
    · intro h
      simpa using h id
    · intro h role
      split
      · next hid => rw [hid, h]
      · rfl
  rw [table]
  unfold lists SortedMap.contains Holds
  simp only [grants?_eq]
  cases hs : (r.grantsOf id).get? s with
  | none => simp [SortedMap.erase_of_free hs, SortedSet.isEmpty_iff.mpr]
  | some held =>
    simp only [Option.getD_some, Option.isSome_some, forall_const]
    by_cases he : held.isEmpty = true
    · have idle : ¬∃ a, held.contains a = true := by
        rw [← SortedSet.isEmpty_eq_false_iff, he]
        exact Bool.noConfusion
      rw [if_pos he]
      refine iff_of_false (fun h => ?_) idle
      have gone : ((r.grantsOf id).erase s).get? s = none := SortedMap.get?_erase_self
      rw [h, hs] at gone
      cases gone
    · rw [if_neg he]
      refine iff_of_true (SortedMap.insert_of_get? hs) ?_
      exact SortedSet.isEmpty_eq_false_iff.mp (by simpa using he)

/-- What has been granted can be revoked. -/
theorem Accepts.revoke_granted (h : r.Accepts (.grant id s actions) r' reply) :
    r'.Accepts (.revoke id s actions) (r'.revoking id s actions) .done := by
  cases h with
  | grant found declared => exact .revoke found declared

/-- After every run from an empty registry, a selector is listed for a role if the role holds an action
on it, and otherwise only if the last grant or revocation for the two was a grant of no actions. So a
run without such grants lists exactly what is held. A grant of actions that were not held before and
the revocation of the same actions leave every role's table as it was, unless the selector had been
listed without actions. -/
theorem lists_run (cs : List AccessCommand) :
    (∀ role s, (empty.run cs).lists role s = true ↔ (empty.run cs).Holds role s ∨
      ((empty.accepted cs).filter (AccessCommand.concerns role s)).getLast? =
        some (.grant role s [])) ∧
    ((∀ role s, AccessCommand.grant role s [] ∉ empty.accepted cs) →
      ∀ role s, (empty.run cs).lists role s = true ↔ (empty.run cs).Holds role s) ∧
    ∀ id s actions r' reply, (empty.run cs).step (.grant id s actions) = .ok (r', reply) →
      (∀ a ∈ actions, (empty.run cs).grants? id s a = false) →
      ∃ r'', r'.step (.revoke id s actions) = .ok (r'', .done) ∧
        ((∀ role, r''.grantsOf role = (empty.run cs).grantsOf role) ↔
          ((empty.run cs).lists id s = true → (empty.run cs).Holds id s)) := by
  have listed (role : RoleId) (s : Selector) : (empty.run cs).lists role s = true ↔
      (empty.run cs).Holds role s ∨
        ((empty.accepted cs).filter (AccessCommand.concerns role s)).getLast? =
          some (.grant role s []) := by
    have nothing : empty.ListsGranted none role s := by
      simp [ListsGranted, lists, Holds, grantsOf, grants?, empty, SortedMap.contains]
    have run := listsGranted_run cs nothing
    rwa [Option.or_none] at run
  refine ⟨listed, fun granted role s => ?_, ?_⟩
  · rw [listed]
    refine or_iff_left fun last => ?_
    exact granted role s (List.mem_filter.mp (List.mem_of_getLast? last)).1
  · intro id s actions r' reply accepted free
    have granted := step_eq_ok_iff.mp accepted
    refine ⟨_, granted.revoke_granted.step_eq, ?_⟩
    cases granted with
    | grant => exact restored_iff free

end AccessRegistry

/-!
## A clerk

Transfers have a clerk, who is granted to request them or nothing at all, and then to approve them.
-/

namespace Sample

def clerk : RoleId := .ofName "CLERK"

def transfer : FunctionSchema :=
  .ofSignature "transfer()" (.ofName "TRANSFER") [.timeDelayRequest, .timeDelayApprove] []

/-- The role and the function, and a grant of some actions. -/
def clerking (actions : List Action) : List AccessCommand :=
  [.defineRole "CLERK" 1 false, .registerFunction transfer, .grant clerk transfer.selector actions]

/-- Nobody is a clerk yet, and nothing may be approved. -/
theorem clerk_state : ∀ actions ∈ [[], [Action.timeDelayRequest]],
    let r := AccessRegistry.empty.run (clerking actions)
    r.roles.get? clerk = some ⟨clerk, "CLERK", 1, false, .empty⟩ ∧
      r.functions.get? transfer.selector = some transfer ∧
      ∀ a ∈ [Action.timeDelayApprove], r.grants? clerk transfer.selector a = false := by
  decide +kernel

def grantApproval : AccessCommand := .grant clerk transfer.selector [.timeDelayApprove]

def revokeApproval : AccessCommand := .revoke clerk transfer.selector [.timeDelayApprove]

end Sample

namespace AccessRegistry

/-- The clerk's table lists what the clerk holds, and is the same again after approvals have been
granted and taken back. -/
theorem sample_restored :
    let r := empty.run (Sample.clerking [.timeDelayRequest])
    r.lists Sample.clerk Sample.transfer.selector = true ∧
      r.Holds Sample.clerk Sample.transfer.selector ∧
      ∃ r' r'', r.step Sample.grantApproval = .ok (r', .done) ∧
        r'.step Sample.revokeApproval = .ok (r'', .done) ∧
        ∀ role, r''.grantsOf role = r.grantsOf role := by
  intro r
  obtain ⟨-, canonical, restored⟩ := lists_run (Sample.clerking [.timeDelayRequest])
  obtain ⟨found, declared, free⟩ := Sample.clerk_state [.timeDelayRequest] (by simp)
  have granted : r.Accepts Sample.grantApproval _ .done := .grant found declared (by decide)
  have some_action : ∀ role s, AccessCommand.grant role s [] ∉
      empty.accepted (Sample.clerking [.timeDelayRequest]) := by
    have accepted : empty.accepted (Sample.clerking [.timeDelayRequest]) =
        Sample.clerking [.timeDelayRequest] := by
      decide +kernel
    rw [accepted]
    simp [Sample.clerking]
  have holds : r.Holds Sample.clerk Sample.transfer.selector :=
    ⟨.timeDelayRequest, by decide +kernel⟩
  obtain ⟨r'', revoked, same⟩ := restored _ _ _ _ _ granted.step_eq free
  exact ⟨(canonical some_action _ _).mpr holds, holds, _, r'', granted.step_eq, revoked,
    same.mpr fun _ => holds⟩

/-- A grant of no actions lists a selector on which nothing is held. Approvals granted and taken back
then take it off the list. -/
theorem listed_without_action :
    let r := empty.run (Sample.clerking [])
    (r.grantsOf Sample.clerk).get? Sample.transfer.selector = some .empty ∧
      ¬r.Holds Sample.clerk Sample.transfer.selector ∧
      ∃ r' r'', r.step Sample.grantApproval = .ok (r', .done) ∧
        r'.step Sample.revokeApproval = .ok (r'', .done) ∧
        ¬∀ role, r''.grantsOf role = r.grantsOf role := by
  intro r
  obtain ⟨found, declared, free⟩ := Sample.clerk_state [] (by simp)
  have granted : r.Accepts Sample.grantApproval
      (r.granting Sample.clerk Sample.transfer.selector [.timeDelayApprove]) .done :=
    .grant found declared (by decide)
  have bare : (r.grantsOf Sample.clerk).get? Sample.transfer.selector = some .empty := by
    decide +kernel
  have idle : ¬r.Holds Sample.clerk Sample.transfer.selector := by
    rintro ⟨a, ha⟩
    rw [grants?_eq, bare] at ha
    cases ha
  have listed : r.lists Sample.clerk Sample.transfer.selector = true := by
    rw [lists, SortedMap.contains, bare]
    rfl
  refine ⟨bare, idle, _, _, granted.step_eq, granted.revoke_granted.step_eq, ?_⟩
  rw [restored_iff free]
  exact fun h => idle (h listed)

end AccessRegistry

end Countersign
