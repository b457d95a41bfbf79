import Countersign.Ledger

/-!
# What the ledger's operations do

`HasPending l id r` says that `r` is stored under `id` and not closed yet, `HasRoom` that one more
record fits. Under these the operations succeed, with `opening` and `close` as their results; without
them they fault. A fault costs an old record if the next number is in use (`Taken`), which it never is
in a `Numbered` ledger. `statusAt` is what the ledger shows of a record's progress.
-/

namespace Countersign.Ledger

variable {l l' : Ledger} {id j : TxId} {r r' : Record}

/-! ## Pending records -/

structure HasPending (l : Ledger) (id : TxId) (r : Record) : Prop where
  stored : l.records.get? id = some r
  pending : r.status = .pending

theorem pendingRecord_eq_ok_iff : l.pendingRecord id = .ok r ↔ l.HasPending id r := by
  unfold pendingRecord get
  cases h : l.records.get? id with
  | none =>
    simp only [bind, Except.bind, reduceCtorEq, false_iff]
    intro hp
    rw [hp.stored] at h
    cases h
  | some r' =>
    by_cases hs : r'.status = .pending
    · simp only [bind, Except.bind, ensure, hs, ↓reduceIte, pure, Except.pure, Except.ok.injEq]
      exact ⟨fun e => e ▸ ⟨h, hs⟩, fun hp => by rw [hp.stored] at h; cases h; rfl⟩
    · simp only [bind, Except.bind, ensure, hs, ↓reduceIte, reduceCtorEq, false_iff]
      intro hp
      rw [hp.stored] at h
      cases h
      exact hs hp.pending

def statusAt (l : Ledger) (id : TxId) : Option Status := (l.records.get? id).map Record.status

theorem HasPending.statusAt (h : l.HasPending id r) : l.statusAt id = some .pending := by
  rw [Ledger.statusAt, h.stored, Option.map_some, h.pending]

/-! ## New records -/

/-- One more record fits, and its number is free. -/
structure HasRoom (l : Ledger) : Prop where
  fits : l.next.toNat + 1 < UInt64.size
  free : l.records.get? l.nextId = none

/-- The ledger with a new pending record under the next number. -/
def opening (l : Ledger) (r : Record) : Ledger :=
  ⟨l.records.insert l.nextId r, l.pending.insert l.nextId, l.next + 1⟩

theorem get?_opening :
    (l.opening r).records.get? id = if id = l.nextId then some r else l.records.get? id :=
  SortedMap.get?_insert

theorem get?_put : (l.put j r).records.get? id = if id = j then some r else l.records.get? id :=
  SortedMap.get?_insert

/-- The next number is in use, so a new record would go over an old one. -/
structure Taken (l : Ledger) : Prop where
  fits : l.next.toNat + 1 < UInt64.size
  used : ∃ r, l.records.get? l.nextId = some r

theorem room_cases (l : Ledger) :
    l.HasRoom ∨ l.next.toNat + 1 = UInt64.size ∨ l.Taken := by
  have hlt := l.next.toNat_lt_size
  by_cases fits : l.next.toNat + 1 < UInt64.size
  · cases hr : l.records.get? l.nextId with
    | none => exact .inl ⟨fits, hr⟩
    | some r => exact .inr (.inr ⟨fits, r, hr⟩)
  · exact .inr (.inl (by omega))

section Insert

variable {q : Request} {handler : Selector} {created release : UInt64} {action : Action}

theorem HasRoom.insert (h : l.HasRoom) : l.insert q handler created release action =
    (l.opening (opened l.nextId q handler created release action), .ok l.nextId) := by
  simp [Ledger.insert, add?, h.fits, SortedMap.contains, h.free, opening, put]

theorem insert_of_exhausted (exhausted : l.next.toNat + 1 = UInt64.size) :
    l.insert q handler created release action = (l, .error (.internal .idsExhausted)) := by
  have hnone : add? l.next 1 = none := by
    rw [add?_eq_none_iff, UInt64.toNat_one]
    omega
  rw [Ledger.insert, hnone]

/-- The old record is gone by the time the fault is noticed. -/
theorem Taken.insert (h : l.Taken) : l.insert q handler created release action =
    (l.put l.nextId (opened l.nextId q handler created release action),
      .error (.internal (.allocatedTwice l.nextId))) := by
  obtain ⟨fits, r, used⟩ := h
  simp [Ledger.insert, add?, fits, SortedMap.contains, used]

end Insert

/-- Every record carries the number it is stored under, which is below the next one. -/
def Numbered (l : Ledger) : Prop :=
  ∀ id r, l.records.get? id = some r → r.id = id ∧ id.number < l.next

theorem numbered_empty : Ledger.empty.Numbered := by
  intro id r h
  cases h

theorem Numbered.not_taken (h : l.Numbered) : ¬ l.Taken := by
  rintro ⟨-, r, used⟩
  exact UInt64.lt_irrefl _ (h _ _ used).2

/-- Under the next number there is nothing yet, so there is room as long as it can go up. -/
theorem Numbered.room_or_exhausted (h : l.Numbered) :
    l.HasRoom ∨ l.next.toNat + 1 = UInt64.size := by
  rcases l.room_cases with room | exhausted | taken
  · exact .inl room
  · exact .inr exhausted
  · exact absurd taken h.not_taken

theorem Numbered.hasRoom (h : l.Numbered) (fits : l.next.toNat + 1 < UInt64.size) : l.HasRoom :=
  h.room_or_exhausted.resolve_right (by omega)

/-- A numbered ledger refuses a new record only when its numbers are used up, and then it is left as
it is. -/
theorem Numbered.insert_of_error (h : l.Numbered) {q : Request} {handler : Selector}
    {created release : UInt64} {action : Action} {fault : Fault}
    (refused : (l.insert q handler created release action).2 = .error fault) :
    l.next.toNat + 1 = UInt64.size ∧ fault = .internal .idsExhausted ∧
      (l.insert q handler created release action).1 = l := by
  rcases h.room_or_exhausted with room | exhausted
  · rw [room.insert] at refused
    cases refused
  · rw [insert_of_exhausted exhausted] at refused ⊢
    cases refused
    exact ⟨exhausted, rfl, rfl⟩

theorem HasRoom.next_lt (h : l.HasRoom) : l.next < l.next + 1 := by
  rw [UInt64.lt_iff_toNat_lt, toNat_add_one h.fits]
  exact Nat.lt_succ_self _

theorem Numbered.opening (h : l.Numbered) (room : l.HasRoom) (hr : r.id = l.nextId) :
    (l.opening r).Numbered := by
  intro j q hq
  rw [get?_opening] at hq
  split at hq
  · next hj => cases hq; exact ⟨hr.trans hj.symm, hj ▸ room.next_lt⟩
  · obtain ⟨hid, hlt⟩ := h j q hq
    exact ⟨hid, UInt64.lt_trans hlt room.next_lt⟩

/-- What holds of every record and of the one that is stored holds of every record afterwards. -/
theorem forall_of_stored {P : TxId → Record → Prop}
    (h : ∀ i q, l.records.get? i = some q → P i q) (hr : P j r)
    (stored : ∀ i, l'.records.get? i = if i = j then some r else l.records.get? i) (i : TxId)
    (q : Record) (hq : l'.records.get? i = some q) : P i q := by
  rw [stored] at hq
  split at hq
  · next hi =>
    cases hq
    rw [hi]
    exact hr
  · exact h i q hq

theorem Numbered.put (h : l.Numbered) (hp : l.HasPending id r) (hr : r'.id = r.id) :
    (l.put id r').Numbered :=
  forall_of_stored h ⟨hr.trans (h _ _ hp.stored).1, (h _ _ hp.stored).2⟩ fun _ => get?_put

/-! ## Changes of a record -/

theorem HasPending.put (h : r.status = .pending) : (l.put id r).HasPending id r :=
  ⟨SortedMap.get?_insert_self, h⟩

theorem HasPending.recordActions (h : l.HasPending id r) (actions : List Action) :
    l.recordActions id actions = .ok (l.put id { r with history := r.history ++ actions }) := by
  rw [Ledger.recordActions, pendingRecord_eq_ok_iff.mpr h]; rfl

theorem HasPending.attachPayment (h : l.HasPending id r) (p : Payment) :
    l.attachPayment id p = .ok (l.put id { r with payment := some p }) := by
  rw [Ledger.attachPayment, pendingRecord_eq_ok_iff.mpr h]; rfl

def close (l : Ledger) (id : TxId) (final : Record) : Ledger :=
  ⟨l.records.insert id final, l.pending.erase id, l.next⟩

theorem HasPending.finalize (h : l.HasPending id r) {status : Status} (hs : status ≠ .pending)
    (result : Bytes) (message : Option Digest) :
    l.finalize id status result message =
      .ok (l.close id (closed r status result message), closed r status result message) := by
  rw [Ledger.finalize, pendingRecord_eq_ok_iff.mpr h]
  simp only [bind, Except.bind, ensure, hs, ne_eq, not_false_eq_true, ↓reduceIte]
  rfl

theorem Numbered.close (h : l.Numbered) (hp : l.HasPending id r)
    (hr : r'.id = r.id) : (l.close id r').Numbered :=
  h.put hp hr

theorem get?_close :
    (l.close j r).records.get? id = if id = j then some r else l.records.get? id :=
  SortedMap.get?_insert

@[simp] theorem close_put : (l.put id r).close id r' = l.close id r' := by
  simp [close, put]

theorem close_comm (h : id ≠ j) : (l.close id r).close j r' = (l.close j r').close id r := by
  rw [close, close, close, close, SortedMap.insert_comm h, SortedSet.erase_comm]

/-- A record that is closed at once takes the place of the one that was opened. -/
theorem get?_close_opening : ((l.opening r).close l.nextId r').records.get? id =
    if id = l.nextId then some r' else l.records.get? id := by
  rw [get?_close, get?_opening]
  split <;> rfl

/-! ## The status after a change -/

theorem HasRoom.statusAt (h : l.HasRoom) : l.statusAt l.nextId = none := by
  rw [Ledger.statusAt, h.free, Option.map_none]

theorem statusAt_of_get?
    (h : l'.records.get? id = if id = j then some r else l.records.get? id) :
    l'.statusAt id = if id = j then some r.status else l.statusAt id := by
  unfold statusAt
  rw [h]
  split <;> rfl

/-- A pending record that stays pending shows the same status. -/
theorem HasPending.statusAt_put (h : l.HasPending j r) (hr : r'.status = r.status) :
    (l.put j r').statusAt id = l.statusAt id := by
  rw [statusAt_of_get? get?_put]
  split
  · next hid => rw [hid, h.statusAt, hr, h.pending]
  · rfl

end Countersign.Ledger
