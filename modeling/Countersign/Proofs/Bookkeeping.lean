import Countersign.Ledger.Command
import Countersign.Proofs.Ledger

/-!
# The books are in order

A ledger keeps the numbers in use three times: as the keys of its records, in the set of the pending
ones and in the next number. `Consistent` says what these have to do with each other, look-up by
look-up; every operation preserves it. `WellKept` is what follows for the lists and counts that a
ledger shows.
-/

namespace Countersign

/-! ## Numbers in use -/

namespace TxId

theorem before_iff {a b : TxId} : Key.Before a b ↔ a.number.toNat < b.number.toNat := by
  show compare a.number b.number = .lt ↔ _
  rw [Std.compare_eq_lt, UInt64.lt_iff_toNat_lt]

/-- The numbers from 1 on that are below the next one, in order. -/
def below (next : UInt64) : List TxId :=
  (List.range' 1 (next.toNat - 1)).map fun n => ⟨UInt64.ofNat n⟩

variable {next : UInt64} {id : TxId}

theorem mem_below : id ∈ below next ↔ 0 < id.number.toNat ∧ id.number.toNat < next.toNat := by
  have hlt := next.toNat_lt_size
  simp only [below, List.mem_map, List.mem_range'_1]
  constructor
  · rintro ⟨n, ⟨h1, h2⟩, rfl⟩
    have hn : (UInt64.ofNat n).toNat = n := UInt64.toNat_ofNat_of_lt' (by omega)
    rw [hn]
    omega
  · rintro ⟨h1, h2⟩
    exact ⟨id.number.toNat, by omega, number_injective UInt64.ofNat_toNat⟩

theorem below_ascending : (below next).Pairwise Key.Before := by
  have hlt := next.toNat_lt_size
  rw [below, List.pairwise_map]
  refine (List.pairwise_lt_range' 1).imp_of_mem fun {a b} ha hb hab => ?_
  rw [List.mem_range'_1] at ha hb
  rw [before_iff, UInt64.toNat_ofNat_of_lt' (by omega), UInt64.toNat_ofNat_of_lt' (by omega)]
  exact hab

theorem length_below : (below next).length = next.toNat - 1 := by
  rw [below, List.length_map, List.length_range']

theorem below_one : below 1 = [] := rfl

theorem below_succ (positive : 0 < next.toNat) (fits : next.toNat + 1 < UInt64.size) :
    below (next + 1) = below next ++ [⟨next⟩] := by
  have hn : next.toNat + 1 - 1 = (next.toNat - 1) + 1 := by omega
  have hlast : 1 + (next.toNat - 1) = next.toNat := by omega
  rw [below, toNat_add_one fits, hn, List.range'_1_concat, List.map_append, hlast]
  simp [below]

end TxId

/-! ## Counts -/

namespace StatusCounts

def get (c : StatusCounts) : Status → UInt64
  | .pending => c.pending
  | .completed => c.completed
  | .cancelled => c.cancelled
  | .failed => c.failed

variable {c : StatusCounts} {s t : Status}

theorem get_zero : zero.get s = 0 := by cases s <;> rfl

theorem get_add : (c.add s).get t = c.get t + if s = t then 1 else 0 := by
  cases s <;> cases t <;> simp [add, get]

/-- Counting goes round at the end of a word, so it needs no bound here. -/
theorem get_foldl_add (c : StatusCounts) (rs : List Record) :
    (rs.foldl (fun c r => c.add r.status) c).get t =
      c.get t + UInt64.ofNat (rs.countP (·.status = t)) := by
  induction rs generalizing c with
  | nil => simp
  | cons r rs ih =>
    rw [List.foldl_cons, ih, get_add, List.countP_cons, UInt64.ofNat_add]
    by_cases h : r.status = t <;> simp [h, UInt64.add_assoc, UInt64.add_comm 1]

/-- Every record has exactly one status. -/
theorem countP_add (rs : List Record) :
    rs.countP (·.status = .pending) + rs.countP (·.status = .completed) +
      rs.countP (·.status = .cancelled) + rs.countP (·.status = .failed) = rs.length := by
  induction rs with
  | nil => rfl
  | cons r rs ih =>
    cases h : r.status <;> simp [h] <;> omega

end StatusCounts

def LedgerReply.opened? : LedgerReply → Option TxId
  | .opened id => some id
  | _ => none

namespace Ledger

variable {l l' : Ledger} {c : LedgerCommand} {reply : LedgerReply} {id j : TxId} {r r' : Record}
  {fault : Fault}

/-! ## One operation -/

/-- An operation is accepted with a reply and leads from one ledger to another. -/
inductive Accepts (l : Ledger) : LedgerCommand → Ledger → LedgerReply → Prop where
  | inserted {q : Request} {handler : Selector} {created release : UInt64} {a : Action}
      (room : l.HasRoom) :
      Accepts l (.insert q handler created release a)
        (l.opening (opened l.nextId q handler created release a)) (.opened l.nextId)
  | attached {id : TxId} {r : Record} {p : Payment} (h : l.HasPending id r) :
      Accepts l (.attachPayment id p) (l.put id { r with payment := some p }) .done
  | recorded {id : TxId} {r : Record} {actions : List Action} (h : l.HasPending id r) :
      Accepts l (.recordActions id actions) (l.put id { r with history := r.history ++ actions })
        .done
  | finalized {id : TxId} {r : Record} {status : Status} {result : Bytes} {message : Option Digest}
      (h : l.HasPending id r) (final : status ≠ .pending) :
      Accepts l (.finalize id status result message)
        (l.close id (closed r status result message)) (.closed (closed r status result message))

theorem pendingRecord_ne_internal {breach : Breach} :
    l.pendingRecord id ≠ .error (.internal breach) := by
  unfold pendingRecord get
  cases l.records.get? id with
  | none => simp [bind, Except.bind]
  | some r =>
    by_cases hs : r.status = .pending <;>
      simp [bind, Except.bind, ensure, hs, pure, Except.pure]

/-- In a numbered ledger an operation is accepted, or it faults and changes nothing; it does not find
the next number in use. -/
theorem Numbered.step_cases (h : l.Numbered) (c : LedgerCommand) :
    (∃ l' reply, l.step c = (l', .ok reply) ∧ l.Accepts c l' reply) ∨
      ∃ fault, l.step c = (l, .error fault) ∧ ∀ id, fault ≠ .internal (.allocatedTwice id) := by
  have absent {i : TxId} {fault : Fault} (hp : l.pendingRecord i = .error fault) (j : TxId) :
      fault ≠ .internal (.allocatedTwice j) := by
    rintro rfl
    exact pendingRecord_ne_internal hp
  cases c with
  | insert q handler created release action =>
    rcases h.room_or_exhausted with room | exhausted
    · exact .inl ⟨_, _, by rw [step, room.insert]; rfl, .inserted room⟩
    · exact .inr ⟨_, by rw [step, insert_of_exhausted exhausted]; rfl, by simp⟩
  | attachPayment id p =>
    rcases hp : l.pendingRecord id with fault | r
    · exact .inr ⟨fault, by rw [step, Ledger.attachPayment, hp]; rfl, absent hp⟩
    · have pending := pendingRecord_eq_ok_iff.mp hp
      exact .inl ⟨_, _, by rw [step, pending.attachPayment]; rfl, .attached pending⟩
  | recordActions id actions =>
    rcases hp : l.pendingRecord id with fault | r
    · exact .inr ⟨fault, by rw [step, Ledger.recordActions, hp]; rfl, absent hp⟩
    · have pending := pendingRecord_eq_ok_iff.mp hp
      exact .inl ⟨_, _, by rw [step, pending.recordActions]; rfl, .recorded pending⟩
  | finalize id status result message =>
    by_cases final : status = .pending
    · refine .inr ⟨.internal (.notFinal id status), ?_, by simp⟩
      simp [step, Ledger.finalize, ensure, final, bind, Except.bind, Except.map, settle]
    · rcases hp : l.pendingRecord id with fault | r
      · refine .inr ⟨fault, ?_, absent hp⟩
        simp [step, Ledger.finalize, ensure, final, hp, bind, Except.bind, Except.map, settle]
      · have pending := pendingRecord_eq_ok_iff.mp hp
        exact .inl ⟨_, _, by rw [step, pending.finalize final]; rfl, .finalized pending final⟩

/-! ## Consistency -/

/-- The records, the pending numbers and the next number fit together. -/
structure Consistent (l : Ledger) : Prop where
  positive : 0 < l.next.toNat
  /-- The numbers in use are those below the next one. -/
  stored_iff : ∀ id, l.records.contains id = true ↔ id ∈ TxId.below l.next
  ids : ∀ id r, l.records.get? id = some r → r.id = id
  pending_iff : ∀ id, l.pending.contains id = true ↔ l.statusAt id = some .pending
  blank : ∀ id r, l.records.get? id = some r → r.status = .pending →
    r.result = [] ∧ r.message = none

namespace Consistent

theorem empty : Ledger.empty.Consistent where
  positive := by decide
  stored_iff _ := by simp [SortedMap.contains, Ledger.empty, TxId.below_one]
  ids _ _ h := by cases h
  pending_iff _ := by simp [statusAt, Ledger.empty]
  blank _ _ h := by cases h

theorem numbered (h : l.Consistent) : l.Numbered := by
  intro id r hr
  have hid := (h.stored_iff id).mp (SortedMap.contains_iff.mpr ⟨r, hr⟩)
  exact ⟨h.ids id r hr, UInt64.lt_iff_toNat_lt.mpr (TxId.mem_below.mp hid).2⟩

theorem opening (h : l.Consistent) (room : l.HasRoom) (hid : r.id = l.nextId)
    (hs : r.status = .pending) (hb : r.result = [] ∧ r.message = none) :
    (l.opening r).Consistent where
  positive := by
    show 0 < (l.next + 1).toNat
    rw [toNat_add_one room.fits]
    omega
  stored_iff j := by
    show (l.records.insert l.nextId r).contains j = true ↔ j ∈ TxId.below (l.next + 1)
    rw [SortedMap.contains_insert, TxId.below_succ h.positive room.fits, List.mem_append,
      List.mem_singleton, ← h.stored_iff]
    show (if j = ⟨l.next⟩ then true else l.records.contains j) = true ↔ _ ∨ j = ⟨l.next⟩
    by_cases hj : j = ⟨l.next⟩
    · simp [hj]
    · simp [hj]
  ids := forall_of_stored h.ids hid fun _ => get?_opening
  pending_iff j := by
    show (l.pending.insert l.nextId).contains j = true ↔ _
    rw [SortedSet.contains_insert, statusAt_of_get? get?_opening]
    split
    · simp [hs]
    · exact h.pending_iff j
  blank := forall_of_stored h.blank (fun _ => hb) fun _ => get?_opening

/-- A record that is written over keeps its number in use. -/
theorem contains_insert_iff (hp : l.HasPending id r) :
    (l.records.insert id r').contains j = true ↔ l.records.contains j = true := by
  rw [SortedMap.contains_insert]
  split
  · next hj => rw [hj]; simp [SortedMap.contains, hp.stored]
  · rfl

theorem put (h : l.Consistent) (hp : l.HasPending id r) (hid : r'.id = r.id)
    (hs : r'.status = r.status) (hr : r'.result = r.result) (hm : r'.message = r.message) :
    (l.put id r').Consistent where
  positive := h.positive
  stored_iff j := (contains_insert_iff hp).trans (h.stored_iff j)
  ids := forall_of_stored h.ids (hid.trans (h.ids _ _ hp.stored)) fun _ => get?_put
  pending_iff j := by
    rw [hp.statusAt_put hs]
    exact h.pending_iff j
  blank := by
    refine forall_of_stored h.blank (fun _ => ?_) fun _ => get?_put
    rw [hr, hm]
    exact h.blank _ _ hp.stored hp.pending

theorem close (h : l.Consistent) (hp : l.HasPending id r) (hid : r'.id = r.id)
    (hs : r'.status ≠ .pending) : (l.close id r').Consistent where
  positive := h.positive
  stored_iff j := (contains_insert_iff hp).trans (h.stored_iff j)
  ids := forall_of_stored h.ids (hid.trans (h.ids _ _ hp.stored)) fun _ => get?_close
  pending_iff j := by
    show (l.pending.erase id).contains j = true ↔ _
    rw [SortedSet.contains_erase, statusAt_of_get? get?_close]
    split
    · simp [hs]
    · exact h.pending_iff j
  blank := forall_of_stored h.blank (fun pending => absurd pending hs) fun _ => get?_close

end Consistent

theorem Accepts.consistent (h : l.Accepts c l' reply) (hl : l.Consistent) : l'.Consistent := by
  cases h with
  | inserted room => exact hl.opening room rfl rfl ⟨rfl, rfl⟩
  | attached hp => exact hl.put hp rfl rfl rfl rfl
  | recorded hp => exact hl.put hp rfl rfl rfl rfl
  | finalized hp final => exact hl.close hp rfl final

theorem consistent_after (hl : l.Consistent) (c : LedgerCommand) : (l.after c).Consistent := by
  rw [after]
  rcases hl.numbered.step_cases c with ⟨l', reply, h, accepted⟩ | ⟨fault, h, -⟩
  · rw [h]
    exact accepted.consistent hl
  · rw [h]
    exact hl

theorem consistent_run (hl : l.Consistent) (cs : List LedgerCommand) : (l.run cs).Consistent := by
  induction cs generalizing l with
  | nil => exact hl
  | cons c cs ih => exact ih (consistent_after hl c)

/-! ## New numbers -/

/-- The replies of the accepted operations of a sequence, in order. -/
def replies : Ledger → List LedgerCommand → List LedgerReply
  | _, [] => []
  | l, c :: cs => (l.step c).2.toOption.toList ++ (l.after c).replies cs

/-- The numbers of the records that a sequence of operations opens, in order. -/
def openedIds (l : Ledger) (cs : List LedgerCommand) : List TxId :=
  (l.replies cs).filterMap LedgerReply.opened?

theorem Accepts.below_next (h : l.Accepts c l' reply) (hl : l.Consistent) :
    TxId.below l'.next = TxId.below l.next ++ reply.opened?.toList := by
  cases h with
  | inserted room => exact TxId.below_succ hl.positive room.fits
  | _ => exact (List.append_nil _).symm

theorem below_next_run (hl : l.Consistent) (cs : List LedgerCommand) :
    TxId.below (l.run cs).next = TxId.below l.next ++ l.openedIds cs := by
  induction cs generalizing l with
  | nil => exact (List.append_nil _).symm
  | cons c cs ih =>
    show TxId.below ((l.after c).run cs).next = _
    rw [ih (consistent_after hl c), openedIds, openedIds, replies, List.filterMap_append,
      ← List.append_assoc, after]
    congr 1
    rcases hl.numbered.step_cases c with ⟨l', reply, h, accepted⟩ | ⟨fault, h, -⟩
    · rw [h, accepted.below_next hl]
      cases hr : reply.opened? <;> simp [Except.toOption, hr]
    · rw [h]
      exact (List.append_nil _).symm

/-! ## Closed records -/

theorem Accepts.keeps_closed (h : l.Accepts c l' reply)
    (stored : l.records.get? id = some r) (final : r.status ≠ .pending) :
    l'.records.get? id = some r := by
  have other : ∀ {j q}, l.HasPending j q → id ≠ j := by
    rintro j q hp rfl
    rw [hp.stored] at stored
    cases stored
    exact final hp.pending
  cases h with
  | inserted room => exact SortedMap.get?_insert_of_free room.free stored
  | attached hp => rw [get?_put, if_neg (other hp), stored]
  | recorded hp => rw [get?_put, if_neg (other hp), stored]
  | finalized hp => rw [get?_close, if_neg (other hp), stored]

theorem keeps_closed_run (hl : l.Consistent) (stored : l.records.get? id = some r)
    (final : r.status ≠ .pending) (cs : List LedgerCommand) :
    (l.run cs).records.get? id = some r := by
  induction cs generalizing l with
  | nil => exact stored
  | cons c cs ih =>
    show ((l.after c).run cs).records.get? id = some r
    refine ih (consistent_after hl c) ?_
    rw [after]
    rcases hl.numbered.step_cases c with ⟨l', reply, h, accepted⟩ | ⟨fault, h, -⟩
    · rw [h]
      exact accepted.keeps_closed stored final
    · rw [h]
      exact stored

/-! ## What a ledger shows -/

/-- The lists and the counts that a ledger shows are those of its records. -/
structure WellKept (l : Ledger) : Prop where
  next : l.next.toNat = l.size + 1
  keys : l.records.keys = TxId.below l.next
  ids : ∀ id r, l.records.get? id = some r → r.id = id
  pendingIds : l.pendingIds = (l.recordList.filter Record.isPending).map Record.id
  ascending : l.pendingIds.Pairwise Key.Before
  blank : ∀ r ∈ l.recordList, r.status = .pending → r.result = [] ∧ r.message = none
  counts : ∀ s, (l.counts.get s).toNat = l.recordList.countP (·.status = s)
  total : l.counts.total = l.size
  pending_count : l.counts.pending.toNat = l.pendingIds.length

namespace Consistent

theorem recordIds (h : l.Consistent) : l.recordList.map Record.id = l.records.keys := by
  rw [recordList, SortedMap.values, List.map_map]
  refine List.map_congr_left ?_
  rintro ⟨k, r⟩ he
  exact h.ids k r (SortedMap.get?_eq_some_iff.mpr he)

theorem keys (h : l.Consistent) : l.records.keys = TxId.below l.next :=
  Key.eq_of_ascending SortedMap.keys_ascending TxId.below_ascending
    fun id => SortedMap.mem_keys.trans (h.stored_iff id)

theorem mem_pendingIds (h : l.Consistent) :
    id ∈ l.pendingIds ↔ ∃ r, l.HasPending id r := by
  rw [pendingIds, SortedSet.mem_toList, h.pending_iff, statusAt, Option.map_eq_some_iff]
  constructor
  · rintro ⟨r, stored, pending⟩
    exact ⟨r, stored, pending⟩
  · rintro ⟨r, stored, pending⟩
    exact ⟨r, stored, pending⟩

theorem pendingIds_eq (h : l.Consistent) :
    l.pendingIds = (l.recordList.filter Record.isPending).map Record.id := by
  have records_ascending : l.recordList.Pairwise fun r q => Key.Before r.id q.id := by
    rw [← List.pairwise_map, h.recordIds]
    exact SortedMap.keys_ascending
  refine Key.eq_of_ascending SortedSet.toList_ascending
    (List.pairwise_map.mpr (records_ascending.filter _)) fun id => h.mem_pendingIds.trans ?_
  simp only [List.mem_map, List.mem_filter, recordList, SortedMap.mem_values, Record.isPending,
    beq_iff_eq]
  constructor
  · rintro ⟨r, hp⟩
    exact ⟨r, ⟨⟨id, hp.stored⟩, hp.pending⟩, h.ids id r hp.stored⟩
  · rintro ⟨r, ⟨⟨j, stored⟩, pending⟩, rfl⟩
    rw [h.ids j r stored]
    exact ⟨r, stored, pending⟩

theorem size_eq (h : l.Consistent) : l.next.toNat = l.size + 1 := by
  have hsize : l.size = (TxId.below l.next).length := by
    rw [← h.keys, ← h.recordIds, List.length_map, recordList, SortedMap.length_values]
    rfl
  have positive := h.positive
  rw [hsize, TxId.length_below]
  omega

theorem length_recordList (h : l.Consistent) : l.recordList.length < UInt64.size := by
  have hlt := l.next.toNat_lt_size
  have hsize := h.size_eq
  rw [recordList, SortedMap.length_values, ← size]
  omega

theorem toNat_get_counts (h : l.Consistent) (s : Status) :
    (l.counts.get s).toNat = l.recordList.countP (·.status = s) := by
  have fits : l.recordList.countP (·.status = s) < UInt64.size :=
    Nat.lt_of_le_of_lt List.countP_le_length h.length_recordList
  rw [counts, StatusCounts.get_foldl_add, StatusCounts.get_zero, UInt64.zero_add,
    UInt64.toNat_ofNat_of_lt' fits]

theorem wellKept (h : l.Consistent) : l.WellKept where
  next := h.size_eq
  keys := h.keys
  ids := h.ids
  pendingIds := h.pendingIds_eq
  ascending := SortedSet.toList_ascending
  blank r hr := by
    obtain ⟨id, hid⟩ := SortedMap.mem_values.mp hr
    exact h.blank id r hid
  counts := h.toNat_get_counts
  total := by
    rw [size, ← SortedMap.length_values, ← recordList, ← StatusCounts.countP_add,
      ← h.toNat_get_counts, ← h.toNat_get_counts, ← h.toNat_get_counts, ← h.toNat_get_counts]
    rfl
  pending_count := by
    rw [h.pendingIds_eq, List.length_map, ← List.countP_eq_length_filter]
    exact h.toNat_get_counts .pending

end Consistent

/-- After every sequence of operations on a new ledger, accepted or not, the books are in order: the
records stand under the numbers from 1 on, which were given out one after the other, and what is
listed and counted is what is stored. A closed record stays what it is, and whatever the next
operation is, it does not find its number in use, so no record is ever opened over another; if it
faults, it changes nothing. -/
theorem run_wellKept (cs : List LedgerCommand) :
    (empty.run cs).WellKept ∧
    empty.openedIds cs = TxId.below (empty.run cs).next ∧
    (∀ id r, (empty.run cs).records.get? id = some r → r.status ≠ .pending →
      ∀ ds, ((empty.run cs).run ds).records.get? id = some r) ∧
    (∀ c id, ((empty.run cs).step c).2 ≠ .error (.internal (.allocatedTwice id))) ∧
    ∀ c fault, ((empty.run cs).step c).2 = .error fault → (empty.run cs).after c = empty.run cs := by
  have consistent : (empty.run cs).Consistent := consistent_run .empty cs
  refine ⟨consistent.wellKept, ?given, fun _ _ => keeps_closed_run consistent, fun c id => ?free,
    fun c fault refused => ?kept⟩
  case given =>
    rw [below_next_run Consistent.empty cs]
    rfl
  case free =>
    rcases consistent.numbered.step_cases c with ⟨l', reply, h, -⟩ | ⟨fault, h, other⟩
    · rw [h]
      exact nofun
    · rw [h]
      exact fun same => other id (Except.error.inj same)
  case kept =>
    rcases consistent.numbered.step_cases c with ⟨l', reply, h, -⟩ | ⟨fault', h, -⟩
    · rw [h] at refused
      cases refused
    · rw [after, h]

end Ledger

end Countersign
