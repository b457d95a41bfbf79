import Countersign.Data.SortedMap

/-!
# Finite sets in key order

A `SortedSet` lists its members in strictly ascending order; equal memberships are equal sets.
-/

namespace Countersign

/-- A finite set whose members stand in ascending order. -/
structure SortedSet (α : Type) [Key α] where
  marks : SortedMap α Unit
  deriving Repr

namespace SortedSet

variable {α : Type} [Key α]

instance [DecidableEq α] : DecidableEq (SortedSet α) := fun s t =>
  decidable_of_iff (s.marks = t.marks) ⟨fun h => by cases s; cases t; simp_all, fun h => h ▸ rfl⟩

def empty : SortedSet α := ⟨.empty⟩

instance : EmptyCollection (SortedSet α) := ⟨empty⟩

instance : Inhabited (SortedSet α) := ⟨empty⟩

def toList (s : SortedSet α) : List α := s.marks.keys

def contains (s : SortedSet α) (a : α) : Bool := s.marks.contains a

def insert (s : SortedSet α) (a : α) : SortedSet α := ⟨s.marks.insert a ()⟩

def erase (s : SortedSet α) (a : α) : SortedSet α := ⟨s.marks.erase a⟩

def size (s : SortedSet α) : Nat := s.marks.size

def isEmpty (s : SortedSet α) : Bool := s.marks.isEmpty

def insertAll (s : SortedSet α) (as : List α) : SortedSet α := as.foldl insert s

def eraseAll (s : SortedSet α) (as : List α) : SortedSet α := as.foldl erase s

def ofList (as : List α) : SortedSet α := empty.insertAll as

variable {s t : SortedSet α} {a b : α}

@[simp] theorem contains_empty : (empty : SortedSet α).contains a = false := rfl

@[simp] theorem contains_insert_self : (s.insert a).contains a = true := by
  simp [contains, insert, SortedMap.contains]

theorem contains_insert_ne (h : b ≠ a) : (s.insert a).contains b = s.contains b := by
  simp [contains, insert, SortedMap.contains, SortedMap.get?_insert_ne h]

@[simp] theorem contains_erase_self : (s.erase a).contains a = false := by
  simp [contains, erase, SortedMap.contains]

theorem contains_erase_ne (h : b ≠ a) : (s.erase a).contains b = s.contains b := by
  simp [contains, erase, SortedMap.contains, SortedMap.get?_erase_ne h]

theorem contains_insert [DecidableEq α] :
    (s.insert a).contains b = if b = a then true else s.contains b := by
  split
  · next h => rw [h, contains_insert_self]
  · next h => exact contains_insert_ne h

theorem contains_erase [DecidableEq α] :
    (s.erase a).contains b = if b = a then false else s.contains b := by
  split
  · next h => rw [h, contains_erase_self]
  · next h => exact contains_erase_ne h

theorem contains_insertAll [DecidableEq α] {as : List α} :
    (s.insertAll as).contains a = if a ∈ as then true else s.contains a := by
  induction as generalizing s with
  | nil => rfl
  | cons b as ih =>
    show ((s.insert b).insertAll as).contains a = _
    rw [ih, contains_insert]
    by_cases hb : a = b <;> simp [hb]

theorem contains_eraseAll [DecidableEq α] {as : List α} :
    (s.eraseAll as).contains a = if a ∈ as then false else s.contains a := by
  induction as generalizing s with
  | nil => rfl
  | cons b as ih =>
    show ((s.erase b).eraseAll as).contains a = _
    rw [ih, contains_erase]
    by_cases hb : a = b <;> simp [hb]

theorem size_insert (h : s.contains a = false) : (s.insert a).size = s.size + 1 := by
  refine SortedMap.size_insert ?_
  simpa [contains, SortedMap.contains] using h

theorem size_erase (h : s.contains a = true) : (s.erase a).size + 1 = s.size :=
  SortedMap.size_erase h

theorem erase_comm [DecidableEq α] : (s.erase a).erase b = (s.erase b).erase a :=
  congrArg mk SortedMap.erase_comm

theorem ofList_toList [DecidableEq α] (s : SortedSet α) : ofList s.toList = s := by
  have marks (as : List α) (t : SortedSet α) :
      as.foldl insert t = ⟨(as.map fun a => (a, ())).foldl (fun m e => m.insert e.1 e.2) t.marks⟩ := by
    induction as generalizing t with
    | nil => rfl
    | cons a as ih => exact ih (t.insert a)
  have entries : (s.toList.map fun a => (a, ())) = s.marks.entries := by
    rw [toList, SortedMap.keys, List.map_map]
    exact List.map_id _
  rw [ofList, insertAll, marks, entries]
  exact congrArg mk (SortedMap.ofList_entries s.marks)

theorem mem_toList : a ∈ s.toList ↔ s.contains a = true := SortedMap.mem_keys

theorem length_toList : s.toList.length = s.size := List.length_map _

theorem toList_ascending : s.toList.Pairwise Key.Before := s.marks.keys_ascending

theorem toList_eq_singleton (h : s.contains a = true) (one : s.size ≤ 1) : s.toList = [a] := by
  have hm := mem_toList.mpr h
  rw [← length_toList] at one
  match hl : s.toList with
  | [] => rw [hl] at hm; cases hm
  | [b] => rw [hl, List.mem_singleton] at hm; rw [hm]
  | b :: c :: rest => rw [hl] at one; simp at one

theorem isEmpty_iff : s.isEmpty = true ↔ s = empty := by
  rw [isEmpty, SortedMap.isEmpty_iff]
  exact ⟨fun h => by cases s; cases h; rfl, fun h => h ▸ rfl⟩

/-- A set is determined by its members. -/
theorem ext_contains (h : ∀ a, s.contains a = t.contains a) : s = t := by
  have hm : s.marks = t.marks := by
    apply SortedMap.ext_get?
    intro k
    have hk := h k
    simp only [contains, SortedMap.contains] at hk
    cases hs : s.marks.get? k <;> cases ht : t.marks.get? k <;> simp_all
  cases s; cases t; simp_all

theorem isEmpty_eq_false_iff : s.isEmpty = false ↔ ∃ a, s.contains a = true := by
  constructor
  · intro h
    cases hl : s.toList with
    | nil =>
      have all : s = empty := by
        apply ext_contains
        intro a
        rw [contains_empty, ← Bool.not_eq_true, ← mem_toList, hl]
        exact List.not_mem_nil
      rw [isEmpty_iff.mpr all] at h
      cases h
    | cons a rest => exact ⟨a, mem_toList.mp (by rw [hl]; exact List.mem_cons_self ..)⟩
  · rintro ⟨a, ha⟩
    rw [← Bool.not_eq_true, isEmpty_iff]
    rintro rfl
    cases ha

end SortedSet

end Countersign
