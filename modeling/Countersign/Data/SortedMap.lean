import Countersign.Data.Key

/-!
# Finite maps in key order

A `SortedMap` holds its entries in strictly ascending order of their keys, so a listing of a map is
in key order and two maps with the same look-ups are equal (`SortedMap.ext_get?`). The look-up laws
are `get?_insert_self`, `get?_insert_ne`, `get?_erase_self` and `get?_erase_ne`.
-/

namespace Countersign

/-- A finite map whose entries stand in ascending order of their keys. -/
structure SortedMap (κ ν : Type) [Key κ] where
  entries : List (κ × ν)
  sorted : entries.Pairwise fun a b => Key.Before a.1 b.1
  deriving Repr

namespace SortedMap

variable {κ ν : Type} [Key κ]

@[ext] theorem ext {m n : SortedMap κ ν} (h : m.entries = n.entries) : m = n := by
  cases m; cases n; simp_all

instance [DecidableEq κ] [DecidableEq ν] : DecidableEq (SortedMap κ ν) := fun m n =>
  decidable_of_iff (m.entries = n.entries) ⟨ext, fun h => h ▸ rfl⟩

/-! ## Entry lists -/

/-- The value of the first entry with the key. -/
def find (k : κ) : List (κ × ν) → Option ν
  | [] => none
  | (k', v) :: rest => if compare k k' = .eq then some v else find k rest

/-- The entries with `v` at its place under `k`, instead of what stood there. -/
def place (k : κ) (v : ν) : List (κ × ν) → List (κ × ν)
  | [] => [(k, v)]
  | (k', v') :: rest =>
    match compare k k' with
    | .lt => (k, v) :: (k', v') :: rest
    | .eq => (k, v) :: rest
    | .gt => (k', v') :: place k v rest

/-- The entries without the first one under `k`. -/
def remove (k : κ) : List (κ × ν) → List (κ × ν)
  | [] => []
  | (k', v') :: rest => if compare k k' = .eq then rest else (k', v') :: remove k rest

theorem mem_place {k : κ} {v : ν} {e : κ × ν} {es : List (κ × ν)} :
    e ∈ place k v es → e = (k, v) ∨ e ∈ es := by
  induction es with
  | nil => simp [place]
  | cons hd tl ih =>
    simp only [place]
    split <;> grind

theorem pairwise_place (k : κ) (v : ν) {es : List (κ × ν)}
    (h : es.Pairwise fun a b => Key.Before a.1 b.1) :
    (place k v es).Pairwise fun a b => Key.Before a.1 b.1 := by
  induction es with
  | nil => simp [place]
  | cons hd tl ih =>
    obtain ⟨h1, h2⟩ := List.pairwise_cons.mp h
    simp only [place]
    split
    · next hlt =>
      refine List.pairwise_cons.mpr ⟨fun a ha => ?_, h⟩
      rcases List.mem_cons.mp ha with rfl | ha
      · exact hlt
      · exact Key.Before.trans hlt (h1 a ha)
    · next heq =>
      rw [Key.eq_iff] at heq
      subst heq
      exact List.pairwise_cons.mpr ⟨h1, h2⟩
    · next hgt =>
      refine List.pairwise_cons.mpr ⟨fun a ha => ?_, ih h2⟩
      rcases mem_place ha with rfl | ha
      · exact Key.before_of_gt hgt
      · exact h1 a ha

theorem remove_sublist (k : κ) (es : List (κ × ν)) : (remove k es).Sublist es := by
  induction es with
  | nil => exact .slnil
  | cons hd tl ih =>
    simp only [remove]
    split
    · exact List.sublist_cons_self ..
    · exact ih.cons_cons _

theorem find_place_self (k : κ) (v : ν) (es : List (κ × ν)) : find k (place k v es) = some v := by
  induction es with
  | nil => simp [place, find]
  | cons hd tl ih =>
    simp only [place]
    split
    · simp [find]
    · simp [find]
    · next hgt => simp [find, hgt, ih]

theorem find_place_ne {j k : κ} (h : j ≠ k) (v : ν) (es : List (κ × ν)) :
    find j (place k v es) = find j es := by
  have hjk : compare j k ≠ .eq := fun e => h (Key.eq_iff.mp e)
  induction es with
  | nil => simp [place, find, hjk]
  | cons hd tl ih =>
    simp only [place]
    split
    · simp [find, hjk]
    · next heq =>
      have hk := Key.eq_iff.mp heq
      subst hk
      simp [find, hjk]
    · simp [find, ih]

theorem find_eq_none_of_before {k : κ} {es : List (κ × ν)}
    (h : ∀ e ∈ es, Key.Before k e.1) : find k es = none := by
  induction es with
  | nil => rfl
  | cons hd tl ih =>
    have h1 : compare k hd.1 = .lt := h hd (List.mem_cons_self ..)
    simp [find, h1, ih fun e he => h e (List.mem_cons_of_mem _ he)]

theorem find_remove_self (k : κ) {es : List (κ × ν)}
    (h : es.Pairwise fun a b => Key.Before a.1 b.1) : find k (remove k es) = none := by
  induction es with
  | nil => rfl
  | cons hd tl ih =>
    obtain ⟨h1, h2⟩ := List.pairwise_cons.mp h
    simp only [remove]
    split
    · next heq =>
      rw [Key.eq_iff] at heq
      subst heq
      exact find_eq_none_of_before h1
    · next hne => simp [find, hne, ih h2]

theorem find_remove_ne {j k : κ} (h : j ≠ k) (es : List (κ × ν)) :
    find j (remove k es) = find j es := by
  have hjk : compare j k ≠ .eq := fun e => h (Key.eq_iff.mp e)
  induction es with
  | nil => rfl
  | cons hd tl ih =>
    simp only [remove]
    split
    · next heq =>
      have hk := Key.eq_iff.mp heq
      subst hk
      simp [find, hjk]
    · simp [find, ih]

theorem find_eq_some_iff {k : κ} {v : ν} {es : List (κ × ν)}
    (h : es.Pairwise fun a b => Key.Before a.1 b.1) : find k es = some v ↔ (k, v) ∈ es := by
  induction es with
  | nil => simp [find]
  | cons hd tl ih =>
    obtain ⟨h1, h2⟩ := List.pairwise_cons.mp h
    obtain ⟨k', v'⟩ := hd
    simp only [find, List.mem_cons, Prod.mk.injEq]
    split
    · next heq =>
      rw [Key.eq_iff] at heq
      subst heq
      constructor
      · intro e; cases e; exact .inl ⟨rfl, rfl⟩
      · rintro (⟨_, rfl⟩ | hm)
        · rfl
        · exact absurd rfl (h1 _ hm).ne
    · next hne =>
      rw [ih h2]
      constructor
      · exact .inr
      · rintro (⟨rfl, _⟩ | hm)
        · exact absurd (Key.eq_iff.mpr rfl) hne
        · exact hm

theorem length_place {k : κ} {v : ν} {es : List (κ × ν)} (h : find k es = none) :
    (place k v es).length = es.length + 1 := by
  induction es with
  | nil => rfl
  | cons hd tl ih =>
    simp only [find] at h
    simp only [place]
    split
    · rfl
    · next heq => simp [heq] at h
    · next hgt => simpa using ih (by simpa [hgt] using h)

theorem length_remove {k : κ} {v : ν} {es : List (κ × ν)} (h : find k es = some v) :
    (remove k es).length + 1 = es.length := by
  induction es with
  | nil => cases h
  | cons hd tl ih =>
    simp only [find] at h
    simp only [remove]
    split
    · rfl
    · next hne => simpa using ih (by simpa [hne] using h)

/-! ## Maps -/

def empty : SortedMap κ ν := ⟨[], .nil⟩

instance : EmptyCollection (SortedMap κ ν) := ⟨empty⟩

instance : Inhabited (SortedMap κ ν) := ⟨empty⟩

def get? (m : SortedMap κ ν) (k : κ) : Option ν := find k m.entries

def contains (m : SortedMap κ ν) (k : κ) : Bool := (m.get? k).isSome

/-- The map with `v` under `k`, instead of what stood there. -/
def insert (m : SortedMap κ ν) (k : κ) (v : ν) : SortedMap κ ν :=
  ⟨place k v m.entries, pairwise_place k v m.sorted⟩

def erase (m : SortedMap κ ν) (k : κ) : SortedMap κ ν :=
  ⟨remove k m.entries, m.sorted.sublist (remove_sublist k m.entries)⟩

def keys (m : SortedMap κ ν) : List κ := m.entries.map Prod.fst

def values (m : SortedMap κ ν) : List ν := m.entries.map Prod.snd

def size (m : SortedMap κ ν) : Nat := m.entries.length

def isEmpty (m : SortedMap κ ν) : Bool := m.entries.isEmpty

/-- The entries of a list put into key order; of two entries with one key the later one stays. -/
def ofList (es : List (κ × ν)) : SortedMap κ ν := es.foldl (fun m e => m.insert e.1 e.2) empty

variable {m n : SortedMap κ ν} {j k : κ} {v : ν}

@[simp] theorem get?_empty : (empty : SortedMap κ ν).get? k = none := rfl

@[simp] theorem get?_insert_self : (m.insert k v).get? k = some v :=
  find_place_self k v m.entries

theorem get?_insert_ne (h : j ≠ k) : (m.insert k v).get? j = m.get? j :=
  find_place_ne h v m.entries

@[simp] theorem get?_erase_self : (m.erase k).get? k = none := find_remove_self k m.sorted

theorem get?_erase_ne (h : j ≠ k) : (m.erase k).get? j = m.get? j := find_remove_ne h m.entries

theorem get?_insert [DecidableEq κ] :
    (m.insert k v).get? j = if j = k then some v else m.get? j := by
  split
  · next h => rw [h, get?_insert_self]
  · next h => exact get?_insert_ne h

theorem get?_insert_eq_some_iff [DecidableEq κ] {w : ν} :
    (m.insert k v).get? j = some w ↔ (j = k ∧ w = v) ∨ (j ≠ k ∧ m.get? j = some w) := by
  rw [get?_insert]
  by_cases h : j = k
  · simp [h, eq_comm]
  · simp [h]

theorem get?_erase [DecidableEq κ] : (m.erase k).get? j = if j = k then none else m.get? j := by
  split
  · next h => rw [h, get?_erase_self]
  · next h => exact get?_erase_ne h

/-- A new entry hides none of the others. -/
theorem get?_insert_of_free {w : ν} (hk : m.get? k = none) (hj : m.get? j = some w) :
    (m.insert k v).get? j = some w := by
  have hne : j ≠ k := by
    rintro rfl
    rw [hj] at hk
    cases hk
  rw [get?_insert_ne hne, hj]

theorem get?_eq_some_iff : m.get? k = some v ↔ (k, v) ∈ m.entries := find_eq_some_iff m.sorted

theorem contains_iff : m.contains k = true ↔ ∃ v, m.get? k = some v := by
  simp [contains, Option.isSome_iff_exists]

theorem contains_insert [DecidableEq κ] :
    (m.insert k v).contains j = if j = k then true else m.contains j := by
  rw [contains, get?_insert]
  split <;> rfl

theorem mem_keys : k ∈ m.keys ↔ m.contains k = true := by
  rw [contains_iff, keys, List.mem_map]
  constructor
  · rintro ⟨⟨k, v⟩, hm, rfl⟩
    exact ⟨v, get?_eq_some_iff.mpr hm⟩
  · rintro ⟨v, hv⟩
    exact ⟨(k, v), get?_eq_some_iff.mp hv, rfl⟩

theorem mem_values : v ∈ m.values ↔ ∃ k, m.get? k = some v := by
  rw [values, List.mem_map]
  constructor
  · rintro ⟨⟨k, v⟩, hm, rfl⟩
    exact ⟨k, get?_eq_some_iff.mpr hm⟩
  · rintro ⟨k, hk⟩
    exact ⟨(k, v), get?_eq_some_iff.mp hk, rfl⟩

theorem keys_ascending : m.keys.Pairwise Key.Before := List.pairwise_map.mpr m.sorted

theorem length_values : m.values.length = m.size := List.length_map _

theorem entries_nodup : m.entries.Nodup :=
  m.sorted.imp fun h e => h.ne (congrArg Prod.fst e)

theorem isEmpty_iff : m.isEmpty = true ↔ m = empty := by
  rw [isEmpty, List.isEmpty_iff]
  exact ⟨fun h => ext h, fun h => h ▸ rfl⟩

/-- A map is determined by its look-ups. -/
theorem ext_get? (h : ∀ k, m.get? k = n.get? k) : m = n := by
  apply ext
  have hp : m.entries.Perm n.entries := by
    rw [List.perm_ext_iff_of_nodup entries_nodup entries_nodup]
    rintro ⟨k, v⟩
    rw [← get?_eq_some_iff, ← get?_eq_some_iff, h]
  exact hp.eq_of_pairwise (fun a b _ _ hab hba => absurd hba hab.not_before) m.sorted n.sorted

theorem size_insert (h : m.get? k = none) : (m.insert k v).size = m.size + 1 := length_place h

theorem size_erase (h : m.contains k = true) : (m.erase k).size + 1 = m.size := by
  obtain ⟨v, hv⟩ := contains_iff.mp h
  exact length_remove hv

theorem insert_comm [DecidableEq κ] {w : ν} (h : j ≠ k) :
    (m.insert j v).insert k w = (m.insert k w).insert j v := by
  apply ext_get?
  intro i
  simp only [get?_insert]
  split
  · next hk => rw [if_neg (hk ▸ Ne.symm h)]
  · rfl

theorem erase_comm [DecidableEq κ] : (m.erase j).erase k = (m.erase k).erase j := by
  apply ext_get?
  intro i
  simp only [get?_erase]
  split
  · split <;> rfl
  · rfl

theorem get?_foldl_insert [DecidableEq κ] {es : List (κ × ν)}
    (h : es.Pairwise fun a b => Key.Before a.1 b.1) :
    (es.foldl (fun m e => m.insert e.1 e.2) m).get? k = (find k es).or (m.get? k) := by
  induction es generalizing m with
  | nil => rfl
  | cons hd tl ih =>
    obtain ⟨first, rest⟩ := List.pairwise_cons.mp h
    rw [List.foldl_cons, ih rest, find]
    by_cases hk : k = hd.1
    · subst hk
      rw [find_eq_none_of_before first, if_pos (Key.eq_iff.mpr rfl), get?_insert_self]
      rfl
    · rw [get?_insert_ne hk, if_neg (fun e => hk (Key.eq_iff.mp e))]

theorem ofList_entries [DecidableEq κ] (m : SortedMap κ ν) : ofList m.entries = m := by
  apply ext_get?
  intro k
  rw [ofList, get?_foldl_insert m.sorted, get?_empty, Option.or_none]
  rfl

/-- What stands under a key already makes no difference. -/
theorem insert_of_get? [DecidableEq κ] (h : m.get? k = some v) : m.insert k v = m := by
  apply ext_get?
  intro j
  rw [get?_insert]
  split
  · next hj => rw [hj, h]
  · rfl

theorem erase_of_free [DecidableEq κ] (h : m.get? k = none) : m.erase k = m := by
  apply ext_get?
  intro j
  rw [get?_erase]
  split
  · next hj => rw [hj, h]
  · rfl

/-- Of two insertions under one key the later one counts. -/
@[simp] theorem insert_insert [DecidableEq κ] {w : ν} :
    (m.insert k v).insert k w = m.insert k w := by
  apply ext_get?
  intro j
  rw [get?_insert, get?_insert, get?_insert]
  split <;> rfl

end SortedMap

end Countersign
