/-!
# Cutting lists

`chunksOf k xs` cuts a list into pieces of `k` elements, the last one possibly shorter; joined they
give the list back (`flatten_chunksOf`).
-/

namespace Countersign

variable {α : Type}

/-- At most `n` pieces of `k` elements from the front of a list. -/
def chunksUpTo (k : Nat) : Nat → List α → List (List α)
  | 0, _ => []
  | n + 1, xs => if xs.isEmpty then [] else xs.take k :: chunksUpTo k n (xs.drop k)

/-- The pieces of `k` elements of a list; the last one may be shorter. -/
def chunksOf (k : Nat) (xs : List α) : List (List α) := chunksUpTo k xs.length xs

theorem flatten_chunksUpTo {k : Nat} (hk : 0 < k) {n : Nat} {xs : List α} (h : xs.length ≤ n) :
    (chunksUpTo k n xs).flatten = xs := by
  induction n generalizing xs with
  | zero => simp [chunksUpTo, List.eq_nil_of_length_eq_zero (by omega : xs.length = 0)]
  | succ n ih =>
    cases xs with
    | nil => simp [chunksUpTo]
    | cons x xs =>
      have hd : ((x :: xs).drop k).length ≤ n := by
        simp only [List.length_drop, List.length_cons] at h ⊢
        omega
      simp only [chunksUpTo, List.isEmpty_cons, Bool.false_eq_true, if_false, List.flatten_cons,
        ih hd, List.take_append_drop]

theorem flatten_chunksOf {k : Nat} (hk : 0 < k) (xs : List α) : (chunksOf k xs).flatten = xs :=
  flatten_chunksUpTo hk (Nat.le_refl _)

end Countersign
