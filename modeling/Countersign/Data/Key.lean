import Countersign.Data.Bytes

/-!
# Keys

A `Key` is a type whose values come in one fixed order, the order in which tables list their
entries: byte strings byte by byte, texts character by character, numbers by value.
-/

namespace Countersign

/-- A type with a total order whose equality is equality of values. -/
class Key (κ : Type) extends Ord κ, Std.TransOrd κ, Std.LawfulEqOrd κ

namespace Key

variable {κ ι : Type}

/-- The order of the values of an injective function. -/
@[reducible] def lift [Key ι] (f : κ → ι) (inj : ∀ a b, f a = f b → a = b) : Key κ where
  compare a b := compare (f a) (f b)
  eq_swap {_ _} := Std.OrientedOrd.eq_swap
  isLE_trans {_ _ _} h h' := Std.TransOrd.isLE_trans h h'
  compare_self {_} := Std.ReflOrd.compare_self
  eq_of_compare {_ _} h := inj _ _ (Std.LawfulEqOrd.eq_of_compare h)

variable [Key κ] {a b c : κ}

abbrev Before (a b : κ) : Prop := compare a b = .lt

theorem eq_iff : compare a b = .eq ↔ a = b := Std.LawfulEqCmp.compare_eq_iff_eq

theorem Before.ne (h : Before a b) : a ≠ b := by
  rintro rfl
  rw [Before, eq_iff.mpr rfl] at h
  cases h

theorem Before.trans (hab : Before a b) (hbc : Before b c) : Before a c :=
  Std.TransCmp.lt_trans hab hbc

theorem before_of_gt (h : compare a b = .gt) : Before b a :=
  Std.OrientedCmp.lt_of_gt h

theorem Before.not_before (h : Before a b) : ¬ Before b a := fun h' => (h.trans h').ne rfl

/-- Two ascending lists with the same members are equal. -/
theorem eq_of_ascending {as bs : List κ} (ha : as.Pairwise Before) (hb : bs.Pairwise Before)
    (h : ∀ a, a ∈ as ↔ a ∈ bs) : as = bs := by
  have hp : as.Perm bs :=
    (List.perm_ext_iff_of_nodup (ha.imp Before.ne) (hb.imp Before.ne)).mpr h
  exact hp.eq_of_pairwise (fun _ _ _ _ hab hba => absurd hba hab.not_before) ha hb

end Key

instance : Key Bytes where

instance : Key String where

instance : Key UInt64 where

instance (n : Nat) : Key (FixedBytes n) := .lift FixedBytes.toList fun _ _ => FixedBytes.ext

end Countersign
