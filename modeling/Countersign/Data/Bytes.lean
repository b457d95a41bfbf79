/-!
# Byte strings

`Bytes` are byte strings of any length and `FixedBytes n` those of exactly `n` bytes. `leBytes k n`
writes a number in `k` bytes, least significant first, and `ofLe` reads it back; `beBytes` and
`ofBe` do the same with the most significant byte first. `utf8` is the encoded form of a text.
-/

namespace Countersign

abbrev Bytes := List UInt8

/-! ## Numbers as bytes -/

/-- The low `k` bytes of a number, least significant first. -/
def leBytes : Nat → Nat → Bytes
  | 0, _ => []
  | k + 1, n => UInt8.ofNat n :: leBytes k (n / 256)

/-- The number whose little-endian form is given. -/
def ofLe : Bytes → Nat
  | [] => 0
  | b :: bs => b.toNat + 256 * ofLe bs

/-- The low `k` bytes of a number, most significant first. -/
def beBytes (k n : Nat) : Bytes := (leBytes k n).reverse

def ofBe (bs : Bytes) : Nat := ofLe bs.reverse

@[simp] theorem length_leBytes (k n : Nat) : (leBytes k n).length = k := by
  induction k generalizing n with
  | zero => rfl
  | succ k ih => simp [leBytes, ih]

@[simp] theorem length_beBytes (k n : Nat) : (beBytes k n).length = k := by
  simp [beBytes]

theorem ofLe_lt (bs : Bytes) : ofLe bs < Nat.pow 256 bs.length := by
  induction bs with
  | nil => simp [ofLe]
  | cons b bs ih =>
    have hb : b.toNat < 256 := b.toNat_lt
    have hp : Nat.pow 256 (b :: bs).length = Nat.pow 256 bs.length * 256 := rfl
    simp only [ofLe, hp]
    omega

theorem ofLe_leBytes {k n : Nat} (h : n < Nat.pow 256 k) : ofLe (leBytes k n) = n := by
  induction k generalizing n with
  | zero => simp at h; simp [leBytes, ofLe, h]
  | succ k ih =>
    have hk : n / 256 < Nat.pow 256 k := by
      have hp : Nat.pow 256 (k + 1) = Nat.pow 256 k * 256 := rfl
      exact Nat.div_lt_of_lt_mul (by omega)
    have hb : (UInt8.ofNat n).toNat = n % 256 := by simp
    simp only [leBytes, ofLe, ih hk, hb]
    omega

theorem leBytes_ofLe (bs : Bytes) : leBytes bs.length (ofLe bs) = bs := by
  induction bs with
  | nil => rfl
  | cons b bs ih =>
    have hb : b.toNat < 256 := b.toNat_lt
    have hd : (b.toNat + 256 * ofLe bs) / 256 = ofLe bs := by omega
    have hm : UInt8.ofNat (b.toNat + 256 * ofLe bs) = b := by
      apply UInt8.toNat_inj.mp
      simp
    simp only [List.length_cons, ofLe, leBytes, hd, hm, ih]

theorem leBytes_inj {k m n : Nat} (hm : m < Nat.pow 256 k) (hn : n < Nat.pow 256 k)
    (h : leBytes k m = leBytes k n) : m = n := by
  rw [← ofLe_leBytes hm, h, ofLe_leBytes hn]

/-! ## Text as bytes -/

def utf8 (s : String) : Bytes := s.toList.flatMap String.utf8EncodeChar

theorem utf8_injective {s t : String} (h : utf8 s = utf8 t) : s = t := by
  have bytes : s.toList.utf8Encode = t.toList.utf8Encode := congrArg List.toByteArray h
  apply String.toByteArray_inj.mp
  simpa using bytes

/-! ## Byte strings of one length -/

/-- A byte string of exactly `n` bytes. -/
structure FixedBytes (n : Nat) where
  toList : Bytes
  length_toList : toList.length = n
  deriving DecidableEq, Repr

namespace FixedBytes

variable {n : Nat}

@[ext] theorem ext {a b : FixedBytes n} (h : a.toList = b.toList) : a = b := by
  cases a; cases b; simp_all

theorem toList_injective {a b : FixedBytes n} : a.toList = b.toList ↔ a = b :=
  ⟨ext, fun h => h ▸ rfl⟩

def ofList? (n : Nat) (bs : Bytes) : Option (FixedBytes n) :=
  if h : bs.length = n then some ⟨bs, h⟩ else none

@[simp] theorem ofList?_toList (a : FixedBytes n) : ofList? n a.toList = some a := by
  simp [ofList?, a.length_toList]

theorem ofList?_eq_some_iff {bs : Bytes} {a : FixedBytes n} :
    ofList? n bs = some a ↔ bs = a.toList := by
  constructor
  · intro h
    unfold ofList? at h
    split at h
    · cases h; rfl
    · cases h
  · rintro rfl; simp

def replicate (n : Nat) (b : UInt8) : FixedBytes n := ⟨List.replicate n b, by simp⟩

def zero (n : Nat) : FixedBytes n := replicate n 0

/-- The low `n` bytes of a number, least significant first. -/
def ofNatLe (n k : Nat) : FixedBytes n := ⟨leBytes n k, by simp⟩

def truncate (a : FixedBytes n) (k : Nat) (h : k ≤ n) : FixedBytes k :=
  ⟨a.toList.take k, by simp [a.length_toList, h]⟩

end FixedBytes

end Countersign
