import Countersign.Data.Canonical
import Mathlib.Data.List.Forall2

/-!
# What a canonical encoding determines

A `Kind` is what a reader knows of a field before reading it. Fields of one kind are read back from
the front of any byte string (`Field.encode_append_inj`), and so are lists of fields whose kinds are
known (`encodeAll_append_inj`): the encoding is injective and prefix free. Sized fields need no kinds
and not even their number, since each takes at least the bytes of its length
(`flatMap_withLength_inj`). A preimage so determines the domain and the fields (`preimage_eq_iff`).
-/

namespace Countersign.Canonical

/-- What is known of a field before it is read. -/
inductive Kind where
  | byte
  | word
  | amount
  | fixed (n : Nat)
  | sized
  | optional (k : Kind)

/-- The field is of the kind; a sized one has a length that fits in the word in front of it. -/
inductive Field.HasKind : Field → Kind → Prop where
  | byte (v : UInt8) : HasKind (.byte v) .byte
  | word (v : UInt64) : HasKind (.word v) .word
  | amount (v : BitVec 128) : HasKind (.amount v) .amount
  | fixed {bs : Bytes} {n : Nat} (length : bs.length = n) : HasKind (.fixed bs) (.fixed n)
  | sized {bs : Bytes} (short : bs.length < UInt64.size) : HasKind (.sized bs) .sized
  | absent (k : Kind) : HasKind .absent (.optional k)
  | present {f : Field} {k : Kind} (h : HasKind f k) : HasKind (.present f) (.optional k)

/-! ## Numbers and lengths -/

theorem leBytes_append_inj {k m n : Nat} (hm : m < Nat.pow 256 k) (hn : n < Nat.pow 256 k)
    {a b : Bytes} (h : leBytes k m ++ a = leBytes k n ++ b) : m = n ∧ a = b := by
  obtain ⟨hmn, hab⟩ := List.append_inj h (by rw [length_leBytes, length_leBytes])
  exact ⟨leBytes_inj hm hn hmn, hab⟩

theorem withLength_append_inj {x y : Bytes} (hx : x.length < UInt64.size)
    (hy : y.length < UInt64.size) {a b : Bytes} (h : withLength x ++ a = withLength y ++ b) :
    x = y ∧ a = b := by
  unfold withLength at h
  rw [List.append_assoc, List.append_assoc] at h
  obtain ⟨hl, h⟩ := leBytes_append_inj hx hy h
  exact List.append_inj h hl

/-! ## Fields -/

namespace Field

variable {k : Kind} {f g : Field} {fs gs : List Field} {ks : List Kind} {a b : Bytes}

/-- Fields of one kind are read back from the front of any byte string. -/
theorem encode_append_inj (hf : f.HasKind k) (hg : g.HasKind k)
    (h : f.encode ++ a = g.encode ++ b) : f = g ∧ a = b := by
  induction hf generalizing g with
  | byte v =>
    cases hg with
    | byte w =>
      obtain ⟨hv, hab⟩ := List.cons.inj h
      exact ⟨congrArg Field.byte hv, hab⟩
  | word v =>
    cases hg with
    | word w =>
      obtain ⟨hv, hab⟩ := leBytes_append_inj v.toNat_lt w.toNat_lt h
      exact ⟨congrArg Field.word (UInt64.toNat_inj.mp hv), hab⟩
  | amount v =>
    cases hg with
    | amount w =>
      obtain ⟨hv, hab⟩ := leBytes_append_inj v.isLt w.isLt h
      exact ⟨congrArg Field.amount (BitVec.eq_of_toNat_eq hv), hab⟩
  | fixed hx =>
    cases hg with
    | fixed hy =>
      obtain ⟨hxy, hab⟩ := List.append_inj h (hx.trans hy.symm)
      exact ⟨congrArg Field.fixed hxy, hab⟩
  | sized hx =>
    cases hg with
    | sized hy =>
      obtain ⟨hxy, hab⟩ := withLength_append_inj hx hy h
      exact ⟨congrArg Field.sized hxy, hab⟩
  | absent k =>
    cases hg with
    | absent => exact ⟨rfl, (List.cons.inj h).2⟩
    | present hg => exact absurd (List.cons.inj h).1 (by decide)
  | present hf ih =>
    cases hg with
    | absent => exact absurd (List.cons.inj h).1 (by decide)
    | present hg =>
      obtain ⟨hfg, hab⟩ := ih hg (List.cons.inj h).2
      exact ⟨congrArg Field.present hfg, hab⟩

/-- Fields of known kinds are read back one after the other. -/
theorem encodeAll_append_inj (hf : List.Forall₂ HasKind fs ks) (hg : List.Forall₂ HasKind gs ks)
    (h : fs.flatMap encode ++ a = gs.flatMap encode ++ b) : fs = gs ∧ a = b := by
  induction hf generalizing gs with
  | nil =>
    cases hg
    exact ⟨rfl, h⟩
  | cons hf _ ih =>
    cases hg with
    | cons hg hgs =>
      rw [List.flatMap_cons, List.flatMap_cons, List.append_assoc, List.append_assoc] at h
      obtain ⟨rfl, hrest⟩ := encode_append_inj hf hg h
      obtain ⟨rfl, hab⟩ := ih hgs hrest
      exact ⟨rfl, hab⟩

end Field

/-! ## Preimages -/

/-- Byte strings with their lengths in front are told apart, also if there are more of the ones than
of the others. -/
theorem flatMap_withLength_inj {xs ys : List Bytes} (hx : ∀ x ∈ xs, x.length < UInt64.size)
    (hy : ∀ y ∈ ys, y.length < UInt64.size)
    (h : xs.flatMap withLength = ys.flatMap withLength) : xs = ys := by
  -- An empty byte string still takes the bytes of its length, so the lists end together.
  have occupied (x rest : Bytes) : withLength x ++ rest ≠ [] := by
    apply List.ne_nil_of_length_pos
    rw [withLength, List.length_append, List.length_append, length_leBytes]
    omega
  induction xs generalizing ys with
  | nil =>
    cases ys with
    | nil => rfl
    | cons y ys => exact absurd h.symm (occupied y _)
  | cons x xs ih =>
    cases ys with
    | nil => exact absurd h (occupied x _)
    | cons y ys =>
      rw [List.forall_mem_cons] at hx hy
      rw [List.flatMap_cons, List.flatMap_cons] at h
      obtain ⟨rfl, rest⟩ := withLength_append_inj hx.1 hy.1 h
      rw [ih hx.2 hy.2 rest]

theorem flatMap_encode_sized (xs : List Bytes) :
    (xs.map Field.sized).flatMap Field.encode = xs.flatMap withLength :=
  List.flatMap_map ..

/-- The domain is read first, whatever follows. -/
theorem domain_of_preimage {d d' : String} {fs gs : List Field}
    (hd : (utf8 d).length < UInt64.size) (hd' : (utf8 d').length < UInt64.size)
    (h : preimage d fs = preimage d' gs) :
    d = d' ∧ fs.flatMap Field.encode = gs.flatMap Field.encode := by
  obtain ⟨hdomain, hfields⟩ := withLength_append_inj hd hd' h
  exact ⟨utf8_injective hdomain, hfields⟩

/-- A preimage cannot be split in another way. It determines the domain and, whatever the kinds of the
fields are, all of the fields; and it determines fields that are all sized without their number being
known. -/
theorem preimage_eq_iff {d d' : String} (hd : (utf8 d).length < UInt64.size)
    (hd' : (utf8 d').length < UInt64.size) :
    (∀ ks fs gs, List.Forall₂ Field.HasKind fs ks → List.Forall₂ Field.HasKind gs ks →
      (preimage d fs = preimage d' gs ↔ d = d' ∧ fs = gs)) ∧
    ∀ xs ys : List Bytes, (∀ x ∈ xs, x.length < UInt64.size) →
      (∀ y ∈ ys, y.length < UInt64.size) →
      (preimage d (xs.map .sized) = preimage d' (ys.map .sized) ↔
        d = d' ∧ xs.length = ys.length ∧ xs = ys) := by
  constructor
  · intro ks fs gs hf hg
    constructor
    · intro h
      obtain ⟨hdomain, hfields⟩ := domain_of_preimage hd hd' h
      have same := Field.encodeAll_append_inj hf hg (congrArg (· ++ []) hfields)
      exact ⟨hdomain, same.1⟩
    · rintro ⟨rfl, rfl⟩
      rfl
  · intro xs ys hx hy
    constructor
    · intro h
      obtain ⟨hdomain, hfields⟩ := domain_of_preimage hd hd' h
      rw [flatMap_encode_sized, flatMap_encode_sized] at hfields
      obtain rfl := flatMap_withLength_inj hx hy hfields
      exact ⟨hdomain, rfl, rfl⟩
    · rintro ⟨rfl, -, rfl⟩
      rfl

/-- Presence bytes do not pass for values, and a byte string is not that of its halves. -/
theorem preimage_resplit_apart :
    preimage "t" [.present .absent, .sized [0, 7]] ≠
      preimage "t" [.present (.present (.byte 0)), .sized [7]] ∧
    preimage "t" ([[1, 2, 3]].map .sized) ≠ preimage "t" ([[1], [2, 3]].map .sized) := by
  obtain ⟨kinds, sized⟩ := @preimage_eq_iff "t" "t" (by decide) (by decide)
  constructor
  · intro h
    have same := (kinds [.optional (.optional .byte), .sized] _ _
      (.cons (.present (.absent _)) (.cons (.sized (by decide)) .nil))
      (.cons (.present (.present (.byte 0))) (.cons (.sized (by decide)) .nil))).mp h
    exact absurd same.2 (by decide)
  · intro h
    have same := (sized _ _ (by decide) (by decide)).mp h
    exact absurd same.2.1 (by decide)

end Countersign.Canonical
