import Countersign.Uuid
import Mathlib.Data.List.Basic

/-!
# Hexadecimal digits

`Hex.Denotes` is the grammar of digits, two of either case for each byte, and `Hex.Reading` the
answer that a text gets: it is odd in its bytes, or one of them is the first that is no digit, or it
denotes a byte string. `Hex.decode` gives exactly these answers (`Hex.reading_iff`). So what is written
in digits is read back (`Hex.decode_encode`), also when it is an identifier in groups
(`Uuid.ofText?_text`).
-/

namespace Countersign

namespace Hex

variable {bs : Bytes} {c : Char} {d : Nat} {cs : List Char}

/-! ## The grammar -/

/-- The character is a digit with the value, in either case. -/
def DigitOf (c : Char) (d : Nat) : Prop :=
  "0123456789abcdef".toList[d]? = some c ∨ "0123456789ABCDEF".toList[d]? = some c

instance (c : Char) (d : Nat) : Decidable (DigitOf c d) := inferInstanceAs (Decidable (_ ∨ _))

/-- The characters are digits, two for each byte of a byte string. -/
inductive Denotes : List Char → Bytes → Prop where
  | nil : Denotes [] []
  | cons {a b : Char} {high low : Nat} {cs : List Char} {bs : Bytes} (ha : DigitOf a high)
      (hb : DigitOf b low) (rest : Denotes cs bs) :
      Denotes (a :: b :: cs) (UInt8.ofNat (16 * high + low) :: bs)

/-- The bytes that stand for digits. -/
def digitBytes : Bytes := utf8 "0123456789abcdefABCDEF"

/-! ## One digit -/

theorem DigitOf.lt (h : DigitOf c d) : d < 16 := by
  obtain h | h := h <;> exact (List.getElem?_eq_some_iff.mp h).1

/-- A digit is one byte, and this byte is read as the digit. -/
theorem DigitOf.read (h : DigitOf c d) :
    digit d = c.toLower ∧ ∃ b ∈ digitBytes, String.utf8EncodeChar c = [b] ∧ value? b = some d := by
  have table : ∀ p ∈ "0123456789abcdef".toList.zipIdx ++ "0123456789ABCDEF".toList.zipIdx,
      digit p.2 = p.1.toLower ∧ ∃ b ∈ digitBytes,
        String.utf8EncodeChar p.1 = [b] ∧ value? b = some p.2 := by
    decide +kernel
  apply table (c, d)
  rw [List.mem_append, List.mem_zipIdx_iff_getElem?, List.mem_zipIdx_iff_getElem?]
  exact h

theorem value?_eq_none {b : UInt8} (h : b ∉ digitBytes) : value? b = none := by
  have table : ∀ n < 256, UInt8.ofNat n ∈ digitBytes ∨ value? (UInt8.ofNat n) = none := by
    decide +kernel
  have hb := table b.toNat b.toNat_lt
  rw [UInt8.ofNat_toNat] at hb
  exact hb.resolve_left h

theorem exists_value? : ∀ b ∈ digitBytes, ∃ d, value? b = some d := by
  have table : ∀ b ∈ digitBytes, (value? b).isSome = true := by decide +kernel
  intro b hb
  exact Option.isSome_iff_exists.mp (table b hb)

/-- The first byte of a character beyond ASCII is at least 192. -/
theorem exists_large_byte (h : 127 < c.val.toNat) :
    ∃ n, 192 ≤ n ∧ n < 256 ∧ UInt8.ofNat n ∈ String.utf8EncodeChar c := by
  have longer : ¬c.val.toNat ≤ 127 := by omega
  unfold String.utf8EncodeChar
  simp only [longer, ↓reduceIte]
  split
  · exact ⟨c.val.toNat / 64 % 32 + 192, by omega, by omega, List.mem_cons_self ..⟩
  split
  · exact ⟨c.val.toNat / 4096 % 16 + 224, by omega, by omega, List.mem_cons_self ..⟩
  · exact ⟨c.val.toNat / 262144 % 8 + 240, by omega, by omega, List.mem_cons_self ..⟩

/-- A character whose bytes all stand for digits is a digit. -/
theorem exists_digitOf (h : ∀ b ∈ String.utf8EncodeChar c, b ∈ digitBytes) : ∃ d, DigitOf c d := by
  have small : ∀ b ∈ digitBytes, b.toNat < 128 := by decide +kernel
  have table : ∀ n < 128, UInt8.ofNat n ∈ digitBytes → ∃ d < 16, DigitOf (Char.ofNat n) d := by
    decide +kernel
  by_cases ascii : c.val.toNat ≤ 127
  · have single : UInt8.ofNat c.val.toNat ∈ String.utf8EncodeChar c := by
      unfold String.utf8EncodeChar
      simp only [ascii, ↓reduceIte, List.mem_singleton]
    obtain ⟨d, -, hd⟩ := table c.val.toNat (by omega) (h _ single)
    rw [show Char.ofNat c.val.toNat = c from Char.ofNat_toNat c] at hd
    exact ⟨d, hd⟩
  · obtain ⟨n, large, byte, hm⟩ := exists_large_byte (c := c) (by omega)
    have := small _ (h _ hm)
    rw [UInt8.toNat_ofNat_of_lt' byte] at this
    omega

/-! ## Many digits -/

namespace Denotes

theorem length_eq (h : Denotes cs bs) : cs.length = 2 * bs.length := by
  induction h with
  | nil => rfl
  | cons ha hb rest ih =>
    rw [List.length_cons, List.length_cons, List.length_cons, ih]
    omega

theorem exists_digitOf_of_mem (h : Denotes cs bs) (hc : c ∈ cs) : ∃ d, DigitOf c d := by
  induction h with
  | nil => cases hc
  | cons ha hb rest ih =>
    rcases List.mem_cons.mp hc with rfl | hc
    · exact ⟨_, ha⟩
    rcases List.mem_cons.mp hc with rfl | hc
    · exact ⟨_, hb⟩
    · exact ih hc

/-- What digits stand for is read from their bytes. -/
theorem decodePairs (h : Denotes cs bs) (offset : Nat) :
    decodePairs offset (cs.flatMap String.utf8EncodeChar) = .ok bs := by
  induction h generalizing offset with
  | nil => rfl
  | cons ha hb rest ih =>
    obtain ⟨-, x, -, hx, vx⟩ := ha.read
    obtain ⟨-, y, -, hy, vy⟩ := hb.read
    simp only [List.flatMap_cons, hx, hy, List.cons_append, List.nil_append, Hex.decodePairs,
      digitAt, vx, vy, ih, bind, Except.bind, pure, Except.pure]

/-- What digits stand for is written in the same digits, in lower case. -/
theorem encodeChars_eq (h : Denotes cs bs) : encodeChars bs = cs.map Char.toLower := by
  induction h with
  | nil => rfl
  | @cons a b high low cs bs ha hb rest ih =>
    have := ha.lt
    have := hb.lt
    have value : (UInt8.ofNat (16 * high + low)).toNat = 16 * high + low :=
      UInt8.toNat_ofNat_of_lt' (by show _ < 256; omega)
    have hhigh : (16 * high + low) / 16 = high := by omega
    have hlow : (16 * high + low) % 16 = low := by omega
    show digit _ :: digit _ :: encodeChars bs = _
    rw [value, hhigh, hlow, ha.read.1, hb.read.1, ih]
    rfl

end Denotes

/-- Digits in even number stand for a byte string. -/
theorem exists_denotes : ∀ cs : List Char, cs.length % 2 = 0 → (∀ c ∈ cs, ∃ d, DigitOf c d) →
    ∃ bs, Denotes cs bs
  | [], _, _ => ⟨[], .nil⟩
  | [_], even, _ => by cases even
  | a :: b :: cs, even, digits => by
    obtain ⟨high, ha⟩ := digits a (by simp)
    obtain ⟨low, hb⟩ := digits b (by simp)
    have fewer : cs.length % 2 = 0 := by
      simp only [List.length_cons] at even
      omega
    obtain ⟨bs, rest⟩ := exists_denotes cs fewer fun c hc => digits c (by simp [hc])
    exact ⟨_, .cons ha hb rest⟩

theorem length_utf8_of_digits (digits : ∀ c ∈ cs, ∃ d, DigitOf c d) :
    (cs.flatMap String.utf8EncodeChar).length = cs.length := by
  have single : ∀ c ∈ cs, (String.utf8EncodeChar c).length = 1 := by
    intro c hc
    obtain ⟨d, hd⟩ := digits c hc
    obtain ⟨-, b, -, hb, -⟩ := hd.read
    rw [hb, List.length_singleton]
  rw [List.length_flatMap, List.map_congr_left single, List.map_const', List.sum_replicate_nat,
    Nat.mul_one]

theorem Denotes.length_utf8 {s : String} (h : Denotes s.toList bs) :
    (utf8 s).length = 2 * bs.length := by
  rw [utf8, length_utf8_of_digits fun c => h.exists_digitOf_of_mem, h.length_eq]

theorem exists_denotes_of_bytes {s : String} (even : (utf8 s).length % 2 = 0)
    (digits : ∀ b ∈ utf8 s, b ∈ digitBytes) : ∃ bs, Denotes s.toList bs := by
  have chars : ∀ c ∈ s.toList, ∃ d, DigitOf c d := fun c hc =>
    exists_digitOf fun b hb => digits b (List.mem_flatMap.mpr ⟨c, hc, hb⟩)
  rw [utf8, length_utf8_of_digits chars] at even
  exact exists_denotes s.toList even chars

/-- The first byte that is no digit is refused, before any later one. -/
theorem decodePairs_of_badByte : ∀ (before : Bytes) (b : UInt8) (after : Bytes) (offset : Nat),
    (before ++ b :: after).length % 2 = 0 → (∀ x ∈ before, x ∈ digitBytes) → b ∉ digitBytes →
    decodePairs offset (before ++ b :: after) = .error (.badByte b (offset + before.length))
  | [], b, [], offset, even, _, _ => by cases even
  | [], b, y :: after, offset, _, _, hb => by
    simp only [List.nil_append, decodePairs, digitAt, value?_eq_none hb]
    rfl
  | [x], b, after, offset, _, hx, hb => by
    obtain ⟨d, hd⟩ := exists_value? x (hx x (by simp))
    simp only [List.cons_append, List.nil_append, decodePairs, digitAt, hd, value?_eq_none hb]
    rfl
  | x :: y :: before, b, after, offset, even, hbefore, hb => by
    obtain ⟨high, hx⟩ := exists_value? x (hbefore x (by simp))
    obtain ⟨low, hy⟩ := exists_value? y (hbefore y (by simp))
    have fewer : (before ++ b :: after).length % 2 = 0 := by
      simp only [List.cons_append, List.length_cons] at even
      omega
    have rest := decodePairs_of_badByte before b after (offset + 2) fewer
      (fun z hz => hbefore z (by simp [hz])) hb
    have position : offset + 2 + before.length = offset + (x :: y :: before).length := by
      simp only [List.length_cons]
      omega
    simp only [List.cons_append, decodePairs, digitAt, hx, hy, rest, bind, Except.bind, position]

/-! ## Texts -/

/-- How the bytes of a text are read, if at all: they are odd in number, or one of them is the first
that is no digit, or the text consists of digits for a byte string. -/
inductive Reading (s : String) : Except Error Bytes → Prop where
  | odd (h : (utf8 s).length % 2 = 1) : Reading s (.error .oddLength)
  | badByte {before after : Bytes} {b : UInt8} (even : (utf8 s).length % 2 = 0)
      (split : utf8 s = before ++ b :: after) (digits : ∀ x ∈ before, x ∈ digitBytes)
      (bad : b ∉ digitBytes) : Reading s (.error (.badByte b before.length))
  | digits {bs : Bytes} (h : Denotes s.toList bs) : Reading s (.ok bs)

theorem Reading.decode_eq {s : String} {result : Except Error Bytes} (h : Reading s result) :
    decode (utf8 s) = result := by
  cases h with
  | odd h => rw [decode, if_pos h]
  | badByte even split digits bad =>
    rw [decode, if_neg (by omega), split, decodePairs_of_badByte _ _ _ 0 (split ▸ even) digits bad,
      Nat.zero_add]
  | digits h =>
    have length := h.length_utf8
    rw [decode, if_neg (by omega), utf8, h.decodePairs]

/-- Every text is read in one of these ways. -/
theorem exists_reading (s : String) : ∃ result, Reading s result := by
  by_cases odd : (utf8 s).length % 2 = 1
  · exact ⟨_, .odd odd⟩
  have even : (utf8 s).length % 2 = 0 := by omega
  cases hfirst : (utf8 s).find? fun b => b ∉ digitBytes with
  | some b =>
    obtain ⟨bad, before, after, split, digits⟩ := List.find?_eq_some_iff_append.mp hfirst
    exact ⟨_, .badByte even split (by simpa using digits) (by simpa using bad)⟩
  | none =>
    obtain ⟨bs, h⟩ := exists_denotes_of_bytes even (by simpa using List.find?_eq_none.mp hfirst)
    exact ⟨_, .digits h⟩

theorem reading_iff {s : String} {result : Except Error Bytes} :
    Reading s result ↔ decode (utf8 s) = result := by
  constructor
  · exact Reading.decode_eq
  · rintro rfl
    obtain ⟨result, h⟩ := exists_reading s
    rwa [h.decode_eq]

/-! ## What is written -/

theorem denotes_encodeChars (bs : Bytes) : Denotes (encodeChars bs) bs := by
  have own : ∀ d < 16, DigitOf (digit d) d := by decide
  induction bs with
  | nil => exact .nil
  | cons b bs ih =>
    have hb : b.toNat < 256 := b.toNat_lt
    have pair := Denotes.cons (own (b.toNat / 16) (by omega)) (own (b.toNat % 16) (by omega)) ih
    rwa [Nat.div_add_mod, UInt8.ofNat_toNat] at pair

theorem length_encodeChars (bs : Bytes) : (encodeChars bs).length = 2 * bs.length :=
  (denotes_encodeChars bs).length_eq

theorem exists_digit_of_mem {c : Char} (h : c ∈ encodeChars bs) : ∃ d < 16, c = digit d := by
  obtain ⟨b, -, hc⟩ := List.mem_flatMap.mp h
  have hb : b.toNat < 256 := b.toNat_lt
  rcases List.mem_pair.mp hc with rfl | rfl
  · exact ⟨_, by omega, rfl⟩
  · exact ⟨_, by omega, rfl⟩

theorem reading_encode (bs : Bytes) : Reading (encode bs) (.ok bs) := by
  apply Reading.digits
  rw [encode, String.toList_ofList]
  exact denotes_encodeChars bs

theorem decode_encode (bs : Bytes) : decode (utf8 (encode bs)) = .ok bs :=
  (reading_encode bs).decode_eq

end Hex

/-! ## Unique identifiers -/

namespace Uuid

variable {ds : List Char}

theorem length_hyphenate (h : ds.length = 32) : (hyphenate ds).length = 36 := by
  simp [hyphenate, h]

/-- The groups stand where they are looked for. -/
theorem digits?_hyphenate (h : ds.length = 32) : digits? (hyphenate ds) = some ds := by
  have join (m n : Nat) : (ds.drop m).take n ++ ds.drop (m + n) = ds.drop m := by
    rw [← List.drop_drop, List.take_append_drop]
  have joined : ds.take 8 ++ ((ds.drop 8).take 4 ++ ((ds.drop 12).take 4 ++
      ((ds.drop 16).take 4 ++ ds.drop 20))) = ds := by
    rw [join 16 4, join 12 4, join 8 4, List.take_append_drop]
  have groups : (hyphenate ds).take 8 ++ ((hyphenate ds).drop 9).take 4 ++
      ((hyphenate ds).drop 14).take 4 ++ ((hyphenate ds).drop 19).take 4 ++
      (hyphenate ds).drop 24 = ds := by
    simpa [hyphenate, List.drop_append, List.drop_take, h] using joined
  rw [digits?, groups, if_pos rfl]

theorem bare_hyphenate (h : ds.length = 32) (digits : ∀ c ∈ ds, ∃ d < 16, c = Hex.digit d) :
    bare (hyphenate ds) = hyphenate ds := by
  obtain ⟨c, cs, rfl⟩ := List.exists_cons_of_length_pos (by omega : 0 < ds.length)
  obtain ⟨d, hd, rfl⟩ := digits c (List.mem_cons_self ..)
  have plain : ∀ d < 16, Hex.digit d ≠ '\x7b' ∧ (Hex.digit d).toLower ≠ 'u' := by decide
  have head : hyphenate (Hex.digit d :: cs) = Hex.digit d :: (hyphenate (Hex.digit d :: cs)).tail :=
    rfl
  rw [head, bare.eq_def]
  split
  · next c h => exact absurd (List.cons.inj h).1 (plain d hd).1
  · rw [if_neg]
    intro h
    exact (plain d hd).2 (List.cons.inj h).1

theorem ofDigits?_encodeChars (u : Uuid) :
    ofDigits? (Hex.encodeChars u.bytes.toList) = some u := by
  have h := Hex.decode_encode u.bytes.toList
  rw [Hex.encode] at h
  rw [ofDigits?, h]
  show (FixedBytes.ofList? 16 u.bytes.toList).map Uuid.mk = some u
  rw [FixedBytes.ofList?_toList]
  rfl

theorem ofText?_text (u : Uuid) : ofText? u.text = some u := by
  have length : (Hex.encodeChars u.bytes.toList).length = 32 := by
    rw [Hex.length_encodeChars, FixedBytes.length_toList]
  rw [ofText?, text, String.toList_ofList, length_hyphenate length, if_neg (by decide),
    bare_hyphenate length fun _ => Hex.exists_digit_of_mem, digits?_hyphenate length,
    Option.bind_some, ofDigits?_encodeChars]

end Uuid

end Countersign
