import Countersign.Json.Reader
import Countersign.Json.Writer

/-!
# Written JSON is read back

`parse?_render` says that reading undoes writing, for every JSON value: texts with any characters,
numbers of any size, and also what no encoder writes, a text that is none and a number with an
exponent. A reader is given some more characters after those that were written, and leaves just these;
only a number has to know where it ends (`EndsNumber`).
-/

namespace Countersign.Json

/-! ## Digits -/

/-- What follows a number: no more digits, no fraction and no exponent. -/
def EndsNumber (rest : List Char) : Prop :=
  ∀ c cs, rest = c :: cs → c.isDigit = false ∧ c ≠ '.' ∧ c ≠ 'e' ∧ c ≠ 'E'

variable {n fuel : Nat} {rest cs : List Char} {c : Char}

theorem isDigit_of_mem_writeNat (h : c ∈ writeNat n) : c.isDigit = true :=
  Nat.isDigit_of_mem_toDigits (by decide) (by decide) h

theorem exists_writeNat (n : Nat) : ∃ d ds, writeNat n = d :: ds ∧ d.isDigit = true := by
  cases h : writeNat n with
  | nil => exact absurd h Nat.toDigits_ne_nil
  | cons d ds =>
    exact ⟨d, ds, rfl, isDigit_of_mem_writeNat (n := n) (by rw [h]; exact List.mem_cons_self)⟩

/-- No number has a zero in front of other digits. -/
theorem writeNat_ne_zero_cons {d : Char} {ds : List Char} : writeNat n ≠ '0' :: d :: ds := by
  induction n using Nat.strongRecOn generalizing d ds with
  | ind n ih =>
    rw [writeNat, Nat.toDigits_eq_if (by decide)]
    split
    · simp
    · next hn =>
      intro h
      -- The digits in front of the last one are those of a smaller number.
      cases hq : Nat.toDigits 10 (n / 10) with
      | nil => exact Nat.toDigits_ne_nil hq
      | cons q qs =>
        rw [hq, List.cons_append, List.cons.injEq] at h
        obtain ⟨rfl, h⟩ := h
        cases qs with
        | nil =>
          have hz : n / 10 = 0 := by
            have := Nat.ofDigitChars_toDigits (b := 10) (n := n / 10) (by decide) (by decide)
            rw [hq] at this
            exact this.symm
          omega
        | cons q' qs => exact ih (n / 10) (by omega) hq

theorem readDigits_append {ds : List Char} (digits : ∀ d ∈ ds, d.isDigit = true) (nonempty : ds ≠ [])
    (stops : ∀ c cs, rest = c :: cs → c.isDigit = false) :
    readDigits (ds ++ rest) = some (ds, rest) := by
  have htake : rest.takeWhile Char.isDigit = [] := by
    cases rest with
    | nil => rfl
    | cons c cs => rw [List.takeWhile_cons_of_neg (by simp [stops c cs rfl])]
  have hdrop : rest.dropWhile Char.isDigit = rest := by
    cases rest with
    | nil => rfl
    | cons c cs => rw [List.dropWhile_cons_of_neg (by simp [stops c cs rfl])]
  rw [readDigits, List.takeWhile_append_of_pos digits, List.dropWhile_append_of_pos digits, htake,
    hdrop, List.append_nil]
  cases ds with
  | nil => exact absurd rfl nonempty
  | cons d ds => rfl

theorem readDigits_writeNat (stops : ∀ c cs, rest = c :: cs → c.isDigit = false) :
    readDigits (writeNat n ++ rest) = some (writeNat n, rest) :=
  readDigits_append (fun _ => isDigit_of_mem_writeNat) Nat.toDigits_ne_nil stops

theorem readWhole_writeNat (stops : ∀ c cs, rest = c :: cs → c.isDigit = false) :
    readWhole (writeNat n ++ rest) = some (writeNat n, rest) := by
  rw [readWhole, readDigits_writeNat stops]
  split
  · next h =>
    rw [Option.some.injEq, Prod.mk.injEq] at h
    exact absurd h.1 writeNat_ne_zero_cons
  · rfl

theorem decimal_writeNat : decimal (writeNat n) = n :=
  Nat.ofDigitChars_toDigits (by decide) (by decide)

/-! ## Numbers -/

theorem EndsNumber.readFraction (h : EndsNumber rest) : readFraction rest = some (none, rest) := by
  unfold Json.readFraction
  split
  · exact absurd rfl (h _ _ rfl).2.1
  · rfl

theorem EndsNumber.readExponent (h : EndsNumber rest) : readExponent rest = some (none, rest) := by
  unfold Json.readExponent
  split
  · exact absurd rfl (h _ _ rfl).2.2.1
  · exact absurd rfl (h _ _ rfl).2.2.2
  · rfl

theorem EndsNumber.stops (h : EndsNumber rest) : ∀ c cs, rest = c :: cs → c.isDigit = false :=
  fun c cs hc => (h c cs hc).1

theorem readMagnitude_natural (h : EndsNumber rest) :
    readMagnitude false (writeNat n ++ rest) = some (.natural n, rest) := by
  simp only [readMagnitude, readWhole_writeNat h.stops, h.readFraction, h.readExponent,
    decimal_writeNat, Option.bind_eq_bind, Option.bind_some, Option.pure_def]

theorem readExponent_writeInt {n : Int} (h : EndsNumber rest) :
    readExponent ('e' :: (writeInt n ++ rest)) = some (some n, rest) := by
  rw [readExponent, writeInt]
  split
  · next hn =>
    simp only [List.cons_append, readExponent.signed, readDigits_writeNat h.stops, Option.map_some,
      decimal_writeNat, Int.ofNat_natAbs_of_nonpos (Int.le_of_lt hn), Int.neg_neg]
  · next hn =>
    obtain ⟨d, ds, hd, digit⟩ := exists_writeNat n.natAbs
    have hneg : d ≠ '-' := by rintro rfl; cases digit
    have hpos : d ≠ '+' := by rintro rfl; cases digit
    have hread := readDigits_writeNat (n := n.natAbs) h.stops
    rw [hd] at hread ⊢
    rw [readExponent.signed.eq_def]
    split
    · next heq => cases heq; exact absurd rfl hneg
    · next heq => cases heq; exact absurd rfl hpos
    · simp only [hread, Option.map_some]
      rw [← hd, decimal_writeNat, Int.natAbs_of_nonneg (Int.not_lt.mp hn)]

theorem append?_of_lt {significand : UInt64}
    (h : 10 * significand.toNat + (c.toNat - '0'.toNat) < UInt64.size) :
    Magnitude.append? significand c =
      some (UInt64.ofNat (10 * significand.toNat + (c.toNat - '0'.toNat))) := by
  rw [Nat.add_comm] at h ⊢
  exact if_pos h

/-- The digits of a number of 64 bits are all taken in. -/
theorem appendWhole_of_lt {m : Magnitude} {ds : List Char}
    (hn : Nat.ofDigitChars 10 ds m.significand.toNat = n) (h : n < UInt64.size) :
    m.appendWhole ds = ⟨UInt64.ofNat n, m.exponent⟩ := by
  induction ds generalizing m with
  | nil =>
    have hs : m.significand.toNat = n := hn
    rw [Magnitude.appendWhole, ← hs, UInt64.ofNat_toNat]
  | cons d ds ih =>
    rw [Nat.ofDigitChars_cons] at hn
    have hfits : 10 * m.significand.toNat + (d.toNat - '0'.toNat) < UInt64.size := by
      rw [Nat.ofDigitChars_eq_ofDigitChars_zero] at hn
      have := Nat.le_mul_of_pos_left (10 * m.significand.toNat + (d.toNat - '0'.toNat))
        (Nat.pow_pos (n := ds.length) (show 0 < 10 by decide))
      omega
    rw [Magnitude.appendWhole, append?_of_lt hfits]
    refine ih ?_
    rw [UInt64.toNat_ofNat_of_lt' hfits, hn]

theorem ofDigits_writeNat (significand : UInt64) (exponent : Int) :
    Magnitude.ofDigits (writeNat significand.toNat) [] exponent = ⟨significand, exponent⟩ := by
  have h := appendWhole_of_lt (m := ⟨0, exponent⟩) decimal_writeNat significand.toNat_lt_size
  rw [UInt64.ofNat_toNat] at h
  exact h

theorem readMagnitude_real {negative : Bool} {m : Magnitude} (h : EndsNumber rest) :
    readMagnitude negative
        (writeNat m.significand.toNat ++ 'e' :: (writeInt m.exponent ++ rest)) =
      some (.real negative m, rest) := by
  have hstops : ∀ c cs, 'e' :: (writeInt m.exponent ++ rest) = c :: cs → c.isDigit = false := by
    intro c cs hc
    cases hc
    rfl
  have hfraction : readFraction ('e' :: (writeInt m.exponent ++ rest)) =
      some (none, 'e' :: (writeInt m.exponent ++ rest)) := rfl
  simp only [readMagnitude, readWhole_writeNat hstops, hfraction, readExponent_writeInt h,
    Option.bind_eq_bind, Option.bind_some, Option.getD_some, Option.getD_none, ofDigits_writeNat,
    Option.pure_def]

theorem readNumber_writeNat {m : Nat} :
    readNumber (writeNat m ++ rest) = readMagnitude false (writeNat m ++ rest) := by
  obtain ⟨d, ds, hd, digit⟩ := exists_writeNat m
  rw [hd, List.cons_append, readNumber.eq_def]
  split
  · next heq =>
    cases heq
    cases digit
  · rfl

theorem readNumber_writeNumber {n : JsonNumber} (h : EndsNumber rest) :
    readNumber (writeNumber n ++ rest) = some (n, rest) := by
  cases n with
  | natural n => exact readNumber_writeNat.trans (readMagnitude_natural h)
  | real negative m =>
    have hrest : writeNat m.significand.toNat ++ 'e' :: writeInt m.exponent ++ rest =
        writeNat m.significand.toNat ++ 'e' :: (writeInt m.exponent ++ rest) := by simp
    cases negative with
    | false =>
      show readNumber (writeNat m.significand.toNat ++ 'e' :: writeInt m.exponent ++ rest) = _
      rw [hrest, readNumber_writeNat]
      exact readMagnitude_real h
    | true =>
      show readMagnitude true (writeNat m.significand.toNat ++ 'e' :: writeInt m.exponent ++ rest) = _
      rw [hrest]
      exact readMagnitude_real h

theorem nearest_le (n : Nat) : Double.nearest n ≤ 2 * n := by
  rcases Nat.eq_zero_or_pos n with rfl | hn
  · decide
  · have hunit : Nat.pow 2 (n.log2 + 1 - 53) ≤ n :=
      Nat.le_trans (Nat.pow_le_pow_right (by decide) (by omega)) (Nat.log2_self_le (by omega))
    have hq : n / Nat.pow 2 (n.log2 + 1 - 53) * Nat.pow 2 (n.log2 + 1 - 53) ≤ n :=
      Nat.div_mul_le_self ..
    rw [Double.nearest]
    generalize Nat.pow 2 (n.log2 + 1 - 53) = unit at *
    split
    · rw [Nat.succ_mul]
      omega
    · omega

/-- A number of 64 bits can be turned into a double. -/
theorem isFinite_of_lt (h : n < UInt64.size) : (JsonNumber.natural n).isFinite = true := by
  have hdigits := ofDigits_writeNat (UInt64.ofNat n) 0
  rw [UInt64.toNat_ofNat_of_lt' h] at hdigits
  have hn := nearest_le n
  have hone : Double.nearest (Nat.pow 10 (0 : Int).toNat) = 1 := by decide
  have hlimit : 2 * UInt64.size ≤ Double.limit := by decide +kernel
  show (Magnitude.ofDigits (writeNat n) [] 0).isFinite = true
  rw [hdigits, Magnitude.isFinite, UInt64.toNat_ofNat_of_lt' h, hone, Nat.mul_one]
  split
  · rfl
  · rw [if_neg (show ¬ 308 < (0 : Int) by decide)]
    exact decide_eq_true (by omega)

/-! ## Texts -/

theorem hexValue?_hexDigit : ∀ d < 16, hexValue? (hexDigit d) = some d := by decide

theorem isDigitOf_hexDigit : ∀ d < 16, isDigitOf 16 (hexDigit d) = true := by decide

/-- The number of an escaped unit is read back. -/
theorem hexNumber?_digits (h : n < 65536) :
    hexNumber? [hexDigit (n / 4096 % 16), hexDigit (n / 256 % 16), hexDigit (n / 16 % 16),
      hexDigit (n % 16)] = some n := by
  have digit (m : Nat) : m % 16 < 16 := Nat.mod_lt m (by decide)
  have hall : [hexDigit (n / 4096 % 16), hexDigit (n / 256 % 16), hexDigit (n / 16 % 16),
      hexDigit (n % 16)].all (isDigitOf 16) = true := by
    simp only [List.all_cons, List.all_nil, isDigitOf_hexDigit _ (digit _), Bool.and_true]
  rw [hexNumber?, if_pos hall]
  simp only [numberOf, List.foldl_cons, List.foldl_nil, hexValue?_hexDigit _ (digit _),
    Option.getD_some]
  exact congrArg some (by omega)

/-- What the escape of a character is read as: a unit, if it is escaped by its number. -/
def partOf (c : Char) : TextPart :=
  if c.toNat < 32 ∧ c ∉ ['\x08', '\x0c', '\n', '\r', '\t'] then .unit c.toNat else .char c

theorem readParts_escapeUnit (h : n < 65536) :
    readParts (escapeUnit n ++ cs) =
      (readParts cs).map fun (parts, rest) => (.unit n :: parts, rest) := by
  simp only [escapeUnit, List.cons_append, List.nil_append, readParts, hexNumber?_digits h]

theorem readParts_plain (hq : c ≠ '"') (hb : c ≠ '\\') (h : ¬ c.toNat < 32) :
    readParts (c :: cs) = (readParts cs).map fun (parts, rest) => (.char c :: parts, rest) := by
  rw [readParts.eq_def]
  split
  · next heq => cases heq
  · next heq => cases heq; exact absurd rfl hq
  · next heq => cases heq; exact absurd rfl hb
  · next heq => cases heq; exact absurd rfl hb
  · next heq =>
    cases heq
    rw [if_neg (not_or.mpr ⟨h, hb⟩)]

theorem readParts_escapeChar : readParts (escapeChar c ++ cs) =
    (readParts cs).map fun (parts, rest) => (partOf c :: parts, rest) := by
  unfold escapeChar
  split
  · next h => subst h; rfl
  split
  · next h => subst h; rfl
  split
  · next h => subst h; rfl
  split
  · next h => subst h; rfl
  split
  · next h => subst h; rfl
  split
  · next h => subst h; rfl
  split
  · next h => subst h; rfl
  split
  · next hq hb h1 h2 h3 h4 h5 h =>
    have hpart : partOf c = .unit c.toNat := if_pos ⟨h, by simp [*]⟩
    rw [hpart, readParts_escapeUnit (by omega)]
  · next hq hb _ _ _ _ _ h =>
    have hpart : partOf c = .char c := if_neg fun hc => h hc.1
    rw [hpart]
    exact readParts_plain hq hb h

theorem readParts_escaped (chars : List Char) :
    readParts (chars.flatMap escapeChar ++ '"' :: rest) = some (chars.map partOf, rest) := by
  induction chars with
  | nil => rfl
  | cons c chars ih =>
    rw [List.flatMap_cons, List.append_assoc, readParts_escapeChar, ih]
    rfl

/-- The units among the parts are none of surrogate pairs. -/
theorem joinParts_map_partOf (chars : List Char) : joinParts (chars.map partOf) = some chars := by
  induction chars with
  | nil => rfl
  | cons c chars ih =>
    rw [List.map_cons, partOf]
    split
    · next h =>
      have hc : c.toNat < 32 := h.1
      generalize chars.map partOf = parts at ih
      rw [joinParts.eq_def]
      split
      · next heq => cases heq
      · next heq => cases heq
      · next heq =>
        cases heq
        rw [if_neg (by omega), if_neg (by omega), ih, Char.ofNat_toNat]
        rfl
      · next heq =>
        cases heq
        rw [if_neg (by omega), ih, Char.ofNat_toNat]
        rfl
    · rw [joinParts, ih]
      rfl

theorem exists_writeText (t : JsonText) :
    ∃ body, writeText t = '"' :: body ∧ ∀ rest, readText (body ++ rest) = some (t, rest) := by
  cases t with
  | none =>
    refine ⟨_, rfl, fun rest => ?_⟩
    rw [List.append_assoc, readText, readParts_escapeUnit (by decide)]
    rfl
  | some s =>
    refine ⟨_, rfl, fun rest => ?_⟩
    rw [List.append_assoc, readText]
    simp only [List.cons_append, List.nil_append, readParts_escaped, Option.map_some,
      joinParts_map_partOf, String.ofList_toList]

/-! ## Values -/

theorem skipBlanks_cons (h : isBlank c = false) : skipBlanks (c :: cs) = c :: cs := by
  rw [skipBlanks, List.dropWhile_cons_of_neg (by simp [h])]

theorem isBlank_of_isDigit (h : c.isDigit = true) : isBlank c = false := by
  unfold isBlank
  simp only [Bool.or_eq_false_iff, beq_eq_false_iff_ne]
  refine ⟨⟨⟨?_, ?_⟩, ?_⟩, ?_⟩ <;> rintro rfl <;> cases h

/-- A number begins with a digit or a sign. -/
theorem exists_writeNumber (n : JsonNumber) :
    ∃ c cs, writeNumber n = c :: cs ∧ (c.isDigit = true ∨ c = '-') := by
  have digits (m : Nat) (more : List Char) :
      ∃ c cs, writeNat m ++ more = c :: cs ∧ (c.isDigit = true ∨ c = '-') := by
    obtain ⟨d, ds, hd, digit⟩ := exists_writeNat m
    exact ⟨d, ds ++ more, by rw [hd]; rfl, .inl digit⟩
  cases n with
  | natural n =>
    obtain ⟨d, ds, hd, digit⟩ := exists_writeNat n
    exact ⟨d, ds, hd, .inl digit⟩
  | real negative m =>
    cases negative with
    | false => exact digits m.significand.toNat ('e' :: writeInt m.exponent)
    | true => exact ⟨'-', _, rfl, .inr rfl⟩

/-- No value begins with a blank or a closing bracket. -/
theorem exists_write (j : Json) :
    ∃ c cs, write j = c :: cs ∧ isBlank c = false ∧ c ≠ ']' := by
  cases j with
  | null => exact ⟨_, _, rfl, rfl, by decide⟩
  | bool b => cases b <;> exact ⟨_, _, rfl, rfl, by decide⟩
  | number n =>
    obtain ⟨c, cs, hc, digit | rfl⟩ := exists_writeNumber n
    · refine ⟨c, cs, hc, isBlank_of_isDigit digit, ?_⟩
      rintro rfl
      cases digit
    · exact ⟨_, cs, hc, rfl, by decide⟩
  | string s => cases s <;> exact ⟨_, _, rfl, rfl, by decide⟩
  | array xs => cases xs <;> exact ⟨_, _, rfl, rfl, by decide⟩
  | object ms => cases ms <;> exact ⟨_, _, rfl, rfl, by decide⟩

theorem length_write_pos (j : Json) : 0 < (write j).length := by
  obtain ⟨c, cs, hc, -⟩ := exists_write j
  rw [hc]
  exact Nat.succ_pos _

theorem readKey_writeText (k : JsonText) (cs : List Char) :
    readKey (writeText k ++ ':' :: cs) = some (k, cs) := by
  obtain ⟨body, hbody, hread⟩ := exists_writeText k
  rw [readKey, hbody, List.cons_append, skipBlanks_cons rfl]
  simp only [hread, Option.bind_eq_bind, Option.bind_some,
    skipBlanks_cons (show isBlank ':' = false from rfl), Option.pure_def]

theorem readValue_number (h : c.isDigit = true ∨ c = '-') :
    readValue (fuel + 1) (c :: cs) =
      (readNumber (c :: cs)).map fun (n, rest) => (.number n, rest) := by
  have blank : isBlank c = false := by
    rcases h with h | rfl
    · exact isBlank_of_isDigit h
    · rfl
  rw [readValue, skipBlanks_cons blank]
  split <;> first | rfl | (next heq => cases heq; rcases h with h | h <;> cases h)

theorem readValue_elements (blank : isBlank c = false) (hc : c ≠ ']') :
    readValue (fuel + 1) ('[' :: c :: cs) = (do
      let (x, cs) ← readValue fuel (c :: cs)
      let (xs, cs) ← readElements fuel cs
      return (array (x :: xs), cs)) := by
  rw [readValue, skipBlanks_cons (show isBlank '[' = false from rfl)]
  simp only [skipBlanks_cons blank]
  split
  · next heq => cases heq; exact absurd rfl hc
  · rfl

theorem readValue_members {k : JsonText} :
    readValue (fuel + 1) ('\x7b' :: (writeText k ++ ':' :: cs)) = (do
      let (v, cs) ← readValue fuel cs
      let (ms, cs) ← readMembers fuel cs
      return (object ((k, v) :: ms), cs)) := by
  obtain ⟨body, hbody, -⟩ := exists_writeText k
  have hkey := readKey_writeText k cs
  rw [readValue, skipBlanks_cons (show isBlank '\x7b' = false from rfl)]
  rw [hbody, List.cons_append] at hkey ⊢
  simp only [skipBlanks_cons (show isBlank '"' = false from rfl)]
  split
  · next heq => cases heq
  · rw [hkey]
    rfl

theorem readElements_cons : readElements (fuel + 1) (',' :: cs) = (do
    let (x, cs) ← readValue fuel cs
    let (xs, cs) ← readElements fuel cs
    return (x :: xs, cs)) := rfl

theorem readMembers_cons {k : JsonText} :
    readMembers (fuel + 1) (',' :: (writeText k ++ ':' :: cs)) = (do
      let (v, cs) ← readValue fuel cs
      let (ms, cs) ← readMembers fuel cs
      return ((k, v) :: ms, cs)) := by
  rw [readMembers, skipBlanks_cons (show isBlank ',' = false from rfl)]
  simp only [readKey_writeText, Option.bind_eq_bind, Option.bind_some]

theorem endsNumber_of_writeElements (xs : List Json) : EndsNumber (writeElements xs ++ rest) := by
  intro c cs h
  cases xs <;> cases h <;> decide

theorem endsNumber_of_writeMembers (ms : List (JsonText × Json)) :
    EndsNumber (writeMembers ms ++ rest) := by
  intro c cs h
  rcases ms with _ | ⟨⟨k, v⟩, ms⟩ <;> cases h <;> decide

/-! The fuel goes down once for every level and every element, and each of these has written a
character of its own. -/

mutual

/-- A value that has been written is read, as long as the fuel is not less than what was written. -/
theorem readValue_write : (j : Json) → (fuel : Nat) → (rest : List Char) →
    (write j).length ≤ fuel → EndsNumber rest → readValue fuel (write j ++ rest) = some (j, rest)
  | null, fuel + 1, rest, _, _ => rfl
  | bool true, fuel + 1, rest, _, _ => rfl
  | bool false, fuel + 1, rest, _, _ => rfl
  | number n, 0, _, hf, _ => absurd hf (Nat.not_le.mpr (length_write_pos (number n)))
  | string s, 0, _, hf, _ => absurd hf (Nat.not_le.mpr (length_write_pos (string s)))
  | number n, fuel + 1, rest, _, ends => by
    obtain ⟨c, cs, hc, starts⟩ := exists_writeNumber n
    have hread := readNumber_writeNumber (n := n) ends
    rw [write, hc, List.cons_append] at *
    rw [readValue_number starts, hread]
    rfl
  | string s, fuel + 1, rest, _, _ => by
    obtain ⟨body, hbody, hread⟩ := exists_writeText s
    show readValue (fuel + 1) (writeText s ++ rest) = _
    rw [hbody]
    show (readText (body ++ rest)).map (fun p => (string p.1, p.2)) = _
    rw [hread]
    rfl
  | array [], fuel + 1, rest, _, _ => rfl
  | array (x :: xs), fuel + 1, rest, hf, _ => by
    obtain ⟨c, cs, hc, blank, open'⟩ := exists_write x
    have hx := readValue_write x fuel (writeElements xs ++ rest)
      (by simp only [write, List.length_cons, List.length_append] at hf; omega)
      (endsNumber_of_writeElements xs)
    have hxs := readElements_write xs fuel rest
      (by simp only [write, List.length_cons, List.length_append] at hf; omega)
    simp only [write, List.cons_append, List.append_assoc]
    rw [hc, List.cons_append] at hx ⊢
    rw [readValue_elements blank open', hx]
    simp only [Option.bind_eq_bind, Option.bind_some, hxs, Option.pure_def]
  | object [], fuel + 1, rest, _, _ => rfl
  | object ((k, v) :: ms), fuel + 1, rest, hf, _ => by
    have hv := readValue_write v fuel (writeMembers ms ++ rest)
      (by simp only [write, List.length_cons, List.length_append] at hf; omega)
      (endsNumber_of_writeMembers ms)
    have hms := readMembers_write ms fuel rest
      (by simp only [write, List.length_cons, List.length_append] at hf; omega)
    simp only [write, List.cons_append, List.append_assoc, readValue_members, hv, hms,
      Option.bind_eq_bind, Option.bind_some, Option.pure_def]

theorem readElements_write : (xs : List Json) → (fuel : Nat) → (rest : List Char) →
    (writeElements xs).length ≤ fuel →
      readElements fuel (writeElements xs ++ rest) = some (xs, rest)
  | [], fuel + 1, rest, _ => rfl
  | x :: xs, fuel + 1, rest, hf => by
    have hx := readValue_write x fuel (writeElements xs ++ rest)
      (by simp only [writeElements, List.length_cons, List.length_append] at hf; omega)
      (endsNumber_of_writeElements xs)
    have hxs := readElements_write xs fuel rest
      (by simp only [writeElements, List.length_cons, List.length_append] at hf; omega)
    simp only [writeElements, List.cons_append, List.append_assoc, readElements_cons, hx, hxs,
      Option.bind_eq_bind, Option.bind_some, Option.pure_def]

theorem readMembers_write : (ms : List (JsonText × Json)) → (fuel : Nat) → (rest : List Char) →
    (writeMembers ms).length ≤ fuel →
      readMembers fuel (writeMembers ms ++ rest) = some (ms, rest)
  | [], fuel + 1, rest, _ => rfl
  | (k, v) :: ms, fuel + 1, rest, hf => by
    have hv := readValue_write v fuel (writeMembers ms ++ rest)
      (by simp only [writeMembers, List.length_cons, List.length_append] at hf; omega)
      (endsNumber_of_writeMembers ms)
    have hms := readMembers_write ms fuel rest
      (by simp only [writeMembers, List.length_cons, List.length_append] at hf; omega)
    simp only [writeMembers, List.cons_append, List.append_assoc, readMembers_cons, hv, hms,
      Option.bind_eq_bind, Option.bind_some, Option.pure_def]

end

theorem parse?_render (j : Json) : parse? j.render = some j := by
  have ends : EndsNumber [] := by
    intro c cs h
    cases h
  have hread := readValue_write j _ [] (Nat.le_succ _) ends
  rw [List.append_nil] at hread
  rw [parse?, render, String.toList_ofList, hread]
  rfl

end Countersign.Json
