import Countersign.Identifier
import Countersign.Proofs.Hex

/-!
# Identifiers in hexadecimal

`HexForm` says which texts name an identifier of `n` bytes, how it is written, and which error each other
text gets. Every byte string of a fixed length has this form (`FixedBytes.hexForm`), and so have the
identifiers that are such byte strings (`identity_and_selector_hexForm`).
-/

namespace Countersign

/-- The text without its `0x`, or the whole of a text that does not begin with it. -/
def Untagged (s t : String) : Prop := s = "0x" ++ t ∨ s = t ∧ ∀ u, s ≠ "0x" ++ u

theorem dropHexTag_tagged (t : String) : dropHexTag ("0x" ++ t) = t := by
  simp [dropHexTag]

theorem dropHexTag_plain {s : String} (h : ∀ u, s ≠ "0x" ++ u) : dropHexTag s = s := by
  unfold dropHexTag
  split
  · next rest hs =>
    apply absurd _ (h (String.ofList rest))
    apply String.toList_inj.mp
    simp [hs]
  · rfl

theorem Untagged.eq {s t : String} (h : Untagged s t) : dropHexTag s = t := by
  rcases h with rfl | ⟨rfl, plain⟩
  · exact dropHexTag_tagged t
  · exact dropHexTag_plain plain

theorem untagged_dropHexTag (s : String) : Untagged s (dropHexTag s) := by
  by_cases h : ∃ u, s = "0x" ++ u
  · obtain ⟨u, rfl⟩ := h
    exact .inl (by rw [dropHexTag_tagged])
  · have plain : ∀ u, s ≠ "0x" ++ u := fun u hu => h ⟨u, hu⟩
    exact .inr ⟨(dropHexTag_plain plain).symm, plain⟩

/-- How identifiers of `n` bytes stand in text: in two digits of either case for each byte, after at most
one `0x`. They are written in lower case without it. -/
structure HexForm {α : Type} (n : Nat) (bytes : α → Bytes) (read : String → Except ReadError α)
    (write : α → String) : Prop where
  read_eq_ok_iff (s : String) (a : α) : read s = .ok a ↔
    ∃ t, Untagged s t ∧ t.length = 2 * n ∧ Hex.Denotes t.toList (bytes a)
  write_eq (s t : String) (a : α) : Untagged s t → read s = .ok a →
    (write a).toList = t.toList.map Char.toLower
  read_write (a : α) : read (write a) = .ok a ∧ read ("0x" ++ write a) = .ok a
  /-- An odd number of bytes is refused whatever they are. -/
  odd (s t : String) : Untagged s t → (utf8 t).length % 2 = 1 →
    read s = .error (.hex .oddLength)
  /-- Then the first byte that is no digit is refused. -/
  badByte (s t : String) (before : Bytes) (b : UInt8) (after : Bytes) : Untagged s t →
    (utf8 t).length % 2 = 0 → utf8 t = before ++ b :: after →
    (∀ x ∈ before, x ∈ Hex.digitBytes) → b ∉ Hex.digitBytes →
    read s = .error (.hex (.badByte b before.length))
  /-- Then another number of digits is refused. -/
  length (s t : String) : Untagged s t → (utf8 t).length % 2 = 0 →
    (∀ x ∈ utf8 t, x ∈ Hex.digitBytes) → (utf8 t).length ≠ 2 * n →
    read s = .error (.length n ((utf8 t).length / 2))

namespace FixedBytes

variable {n : Nat} {s t : String}

theorem ofHex_of_error {e : Hex.Error} (h : Untagged s t) (reading : Hex.Reading t (.error e)) :
    ofHex n s = .error (.hex e) := by
  rw [ofHex, h.eq, reading.decode_eq]

theorem ofHex_of_denotes {bs : Bytes} (h : Untagged s t) (digits : Hex.Denotes t.toList bs) :
    ofHex n s = if h : bs.length = n then .ok ⟨bs, h⟩ else .error (.length n bs.length) := by
  rw [ofHex, h.eq, (Hex.Reading.digits digits).decode_eq]

theorem ofHex_eq_ok_iff {a : FixedBytes n} :
    ofHex n s = .ok a ↔ ∃ t, Untagged s t ∧ t.length = 2 * n ∧ Hex.Denotes t.toList a.toList := by
  constructor
  · intro h
    have untagged := untagged_dropHexTag s
    obtain ⟨result, reading⟩ := Hex.exists_reading (dropHexTag s)
    cases reading with
    | odd odd =>
      rw [ofHex_of_error untagged (.odd odd)] at h
      cases h
    | badByte even split digits bad =>
      rw [ofHex_of_error untagged (.badByte even split digits bad)] at h
      cases h
    | digits digits =>
      rw [ofHex_of_denotes untagged digits] at h
      split at h
      · next length =>
        cases h
        refine ⟨_, untagged, ?_, digits⟩
        rw [← String.length_toList, digits.length_eq, length]
      · cases h
  · rintro ⟨t, untagged, -, digits⟩
    rw [ofHex_of_denotes untagged digits, dif_pos a.length_toList]

/-- No text in digits begins with a tag, as `x` is none. -/
theorem untagged_hex (a : FixedBytes n) : Untagged a.hex a.hex := by
  refine .inr ⟨rfl, fun u tagged => ?_⟩
  have no_digit : ∀ d < 16, 'x' ≠ Hex.digit d := by decide
  have hx : 'x' ∈ Hex.encodeChars a.toList := by
    rw [← String.toList_ofList (l := Hex.encodeChars a.toList)]
    show 'x' ∈ a.hex.toList
    rw [tagged]
    simp
  obtain ⟨d, hd, same⟩ := Hex.exists_digit_of_mem hx
  exact no_digit d hd same

theorem denotes_hex (a : FixedBytes n) : Hex.Denotes a.hex.toList a.toList := by
  rw [hex, Hex.encode, String.toList_ofList]
  exact Hex.denotes_encodeChars a.toList

theorem ofHex_of_hex {a : FixedBytes n} (h : Untagged s a.hex) : ofHex n s = .ok a := by
  rw [ofHex_of_denotes h (denotes_hex a), dif_pos a.length_toList]

theorem hexForm (n : Nat) : HexForm n toList (ofHex n) hex where
  read_eq_ok_iff _ _ := ofHex_eq_ok_iff
  write_eq s t a untagged h := by
    obtain ⟨t', untagged', -, digits⟩ := ofHex_eq_ok_iff.mp h
    obtain rfl : t' = t := untagged'.eq.symm.trans untagged.eq
    rw [hex, Hex.encode, String.toList_ofList, digits.encodeChars_eq]
  read_write a := ⟨ofHex_of_hex (untagged_hex a), ofHex_of_hex (.inl rfl)⟩
  odd _ _ untagged odd := ofHex_of_error untagged (.odd odd)
  badByte _ _ _ _ _ untagged even split digits bad :=
    ofHex_of_error untagged (.badByte even split digits bad)
  length s t untagged even digits other := by
    obtain ⟨bs, denoted⟩ := Hex.exists_denotes_of_bytes even digits
    have length := denoted.length_utf8
    rw [ofHex_of_denotes untagged denoted, dif_neg (by omega)]
    congr 2
    omega

end FixedBytes

/-! ## Identities and selectors -/

section Wrapped

variable {α : Type} {n : Nat} {wrap : FixedBytes n → α} {unwrap : α → FixedBytes n}

theorem map_wrap_eq_ok_iff (wrap_unwrap : ∀ a, wrap (unwrap a) = a)
    (unwrap_wrap : ∀ b, unwrap (wrap b) = b) {x : Except ReadError (FixedBytes n)} {a : α} :
    x.map wrap = .ok a ↔ x = .ok (unwrap a) := by
  cases x with
  | error e => simp [Except.map]
  | ok b =>
    simp only [Except.map, Except.ok.injEq]
    constructor
    · rintro rfl
      rw [unwrap_wrap]
    · rintro rfl
      rw [wrap_unwrap]

/-- What is nothing but a byte string of a fixed length has its form. -/
theorem HexForm.wrapped (wrap_unwrap : ∀ a, wrap (unwrap a) = a)
    (unwrap_wrap : ∀ b, unwrap (wrap b) = b) :
    HexForm n (fun a => (unwrap a).toList) (fun s => (FixedBytes.ofHex n s).map wrap)
      (fun a => (unwrap a).hex) where
  read_eq_ok_iff s a := by
    rw [map_wrap_eq_ok_iff wrap_unwrap unwrap_wrap]
    exact FixedBytes.ofHex_eq_ok_iff
  write_eq s t a untagged h := by
    rw [map_wrap_eq_ok_iff wrap_unwrap unwrap_wrap] at h
    exact (FixedBytes.hexForm n).write_eq s t _ untagged h
  read_write a := by
    rw [map_wrap_eq_ok_iff wrap_unwrap unwrap_wrap, map_wrap_eq_ok_iff wrap_unwrap unwrap_wrap]
    exact (FixedBytes.hexForm n).read_write _
  odd s t untagged odd := by
    rw [(FixedBytes.hexForm n).odd s t untagged odd]
    rfl
  badByte s t before b after untagged even split digits bad := by
    rw [(FixedBytes.hexForm n).badByte s t before b after untagged even split digits bad]
    rfl
  length s t untagged even digits other := by
    rw [(FixedBytes.hexForm n).length s t untagged even digits other]
    rfl

end Wrapped

/-- Identities are read from and written in 64 digits and selectors in 8; the label of a selector is its
digits with the tag in front, and is read as well. -/
theorem identity_and_selector_hexForm :
    HexForm 32 (fun i : Identity => i.bytes.toList) Identity.ofHex Identity.hex ∧
    HexForm 4 (fun s : Selector => s.bytes.toList) Selector.ofHex (fun s => s.bytes.hex) ∧
    ∀ s : Selector, s.label = "0x" ++ s.bytes.hex ∧ Selector.ofHex s.label = .ok s := by
  have selectors : HexForm 4 (fun s : Selector => s.bytes.toList) Selector.ofHex
      (fun s => s.bytes.hex) := .wrapped (fun _ => rfl) fun _ => rfl
  refine ⟨.wrapped (fun _ => rfl) fun _ => rfl, selectors, fun s => ⟨rfl, ?_⟩⟩
  exact (selectors.read_write s).2

/-- Digits of both cases are read, and an odd length is found before the letters that are no digits. -/
example : Selector.ofHex "0xDEADbeef" = .ok ⟨⟨[0xde, 0xad, 0xbe, 0xef], rfl⟩⟩ ∧
    Selector.ofHex "0xno!" = .error (.hex .oddLength) ∧
    Selector.ofHex "0x0xab" = .error (.hex (.badByte 120 1)) ∧
    Selector.ofHex "abcd" = .error (.length 4 2) := by
  decide

end Countersign
