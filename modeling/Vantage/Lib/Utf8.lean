import Mathlib.Tactic

/-!
# UTF-8 bytes of a text

The encoding of characters is a prefix code, so prefixes of encoded texts
are encoded prefixes. Decoding leaves out bytes that are no text, as when the
last character of a prefix has been cut.
-/

namespace Utf8

def encode (l : List Char) : List UInt8 := l.flatMap String.utf8EncodeChar

@[simp] theorem encode_nil : encode [] = [] := rfl

@[simp] theorem encode_cons (c : Char) (l : List Char) :
    encode (c :: l) = String.utf8EncodeChar c ++ encode l := rfl

@[simp] theorem encode_append (l l' : List Char) : encode (l ++ l') = encode l ++ encode l' :=
  List.flatMap_append

theorem utf8EncodeChar_ne_nil (c : Char) : String.utf8EncodeChar c ≠ [] := by
  intro h
  have hlen := String.length_utf8EncodeChar c
  rw [h] at hlen
  have hpos := c.utf8Size_pos
  simp only [List.length_nil] at hlen
  omega

/-- The first character can be read off the bytes. -/
theorem eq_of_utf8EncodeChar_append_eq {c d : Char} {l l' : List UInt8}
    (h : String.utf8EncodeChar c ++ l = String.utf8EncodeChar d ++ l') : c = d := by
  have hc := ByteArray.utf8DecodeChar?_utf8EncodeChar_append (b := l.toByteArray) (c := c)
  have hd := ByteArray.utf8DecodeChar?_utf8EncodeChar_append (b := l'.toByteArray) (c := d)
  rw [← List.toByteArray_append, h, List.toByteArray_append, hd] at hc
  exact (Option.some.inj hc).symm

theorem encode_prefix_iff {p l : List Char} : encode p <+: encode l ↔ p <+: l := by
  constructor
  · rintro ⟨t, ht⟩
    induction p generalizing l with
    | nil => exact List.nil_prefix
    | cons c p ih =>
        cases l with
        | nil =>
            simp only [encode_cons, encode_nil, List.append_assoc, List.append_eq_nil_iff] at ht
            exact (utf8EncodeChar_ne_nil c ht.1).elim
        | cons d l =>
            rw [encode_cons, encode_cons, List.append_assoc] at ht
            obtain rfl := eq_of_utf8EncodeChar_append_eq ht
            exact List.cons_prefix_cons.mpr ⟨rfl, ih (List.append_cancel_left ht)⟩
  · rintro ⟨t, rfl⟩
    exact ⟨encode t, (encode_append p t).symm⟩

/-! ## Decoding -/

/-- The number counts the bytes of a character that are still to be passed over. -/
def decodeFrom : ℕ → List UInt8 → List Char
  | _, [] => []
  | k + 1, _ :: l => decodeFrom k l
  | 0, b :: l =>
      match (b :: l).toByteArray.utf8DecodeChar? 0 with
      | none => decodeFrom 0 l
      | some c => c :: decodeFrom (c.utf8Size - 1) l

/-- The text of some bytes; a byte at which no character starts is left out. -/
def decodeIgnore (l : List UInt8) : List Char := decodeFrom 0 l

theorem decodeFrom_append (w l : List UInt8) : decodeFrom w.length (w ++ l) = decodeIgnore l := by
  induction w with
  | nil => rfl
  | cons b w ih => exact ih

theorem decodeIgnore_cons_of_none {b : UInt8} {l : List UInt8}
    (h : (b :: l).toByteArray.utf8DecodeChar? 0 = none) :
    decodeIgnore (b :: l) = decodeIgnore l := by
  simp only [decodeIgnore, decodeFrom, h]

theorem decodeIgnore_encodeChar_append (c : Char) (l : List UInt8) :
    decodeIgnore (String.utf8EncodeChar c ++ l) = c :: decodeIgnore l := by
  have hread := ByteArray.utf8DecodeChar?_utf8EncodeChar_append (b := l.toByteArray) (c := c)
  have hlength := String.length_utf8EncodeChar c
  obtain ⟨b, w, hw⟩ := List.exists_cons_of_ne_nil (utf8EncodeChar_ne_nil c)
  rw [← List.toByteArray_append] at hread
  rw [hw, List.length_cons] at hlength
  rw [hw, List.cons_append] at hread ⊢
  have hskip : c.utf8Size - 1 = w.length := by omega
  simp only [decodeIgnore, decodeFrom, hread, hskip]
  rw [decodeFrom_append, decodeIgnore]

/-- The bytes behind the first one of a character start no character. -/
theorem decodeIgnore_of_tail {l : List UInt8} (h : ∀ b ∈ l, ¬ b.IsUTF8FirstByte) :
    decodeIgnore l = [] := by
  induction l with
  | nil => rfl
  | cons b l ih =>
      obtain ⟨hb, hl⟩ := List.forall_mem_cons.mp h
      rw [decodeIgnore_cons_of_none, ih hl]
      rw [Option.eq_none_iff_forall_ne_some]
      intro c hc
      have hfirst := ByteArray.isUTF8FirstByte_of_isSome_utf8DecodeChar?
        (Option.isSome_of_eq_some hc)
      exact hb (by simpa using hfirst)

theorem not_isUTF8FirstByte_of_tail {c : Char} {b : UInt8} {w : List UInt8}
    (h : String.utf8EncodeChar c = b :: w) : ∀ x ∈ w, ¬ x.IsUTF8FirstByte := by
  intro x hx hfirst
  obtain ⟨i, hi, rfl⟩ := List.getElem_of_mem hx
  have hlt : i + 1 < (String.utf8EncodeChar c).length := by simp [h, hi]
  have hbyte : (String.utf8EncodeChar c)[i + 1] = w[i] := by simp [h]
  rw [← hbyte, UInt8.isUTF8FirstByte_getElem_utf8EncodeChar] at hfirst
  exact absurd hfirst (Nat.succ_ne_zero i)

theorem encodeChar_prefix_of_decode {l : List UInt8} {c : Char}
    (h : l.toByteArray.utf8DecodeChar? 0 = some c) : String.utf8EncodeChar c <+: l := by
  obtain ⟨rest, hrest⟩ := ByteArray.exists_of_utf8DecodeChar?_eq_some h
  refine ⟨rest.data.toList, ?_⟩
  have hdata := congrArg (fun bytes : ByteArray ↦ bytes.data.toList) hrest
  simpa using hdata.symm

/-- The bytes of a character without its last ones decode to nothing. -/
theorem decodeIgnore_take_encodeChar {c : Char} {n : ℕ} (h : n < c.utf8Size) :
    decodeIgnore ((String.utf8EncodeChar c).take n) = [] := by
  cases hcut : (String.utf8EncodeChar c).take n with
  | nil => rfl
  | cons b l =>
      obtain ⟨t, ht⟩ : b :: l <+: String.utf8EncodeChar c := hcut ▸ List.take_prefix n _
      have hshort : (b :: l).length < c.utf8Size := by
        rw [← hcut]
        exact (List.length_take_le n _).trans_lt h
      rw [decodeIgnore_cons_of_none]
      · apply decodeIgnore_of_tail
        intro x hx
        exact not_isUTF8FirstByte_of_tail ht.symm x (List.mem_append_left t hx)
      · rw [Option.eq_none_iff_forall_ne_some]
        intro d hd
        obtain ⟨u, hu⟩ := encodeChar_prefix_of_decode hd
        have hsame : String.utf8EncodeChar d ++ (u ++ t) = String.utf8EncodeChar c ++ [] := by
          rw [← List.append_assoc, hu, ht, List.append_nil]
        obtain rfl := eq_of_utf8EncodeChar_append_eq hsame
        have hlength := congrArg List.length hu
        rw [List.length_append, String.length_utf8EncodeChar] at hlength
        omega

/-- A cut of encoded text keeps the first character or nothing. -/
theorem decodeIgnore_take_encode_cons (c : Char) (l : List Char) (n : ℕ) :
    decodeIgnore ((encode (c :: l)).take n) =
      if c.utf8Size ≤ n then c :: decodeIgnore ((encode l).take (n - c.utf8Size)) else [] := by
  rw [encode_cons, List.take_append, String.length_utf8EncodeChar]
  split_ifs with hfits
  · have hwhole : (String.utf8EncodeChar c).take n = String.utf8EncodeChar c :=
      List.take_of_length_le (by rwa [String.length_utf8EncodeChar])
    rw [hwhole, decodeIgnore_encodeChar_append]
  · have hnone : n - c.utf8Size = 0 := by omega
    rw [hnone, List.take_zero, List.append_nil]
    exact decodeIgnore_take_encodeChar (not_le.mp hfits)

/-- The text of some bytes, if they are a text. -/
def decode (l : List UInt8) : Option (List Char) :=
  l.toByteArray.utf8Decode?.map Array.toList

theorem decode_encode (l : List Char) : decode (encode l) = some l :=
  congrArg (Option.map Array.toList) List.utf8Decode?_utf8Encode

end Utf8
