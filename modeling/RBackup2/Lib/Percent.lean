import Mathlib.Data.List.Basic

/-!
# Percent-decoding

The bytes of a text in UTF-8, with `%` and two hexadecimal digits for the byte they write, read as
a text again.

* `percentDecode_eq_self_iff` — this gives a text back exactly when no `%` in it is followed by
  two hexadecimal digits;
* `size_le_of_percentDecode`, `eq_of_percentDecode` — it never makes a text longer, and changes
  nothing that does not get shorter.
-/

set_option autoImplicit false

namespace Url

/-- The value of a hexadecimal digit. -/
def hexValue (c : Char) : Option Nat :=
  if c.isDigit then some (c.toNat - 48)
  else if 'a' ≤ c ∧ c ≤ 'f' then some (c.toNat - 87)
  else if 'A' ≤ c ∧ c ≤ 'F' then some (c.toNat - 55)
  else none

/-- The bytes of a text in UTF-8. -/
def utf8Bytes (l : List Char) : List UInt8 := l.flatMap String.utf8EncodeChar

/-- The bytes of a text in UTF-8, with `%` and two hexadecimal digits for the byte they write. -/
def decodeBytes : List Char → List UInt8
  | '%' :: x :: y :: l =>
    match hexValue x, hexValue y with
    | some hi, some lo => UInt8.ofNat (16 * hi + lo) :: decodeBytes l
    | _, _ => String.utf8EncodeChar '%' ++ decodeBytes (x :: y :: l)
  | c :: l => String.utf8EncodeChar c ++ decodeBytes l
  | [] => []

/-- The text that a percent-encoded text stands for, if its bytes are a text. -/
def percentDecode (l : List Char) : Option String :=
  String.fromUTF8? (decodeBytes l).toByteArray

/-- Some `%` is followed by two hexadecimal digits. -/
def hasEscape : List Char → Bool
  | '%' :: x :: y :: l =>
    (hexValue x).isSome && (hexValue y).isSome || hasEscape (x :: y :: l)
  | _ :: l => hasEscape l
  | [] => false

theorem utf8Bytes_cons (c : Char) (l : List Char) :
    utf8Bytes (c :: l) = String.utf8EncodeChar c ++ utf8Bytes l := List.flatMap_cons

theorem utf8Bytes_append (a b : List Char) :
    utf8Bytes (a ++ b) = utf8Bytes a ++ utf8Bytes b := List.flatMap_append

theorem length_utf8EncodeChar_pos (c : Char) : 0 < (String.utf8EncodeChar c).length :=
  List.length_pos_iff.2 String.utf8EncodeChar_ne_nil

theorem decodeBytes_of_not_hasEscape {l : List Char} (h : hasEscape l = false) :
    decodeBytes l = utf8Bytes l := by
  fun_induction decodeBytes l with
  | case1 x y l hi lo hx hy ih =>
    rw [hasEscape, hx, hy] at h
    exact absurd h (by simp)
  | case2 x y l hno ih =>
    rw [hasEscape, Bool.or_eq_false_iff] at h
    rw [ih h.2, utf8Bytes_cons '%']
  | case3 c l hc ih =>
    rw [hasEscape] at h
    · rw [ih h, utf8Bytes_cons]
    · exact hc
  | case4 => rfl

theorem length_decodeBytes_le (l : List Char) :
    (decodeBytes l).length ≤ (utf8Bytes l).length := by
  fun_induction decodeBytes l with
  | case1 x y l hi lo hx hy ih =>
    have hpos := length_utf8EncodeChar_pos '%'
    simp only [utf8Bytes_cons, List.length_cons, List.length_append]
    omega
  | case2 x y l hno ih =>
    rw [utf8Bytes_cons, List.length_append, List.length_append]
    omega
  | case3 c l hc ih =>
    rw [utf8Bytes_cons, List.length_append, List.length_append]
    omega
  | case4 => exact Nat.le_refl 0

theorem length_decodeBytes_lt {l : List Char} (h : hasEscape l) :
    (decodeBytes l).length < (utf8Bytes l).length := by
  fun_induction decodeBytes l with
  | case1 x y l hi lo hx hy ih =>
    have hle := length_decodeBytes_le l
    have hpos := length_utf8EncodeChar_pos '%'
    have hxpos := length_utf8EncodeChar_pos x
    simp only [utf8Bytes_cons, List.length_cons, List.length_append]
    omega
  | case2 x y l hno ih =>
    have hxy : ((hexValue x).isSome && (hexValue y).isSome) = false := by
      cases hx : hexValue x with
      | none => rfl
      | some hi =>
        cases hy : hexValue y with
        | none => rfl
        | some lo => exact absurd hy (hno hi lo hx)
    rw [hasEscape, hxy, Bool.false_or] at h
    have hlt := ih h
    rw [utf8Bytes_cons, List.length_append, List.length_append]
    omega
  | case3 c l hc ih =>
    rw [hasEscape] at h
    · have hlt := ih h
      rw [utf8Bytes_cons, List.length_append, List.length_append]
      omega
    · exact hc
  | case4 => exact absurd h (by decide)

theorem toByteArray_inj {a b : List UInt8} (h : a.toByteArray = b.toByteArray) : a = b := by
  simpa using congrArg (fun bytes : ByteArray => bytes.data.toList) h

theorem percentDecode_eq_some_iff {l : List Char} {s : String} :
    percentDecode l = some s ↔ decodeBytes l = utf8Bytes s.toList := by
  have hs : s.toByteArray = (utf8Bytes s.toList).toByteArray := String.utf8Encode_toList.symm
  rw [percentDecode, String.fromUTF8?]
  constructor
  · intro h
    split at h
    · have hbytes := congrArg String.toByteArray (Option.some.inj h)
      rw [hs] at hbytes
      exact toByteArray_inj hbytes
    · cases h
  · intro h
    rw [h, ← hs, dif_pos s.isValidUTF8]
    rfl

/-- **Percent-decoding gives a text back exactly when it has no escape.** -/
theorem percentDecode_eq_self_iff (s : String) :
    percentDecode s.toList = some s ↔ hasEscape s.toList = false := by
  rw [percentDecode_eq_some_iff]
  constructor
  · intro h
    rw [Bool.eq_false_iff]
    intro he
    have hlt := length_decodeBytes_lt he
    rw [h] at hlt
    exact Nat.lt_irrefl _ hlt
  · exact decodeBytes_of_not_hasEscape

theorem percentDecode_nil : percentDecode [] = some "" := percentDecode_eq_some_iff.2 rfl

/-- The number of bytes of a text. -/
def size (l : List Char) : Nat := (utf8Bytes l).length

theorem size_append (a b : List Char) : size (a ++ b) = size a + size b := by
  unfold size
  rw [utf8Bytes_append, List.length_append]

theorem size_cons (c : Char) (l : List Char) :
    size (c :: l) = (String.utf8EncodeChar c).length + size l := by
  unfold size
  rw [utf8Bytes_cons, List.length_append]

theorem size_le_of_sublist {a l : List Char} (h : a.Sublist l) : size a ≤ size l := by
  induction h with
  | slnil => exact Nat.le_refl 0
  | cons c _ ih =>
    rw [size_cons]
    omega
  | cons_cons c _ ih =>
    rw [size_cons, size_cons]
    omega

/-- Nothing is left out of a text without losing bytes. -/
theorem eq_of_sublist {a l : List Char} (h : a.Sublist l) (hle : size l ≤ size a) : a = l := by
  induction h with
  | slnil => rfl
  | cons c hsub _ =>
    have hshort := size_le_of_sublist hsub
    have hpos := length_utf8EncodeChar_pos c
    rw [size_cons] at hle
    omega
  | cons_cons c _ ih =>
    rw [size_cons, size_cons] at hle
    rw [ih (by omega)]

/-- Percent-decoding never makes a text longer. -/
theorem size_le_of_percentDecode {l : List Char} {s : String} (h : percentDecode l = some s) :
    size s.toList ≤ size l := by
  have hle := length_decodeBytes_le l
  rw [percentDecode_eq_some_iff.1 h] at hle
  exact hle

/-- A text that does not get shorter is left as it is. -/
theorem eq_of_percentDecode {l : List Char} {s : String} (h : percentDecode l = some s)
    (hle : size l ≤ size s.toList) : l = s.toList ∧ hasEscape l = false := by
  have hbytes := percentDecode_eq_some_iff.1 h
  have hno : hasEscape l = false := by
    rw [Bool.eq_false_iff]
    intro he
    have hlt := length_decodeBytes_lt he
    rw [hbytes] at hlt
    unfold size at hle
    omega
  have hself := (percentDecode_eq_self_iff (String.ofList l)).2 (by
    rw [String.toList_ofList]
    exact hno)
  rw [String.toList_ofList, h] at hself
  exact ⟨by rw [Option.some.inj hself, String.toList_ofList], hno⟩

/-- Of two parts of a text that start at the same place the one with more bytes reaches further. -/
theorem prefix_of_size_le {a b t : List Char} (ha : a <+: t) (hb : b <+: t)
    (hle : size b ≤ size a) : b <+: a := by
  rcases List.prefix_or_prefix_of_prefix ha hb with hp | hp
  · exact eq_of_sublist hp.sublist hle ▸ List.prefix_rfl
  · exact hp

end Url
