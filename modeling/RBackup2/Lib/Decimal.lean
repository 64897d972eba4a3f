import Mathlib.Data.Nat.Digits.Defs

/-!
# Unsigned decimal numbers

Rust's `str::parse` at an unsigned type: an optional `+`, then decimal digits, each of which is
added to ten times the number before it, with both operations checked.

* `Denotes` — the number a text is of, however large that is.
* `parseUnsigned_eq_some_iff` — a number is read exactly from the texts of it, if it fits.
* `parseUnsigned_repr` — a number that fits is read back from its decimal text.
-/

set_option autoImplicit false

namespace Decimal

/-- The number with one more digit, unless that is none or the number grows out of its type. -/
def addDigit (bits : Nat) (acc : Nat) (c : Char) : Option Nat :=
  if c.isDigit then
    let n := acc * 10 + (c.toNat - '0'.toNat)
    if n < 2 ^ bits then some n else none
  else none

/-- The text without a leading `+`. -/
def unsigned : List Char → List Char
  | '+' :: digits => digits
  | digits => digits

/-- `s.parse()` at an unsigned type of so many bits. -/
def parseUnsigned (bits : Nat) (s : String) : Option Nat :=
  match unsigned s.toList with
  | [] => none
  | digits => digits.foldlM (addDigit bits) 0

/-- The text is of a number: digits, at least one, behind a `+` at most. -/
structure Denotes (s : String) (n : Nat) : Prop where
  digits : unsigned s.toList ≠ []
  isDigit : ∀ c ∈ unsigned s.toList, c.isDigit = true
  value : Nat.ofDigitChars 10 (unsigned s.toList) 0 = n

/-- A number of digits is at least what its first digits make. -/
theorem le_ofDigitChars : ∀ (ds : List Char) (acc : Nat), acc ≤ Nat.ofDigitChars 10 ds acc
  | [], _ => by simp
  | d :: ds, acc => by
    rw [Nat.ofDigitChars_cons]
    have := le_ofDigitChars ds (10 * acc + (d.toNat - '0'.toNat))
    omega

/-- Checked digit by digit, the number fits exactly if it does in the end. -/
theorem foldlM_addDigit (bits : Nat) : ∀ (ds : List Char) {acc n : Nat}, acc < 2 ^ bits →
    (ds.foldlM (addDigit bits) acc = some n ↔
      (∀ c ∈ ds, c.isDigit = true) ∧ Nat.ofDigitChars 10 ds acc = n ∧ n < 2 ^ bits)
  | [], acc, n, hacc => by
    simp only [List.foldlM_nil, List.not_mem_nil, false_implies, implies_true, true_and,
      Nat.ofDigitChars_nil]
    constructor
    · intro h
      cases h
      exact ⟨rfl, hacc⟩
    · rintro ⟨rfl, -⟩
      rfl
  | d :: ds, acc, n, hacc => by
    rw [List.foldlM_cons, Nat.ofDigitChars_cons, Nat.mul_comm 10 acc]
    by_cases hd : d.isDigit = true
    · by_cases hfits : acc * 10 + (d.toNat - '0'.toNat) < 2 ^ bits
      · have hstep : addDigit bits acc d = some (acc * 10 + (d.toNat - '0'.toNat)) := by
          simp only [addDigit, if_pos hd, if_pos hfits]
        rw [hstep, Option.bind_eq_bind, Option.bind_some, foldlM_addDigit bits ds hfits,
          List.forall_mem_cons, and_assoc, and_iff_right hd]
      · have hstep : addDigit bits acc d = none := by
          simp only [addDigit, if_pos hd, if_neg hfits]
        rw [hstep, Option.bind_eq_bind, Option.bind_none]
        refine iff_of_false (by simp) ?_
        rintro ⟨-, rfl, hlt⟩
        -- the number has already grown out of its type
        have := le_ofDigitChars ds (acc * 10 + (d.toNat - '0'.toNat))
        omega
    · have hstep : addDigit bits acc d = none := by simp only [addDigit, if_neg hd]
      rw [hstep, Option.bind_eq_bind, Option.bind_none]
      refine iff_of_false (by simp) fun h => hd (h.1 d List.mem_cons_self)

/-- **What is read**: the numbers that fit, from any text of them. -/
theorem parseUnsigned_eq_some_iff {bits : Nat} {s : String} {n : Nat} :
    parseUnsigned bits s = some n ↔ Denotes s n ∧ n < 2 ^ bits := by
  unfold parseUnsigned
  split
  · rename_i h
    refine iff_of_false (by simp) ?_
    rintro ⟨hs, -⟩
    exact hs.digits h
  · rename_i hne
    rw [foldlM_addDigit bits _ (Nat.two_pow_pos bits)]
    constructor
    · rintro ⟨hdigits, hvalue, hfits⟩
      exact ⟨⟨hne, hdigits, hvalue⟩, hfits⟩
    · rintro ⟨hs, hfits⟩
      exact ⟨hs.isDigit, hs.value, hfits⟩

/-- A text of digits has no sign to be taken off. -/
theorem unsigned_digits {ds : List Char} (h : ∀ c ∈ ds, c.isDigit = true) : unsigned ds = ds := by
  unfold unsigned
  split
  · exact absurd (h '+' List.mem_cons_self) (by decide)
  · rfl

/-- A number is what its decimal text is of. -/
theorem denotes_repr (n : Nat) : Denotes n.repr n := by
  have hdigits : ∀ c ∈ Nat.toDigits 10 n, c.isDigit = true := fun c hc =>
    Nat.isDigit_of_mem_toDigits (by decide) (by decide) hc
  constructor
  · rw [Nat.toList_repr, unsigned_digits hdigits]
    exact Nat.toDigits_ne_nil
  · rwa [Nat.toList_repr, unsigned_digits hdigits]
  · rw [Nat.toList_repr, unsigned_digits hdigits]
    exact Nat.ofDigitChars_ten_toDigits

/-- **Round trip.** -/
theorem parseUnsigned_repr {bits n : Nat} (hn : n < 2 ^ bits) :
    parseUnsigned bits n.repr = some n :=
  parseUnsigned_eq_some_iff.2 ⟨denotes_repr n, hn⟩

end Decimal
