import Mathlib.Algebra.Order.Round
import Mathlib.Tactic.Linarith

/-!
# Readings of clocks

Times and durations are elements of an ordered field with a floor, readings are whole numbers.

* `reading` — what a clock with a resolution shows; `le_reading_iff` compares it with the time.
* `Keeps` — a duration measured with a lead rounds to the unit the duration itself rounds to;
  `keeps_iff_round` says so, and `forall_keeps_iff` that only the lead zero keeps them all.
-/

set_option autoImplicit false

namespace Clock

variable {R : Type} [Field R] [LinearOrder R] [FloorRing R]

/-- The last multiple of the resolution that is not after `x`. -/
def reading (resolution : Int) (x : R) : Int := ⌊x / resolution⌋ * resolution

theorem dvd_reading (resolution : Int) (x : R) : resolution ∣ reading resolution x :=
  Int.dvd_mul_left _ _

variable [IsStrictOrderedRing R]

/-- A multiple of the resolution is reached on the clock when it is reached. -/
theorem le_reading_iff {resolution v : Int} (hpos : 0 < resolution) (hv : resolution ∣ v) (x : R) :
    v ≤ reading resolution x ↔ (v : R) ≤ x := by
  obtain ⟨n, rfl⟩ := hv
  have hpos' : (0 : R) < resolution := Int.cast_pos.2 hpos
  rw [reading, Int.mul_comm, Int.mul_le_mul_right hpos, Int.le_floor, le_div_iff₀ hpos',
    Int.cast_mul]

/-- On the clock's own marks the reading is the time. -/
theorem reading_of_dvd {resolution v : Int} (hpos : 0 < resolution) (hv : resolution ∣ v) :
    reading resolution (v : R) = v := by
  obtain ⟨n, rfl⟩ := hv
  have hne : (resolution : R) ≠ 0 := Int.cast_ne_zero.2 (Int.ne_of_gt hpos)
  rw [reading, Int.cast_mul, mul_div_cancel_left₀ _ hne, Int.floor_intCast, Int.mul_comm]

/-- A duration `d`, measured as `d + lead`, is not negative and stays within half a unit of the
    number of units that `d` rounds to. -/
structure Keeps (unit d lead : R) : Prop where
  nonneg : 0 ≤ d + lead
  lower : round (d / unit) * unit - unit / 2 ≤ d + lead
  upper : d + lead < round (d / unit) * unit + unit / 2

/-- A number of units is what a duration rounds to. -/
theorem round_div_eq_iff {unit : R} (hpos : 0 < unit) (d : R) (n : Int) :
    round (d / unit) = n ↔ n * unit - unit / 2 ≤ d ∧ d < n * unit + unit / 2 := by
  have hlo : (n : R) - 1 / 2 ≤ d / unit ↔ n * unit - unit / 2 ≤ d := by
    rw [le_div_iff₀ hpos]
    constructor <;> intro h <;> linarith
  have hhi : d / unit < (n : R) + 1 / 2 ↔ d < n * unit + unit / 2 := by
    rw [div_lt_iff₀ hpos]
    constructor <;> intro h <;> linarith
  rw [round_eq_iff, Set.mem_Ico, hlo, hhi]

theorem keeps_iff_round {unit : R} (hpos : 0 < unit) (d lead : R) :
    Keeps unit d lead ↔ 0 ≤ d + lead ∧ round ((d + lead) / unit) = round (d / unit) := by
  rw [round_div_eq_iff hpos]
  constructor
  · exact fun h => ⟨h.nonneg, h.lower, h.upper⟩
  · exact fun h => ⟨h.1, h.2.1, h.2.2⟩

/-- A clock without a lead measures every duration right. -/
theorem Keeps.zero {unit : R} (hpos : 0 < unit) {d : R} (hd : 0 ≤ d) : Keeps unit d 0 := by
  rw [keeps_iff_round hpos, add_zero]
  exact ⟨hd, rfl⟩

/-- **Only the lead zero keeps every duration**: with any other the shortest duration is negative,
    or one that ends just before the half of a unit is rounded up. -/
theorem forall_keeps_iff {unit : R} (hpos : 0 < unit) (lead : R) :
    (∀ d, 0 ≤ d → Keeps unit d lead) ↔ lead = 0 := by
  constructor
  · intro h
    have hnonneg : 0 ≤ lead := by simpa using (h 0 le_rfl).nonneg
    by_contra hne
    have hlead : 0 < lead := lt_of_le_of_ne hnonneg (Ne.symm hne)
    -- the duration that the lead takes to the half of the first unit, if there is one
    have hd : 0 ≤ max 0 (unit / 2 - lead) := le_max_left _ _
    have hround : round (max 0 (unit / 2 - lead) / unit) = 0 := by
      rw [round_div_eq_iff hpos, Int.cast_zero, zero_mul, zero_sub, zero_add]
      refine ⟨by linarith, max_lt (by linarith) (by linarith)⟩
    have hupper := (h _ hd).upper
    rw [hround, Int.cast_zero, zero_mul, zero_add] at hupper
    have := le_max_right 0 (unit / 2 - lead)
    linarith
  · rintro rfl d hd
    exact .zero hpos hd

/-- **Readings that keep a distance**: between two readings there are only so many of them. -/
theorem length_le_of_apart {d hi : Int} (hd : 0 < d) :
    ∀ {l : List Int} {lo : Int}, l.Pairwise (fun x y => x + d ≤ y) →
      (∀ x ∈ l, lo ≤ x ∧ x ≤ hi) → l.length ≤ ((hi - lo) / d + 1).toNat
  | [], _, _, _ => Nat.zero_le _
  | x :: l, lo, hapart, hin => by
    obtain ⟨hx, hrest⟩ := List.pairwise_cons.1 hapart
    obtain ⟨hlo, hhi⟩ := hin x List.mem_cons_self
    -- the others are between the first of them and `hi`, one distance further
    have ih := @length_le_of_apart d hi hd l (x + d) hrest
      fun y hy => ⟨hx y hy, (hin y (List.mem_cons_of_mem x hy)).2⟩
    have hstep : (hi - (x + d)) / d + 1 = (hi - x) / d := by
      rw [show hi - (x + d) = hi - x + (-1) * d by omega,
        Int.add_mul_ediv_right _ _ (Int.ne_of_gt hd)]
      omega
    have hnonneg : 0 ≤ (hi - x) / d := Int.ediv_nonneg (by omega) (Int.le_of_lt hd)
    have hmono : (hi - x) / d ≤ (hi - lo) / d := Int.ediv_le_ediv hd (by omega)
    rw [hstep] at ih
    rw [List.length_cons]
    omega

end Clock
