import Tenancy.Binary64
import Tenancy.Id

namespace Tenancy.Cell

/-!
# Sums of depths

Statements add the depths of rows.  A sum that fits a cell is exact.  A larger one is computed with
floats: both numbers are rounded, and so is what they come to.  The sum is then a float itself,
which is beyond every whole number that a cell holds.

* `sum` — the sum of two depths, as statements compute it.
* `sum_eq`, `sum_le_maxCell_iff` — the sums that fit a cell are exact, and the others stay beyond.
* `sum_mono` — sums keep the order of depths.
* `Holds` — the depths that cells hold.
* `link` — the depth over a parent edge, above which and below which there are levels already;
  `link_eq`, `link_le_maxCell_iff`, `link_mono`, `link_eq_one_iff`.
-/

open TenantId (maxCell)
open Binary64 (nearest nearest_mono nearest_near nearest_of_dvd lastUnit)

/-- What stands for a number beyond the largest float. -/
def infinity : Nat := 1 <<< 1024

/-- The sum of two depths.  Depths that are not whole numbers of a cell are floats. -/
def sum (a b : Nat) : Nat :=
  if a + b ≤ maxCell then a + b else min (nearest (nearest a + nearest b)) infinity

/-- The depth over a parent edge that joins what is `a` levels above it to what is `b` levels
    below. -/
def link (a b : Nat) : Nat := sum (sum a b) 1

example : sum maxCell 1024 = maxCell + 1 := by decide +kernel
example : sum maxCell 1025 = maxCell + 2049 := by decide +kernel

variable {a b c d : Nat}

/-- A sum that fits a cell is exact. -/
theorem sum_eq (h : a + b ≤ maxCell) : sum a b = a + b := if_pos h

/-- Numbers of 63 bits are rounded to multiples of 1024. -/
theorem lastUnit_of_wide (hlow : 1 <<< 62 ≤ a) (hhigh : a ≤ maxCell) : lastUnit a = 1024 := by
  have hlt : a < 1 <<< 63 := Nat.lt_of_le_of_lt hhigh (by decide)
  have hne : a ≠ 0 := by
    rintro rfl
    exact absurd hlow (by decide)
  rw [Nat.one_shiftLeft] at hlow hlt
  have hlog : a.log2 = 62 :=
    Nat.le_antisymm (Nat.le_of_lt_succ ((Nat.log2_lt hne).2 hlt)) ((Nat.le_log2 hne).2 hlow)
  rw [lastUnit, hlog]
  rfl

/-- Two numbers that do not fit a cell together are rounded to no less than that, but for half of a
    unit: what the larger one loses, the smaller one makes up for. -/
theorem maxCell_le_nearest_add (hab : b ≤ a) (h : maxCell < a + b) :
    maxCell ≤ nearest a + nearest b + 511 := by
  have hmax : maxCell = (1 <<< 63) - 1 := by decide
  by_cases hwide : a ≤ maxCell
  · have hlow : 1 <<< 62 ≤ a := by omega
    have hunit := lastUnit_of_wide hlow hwide
    have hrounded : 1 <<< 62 ≤ nearest a := by
      have := nearest_mono hlow
      rwa [show nearest (1 <<< 62) = 1 <<< 62 by decide +kernel] at this
    have hnear := (nearest_near a).2
    rw [hunit] at hnear
    -- what the larger number leaves to make up for is a multiple of 512, and so it is not rounded
    have hrest : nearest ((1 <<< 63) - nearest a - 512) = (1 <<< 63) - nearest a - 512 := by
      refine nearest_of_dvd (k := 9) ?_ (by omega)
      obtain ⟨q, hq⟩ : 1024 ∣ nearest a := by
        rw [nearest, hunit]
        exact Nat.dvd_mul_left _ _
      exact ⟨(1 <<< 54) - q * 2 - 1, by omega⟩
    have hb : (1 <<< 63) - nearest a - 512 ≤ b := by omega
    have := nearest_mono hb
    omega
  · have hround : nearest (maxCell + 1) = maxCell + 1 := by decide +kernel
    have : nearest (maxCell + 1) ≤ nearest a := nearest_mono (Nat.lt_of_not_le hwide)
    omega

/-- A sum of floats is beyond what a cell holds if the exact one is. -/
theorem maxCell_lt_sum (h : maxCell < a + b) : maxCell < sum a b := by
  have hlow : maxCell - 511 ≤ nearest a + nearest b := by
    rcases Nat.le_total b a with hle | hle
    · have := maxCell_le_nearest_add hle h
      omega
    · have := maxCell_le_nearest_add hle (Nat.add_comm a b ▸ h)
      omega
  rw [sum, if_neg (Nat.not_le.2 h)]
  refine Nat.lt_min.2 ⟨?_, by decide +kernel⟩
  exact Nat.lt_of_lt_of_le (by decide +kernel) (nearest_mono hlow)

/-- The sums that fit a cell are those that fit it when they are exact. -/
theorem sum_le_maxCell_iff : sum a b ≤ maxCell ↔ a + b ≤ maxCell := by
  refine ⟨fun h => Nat.not_lt.1 fun hlt => ?_, fun h => sum_eq h ▸ h⟩
  exact Nat.not_lt.2 h (maxCell_lt_sum hlt)

/-- A sum that turns out to fit a cell is exact. -/
theorem sum_eq_of_le (h : sum a b ≤ maxCell) : sum a b = a + b := sum_eq (sum_le_maxCell_iff.1 h)

/-- Sums keep the order of depths. -/
theorem sum_mono (hac : a ≤ c) (hbd : b ≤ d) : sum a b ≤ sum c d := by
  by_cases hcd : c + d ≤ maxCell
  · rw [sum_eq hcd, sum_eq (Nat.le_trans (Nat.add_le_add hac hbd) hcd)]
    exact Nat.add_le_add hac hbd
  · by_cases hab : a + b ≤ maxCell
    · rw [sum_eq hab]
      exact Nat.le_of_lt (Nat.lt_of_le_of_lt hab (maxCell_lt_sum (Nat.not_le.1 hcd)))
    · rw [sum, if_neg hab, sum, if_neg hcd]
      have hround := nearest_mono (Nat.add_le_add (nearest_mono hac) (nearest_mono hbd))
      exact Nat.le_min.2 ⟨Nat.le_trans (Nat.min_le_left _ _) hround, Nat.min_le_right _ _⟩

/-- No larger number than the first float is above a sum, unless it is above the exact one. -/
theorem le_sum_iff (h : c ≤ maxCell + 1) : c ≤ sum a b ↔ c ≤ a + b := by
  by_cases hab : a + b ≤ maxCell
  · rw [sum_eq hab]
  · have hsum := maxCell_lt_sum (Nat.not_le.1 hab)
    omega

/-- A sum is positive if one of its parts is. -/
theorem sum_pos (h : 0 < a + b) : 0 < sum a b := (le_sum_iff (by decide)).2 h

/-- A level more than the largest number of a cell is a float. -/
theorem sum_one (h : a ≤ maxCell) : sum a 1 = a + 1 := by
  rcases Nat.lt_or_eq_of_le h with hlt | rfl
  · exact sum_eq hlt
  · decide +kernel

/-- A cell can hold the depth: it is a whole number that fits, or a float beyond these. -/
def Holds (a : Nat) : Prop := a ≤ maxCell ∨ nearest a = a ∧ a ≤ infinity

/-- Nothing is lost where nothing is added. -/
theorem sum_zero (h : Holds a) : sum a 0 = a := by
  by_cases hle : a ≤ maxCell
  · exact sum_eq hle
  · obtain ⟨hfloat, hmost⟩ := h.resolve_left hle
    have hzero : nearest 0 = 0 := rfl
    rw [sum, Nat.add_zero, if_neg hle, hzero, Nat.add_zero, hfloat, hfloat]
    exact Nat.min_eq_left hmost

/-! ### Links -/

/-- The depth of a link is exact if it fits a cell, and it fits a cell if it does so when it is
    exact. -/
theorem link_le_maxCell_iff : link a b ≤ maxCell ↔ a + b + 1 ≤ maxCell := by
  rw [link, sum_le_maxCell_iff]
  constructor
  · intro h
    rwa [sum_eq_of_le (Nat.le_of_succ_le h)] at h
  · intro h
    rwa [sum_eq (Nat.le_of_succ_le h)]

/-- A link that fits a cell is as deep as its two parts and the parent edge together. -/
theorem link_eq (h : a + b + 1 ≤ maxCell) : link a b = a + b + 1 := by
  rw [link, sum_eq (Nat.le_of_succ_le h), sum_eq h]

/-- A link that turns out to fit a cell is exact. -/
theorem link_eq_of_le (h : link a b ≤ maxCell) : link a b = a + b + 1 :=
  link_eq (link_le_maxCell_iff.1 h)

/-- Links keep the order of depths. -/
theorem link_mono (hac : a ≤ c) (hbd : b ≤ d) : link a b ≤ link c d :=
  sum_mono (sum_mono hac hbd) (Nat.le_refl 1)

/-- A link is at least as deep as the parent edge. -/
theorem link_pos : 0 < link a b :=
  Nat.lt_of_lt_of_le (by decide : 0 < link 0 0) (link_mono (Nat.zero_le a) (Nat.zero_le b))

/-- The parent edge itself is the only link of depth 1. -/
theorem link_eq_one_iff : link a b = 1 ↔ a = 0 ∧ b = 0 := by
  constructor
  · intro h
    have hexact := link_eq_of_le (h ▸ (by decide : 1 ≤ maxCell) : link a b ≤ maxCell)
    omega
  · rintro ⟨rfl, rfl⟩
    rfl

/-- Below a parent edge without more levels, a link is a level deeper. -/
theorem link_zero (h : Holds a) : link a 0 = sum a 1 := by
  rw [link, sum_zero h]

end Tenancy.Cell
