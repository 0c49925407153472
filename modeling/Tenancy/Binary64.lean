namespace Tenancy.Binary64

/-!
# Floats of 64 bits

A float has 53 significant bits, the last of which is worth at least `2 ^ -1074`.  Floats are not
used to compute here; what matters is which one is nearest to a number.

* `roundDiv` — a quotient, rounded to the nearest whole number; a tie goes to the even one.
* `nearest` — the whole number of 53 significant bits nearest to another; `nearest_mono`,
  `nearest_near`, `nearest_of_dvd`.
* `whole?` — the float nearest to a quotient, if it is a whole number.
-/

/-- The whole number nearest to `n / d`; of two that are equally near, the even one. -/
def roundDiv (n d : Nat) : Nat :=
  let q := n / d
  let r := n % d
  if d < 2 * r || (2 * r == d && q % 2 == 1) then q + 1 else q

/-- A quotient that is whole stays as it is. -/
theorem roundDiv_mul (q : Nat) {d : Nat} (h : 0 < d) : roundDiv (q * d) d = q := by
  simp [roundDiv, Nat.mul_div_cancel _ h, Nat.ne_of_lt h]

/-- A rounded quotient is at most half of the divisor off. -/
theorem roundDiv_near (n : Nat) {d : Nat} (h : 0 < d) :
    2 * (roundDiv n d * d) ≤ 2 * n + d ∧ 2 * n ≤ 2 * (roundDiv n d * d) + d := by
  have hn := Nat.div_add_mod n d
  have hr := Nat.mod_lt n h
  rw [Nat.mul_comm] at hn
  simp only [roundDiv]
  split <;> rename_i hc <;> simp only [Bool.or_eq_true, decide_eq_true_eq, Bool.and_eq_true,
    beq_iff_eq] at hc
  · rw [Nat.add_mul]
    omega
  · omega

/-- A quotient is rounded to one of the two whole numbers around it. -/
theorem roundDiv_bounds (n d : Nat) : n / d ≤ roundDiv n d ∧ roundDiv n d ≤ n / d + 1 := by
  simp only [roundDiv]
  split <;> omega

/-- Rounding keeps the order of the quotients by one divisor. -/
theorem roundDiv_mono {m n : Nat} (d : Nat) (h : m ≤ n) : roundDiv m d ≤ roundDiv n d := by
  have hle : m / d ≤ n / d := Nat.div_le_div_right h
  rcases Nat.lt_or_eq_of_le hle with hlt | heq
  · -- between the two quotients lies a whole number, which neither is rounded across
    exact Nat.le_trans (roundDiv_bounds m d).2 (Nat.le_trans hlt (roundDiv_bounds n d).1)
  · have hm := Nat.div_add_mod m d
    have hn := Nat.div_add_mod n d
    simp only [roundDiv, heq] at hm ⊢
    have hrest : m % d ≤ n % d := by omega
    split <;> split <;> rename_i hcm hcn <;> simp only [Bool.or_eq_true, decide_eq_true_eq,
      Bool.and_eq_true, beq_iff_eq] at hcm hcn <;> omega

/-! ### Whole numbers -/

/-- What the last of the 53 significant bits of `n` is worth. -/
def lastUnit (n : Nat) : Nat := 1 <<< (n.log2 - 52)

/-- The whole number of 53 significant bits that is nearest to `n`; of two, the even one. -/
def nearest (n : Nat) : Nat := roundDiv n (lastUnit n) * lastUnit n

/-- The last significant bit is worth something. -/
theorem lastUnit_pos (n : Nat) : 0 < lastUnit n := by
  rw [lastUnit, Nat.one_shiftLeft]
  exact Nat.two_pow_pos _

/-- A number stays below 53 bits of its last unit. -/
theorem lt_lastUnit (n : Nat) : n < (1 <<< 53) * lastUnit n := by
  rw [lastUnit, Nat.one_shiftLeft, Nat.one_shiftLeft, ← Nat.pow_add]
  exact Nat.lt_of_lt_of_le Nat.lt_log2_self (Nat.pow_le_pow_right (by decide) (by omega))

/-- A number that is not small reaches 52 bits of its last unit. -/
theorem lastUnit_le {n : Nat} (h : 52 ≤ n.log2) : (1 <<< 52) * lastUnit n ≤ n := by
  have hn : n ≠ 0 := by rintro rfl; exact absurd h (by decide)
  rw [lastUnit, Nat.one_shiftLeft, Nat.one_shiftLeft, ← Nat.pow_add, Nat.add_sub_cancel' h]
  exact Nat.log2_self_le hn

/-- A larger number has no fewer bits. -/
theorem log2_mono {m n : Nat} (h : m ≤ n) : m.log2 ≤ n.log2 := by
  by_cases hm : m = 0
  · simp [hm]
  · exact (Nat.le_log2 (by omega)).2 (Nat.le_trans (Nat.log2_self_le hm) h)

/-- Rounding keeps the order of numbers. -/
theorem nearest_mono {m n : Nat} (h : m ≤ n) : nearest m ≤ nearest n := by
  have hlog : m.log2 ≤ n.log2 := log2_mono h
  by_cases hsame : m.log2 - 52 = n.log2 - 52
  · have hunit : lastUnit m = lastUnit n := congrArg (1 <<< ·) hsame
    rw [nearest, nearest, hunit]
    exact Nat.mul_le_mul_right _ (roundDiv_mono _ h)
  · -- a power of two lies between the numbers, and neither is rounded across
    have hunit : 2 * lastUnit m ≤ lastUnit n := by
      rw [lastUnit, lastUnit, Nat.one_shiftLeft, Nat.one_shiftLeft, ← Nat.pow_succ']
      exact Nat.pow_le_pow_right (by decide) (by omega)
    calc nearest m ≤ (1 <<< 53) * lastUnit m := by
          refine Nat.mul_le_mul_right _ (Nat.le_trans (roundDiv_bounds m _).2 ?_)
          exact (Nat.div_lt_iff_lt_mul (lastUnit_pos m)).2 (lt_lastUnit m)
      _ = (1 <<< 52) * (2 * lastUnit m) := by
          rw [← Nat.mul_assoc, show (1 <<< 52) * 2 = 1 <<< 53 from rfl]
      _ ≤ (1 <<< 52) * lastUnit n := Nat.mul_le_mul_left _ hunit
      _ ≤ nearest n := by
          refine Nat.mul_le_mul_right _ (Nat.le_trans ?_ (roundDiv_bounds n _).1)
          exact (Nat.le_div_iff_mul_le (lastUnit_pos n)).2 (lastUnit_le (by omega))

/-- Rounding is at most half of the last unit off. -/
theorem nearest_near (n : Nat) :
    2 * nearest n ≤ 2 * n + lastUnit n ∧ 2 * n ≤ 2 * nearest n + lastUnit n :=
  roundDiv_near n (lastUnit_pos n)

/-- A multiple of a power of two that has no more than 53 bits above it is not rounded. -/
theorem nearest_of_dvd {n k : Nat} (hd : 1 <<< k ∣ n) (hn : n < 1 <<< (53 + k)) :
    nearest n = n := by
  -- the last significant bit lies no higher than the bit below which there is nothing
  have hlog : n.log2 - 52 ≤ k := by
    by_cases h0 : n = 0
    · simp [h0]
    · rw [Nat.one_shiftLeft] at hn
      have := (Nat.log2_lt h0).2 hn
      omega
  have hunit : lastUnit n ∣ n := by
    refine Nat.dvd_trans ?_ hd
    rw [lastUnit, Nat.one_shiftLeft, Nat.one_shiftLeft]
    exact Nat.pow_dvd_pow 2 hlog
  obtain ⟨q, hq⟩ := hunit
  have hmul : n = q * lastUnit n := by rw [Nat.mul_comm]; exact hq
  have : roundDiv n (lastUnit n) = q := by
    have := roundDiv_mul q (lastUnit_pos n)
    rwa [← hmul] at this
  rw [nearest, this, ← hmul]

/-! ### Quotients -/

/-- The exponent of the highest power of 2 that is not above `num / den`. -/
def magnitude (num den : Nat) : Int :=
  let k : Int := num.log2 - den.log2
  if num <<< (-k).toNat < den <<< k.toNat then k - 1 else k

/-- The exponent of the last bit of a float near `num / den`. -/
def lastPlace (num den : Nat) : Int := max (magnitude num den - 52) (-1074)

/-- The number of last places in the float nearest to `num / den`. -/
def significand (num den : Nat) : Nat :=
  let k := lastPlace num den
  roundDiv (num <<< (-k).toNat) (den <<< k.toNat)

/-- The float nearest to `num / den`, if it is a whole number. -/
def whole? (num den : Nat) : Option Nat :=
  let k := lastPlace num den
  let n := significand num den <<< k.toNat
  let unit := 1 <<< (-k).toNat
  if n % unit = 0 then some (n / unit) else none

example : whole? 9007199254740993 1 = some 9007199254740992 := by decide +kernel
example : whole? 45035996273704975 10 = some 4503599627370498 := by decide +kernel
example : whole? 5 2 = none := by decide +kernel
example : whole? 1 (Nat.pow 10 400) = some 0 := by decide +kernel

end Tenancy.Binary64
