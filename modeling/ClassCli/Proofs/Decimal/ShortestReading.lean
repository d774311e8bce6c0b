import ClassCli.Decimal.Shortest
import ClassCli.Proofs.Decimal.Rounding

/-!
# Decimals that read back

A number is written with the fewest digits that are rounded to it again. Seventeen digits always are: on their grid
the nearest decimal lies so near to the number that it is rounded to its word. So a shortest decimal is always found.

* **`Shortest.exists_candidate`** — seventeen digits suffice.
* **`Shortest.rounded_decimal`** — the shortest decimal is rounded to the number that it is for.
-/

namespace ClassCli.Decimal

open Binary64 (rounded value)

namespace Binary64

/-! ## The value of a word -/

theorem significand_pos {x : Binary64} (h : x.magnitude ≠ 0) : 0 < x.significand := by
  rw [significand]
  split
  · exact Nat.pos_of_ne_zero h
  · exact Nat.add_pos_left (by decide) _

/-- The numerator and the denominator of a word. -/
theorem ratio_eq (x : Binary64) : x.ratio = (x.significand * 2 ^ x.power.toNat, 2 ^ (-x.power).toNat) := by
  rw [ratio]
  split
  · rename_i e he
    have hneg : (-(e : ℤ)).toNat = 0 := by omega
    rw [he, Nat.shiftLeft_eq, Int.ofNat_eq_natCast, Int.toNat_natCast, hneg, pow_zero]
  · rename_i e he
    have hneg : (-Int.negSucc e).toNat = e + 1 := by omega
    rw [he, Nat.one_shiftLeft, hneg, Int.toNat_negSucc, pow_zero, mul_one]

theorem ratio_pos {x : Binary64} (h : x.magnitude ≠ 0) : 0 < x.ratio.1 ∧ 0 < x.ratio.2 := by
  have hsignificand := significand_pos h
  rw [ratio_eq]
  constructor <;> positivity

theorem ratio_div (x : Binary64) : (x.ratio.1 : ℚ) / x.ratio.2 = x.value := by
  rw [ratio_eq, value, zpow_eq_div]
  push_cast
  rw [mul_div_assoc]

end Binary64

/-! ## The shortest decimal -/

namespace Shortest

/-- The value of a decimal. -/
def Scaled.value (d : Scaled) : ℚ := d.digits * 10 ^ d.exponent

variable {x : Binary64} {d : Scaled}

theorem length_digitsOf {n : ℕ} (hn : 0 < n) : 10 ^ ((digitsOf n).length - 1) ≤ n ∧ n < 10 ^ (digitsOf n).length := by
  have hpos : 0 < (digitsOf n).length := Nat.length_toDigits_pos
  constructor
  · by_contra h
    rcases Nat.eq_zero_or_pos ((digitsOf n).length - 1) with hzero | hshorter
    · rw [hzero] at h
      omega
    · have hle := (Nat.length_toDigits_le_iff (by decide) hshorter).mpr (not_le.mp h)
      rw [digitsOf] at hle hpos
      omega
  · exact (Nat.length_toDigits_le_iff (by decide) hpos).mp le_rfl

/-- The power of ten of the leading digit of a quotient. -/
theorem leadingPower_spec {num den : ℕ} (hnum : 0 < num) (hden : 0 < den) :
    (10 : ℚ) ^ leadingPower num den ≤ num / den ∧ (num : ℚ) / den < 10 ^ (leadingPower num den + 1) := by
  have hdenpos : (0 : ℚ) < den := Nat.cast_pos.mpr hden
  obtain ⟨hlownum, hhighnum⟩ := length_digitsOf hnum
  obtain ⟨hlowden, hhighden⟩ := length_digitsOf hden
  have hlennum : 0 < (digitsOf num).length := Nat.length_toDigits_pos
  have hlenden : 0 < (digitsOf den).length := Nat.length_toDigits_pos
  have hscaled : ∀ e : ℤ, den * Nat.pow 10 e.toNat ≤ num * Nat.pow 10 (-e).toNat ↔ (10 : ℚ) ^ e ≤ num / den := by
    intro e
    exact_mod_cast Binary64.scaled_le_iff (by decide : 0 < 10) num hden e
  have hlow : (10 : ℚ) ^ (((digitsOf num).length : ℤ) - (digitsOf den).length - 1) ≤ num / den := by
    have hpow : (10 : ℚ) ^ (((digitsOf num).length : ℤ) - (digitsOf den).length - 1)
        = 10 ^ ((digitsOf num).length - 1) / 10 ^ (digitsOf den).length := by
      rw [← zpow_natCast, ← zpow_natCast, ← zpow_sub₀ (by norm_num)]
      congr 1
      omega
    rw [hpow]
    exact div_le_div₀ (Nat.cast_nonneg num) (by exact_mod_cast hlownum) hdenpos (by exact_mod_cast hhighden.le)
  have hhigh : (num : ℚ) / den < 10 ^ (((digitsOf num).length : ℤ) - (digitsOf den).length + 1) := by
    have hpow : (10 : ℚ) ^ (((digitsOf num).length : ℤ) - (digitsOf den).length + 1)
        = 10 ^ (digitsOf num).length / 10 ^ ((digitsOf den).length - 1) := by
      rw [← zpow_natCast, ← zpow_natCast, ← zpow_sub₀ (by norm_num)]
      congr 1
      omega
    rw [hpow]
    exact div_lt_div₀ (by exact_mod_cast hhighnum) (by exact_mod_cast hlowden) (by positivity) (by positivity)
  rw [leadingPower]
  split
  · rename_i h
    exact ⟨(hscaled _).mp h, hhigh⟩
  · rename_i h
    exact ⟨hlow, by rw [sub_add_cancel]; exact not_le.mp (mt (hscaled _).mpr h)⟩

/-! ## Decimals that are rounded to a number -/

theorem reads_iff (hd : 0 < d.digits) : reads x d = true ↔ rounded d.value = x.magnitude := by
  rw [reads, Binary64.magnitude_ofDecimal _ hd, beq_iff_eq]
  rfl

/-- The digits of a decimal that is rounded to a number other than zero are not all zero. -/
theorem digits_pos_of_reads (hx : x.magnitude ≠ 0) (h : reads x d = true) : 0 < d.digits := by
  by_contra hzero
  obtain hzero : d.digits = 0 := by omega
  rw [reads, hzero, beq_iff_eq, Binary64.ofDecimal, Nat.zero_mul, Binary64.ofRatio, Binary64.roundedMagnitude,
    if_pos rfl] at h
  exact hx h.symm

/-- **A decimal near a number is rounded to it.** -/
theorem reads_of_near (hx : x.isFinite = true) (hd : 0 < d.digits) (h : |d.value - x.value| < x.value / 2 ^ 54) :
    reads x d = true :=
  (reads_iff hd).mpr (Binary64.rounded_of_near hx h)

theorem reads_of_candidate {count : ℕ} (h : candidate x count = some d) : reads x d = true := by
  unfold candidate at h
  dsimp only at h
  split at h
  · rename_i hlower hupper
    obtain rfl := Option.some.inj h
    split
    · exact hupper
    · exact hlower
  · rename_i hlower _
    obtain rfl := Option.some.inj h
    exact hlower
  · rename_i _ hupper
    obtain rfl := Option.some.inj h
    exact hupper
  · cases h

/-- The neighbour below a number on a decimal grid. -/
theorem below_eq (num den : ℕ) (e : ℤ) : below num den e = ⌊(num : ℚ) / den / 10 ^ e⌋₊ := by
  rw [below, Nat.pow_eq, Nat.pow_eq, ← Nat.floor_div_eq_div (K := ℚ), Binary64.scaled_div]
  rfl

/-- **Seventeen digits suffice.** -/
theorem exists_candidate (hx : x.isFinite = true) (hzero : x.magnitude ≠ 0) : ∃ d, candidate x 17 = some d := by
  obtain ⟨hnum, hden⟩ := Binary64.ratio_pos hzero
  obtain ⟨hlead, -⟩ := leadingPower_spec hnum hden
  rw [Binary64.ratio_div] at hlead
  -- the grid of seventeen digits
  obtain ⟨e, he⟩ : ∃ e, e = leadingPower x.ratio.1 x.ratio.2 - ((17 - 1 : ℕ) : ℤ) := ⟨_, rfl⟩
  have hstep : (0 : ℚ) < 10 ^ e := by positivity
  have hlarge : 10 ^ 16 * (10 : ℚ) ^ e ≤ x.value := by
    rw [← zpow_natCast, ← zpow_add₀ (by norm_num), he]
    convert hlead using 2
    push_cast
    ring
  obtain ⟨r, hr⟩ : ∃ r, r = x.value / 10 ^ e := ⟨_, rfl⟩
  have hvalue : x.value = r * 10 ^ e := by rw [hr, div_mul_cancel₀ _ hstep.ne']
  have hrlarge : 10 ^ 16 ≤ r := by
    rw [hvalue] at hlarge
    exact le_of_mul_le_mul_right hlarge hstep
  have hlow : below x.ratio.1 x.ratio.2 e = ⌊r⌋₊ := by rw [below_eq, Binary64.ratio_div, hr]
  have hfloor : (⌊r⌋₊ : ℚ) ≤ r := Nat.floor_le (by linarith)
  have hceil : r < ⌊r⌋₊ + 1 := Nat.lt_floor_add_one r
  have hpos : 0 < ⌊r⌋₊ := Nat.floor_pos.mpr (by linarith)
  have hnear : ∀ n : ℕ, 0 < n → |(n : ℚ) - r| ≤ 1 / 2 → reads x ⟨n, e⟩ = true := by
    intro n hn hdist
    apply reads_of_near hx hn
    rw [Scaled.value, hvalue, ← sub_mul, abs_mul, abs_of_pos hstep, mul_div_right_comm]
    exact mul_lt_mul_of_pos_right (by linarith) hstep
  -- one of the two neighbours is at most half a step away
  have hone : reads x ⟨⌊r⌋₊, e⟩ = true ∨ reads x ⟨⌊r⌋₊ + 1, e⟩ = true := by
    rcases le_or_gt (r - ⌊r⌋₊) (1 / 2) with h | h
    · left
      apply hnear _ hpos
      rw [abs_le]
      constructor <;> linarith
    · right
      apply hnear _ (Nat.succ_pos _)
      rw [abs_le]
      push_cast
      constructor <;> linarith
  rw [candidate]
  dsimp only
  rw [← he, hlow]
  rcases hone with h | h
  · rw [h]
    cases reads x ⟨⌊r⌋₊ + 1, e⟩ with
    | true => exact ⟨_, rfl⟩
    | false => exact ⟨_, rfl⟩
  · rw [h]
    cases reads x ⟨⌊r⌋₊, e⟩ with
    | true => exact ⟨_, rfl⟩
    | false => exact ⟨_, rfl⟩

/-- Moving zeros into the exponent does not change the value. -/
theorem value_strip (fuel : ℕ) (d : Scaled) : (strip fuel d).value = d.value := by
  induction fuel generalizing d with
  | zero => rfl
  | succ fuel ih =>
    rw [strip]
    split
    · rename_i h
      have hdigits : 10 * (d.digits / 10) = d.digits := Nat.mul_div_cancel' (Nat.dvd_of_mod_eq_zero h.2)
      have hcast : ((d.digits / 10 : ℕ) : ℚ) * 10 = d.digits := by
        rw [mul_comm]
        exact_mod_cast hdigits
      rw [ih, Scaled.value, Scaled.value, zpow_add_one₀ (by norm_num), mul_comm _ (10 : ℚ), ← mul_assoc, hcast]
    · rfl

theorem digits_strip_pos (fuel : ℕ) {d : Scaled} (h : 0 < d.digits) : 0 < (strip fuel d).digits := by
  induction fuel generalizing d with
  | zero => exact h
  | succ fuel ih =>
    rw [strip]
    split
    · rename_i hten
      apply ih
      show 0 < d.digits / 10
      omega
    · exact h

/-- **The shortest decimal is rounded to the number that it is for.** -/
theorem rounded_decimal (hx : x.isFinite = true) (hzero : x.magnitude ≠ 0) :
    0 < (decimal x).digits ∧ rounded (decimal x).value = x.magnitude := by
  obtain ⟨last, hlast⟩ := exists_candidate hx hzero
  have hsome : (((List.range 17).map (· + 1)).findSome? (candidate x)).isSome := by
    rw [List.findSome?_isSome_iff]
    exact ⟨17, by decide, by rw [hlast]; rfl⟩
  obtain ⟨found, hfound⟩ := Option.isSome_iff_exists.mp hsome
  obtain ⟨count, -, hcount⟩ := List.exists_of_findSome?_eq_some hfound
  have hreads := reads_of_candidate hcount
  have hdigits := digits_pos_of_reads hzero hreads
  rw [decimal, hfound]
  exact ⟨digits_strip_pos 17 hdigits, by rw [value_strip]; exact (reads_iff hdigits).mp hreads⟩

end Shortest

end ClassCli.Decimal
