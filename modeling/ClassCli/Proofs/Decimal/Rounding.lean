import ClassCli.Decimal.Binary64
import Mathlib.Algebra.Order.Field.Power
import Mathlib.Algebra.Order.Floor.Semifield
import Mathlib.Data.Int.Log
import Mathlib.Data.Rat.Floor
import Mathlib.Tactic.FieldSimp
import Mathlib.Tactic.Linarith
import Mathlib.Tactic.Positivity

/-!
# Rounding to the nearest word

A fraction is rounded by shifting its numerator and its denominator until the quotient counts units of the last
place. What comes out depends on the quotient only: it is a function of a rational number, and near the value of
a finite word this function gives the word.

* **`nearestEven`**, **`roundedMagnitude_eq`** — rounding as a function of the quotient.
* **`rounded_of_near`** — whatever is near the value of a finite word is rounded to the word.
* **`rounded_huge`**, **`rounded_tiny`** — far beyond the range of the format.
-/

namespace ClassCli.Decimal.Binary64

/-! ## Powers -/

/-- A power is a quotient of two powers whose exponents are not negative. -/
theorem zpow_eq_div (base : ℚ) (e : ℤ) : base ^ e = base ^ e.toNat / base ^ (-e).toNat := by
  rcases le_total 0 e with he | he
  · have hneg : (-e).toNat = 0 := by omega
    have hpos : ((e.toNat : ℕ) : ℤ) = e := by omega
    rw [hneg, pow_zero, div_one, ← zpow_natCast, hpos]
  · have hzero : e.toNat = 0 := by omega
    have hneg : (((-e).toNat : ℕ) : ℤ) = -e := by omega
    rw [hzero, pow_zero, one_div, ← zpow_natCast, hneg, zpow_neg, inv_inv]

/-- Comparing numbers that are scaled by a power is comparing their quotient with the power. -/
theorem scaled_le_iff {base : ℕ} (hbase : 0 < base) (num : ℕ) {den : ℕ} (hden : 0 < den) (e : ℤ) :
    den * base ^ e.toNat ≤ num * base ^ (-e).toNat ↔ (base : ℚ) ^ e ≤ num / den := by
  have hdenpos : (0 : ℚ) < den := Nat.cast_pos.mpr hden
  have hbasepos : (0 : ℚ) < base := Nat.cast_pos.mpr hbase
  rw [zpow_eq_div, div_le_div_iff₀ (by positivity) hdenpos, mul_comm den, ← Nat.cast_le (α := ℚ)]
  push_cast
  rfl

/-- The quotient of numbers that are scaled by a power. -/
theorem scaled_div (base num den : ℕ) (e : ℤ) :
    ((num * base ^ (-e).toNat : ℕ) : ℚ) / ((den * base ^ e.toNat : ℕ) : ℚ) = num / den / base ^ e := by
  rw [zpow_eq_div]
  push_cast
  field_simp

/-! ## The integer nearest to a quotient -/

/-- The integer nearest to a number that is not negative, a tie going to the even one. -/
def nearestEven (q : ℚ) : ℕ :=
  if q - ⌊q⌋₊ < 1 / 2 then ⌊q⌋₊
  else if 1 / 2 < q - ⌊q⌋₊ then ⌊q⌋₊ + 1
  else ⌊q⌋₊ + ⌊q⌋₊ % 2

theorem roundHalfEven_eq (num : ℕ) {den : ℕ} (hden : 0 < den) :
    roundHalfEven num den = nearestEven (num / den) := by
  have hdenpos : (0 : ℚ) < den := Nat.cast_pos.mpr hden
  have hfloor : ⌊(num : ℚ) / den⌋₊ = num / den := Nat.floor_div_eq_div ..
  have hrest : (num : ℚ) / den - ((num / den : ℕ) : ℚ) = ((num % den : ℕ) : ℚ) / den := by
    have hsum : (den : ℚ) * ((num / den : ℕ) : ℚ) + ((num % den : ℕ) : ℚ) = num := by
      exact_mod_cast Nat.div_add_mod num den
    field_simp
    linarith
  have hlow : 2 * (num % den) < den ↔ ((num % den : ℕ) : ℚ) / den < 1 / 2 := by
    rw [div_lt_div_iff₀ hdenpos two_pos, ← Nat.cast_lt (α := ℚ)]
    push_cast
    constructor <;> intro h <;> linarith
  have hhigh : den < 2 * (num % den) ↔ 1 / 2 < ((num % den : ℕ) : ℚ) / den := by
    rw [div_lt_div_iff₀ two_pos hdenpos, ← Nat.cast_lt (α := ℚ)]
    push_cast
    constructor <;> intro h <;> linarith
  unfold roundHalfEven nearestEven
  simp only [hfloor, hrest, hlow, hhigh]

/-- A number that is less than one half away from an integer is rounded to it. -/
theorem nearestEven_eq {q : ℚ} {n : ℕ} (hq : 0 ≤ q) (h : |q - n| < 1 / 2) : nearestEven q = n := by
  obtain ⟨hlow, hhigh⟩ := abs_lt.mp h
  rcases le_or_gt (n : ℚ) q with hn | hn
  · have hfloor : ⌊q⌋₊ = n := (Nat.floor_eq_iff hq).mpr ⟨hn, by linarith⟩
    rw [nearestEven, hfloor, if_pos hhigh]
  · have hpos : n ≠ 0 := by
      rintro rfl
      exact absurd hq (not_le.mpr (by simpa using hn))
    obtain ⟨k, rfl⟩ := Nat.exists_eq_succ_of_ne_zero hpos
    push_cast at hlow hn
    have hfloor : ⌊q⌋₊ = k := (Nat.floor_eq_iff hq).mpr ⟨by linarith, hn⟩
    rw [nearestEven, hfloor, if_neg (by linarith), if_pos (by linarith)]

/-! ## The word nearest to a quotient -/

/-- The exponent of the last place of a number. -/
def lastPlace (q : ℚ) : ℤ := max (Int.log 2 q - 52) (-1074)

/-- The word of the number nearest to a positive one. -/
def rounded (q : ℚ) : ℕ :=
  min ((lastPlace q + 1074).toNat * leadingBit + nearestEven (q / 2 ^ lastPlace q)) infinityWord

/-- The exponent of the leading bit, by the powers of two around a number. -/
theorem log_eq {q : ℚ} {e : ℤ} (hlow : (2 : ℚ) ^ e ≤ q) (hhigh : q < 2 ^ (e + 1)) : Int.log 2 q = e := by
  have hpos : 0 < q := lt_of_lt_of_le (by positivity) hlow
  have hle : e ≤ Int.log 2 q := (Int.zpow_le_iff_le_log (by decide) hpos).mp (by exact_mod_cast hlow)
  have hlt : Int.log 2 q < e + 1 := (Int.lt_zpow_iff_log_lt (by decide) hpos).mp (by exact_mod_cast hhigh)
  omega

/-- The difference of the binary lengths misses the exponent of the leading bit by at most one. -/
theorem between_logs {num den : ℕ} (hnum : 0 < num) (hden : 0 < den) :
    (2 : ℚ) ^ ((num.log2 : ℤ) - den.log2 - 1) ≤ num / den
      ∧ (num : ℚ) / den < 2 ^ ((num.log2 : ℤ) - den.log2 + 1) := by
  have hdenpos : (0 : ℚ) < den := Nat.cast_pos.mpr hden
  have hlownum : (2 : ℚ) ^ num.log2 ≤ num := by exact_mod_cast Nat.log2_self_le hnum.ne'
  have hlowden : (2 : ℚ) ^ den.log2 ≤ den := by exact_mod_cast Nat.log2_self_le hden.ne'
  have hhighnum : (num : ℚ) < 2 ^ (num.log2 + 1) := by exact_mod_cast Nat.lt_log2_self
  have hhighden : (den : ℚ) < 2 ^ (den.log2 + 1) := by exact_mod_cast Nat.lt_log2_self
  have hlow : (2 : ℚ) ^ ((num.log2 : ℤ) - den.log2 - 1) = 2 ^ num.log2 / 2 ^ (den.log2 + 1) := by
    rw [show (num.log2 : ℤ) - den.log2 - 1 = num.log2 - (den.log2 + 1 : ℕ) by push_cast; ring,
      zpow_sub₀ two_ne_zero, zpow_natCast, zpow_natCast]
  have hhigh : (2 : ℚ) ^ ((num.log2 : ℤ) - den.log2 + 1) = 2 ^ (num.log2 + 1) / 2 ^ den.log2 := by
    rw [show (num.log2 : ℤ) - den.log2 + 1 = (num.log2 + 1 : ℕ) - den.log2 by push_cast; ring,
      zpow_sub₀ two_ne_zero, zpow_natCast, zpow_natCast]
  constructor
  · rw [hlow]
    exact div_le_div₀ (Nat.cast_nonneg num) hlownum hdenpos hhighden.le
  · rw [hhigh]
    exact div_lt_div₀ hhighnum hlowden (by positivity) (by positivity)

/-- **Rounding depends on the quotient only.** -/
theorem roundedMagnitude_eq {num den : ℕ} (hnum : 0 < num) (hden : 0 < den) :
    roundedMagnitude num den = rounded (num / den) := by
  obtain ⟨hlow, hhigh⟩ := between_logs hnum hden
  have hshift : ∀ e : ℤ, den <<< e.toNat ≤ num <<< (-e).toNat ↔ (2 : ℚ) ^ e ≤ num / den := by
    intro e
    rw [Nat.shiftLeft_eq, Nat.shiftLeft_eq]
    exact_mod_cast scaled_le_iff two_pos num hden e
  have hlead : (if den <<< ((num.log2 : ℤ) - den.log2).toNat ≤ num <<< (-((num.log2 : ℤ) - den.log2)).toNat
      then (num.log2 : ℤ) - den.log2 else (num.log2 : ℤ) - den.log2 - 1) = Int.log 2 ((num : ℚ) / den) := by
    split
    · rename_i h
      exact (log_eq ((hshift _).mp h) hhigh).symm
    · rename_i h
      have hbelow := not_le.mp (mt (hshift _).mpr h)
      exact (log_eq hlow (by rwa [sub_add_cancel])).symm
  have hscaled : 0 < den * 2 ^ (lastPlace ((num : ℚ) / den)).toNat := by positivity
  unfold roundedMagnitude rounded
  rw [if_neg hnum.ne']
  dsimp only
  rw [hlead, ← lastPlace, Nat.shiftLeft_eq, Nat.shiftLeft_eq, roundHalfEven_eq _ hscaled, scaled_div, Nat.cast_ofNat]

/-! ## Fields of a word -/

/-- The absolute value of a finite word. -/
def value (x : Binary64) : ℚ := x.significand * 2 ^ x.power

theorem leadingBit_eq : leadingBit = 2 ^ 52 := rfl

theorem significand_lt (x : Binary64) : x.significand < 2 ^ 53 := by
  have hrest : x.magnitude % leadingBit < leadingBit := Nat.mod_lt _ (by decide)
  have hleading := leadingBit_eq
  rw [significand]
  split
  · omega
  · omega

theorem power_ge (x : Binary64) : -1074 ≤ x.power := by
  rw [power]
  split
  · exact le_rfl
  · rename_i h
    have hfield : 1 ≤ x.magnitude / leadingBit := (Nat.one_le_div_iff (by decide)).mpr (not_lt.mp h)
    omega

/-- All but the smallest words have fifty-three bits. -/
theorem significand_ge {x : Binary64} (h : -1074 < x.power) : 2 ^ 52 ≤ x.significand := by
  rw [power] at h
  rw [significand]
  split
  · rename_i hsmall
    rw [if_pos hsmall] at h
    exact absurd h (lt_irrefl _)
  · exact Nat.le_add_right _ _

/-- A word is put together from its power and its significand. -/
theorem magnitude_eq (x : Binary64) : (x.power + 1074).toNat * leadingBit + x.significand = x.magnitude := by
  rw [power, significand]
  split
  · simp
  · rename_i h
    have hfield : 1 ≤ x.magnitude / leadingBit := (Nat.one_le_div_iff (by decide)).mpr (not_lt.mp h)
    have hplace : (((x.magnitude / leadingBit : ℕ) : ℤ) - 1075 + 1074).toNat = x.magnitude / leadingBit - 1 := by omega
    have hword := Nat.div_add_mod' x.magnitude leadingBit
    rw [hplace, ← add_assoc, ← Nat.succ_mul, Nat.succ_eq_add_one, Nat.sub_add_cancel hfield]
    exact hword

/-! ## Near a word -/

/-- The last place of a number whose leading bit is known, at some power of two. -/
theorem lastPlace_mul {r : ℚ} {e : ℤ} (hlow : (2 : ℚ) ^ e ≤ r) (hhigh : r < 2 ^ (e + 1)) (p : ℤ) :
    lastPlace (r * 2 ^ p) = max (e + p - 52) (-1074) := by
  have hpos : (0 : ℚ) < 2 ^ p := by positivity
  have hlog : Int.log 2 (r * 2 ^ p) = e + p := by
    apply log_eq
    · rw [zpow_add₀ two_ne_zero]
      exact mul_le_mul_of_nonneg_right hlow hpos.le
    · rw [add_right_comm, zpow_add₀ two_ne_zero]
      exact mul_lt_mul_of_pos_right hhigh hpos
  rw [lastPlace, hlog]

/-- The smallest numbers have one last place. -/
theorem lastPlace_small {q : ℚ} (hpos : 0 < q) (h : q < 2 ^ (-1022 : ℤ)) : lastPlace q = -1074 := by
  have hlog : Int.log 2 q < -1022 := (Int.lt_zpow_iff_log_lt (by decide) hpos).mp (by exact_mod_cast h)
  rw [lastPlace]
  omega

/-- What is rounded, if the units of the last place are known but for less than one half. -/
theorem rounded_eq {q : ℚ} {p : ℤ} {n : ℕ} (hq : 0 ≤ q) (hplace : lastPlace q = p) (h : |q / 2 ^ p - n| < 1 / 2) :
    rounded q = min ((p + 1074).toNat * leadingBit + n) infinityWord := by
  have hnearest : nearestEven (q / 2 ^ p) = n := nearestEven_eq (by positivity) h
  rw [rounded, hplace, hnearest]

/-- The last place of a number near the value of a word. It is that of the word, unless the leading bit of the word
stands alone and the number lies below it. -/
theorem lastPlace_near {x : Binary64} {r : ℚ} (h : |r - x.significand| < x.significand / 2 ^ 54) :
    lastPlace (r * 2 ^ x.power) = x.power
      ∨ (lastPlace (r * 2 ^ x.power) = x.power - 1 ∧ x.significand = 2 ^ 52 ∧ -1074 < x.power) := by
  obtain ⟨hlow, hhigh⟩ := abs_lt.mp h
  have hpower := x.power_ge
  have hnonneg : (0 : ℚ) ≤ x.significand := Nat.cast_nonneg _
  have hsignificand : (x.significand : ℚ) + 1 ≤ 2 ^ 53 := by exact_mod_cast x.significand_lt
  have hbelow : r < 2 ^ 53 := by linarith
  rcases le_or_gt ((2 : ℚ) ^ 52) r with hr | hr
  · left
    rw [lastPlace_mul (e := 52) hr (by exact_mod_cast hbelow)]
    omega
  have hpos : 0 < r := by linarith
  rcases hpower.eq_or_lt with hp | hp
  · left
    rw [← hp]
    apply lastPlace_small (by positivity)
    calc r * 2 ^ (-1074 : ℤ) < 2 ^ 52 * 2 ^ (-1074 : ℤ) := by gcongr
      _ = 2 ^ (-1022 : ℤ) := by rw [← zpow_natCast, ← zpow_add₀ two_ne_zero]; norm_num
  · right
    have hlarge : (2 : ℚ) ^ 52 ≤ x.significand := by exact_mod_cast significand_ge hp
    have halone : (x.significand : ℚ) < 2 ^ 52 + 1 := by linarith
    refine ⟨?_, ?_, hp⟩
    · have hhalf : (2 : ℚ) ^ 51 ≤ r := by linarith
      rw [lastPlace_mul (e := 51) (by exact_mod_cast hhalf) (by exact_mod_cast hr)]
      omega
    · have hupper : x.significand < 2 ^ 52 + 1 := by exact_mod_cast halone
      have hlower := significand_ge hp
      omega

/-- **Whatever is near the value of a finite word is rounded to the word.** The bound is a quarter of the last place
where the leading bit of the word stands alone, since below it the places are half as large. -/
theorem rounded_of_near {x : Binary64} (hx : x.isFinite = true) {q : ℚ} (h : |q - x.value| < x.value / 2 ^ 54) :
    rounded q = x.magnitude := by
  have hfinite : x.magnitude < infinityWord := by simpa [isFinite] using hx
  have hscale : (0 : ℚ) < 2 ^ x.power := by positivity
  -- everything is counted in units of the last place of the word
  obtain ⟨r, rfl⟩ : ∃ r : ℚ, q = r * 2 ^ x.power := ⟨q / 2 ^ x.power, (div_mul_cancel₀ q hscale.ne').symm⟩
  have hr : |r - x.significand| < x.significand / 2 ^ 54 := by
    have hdist : |r * 2 ^ x.power - x.value| = |r - x.significand| * 2 ^ x.power := by
      rw [value, ← sub_mul, abs_mul, abs_of_pos hscale]
    rw [hdist, value, mul_div_right_comm] at h
    exact lt_of_mul_lt_mul_right h hscale.le
  have hpos : 0 ≤ r := by
    have hnonneg : (0 : ℚ) ≤ x.significand := Nat.cast_nonneg _
    have hlow := (abs_lt.mp hr).1
    linarith
  have hbound : (x.significand : ℚ) / 2 ^ 54 < 1 / 2 := by
    have hsignificand : (x.significand : ℚ) < 2 ^ 53 := by exact_mod_cast x.significand_lt
    linarith
  rcases lastPlace_near hr with hplace | ⟨hplace, halone, hp⟩
  · rw [rounded_eq (by positivity) hplace (n := x.significand), x.magnitude_eq, min_eq_left hfinite.le]
    rw [mul_div_cancel_right₀ _ hscale.ne']
    exact hr.trans hbound
  · have hstep : (2 : ℚ) ^ x.power = 2 * 2 ^ (x.power - 1) := by
      rw [← zpow_one_add₀ two_ne_zero, add_sub_cancel]
    have hunits : r * 2 ^ x.power / 2 ^ (x.power - 1) - ((2 ^ 53 : ℕ) : ℚ) = 2 * (r - x.significand) := by
      rw [hstep, halone]
      push_cast
      field_simp
      ring
    have hplaces : (x.power + 1074).toNat = (x.power - 1 + 1074).toNat + 1 := by omega
    have hcarry : leadingBit + 2 ^ 52 = 2 ^ 53 := rfl
    have hword : (x.power - 1 + 1074).toNat * leadingBit + 2 ^ 53 = x.magnitude := by
      rw [← x.magnitude_eq, halone, hplaces, Nat.succ_mul, add_assoc, hcarry]
    rw [rounded_eq (by positivity) hplace (n := 2 ^ 53), hword, min_eq_left hfinite.le]
    rw [hunits, abs_mul, abs_of_pos two_pos]
    rw [halone] at hr ⊢
    push_cast at hr ⊢
    linarith

/-! ## Beyond the range -/

theorem rounded_le (q : ℚ) : rounded q ≤ infinityWord := min_le_right _ _

/-- A number far beyond the greatest one is rounded to infinity. -/
theorem rounded_huge {q : ℚ} (h : (2 : ℚ) ^ (1100 : ℤ) ≤ q) : rounded q = infinityWord := by
  have hpos : 0 < q := lt_of_lt_of_le (by positivity) h
  have hlog : 1100 ≤ Int.log 2 q := (Int.zpow_le_iff_le_log (by decide) hpos).mp (by exact_mod_cast h)
  have hplace : 2047 ≤ (lastPlace q + 1074).toNat := by
    rw [lastPlace]
    omega
  have hinfinity : infinityWord = 2047 * leadingBit := rfl
  rw [rounded, min_eq_right]
  exact hinfinity.trans_le ((Nat.mul_le_mul_right _ hplace).trans (Nat.le_add_right _ _))

/-- A number below half of the smallest one is rounded to zero. -/
theorem rounded_tiny {q : ℚ} (hpos : 0 < q) (h : q < 2 ^ (-1075 : ℤ)) : rounded q = 0 := by
  have hplace : lastPlace q = -1074 :=
    lastPlace_small hpos (h.trans (zpow_lt_zpow_right₀ one_lt_two (by decide)))
  have hunits : |q / 2 ^ (-1074 : ℤ) - ((0 : ℕ) : ℚ)| < 1 / 2 := by
    have hhalf : (1 / 2 : ℚ) * 2 ^ (-1074 : ℤ) = 2 ^ (-1075 : ℤ) := by
      rw [one_div, ← zpow_neg_one, ← zpow_add₀ two_ne_zero]
      rfl
    rw [Nat.cast_zero, sub_zero, abs_of_pos (by positivity), div_lt_iff₀ (by positivity), hhalf]
    exact h
  rw [rounded_eq hpos.le hplace hunits]
  rfl

/-! ## Decimals -/

/-- The number nearest to a decimal, by the value of the decimal. -/
theorem ofDecimal_eq (negative : Bool) {n : ℕ} (hn : 0 < n) (e : ℤ) :
    ofDecimal negative n e = ofMagnitude negative (rounded (n * 10 ^ e)) := by
  have hquotient : ((n * Nat.pow 10 e.toNat : ℕ) : ℚ) / (Nat.pow 10 (-e).toNat : ℕ) = n * 10 ^ e := by
    rw [zpow_eq_div, Nat.pow_eq, Nat.pow_eq]
    push_cast
    rw [mul_div_assoc]
  have hden : ∀ k, 0 < Nat.pow 10 k := fun k => Nat.pow_pos (by decide)
  rw [ofDecimal, ofRatio, roundedMagnitude_eq (Nat.mul_pos hn (hden _)) (hden _), hquotient]

theorem magnitude_ofMagnitude {negative : Bool} {magnitude : Nat} (h : magnitude < signWord) :
    (ofMagnitude negative magnitude).magnitude = magnitude := by
  have hsign : signWord = 0x8000000000000000 := rfl
  rw [Binary64.magnitude, ofMagnitude]
  cases negative with
  | false =>
    have hword : (UInt64.ofNat magnitude).toNat = magnitude :=
      UInt64.toNat_ofNat_of_lt' (by rw [UInt64.size]; omega)
    simp only [Bool.false_eq_true, if_false, Nat.zero_add]
    rw [hword, Nat.mod_eq_of_lt h]
  | true =>
    have hword : (UInt64.ofNat (signWord + magnitude)).toNat = signWord + magnitude :=
      UInt64.toNat_ofNat_of_lt' (by rw [UInt64.size]; omega)
    simp only [if_true]
    rw [hword, Nat.add_mod_left, Nat.mod_eq_of_lt h]

theorem magnitude_ofDecimal (negative : Bool) {n : ℕ} (hn : 0 < n) (e : ℤ) :
    (ofDecimal negative n e).magnitude = rounded (n * 10 ^ e) := by
  have hsign : infinityWord < signWord := by decide
  rw [ofDecimal_eq negative hn, magnitude_ofMagnitude ((rounded_le _).trans_lt hsign)]

end ClassCli.Decimal.Binary64
