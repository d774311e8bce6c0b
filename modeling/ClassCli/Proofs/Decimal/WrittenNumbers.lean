import ClassCli.Decimal.Reading
import ClassCli.Literal
import ClassCli.Proofs.Decimal.ShortestReading

/-!
# Written numbers

A decimal is written as digits, perhaps with a point and more digits, perhaps with an exponent. Reading it rounds its
value, and wherever a layout puts the point of a shortest decimal, its value stays the same: what is written for a
finite number is read as the number.

* **`WrittenDecimal`** — the parts of a decimal as it is written.
* **`DecimalText.value_eq`** — reading a decimal is rounding its value.
* **`exists_written`** — what is written for a finite number is read as the number, sign aside.
-/

namespace ClassCli.Decimal

open Binary64 (ofMagnitude rounded)
open Shortest (digitsOf)
open Text (cut)

/-! ## Digits -/

/-- The number that decimal digits spell. -/
def spelled (digits : List Char) : ℕ := Nat.ofDigitChars 10 digits 0

/-- Every character is a decimal digit. -/
def AreDigits (s : List Char) : Prop := ∀ c ∈ s, c.isDigit = true

theorem AreDigits.append {s t : List Char} (hs : AreDigits s) (ht : AreDigits t) : AreDigits (s ++ t) := by
  intro c hc
  rcases List.mem_append.mp hc with hc | hc
  · exact hs c hc
  · exact ht c hc

theorem areDigits_digitsOf (n : ℕ) : AreDigits (digitsOf n) :=
  fun _ hc => Nat.isDigit_of_mem_toDigits (by decide) (by decide) hc

theorem areDigits_zeros (n : ℕ) : AreDigits (List.replicate n '0') := by
  intro c hc
  rw [List.eq_of_mem_replicate hc]
  rfl

theorem digitsOf_ne_nil (n : ℕ) : digitsOf n ≠ [] := Nat.toDigits_ne_nil

theorem spelled_digitsOf (n : ℕ) : spelled (digitsOf n) = n := Nat.ofDigitChars_ten_toDigits

theorem spelled_append (s t : List Char) : spelled (s ++ t) = 10 ^ t.length * spelled s + spelled t := by
  rw [spelled, Nat.ofDigitChars_append, Nat.ofDigitChars_eq_ofDigitChars_zero]
  rfl

theorem spelled_zeros (n : ℕ) : spelled (List.replicate n '0') = 0 := by
  rw [spelled, Nat.ofDigitChars_replicate_zero, Nat.mul_zero]

theorem digitValue_of_isDigit {c : Char} (h : c.isDigit = true) : digitValue c = c.toNat - 48 := by
  rw [digitValue, if_pos h]

theorem digitValue_lt {c : Char} (h : c.isDigit = true) : digitValue c < 10 := by
  have hrange : 48 ≤ c.toNat ∧ c.toNat ≤ 57 := Char.isDigit_iff_toNat.mp h
  rw [digitValue_of_isDigit h]
  omega

/-- Digits are summed up from the left. -/
theorem foldl_digits {s : List Char} (h : AreDigits s) (init : ℕ) :
    s.foldl (fun n c => n * 10 + digitValue c) init = Nat.ofDigitChars 10 s init := by
  induction s generalizing init with
  | nil => rfl
  | cons c rest ih =>
    have hrest : AreDigits rest := fun d hd => h d (List.mem_cons_of_mem c hd)
    rw [List.foldl_cons, ih hrest, Nat.ofDigitChars_cons, digitValue_of_isDigit (h c List.mem_cons_self), Nat.mul_comm]
    rfl

theorem spelled_lt {s : List Char} (h : AreDigits s) : spelled s < 10 ^ s.length := by
  induction s with
  | nil => decide
  | cons c rest ih =>
    have hrest := ih fun d hd => h d (List.mem_cons_of_mem c hd)
    have hdigit := digitValue_lt (h c List.mem_cons_self)
    have hfirst : spelled [c] = digitValue c := by
      rw [spelled, ← foldl_digits fun d hd => by rw [List.mem_singleton.mp hd]; exact h c List.mem_cons_self]
      simp
    rw [← List.singleton_append, spelled_append, hfirst, List.singleton_append, List.length_cons, Nat.pow_succ]
    calc 10 ^ rest.length * digitValue c + spelled rest < 10 ^ rest.length * digitValue c + 10 ^ rest.length := by omega
      _ = 10 ^ rest.length * (digitValue c + 1) := by rw [Nat.mul_succ]
      _ ≤ 10 ^ rest.length * 10 := Nat.mul_le_mul_left _ hdigit

/-- Digits spell a number in base ten. -/
theorem spelledNat?_digits {s : List Char} (hne : s ≠ []) (h : AreDigits s) : spelledNat? 10 s = some (spelled s) := by
  have hbelow : (s.isEmpty || s.any fun c => decide (10 ≤ digitValue c)) = false := by
    rw [Bool.or_eq_false_iff, List.isEmpty_eq_false_iff, List.any_eq_false]
    refine ⟨hne, ?_⟩
    intro c hc
    rw [decide_eq_true_iff, Nat.not_le]
    exact digitValue_lt (h c hc)
  rw [spelledNat?, hbelow, foldl_digits h]
  rfl

/-! ## Reading a decimal -/

/-- Three binary digits are less than a decimal one. -/
theorem two_zpow_le_ten_zpow : (2 : ℚ) ^ (1200 : ℤ) ≤ 10 ^ (400 : ℤ) := by
  have hcube : (2 : ℚ) ^ (1200 : ℤ) = (2 ^ (3 : ℤ)) ^ (400 : ℤ) := by
    rw [← zpow_mul]
    rfl
  rw [hcube]
  exact zpow_le_zpow_left₀ (by norm_num) (by norm_num) (by decide)

/-- **Reading a decimal is rounding its value.** The values that are not worked out are far beyond the range. -/
theorem DecimalText.value_eq {d : DecimalText} (h : AreDigits d.digits) (hpos : 0 < spelled d.digits) :
    d.value = ofMagnitude false (rounded (spelled d.digits * 10 ^ d.exponent)) := by
  have hspelled : (0 : ℚ) < spelled d.digits := Nat.cast_pos.mpr hpos
  have hlow : (1 : ℚ) ≤ spelled d.digits := by exact_mod_cast hpos
  have hhigh : (spelled d.digits : ℚ) < 10 ^ (d.digits.length : ℤ) := by
    rw [zpow_natCast]
    exact_mod_cast spelled_lt h
  have hstep : (0 : ℚ) < 10 ^ d.exponent := by positivity
  rw [value, foldl_digits h, ← spelled, if_neg hpos.ne']
  split
  · have hhuge : (2 : ℚ) ^ (1100 : ℤ) ≤ spelled d.digits * 10 ^ d.exponent := by
      calc (2 : ℚ) ^ (1100 : ℤ) ≤ 2 ^ (1200 : ℤ) := zpow_le_zpow_right₀ one_le_two (by decide)
        _ ≤ 10 ^ (400 : ℤ) := two_zpow_le_ten_zpow
        _ ≤ 10 ^ d.exponent := zpow_le_zpow_right₀ (by norm_num) (by omega)
        _ ≤ spelled d.digits * 10 ^ d.exponent := le_mul_of_one_le_left hstep.le hlow
    rw [Binary64.rounded_huge hhuge]
    rfl
  split
  · have htiny : (spelled d.digits : ℚ) * 10 ^ d.exponent < 2 ^ (-1075 : ℤ) := by
      calc (spelled d.digits : ℚ) * 10 ^ d.exponent < 10 ^ (d.digits.length : ℤ) * 10 ^ d.exponent :=
            mul_lt_mul_of_pos_right hhigh hstep
        _ = 10 ^ ((d.digits.length : ℤ) + d.exponent) := (zpow_add₀ (by norm_num) _ _).symm
        _ ≤ 10 ^ (-400 : ℤ) := zpow_le_zpow_right₀ (by norm_num) (by omega)
        _ ≤ 2 ^ (-1200 : ℤ) := by
            rw [zpow_neg, zpow_neg]
            exact inv_anti₀ (by positivity) two_zpow_le_ten_zpow
        _ ≤ 2 ^ (-1075 : ℤ) := zpow_le_zpow_right₀ one_le_two (by decide)
    rw [Binary64.rounded_tiny (by positivity) htiny]
    rfl
  · exact Binary64.ofDecimal_eq false hpos d.exponent

/-! ## Decimals as they are written -/

/-- A decimal as it is written: digits, perhaps a point with digits behind it, perhaps an exponent. -/
structure WrittenDecimal where
  whole : List Char
  fraction : Option (List Char)
  power : Option ℤ
  whole_ne_nil : whole ≠ []
  areDigits : AreDigits (whole ++ fraction.getD [])

namespace WrittenDecimal

/-- The characters of an integer. -/
def signed (i : ℤ) : List Char := (if i < 0 then ['-'] else []) ++ digitsOf i.natAbs

/-- The characters of the decimal. -/
def chars (w : WrittenDecimal) : List Char :=
  w.whole ++ (w.fraction.elim [] ('.' :: ·)) ++ w.power.elim [] ('e' :: signed ·)

/-- Its digits, without the point. -/
def digits (w : WrittenDecimal) : List Char := w.whole ++ w.fraction.getD []

/-- The power of ten of its last digit. -/
def exponent (w : WrittenDecimal) : ℤ := w.power.getD 0 - (w.fraction.getD []).length

/-- Its value. -/
def value (w : WrittenDecimal) : ℚ := spelled w.digits * 10 ^ w.exponent

/-- The characters of a decimal: digits, the point, the letter and the sign. -/
theorem of_mem_chars {w : WrittenDecimal} {c : Char} (h : c ∈ w.chars) : c.isDigit = true ∨ c ∈ ['.', 'e', '-'] := by
  rw [chars, List.mem_append, List.mem_append] at h
  rcases h with (h | h) | h
  · exact Or.inl (w.areDigits c (List.mem_append_left _ h))
  · cases hfraction : w.fraction with
    | none =>
      rw [hfraction] at h
      cases h
    | some digits =>
      rw [hfraction, Option.elim_some, List.mem_cons] at h
      rcases h with rfl | h
      · exact Or.inr (by decide)
      · exact Or.inl (w.areDigits c (List.mem_append_right _ (by rwa [hfraction])))
  · cases hpower : w.power with
    | none =>
      rw [hpower] at h
      cases h
    | some i =>
      rw [hpower, Option.elim_some, List.mem_cons, signed, List.mem_append] at h
      rcases h with rfl | h | h
      · exact Or.inr (by decide)
      · split at h
        · rw [List.mem_singleton.mp h]
          exact Or.inr (by decide)
        · cases h
      · exact Or.inl (areDigits_digitsOf i.natAbs c h)

/-- The exponent behind the letter. -/
theorem exponentOf?_signed (i : ℤ) : exponentOf? (signed i) = some i := by
  have hread := spelledNat?_digits (digitsOf_ne_nil i.natAbs) (areDigits_digitsOf _)
  rw [spelled_digitsOf] at hread
  rw [signed]
  split
  · rw [List.singleton_append, exponentOf?, hread]
    show some (-((i.natAbs : ℕ) : ℤ)) = some i
    congr 1
    omega
  · rw [List.nil_append, exponentOf?, hread, Option.map_some]
    · congr 1
      show ((i.natAbs : ℕ) : ℤ) = i
      omega
    · intro digits h
      have hsign := areDigits_digitsOf i.natAbs '-' (by rw [h]; exact List.mem_cons_self)
      exact absurd hsign (by decide)
    · intro digits h
      have hsign := areDigits_digitsOf i.natAbs '+' (by rw [h]; exact List.mem_cons_self)
      exact absurd hsign (by decide)

/-- Cutting a text behind a front that has no place to cut. -/
theorem cut_append {test : Char → Bool} {front : List Char} (h : ∀ c ∈ front, test c = false) (back : List Char) :
    cut test (front ++ back) = (front ++ (cut test back).1, (cut test back).2) := by
  have hnot : ∀ c ∈ front, (!test c) = true := fun c hc => by rw [h c hc]; rfl
  rw [cut, cut, List.takeWhile_append_of_pos hnot, List.dropWhile_append_of_pos hnot]

/-- **A written decimal is read in its parts.** -/
theorem decimalText?_chars (w : WrittenDecimal) : decimalText? w.chars = some ⟨w.digits, w.exponent⟩ := by
  obtain ⟨whole, fraction, power, hne, hdigits⟩ := w
  have hwhole : AreDigits whole := fun c hc => hdigits c (List.mem_append_left _ hc)
  have hletter : ∀ c : Char, c.isDigit = true → (c == 'e' || c == 'E') = false := by
    intro c hc
    rw [Bool.or_eq_false_iff, beq_eq_false_iff_ne, beq_eq_false_iff_ne]
    constructor <;> rintro rfl <;> exact absurd hc (by decide)
  have hmark : ∀ c ∈ whole, (c == '.') = false := by
    intro c hc
    rw [beq_eq_false_iff_ne]
    rintro rfl
    exact absurd (hwhole _ hc) (by decide)
  have hmantissa : ∀ c ∈ whole ++ fraction.elim [] ('.' :: ·), (c == 'e' || c == 'E') = false := by
    intro c hc
    rcases List.mem_append.mp hc with hc | hc
    · exact hletter c (hwhole c hc)
    · cases fraction with
      | none => cases hc
      | some digits =>
        rcases List.mem_cons.mp hc with rfl | hc
        · rfl
        · exact hletter c (hdigits c (List.mem_append_right _ hc))
  have hpower : cut (fun c => c == 'e' || c == 'E') (power.elim [] ('e' :: signed ·))
      = ([], power.elim [] ('e' :: signed ·)) := by
    cases power with
    | none => rfl
    | some p => rfl
  have hpoint : cut (· == '.') (fraction.elim [] ('.' :: ·)) = ([], fraction.elim [] ('.' :: ·)) := by
    cases fraction with
    | none => rfl
    | some digits => rfl
  have hfraction : (fraction.elim [] ('.' :: ·)).drop 1 = fraction.getD [] := by
    cases fraction with
    | none => rfl
    | some digits => rfl
  have hempty : ((whole ++ fraction.getD []).isEmpty || !(whole ++ fraction.getD []).all Char.isDigit) = false := by
    rw [Bool.or_eq_false_iff, List.isEmpty_eq_false_iff, Bool.not_eq_false', List.all_eq_true]
    exact ⟨List.append_ne_nil_of_left_ne_nil hne _, hdigits⟩
  rw [decimalText?, chars]
  dsimp only
  rw [cut_append hmantissa, hpower, List.append_nil]
  dsimp only
  rw [cut_append hmark, hpoint, List.append_nil]
  dsimp only
  rw [hfraction]
  cases power with
  | none =>
    dsimp only [Option.elim]
    rw [hempty]
    rfl
  | some p =>
    dsimp only [Option.elim]
    rw [exponentOf?_signed]
    dsimp only
    rw [hempty]
    rfl

/-- **A written decimal is read as the number nearest to its value.** -/
theorem value_eq_of_pos (w : WrittenDecimal) (h : 0 < w.value) :
    DecimalText.value ⟨w.digits, w.exponent⟩ = ofMagnitude false (rounded w.value) := by
  apply DecimalText.value_eq w.areDigits
  show 0 < spelled w.digits
  by_contra hzero
  have hspelled : spelled w.digits = 0 := by omega
  rw [value, hspelled, Nat.cast_zero, zero_mul] at h
  exact lt_irrefl _ h

end WrittenDecimal

/-! ## Laying out digits -/

namespace Layout

/-- Characters are a written decimal, which is no integer by its form, with a value. -/
def Writes (chars : List Char) (value : ℚ) : Prop :=
  ∃ w : WrittenDecimal, w.chars = chars ∧ (w.fraction.isSome ∨ w.power.isSome) ∧ w.value = value

variable {digits : List Char}

/-- The point stands behind zeros. -/
theorem writes_behind (hne : digits ≠ []) (h : AreDigits digits) {e : ℤ} (he : 0 ≤ e) :
    Writes (digits ++ List.replicate e.toNat '0' ++ ['.', '0']) (spelled digits * 10 ^ e) := by
  refine ⟨⟨digits ++ List.replicate e.toNat '0', some ['0'], none, List.append_ne_nil_of_left_ne_nil hne _,
    (h.append (areDigits_zeros _)).append (areDigits_zeros 1)⟩, ?_, Or.inl rfl, ?_⟩
  · simp [WrittenDecimal.chars]
  · have hlast : spelled ['0'] = 0 := rfl
    have hspelled : spelled (digits ++ List.replicate e.toNat '0' ++ ['0']) = 10 * (10 ^ e.toNat * spelled digits) := by
      rw [spelled_append, spelled_append, spelled_zeros, hlast, List.length_replicate, List.length_singleton]
      ring
    have hpower : ((10 : ℚ) ^ e.toNat) = 10 ^ e := by
      rw [← zpow_natCast, Int.toNat_of_nonneg he]
    have hexponent : (10 : ℚ) ^ (0 - ((1 : ℕ) : ℤ)) = 10⁻¹ := by
      rw [zero_sub, Nat.cast_one, zpow_neg_one]
    show ((spelled (digits ++ List.replicate e.toNat '0' ++ ['0']) : ℕ) : ℚ) * 10 ^ (0 - ((1 : ℕ) : ℤ)) = _
    rw [hspelled, hexponent]
    push_cast
    rw [hpower]
    field_simp

/-- The point stands between the digits. -/
theorem writes_between (h : AreDigits digits) {e : ℤ} (he : e < 0) (hlength : (-e).toNat < digits.length) :
    Writes (digits.take (digits.length - (-e).toNat) ++ '.' :: digits.drop (digits.length - (-e).toNat))
      (spelled digits * 10 ^ e) := by
  have hparts : digits.take (digits.length - (-e).toNat) ++ digits.drop (digits.length - (-e).toNat) = digits :=
    List.take_append_drop ..
  have hne : digits.take (digits.length - (-e).toNat) ≠ [] := by
    rw [← List.length_pos_iff, List.length_take]
    omega
  refine ⟨⟨digits.take (digits.length - (-e).toNat), some (digits.drop (digits.length - (-e).toNat)), none, hne,
    by rwa [Option.getD_some, hparts]⟩, ?_, Or.inl rfl, ?_⟩
  · simp [WrittenDecimal.chars]
  · have hexponent : (0 : ℤ) - ((digits.drop (digits.length - (-e).toNat)).length : ℕ) = e := by
      rw [List.length_drop]
      omega
    show ((spelled (digits.take (digits.length - (-e).toNat) ++ digits.drop (digits.length - (-e).toNat)) : ℕ) : ℚ)
      * 10 ^ ((0 : ℤ) - ((digits.drop (digits.length - (-e).toNat)).length : ℕ)) = _
    rw [hparts, hexponent]

/-- The point stands in front of zeros. -/
theorem writes_before (h : AreDigits digits) {e : ℤ} (hlength : digits.length ≤ (-e).toNat) (he : e < 0) :
    Writes ('0' :: '.' :: List.replicate ((-e).toNat - digits.length) '0' ++ digits) (spelled digits * 10 ^ e) := by
  have hzero : AreDigits ['0'] := areDigits_zeros 1
  refine ⟨⟨['0'], some (List.replicate ((-e).toNat - digits.length) '0' ++ digits), none, List.cons_ne_nil _ _,
    hzero.append ((areDigits_zeros _).append h)⟩, ?_, Or.inl rfl, ?_⟩
  · simp [WrittenDecimal.chars]
  · have hfirst : spelled ['0'] = 0 := rfl
    have hspelled : spelled (['0'] ++ (List.replicate ((-e).toNat - digits.length) '0' ++ digits)) = spelled digits := by
      rw [spelled_append, spelled_append, spelled_zeros, hfirst]
      simp
    have hexponent : (0 : ℤ) - ((List.replicate ((-e).toNat - digits.length) '0' ++ digits).length : ℕ) = e := by
      rw [List.length_append, List.length_replicate]
      omega
    show ((spelled (['0'] ++ (List.replicate ((-e).toNat - digits.length) '0' ++ digits)) : ℕ) : ℚ)
      * 10 ^ ((0 : ℤ) - ((List.replicate ((-e).toNat - digits.length) '0' ++ digits).length : ℕ)) = _
    rw [hspelled, hexponent]

/-- **Wherever the point is put, the value stays the same.** -/
theorem writes_positional (hne : digits ≠ []) (h : AreDigits digits) (e : ℤ) :
    Writes (positional digits e) (spelled digits * 10 ^ e) := by
  rw [positional]
  split
  · exact writes_behind hne h (by assumption)
  · rename_i he
    dsimp only
    split
    · exact writes_between h (by omega) (by assumption)
    · exact writes_before h (by omega) (by omega)

/-- The point stands behind the first digit, and the exponent says where it belongs. -/
theorem writes_scientific {layout : Layout} (hplus : layout.exponentPlus = "") (hne : digits ≠ []) (h : AreDigits digits)
    (e : ℤ) : Writes (layout.scientific digits (e + (digits.length - 1 : ℕ))) (spelled digits * 10 ^ e) := by
  have hmark : ∀ lead : ℤ, (if lead < 0 then ['-'] else layout.exponentPlus.toList) ++ digitsOf lead.natAbs
      = WrittenDecimal.signed lead := by
    intro lead
    rw [WrittenDecimal.signed, hplus]
    rfl
  match digits, hne with
  | [d], _ =>
    refine ⟨⟨[d], none, some (e + ((1 - 1 : ℕ) : ℤ)), List.cons_ne_nil _ _, by simpa using h⟩, ?_, Or.inr rfl, ?_⟩
    · simp [WrittenDecimal.chars, scientific, ← hmark]
    · simp [WrittenDecimal.value, WrittenDecimal.digits, WrittenDecimal.exponent]
  | d :: next :: rest, _ =>
    refine ⟨⟨[d], some (next :: rest), some (e + ((d :: next :: rest).length - 1 : ℕ)), List.cons_ne_nil _ _, h⟩, ?_,
      Or.inr rfl, ?_⟩
    · simp [WrittenDecimal.chars, scientific, ← hmark]
    · simp [WrittenDecimal.value, WrittenDecimal.digits, WrittenDecimal.exponent]

end Layout

/-! ## Signs -/

namespace Binary64

variable {x : Binary64}

/-- A number is put together from its sign and the word without it. -/
theorem ofMagnitude_self (x : Binary64) : ofMagnitude x.negative x.magnitude = x := by
  obtain ⟨bits⟩ := x
  have hsign : signWord = 2 ^ 63 := rfl
  have hbits : bits.toNat < 2 ^ 64 := bits.toNat_lt
  have hword : (if negative ⟨bits⟩ then signWord else 0) + magnitude ⟨bits⟩ = bits.toNat := by
    rw [negative, magnitude, hsign]
    split
    · rename_i h
      have h := of_decide_eq_true h
      dsimp only at h ⊢
      omega
    · rename_i h
      have h := of_decide_eq_false (Bool.eq_false_iff.mpr h)
      dsimp only at h ⊢
      omega
  rw [ofMagnitude, hword, UInt64.ofNat_toNat]

theorem magnitude_lt (x : Binary64) : x.magnitude < signWord := Nat.mod_lt _ (by decide)

theorem negative_ofMagnitude (x : Binary64) : (ofMagnitude false x.magnitude).negative = false := by
  have hlow := x.magnitude_lt
  have hsign : signWord = 0x8000000000000000 := rfl
  have hword : (UInt64.ofNat x.magnitude).toNat = x.magnitude :=
    UInt64.toNat_ofNat_of_lt' (by rw [UInt64.size]; omega)
  rw [negative, ofMagnitude, if_neg Bool.false_ne_true, Nat.zero_add]
  dsimp only
  rw [hword]
  exact decide_eq_false (Nat.not_le.mpr hlow)

theorem ofMagnitude_of_positive (hsign : x.negative = false) : ofMagnitude false x.magnitude = x := by
  rw [← hsign]
  exact ofMagnitude_self x

/-- The sign is turned around. -/
theorem neg_ofMagnitude (hsign : x.negative = true) : (ofMagnitude false x.magnitude).neg = x := by
  rw [neg, negative_ofMagnitude, magnitude_ofMagnitude x.magnitude_lt, Bool.not_false, ← hsign]
  exact ofMagnitude_self x

theorem isNaN_of_isFinite (h : x.isFinite = true) : x.isNaN = false := by
  rw [isFinite, decide_eq_true_iff] at h
  exact decide_eq_false (Nat.lt_asymm h)

theorem isInfinite_of_isFinite (h : x.isFinite = true) : x.isInfinite = false := by
  rw [isFinite, decide_eq_true_iff] at h
  exact beq_eq_false_iff_ne.mpr h.ne

theorem isNaN_of_isInfinite (h : x.isInfinite = true) : x.isNaN = false := by
  rw [isInfinite, beq_iff_eq] at h
  exact decide_eq_false (by rw [h]; exact Nat.lt_irrefl _)

end Binary64

/-! ## Numbers in a layout -/

/-- **What is written for a finite number is read as the number**, sign aside. -/
theorem exists_written {x : Binary64} (hx : x.isFinite = true) :
    ∃ w : WrittenDecimal, (w.fraction.isSome ∨ w.power.isSome)
      ∧ (Literal.floatText x).toList = (if x.negative then ['-'] else []) ++ w.chars
      ∧ DecimalText.value ⟨w.digits, w.exponent⟩ = ofMagnitude false x.magnitude := by
  have hfinite : x.magnitude < Binary64.infinityWord := by simpa [Binary64.isFinite] using hx
  have hnan : x.isNaN = false := Binary64.isNaN_of_isFinite hx
  have hinfinite : x.isInfinite = false := by simpa [Binary64.isInfinite] using hfinite.ne
  by_cases hzero : x.magnitude = 0
  · have hiszero : x.isZero = true := by simpa [Binary64.isZero] using hzero
    refine ⟨⟨['0'], some ['0'], none, List.cons_ne_nil _ _, areDigits_zeros 2⟩, Or.inl rfl, ?_, ?_⟩
    · simp [Literal.floatText, Layout.text, hnan, hinfinite, hiszero, WrittenDecimal.chars]
    · rw [hzero]
      rfl
  · have hiszero : x.isZero = false := by simpa [Binary64.isZero] using hzero
    obtain ⟨hdigits, hrounded⟩ := Shortest.rounded_decimal hx hzero
    have hwrites : Layout.Writes
        (if Literal.numberLayout.leastPositional ≤ (Shortest.decimal x).exponent
              + ((digitsOf (Shortest.decimal x).digits).length - 1 : ℕ)
            && (Shortest.decimal x).exponent + ((digitsOf (Shortest.decimal x).digits).length - 1 : ℕ)
              < Literal.numberLayout.firstScientific then
          Layout.positional (digitsOf (Shortest.decimal x).digits) (Shortest.decimal x).exponent
        else Literal.numberLayout.scientific (digitsOf (Shortest.decimal x).digits)
          ((Shortest.decimal x).exponent + ((digitsOf (Shortest.decimal x).digits).length - 1 : ℕ)))
        (Shortest.decimal x).value := by
      have hvalue : (Shortest.decimal x).value
          = spelled (digitsOf (Shortest.decimal x).digits) * 10 ^ (Shortest.decimal x).exponent := by
        rw [spelled_digitsOf]
        rfl
      rw [hvalue]
      split
      · exact Layout.writes_positional (digitsOf_ne_nil _) (areDigits_digitsOf _) _
      · exact Layout.writes_scientific rfl (digitsOf_ne_nil _) (areDigits_digitsOf _) _
    obtain ⟨w, hchars, hform, hvalue⟩ := hwrites
    refine ⟨w, hform, ?_, ?_⟩
    · rw [hchars, Literal.floatText, Layout.text, hnan, hinfinite, hiszero]
      simp
    · have hpos : 0 < w.value := by
        have hcast : (0 : ℚ) < (Shortest.decimal x).digits := Nat.cast_pos.mpr hdigits
        rw [hvalue, Shortest.Scaled.value]
        exact mul_pos hcast (zpow_pos (by norm_num) _)
      rw [w.value_eq_of_pos hpos, hvalue, hrounded]

end ClassCli.Decimal
