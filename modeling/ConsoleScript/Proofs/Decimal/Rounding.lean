import Mathlib
import ConsoleScript.Decimal.Nearest

/-!
# Rounding to the nearest double

The bits of a double without a sign count upwards with its value, also where the exponent changes
and where infinity begins. So the double nearest to a fraction is found by rounding to a multiple of
the last place, and a fraction that this takes beyond infinity is nearest to infinity.
-/

namespace ConsoleScript.Decimal

/-- No other natural stands for a number that is nearer, and this one is even if another stands for
one that is as near. -/
structure RoundsTo (value : ℕ → ℚ) (among : Set ℕ) (x : ℚ) (n : ℕ) : Prop where
  mem : n ∈ among
  nearest : ∀ m ∈ among, |x - value n| ≤ |x - value m|
  even : ∀ m ∈ among, m ≠ n → |x - value m| = |x - value n| → Even n

section RoundsTo

variable {value : ℕ → ℚ} {x : ℚ} {n m : ℕ}

theorem RoundsTo.le {among : Set ℕ} [among.OrdConnected] (hvalue : StrictMono value)
    (h : RoundsTo value among x n) (h' : RoundsTo value among x m) : m ≤ n := by
  by_contra hle
  have hlt : n < m := not_le.mp hle
  have hsame : |x - value m| = |x - value n| :=
    le_antisymm (h'.nearest n h.mem) (h.nearest m h'.mem)
  have heven := h.even m h'.mem hlt.ne' hsame
  have heven' := h'.even n h.mem hlt.ne hsame.symm
  -- Between two even naturals there is an odd one, whose number is nearer to `x` than theirs.
  have hnext : n + 1 < m := by
    refine lt_of_le_of_ne hlt ?_
    rintro rfl
    exact Nat.not_even_iff_odd.mpr heven.add_one heven'
  have hmem : n + 1 ∈ among := Set.Icc_subset among h.mem h'.mem ⟨n.le_succ, hnext.le⟩
  have hbetween := h.nearest (n + 1) hmem
  have hleft := hvalue (Nat.lt_add_one n)
  have hright := hvalue hnext
  rcases abs_cases (x - value n) with hn | hn <;> rcases abs_cases (x - value m) with hm | hm <;>
    rcases abs_cases (x - value (n + 1)) with hk | hk <;> linarith

theorem RoundsTo.unique {among : Set ℕ} [among.OrdConnected] (hvalue : StrictMono value)
    (h : RoundsTo value among x n) (h' : RoundsTo value among x m) : n = m :=
  le_antisymm (h'.le hvalue h) (h.le hvalue h')

/-- Where the nearest natural is beyond the bound, so is the number itself. -/
theorem RoundsTo.bounded (hvalue : StrictMono value) (h : RoundsTo value Set.univ x n) (bound : ℕ) :
    RoundsTo value (Set.Iic bound) x (min n bound) := by
  by_cases hle : n ≤ bound
  · rw [min_eq_left hle]
    exact ⟨hle, fun m _ => h.nearest m trivial, fun m _ => h.even m trivial⟩
  · rw [min_eq_right (le_of_not_ge hle)]
    have hbeyond : value bound ≤ x := by
      have hnearest := h.nearest bound trivial
      have hlt := hvalue (not_le.mp hle)
      rcases abs_cases (x - value n) with hn | hn <;>
        rcases abs_cases (x - value bound) with hb | hb <;> linarith
    refine ⟨le_refl bound, ?_, ?_⟩
    · intro m hm
      have hmono := hvalue.monotone (Set.mem_Iic.mp hm)
      rw [abs_of_nonneg (by linarith), abs_of_nonneg (by linarith)]
      linarith
    · intro m hm hne hsame
      have hmono := hvalue (lt_of_le_of_ne (Set.mem_Iic.mp hm) hne)
      rw [abs_of_nonneg (by linarith), abs_of_nonneg (by linarith)] at hsame
      linarith

end RoundsTo

/-! ### Quotients -/

theorem roundsTo_of_half {x : ℚ} {n : ℕ} (h : |x - n| ≤ 1 / 2)
    (heven : |x - n| = 1 / 2 → Even n) : RoundsTo Nat.cast Set.univ x n := by
  have hothers {m : ℕ} (hne : m ≠ n) : 1 - |x - n| ≤ |x - m| := by
    have hint : (1 : ℤ) ≤ |(m : ℤ) - n| := Int.one_le_abs (sub_ne_zero.mpr (by exact_mod_cast hne))
    have hdist : (1 : ℚ) ≤ |(m : ℚ) - n| := by exact_mod_cast hint
    have htriangle := abs_sub_le (m : ℚ) x n
    rw [abs_sub_comm (m : ℚ) x] at htriangle
    linarith
  refine ⟨trivial, ?_, ?_⟩
  · intro m _
    by_cases hne : m = n
    · rw [hne]
    · have hother := hothers hne
      linarith
  · intro m _ hne hsame
    have hother := hothers hne
    exact heven (by linarith)

/-- A quotient and the part of one that is left. -/
theorem exists_part (num : ℕ) {den : ℕ} (hden : 0 < den) :
    ∃ part : ℚ, (num / den : ℚ) = (num / den : ℕ) + part ∧ 0 ≤ part ∧ part < 1 ∧
      (2 * (num % den) < den ↔ part < 1 / 2) ∧ (den < 2 * (num % den) ↔ 1 / 2 < part) := by
  have hpos : (0 : ℚ) < den := by exact_mod_cast hden
  have hdiv : (num : ℚ) = den * (num / den : ℕ) + (num % den : ℕ) := by
    exact_mod_cast (Nat.div_add_mod num den).symm
  refine ⟨(num % den : ℕ) / den, ?_, by positivity, ?_, ?_, ?_⟩
  · field_simp
    linarith
  · rw [div_lt_one hpos]
    exact_mod_cast Nat.mod_lt num hden
  · rw [div_lt_div_iff₀ hpos two_pos]
    exact_mod_cast (by omega : 2 * (num % den) < den ↔ num % den * 2 < 1 * den)
  · rw [div_lt_div_iff₀ two_pos hpos]
    exact_mod_cast (by omega : den < 2 * (num % den) ↔ 1 * den < num % den * 2)

theorem roundsTo_roundDiv (num : ℕ) {den : ℕ} (hden : 0 < den) :
    RoundsTo Nat.cast Set.univ (num / den : ℚ) (roundDiv num den) := by
  obtain ⟨part, hsplit, hnonneg, hlt, hsmall, hlarge⟩ := exists_part num hden
  unfold roundDiv
  dsimp only
  rw [hsplit]
  split
  · rename_i h
    have hpart := hsmall.mp h
    have habs : |((num / den : ℕ) : ℚ) + part - (num / den : ℕ)| = part := by
      rw [add_sub_cancel_left, abs_of_nonneg hnonneg]
    exact roundsTo_of_half (by linarith) (by intro h; linarith)
  · rename_i hhalf
    split
    · rename_i h
      have hpart := hlarge.mp h
      have habs : |((num / den : ℕ) : ℚ) + part - (num / den + 1 : ℕ)| = 1 - part := by
        rw [abs_of_nonpos (by push_cast; linarith)]
        push_cast
        ring
      exact roundsTo_of_half (by linarith) (by intro h; linarith)
    · rename_i hhalf'
      have hpart : part = 1 / 2 := by
        rw [hsmall] at hhalf
        rw [hlarge] at hhalf'
        linarith
      -- The quotient or the natural behind it, whichever is even.
      have heven : Even (num / den + num / den % 2) := by
        rw [Nat.even_iff]
        omega
      refine roundsTo_of_half ?_ fun _ => heven
      rcases Nat.mod_two_eq_zero_or_one (num / den) with h | h
      · rw [h, Nat.add_zero, add_sub_cancel_left, hpart, abs_of_pos (by norm_num)]
      · rw [h, hpart]
        push_cast
        rw [abs_le]
        constructor <;> linarith

/-! ### The values of doubles -/

/-- The number that a double with these bits stands for. The bits of infinity stand for the first
power of two that is too large. -/
def bitsValue (bits : ℕ) : ℚ :=
  if bits < 2 ^ 52 then bits * 2 ^ (-1074 : ℤ)
  else (2 ^ 52 + bits % 2 ^ 52 : ℕ) * 2 ^ ((bits / 2 ^ 52 : ℕ) - 1075 : ℤ)

/-- The multiples of a last place, up to the first with one digit more. -/
theorem bitsValue_add {place digits : ℕ} (hmin : place = 0 ∨ 2 ^ 52 ≤ digits)
    (hmax : digits ≤ 2 ^ 53) :
    bitsValue (place * 2 ^ 52 + digits) = digits * 2 ^ (place - 1074 : ℤ) := by
  unfold bitsValue
  split
  · rename_i hlt
    obtain rfl : place = 0 := by omega
    simp
  · rename_i hle
    rcases Nat.lt_or_ge digits (2 ^ 53) with hlt | hge
    · have hmod : (place * 2 ^ 52 + digits) % 2 ^ 52 = digits - 2 ^ 52 := by omega
      have hdiv : (place * 2 ^ 52 + digits) / 2 ^ 52 = place + 1 := by omega
      have hdigits : 2 ^ 52 + (digits - 2 ^ 52) = digits := by omega
      have hplace : ((place + 1 : ℕ) - 1075 : ℤ) = place - 1074 := by
        push_cast
        ring
      rw [hmod, hdiv, hdigits, hplace]
    · obtain rfl : digits = 2 ^ 53 := le_antisymm hmax hge
      have hmod : (place * 2 ^ 52 + 2 ^ 53) % 2 ^ 52 = 0 := by omega
      have hdiv : (place * 2 ^ 52 + 2 ^ 53) / 2 ^ 52 = place + 2 := by omega
      have hplace : ((place + 2 : ℕ) - 1075 : ℤ) = (place - 1074) + 1 := by
        push_cast
        ring
      rw [hmod, hdiv, hplace, zpow_add_one₀ two_ne_zero]
      push_cast
      ring

/-- The last place of a double and its digits, which are 53 unless the place is the least. -/
theorem exists_place_digits (bits : ℕ) : ∃ place digits : ℕ, bits = place * 2 ^ 52 + digits ∧
    (place = 0 ∨ 2 ^ 52 ≤ digits) ∧ digits < 2 ^ 53 := by
  rcases Nat.lt_or_ge bits (2 ^ 52) with h | h
  · exact ⟨0, bits, by omega, .inl rfl, by omega⟩
  · exact ⟨bits / 2 ^ 52 - 1, 2 ^ 52 + bits % 2 ^ 52, by omega, .inr (by omega), by omega⟩

theorem strictMono_bitsValue : StrictMono bitsValue := by
  refine strictMono_nat_of_lt_succ fun bits => ?_
  obtain ⟨place, digits, rfl, hmin, hmax⟩ := exists_place_digits bits
  have hnext : place * 2 ^ 52 + digits + 1 = place * 2 ^ 52 + (digits + 1) := by omega
  rw [hnext, bitsValue_add hmin (by omega), bitsValue_add (by omega) (by omega)]
  have hplace : (0 : ℚ) < 2 ^ (place - 1074 : ℤ) := by positivity
  push_cast
  linarith

/-! ### The last place -/

theorem scaleBinary_spec (num : ℕ) {den : ℕ} (hden : 0 < den) (exponent : ℤ) :
    0 < (scaleBinary num den exponent).2 ∧
      ((scaleBinary num den exponent).1 / (scaleBinary num den exponent).2 : ℚ) =
        num / den / 2 ^ exponent := by
  unfold scaleBinary
  split
  · rename_i hexponent
    obtain ⟨k, rfl⟩ := Int.eq_ofNat_of_zero_le hexponent
    simp only [Int.toNat_natCast, Nat.shiftLeft_eq, zpow_natCast]
    refine ⟨by positivity, ?_⟩
    push_cast
    rw [div_div]
  · rename_i hexponent
    obtain ⟨k, hk⟩ := Int.eq_ofNat_of_zero_le (a := -exponent) (by omega)
    obtain rfl : exponent = -k := by omega
    simp only [neg_neg, Int.toNat_natCast, Nat.shiftLeft_eq, zpow_neg, zpow_natCast, div_inv_eq_mul]
    refine ⟨hden, ?_⟩
    push_cast
    rw [div_mul_eq_mul_div]

/-- The logarithms of the parts of a fraction tell its own up to one. -/
theorem scaled_bounds {num den : ℕ} (hnum : 0 < num) (hden : 0 < den) :
    (2 ^ 51 : ℚ) < num / den / 2 ^ ((num.log2 : ℤ) - den.log2 - 52) ∧
      (num / den / 2 ^ ((num.log2 : ℤ) - den.log2 - 52) : ℚ) < 2 ^ 53 := by
  have hpow (n : ℕ) (hn : 0 < n) : (2 : ℚ) ^ (n.log2 : ℤ) ≤ n ∧ (n : ℚ) < 2 ^ (n.log2 + 1 : ℤ) :=
    ⟨by exact_mod_cast Nat.log2_self_le hn.ne',
      by exact_mod_cast (Nat.lt_log2_self : n < 2 ^ (n.log2 + 1))⟩
  obtain ⟨hnum_le, hnum_lt⟩ := hpow num hnum
  obtain ⟨hden_le, hden_lt⟩ := hpow den hden
  have hpos : (0 : ℚ) < den := by exact_mod_cast hden
  have hscale : (0 : ℚ) < 2 ^ ((num.log2 : ℤ) - den.log2 - 52) := by positivity
  constructor
  · rw [lt_div_iff₀ hscale, lt_div_iff₀ hpos]
    calc (2 ^ 51 * 2 ^ ((num.log2 : ℤ) - den.log2 - 52) * den : ℚ)
        < 2 ^ 51 * 2 ^ ((num.log2 : ℤ) - den.log2 - 52) * 2 ^ (den.log2 + 1 : ℤ) := by gcongr
      _ = 2 ^ (num.log2 : ℤ) := by
        rw [← zpow_natCast, ← zpow_add₀ two_ne_zero, ← zpow_add₀ two_ne_zero]
        congr 1
        push_cast
        ring
      _ ≤ num := hnum_le
  · rw [div_lt_iff₀ hscale, div_lt_iff₀ hpos]
    calc (num : ℚ) < 2 ^ (num.log2 + 1 : ℤ) := hnum_lt
      _ = 2 ^ 53 * 2 ^ ((num.log2 : ℤ) - den.log2 - 52) * 2 ^ (den.log2 : ℤ) := by
        rw [← zpow_natCast, ← zpow_add₀ two_ne_zero, ← zpow_add₀ two_ne_zero]
        congr 1
        push_cast
        ring
      _ ≤ 2 ^ 53 * 2 ^ ((num.log2 : ℤ) - den.log2 - 52) * den := by gcongr

theorem exists_lastPlace {num den : ℕ} (hnum : 0 < num) (hden : 0 < den) :
    ∃ place : ℤ, lastPlace num den = max place (-1074) ∧ (2 ^ 52 : ℚ) ≤ num / den / 2 ^ place ∧
      (num / den / 2 ^ place : ℚ) < 2 ^ 53 := by
  obtain ⟨hmin, hmax⟩ := scaled_bounds hnum hden
  unfold lastPlace
  dsimp only
  generalize (num.log2 : ℤ) - den.log2 - 52 = exponent at hmin hmax ⊢
  obtain ⟨hpos, hscaled⟩ := scaleBinary_spec num hden exponent
  generalize scaleBinary num den exponent = scaled at hpos hscaled ⊢
  have hpos' : (0 : ℚ) < scaled.2 := by exact_mod_cast hpos
  have hdigits : scaled.1 < scaled.2 <<< 52 ↔ (num / den / 2 ^ exponent : ℚ) < 2 ^ 52 := by
    rw [Nat.shiftLeft_eq, ← hscaled, div_lt_iff₀ hpos', mul_comm]
    exact_mod_cast Iff.rfl
  split
  · rename_i hlt
    refine ⟨exponent - 1, rfl, ?_⟩
    have hdouble : (num / den / 2 ^ (exponent - 1) : ℚ) = 2 * (num / den / 2 ^ exponent) := by
      rw [zpow_sub_one₀ two_ne_zero]
      field_simp
    rw [hdigits] at hlt
    constructor <;> linarith
  · rename_i hge
    rw [hdigits, not_lt] at hge
    exact ⟨exponent, rfl, hge, hmax⟩

theorem lastPlace_spec {num den : ℕ} (hnum : 0 < num) (hden : 0 < den) :
    -1074 ≤ lastPlace num den ∧ (num / den / 2 ^ lastPlace num den : ℚ) < 2 ^ 53 ∧
      (lastPlace num den = -1074 ∨ (2 ^ 52 : ℚ) ≤ num / den / 2 ^ lastPlace num den) := by
  obtain ⟨place, hplace, hmin, hmax⟩ := exists_lastPlace hnum hden
  rcases le_total place (-1074) with hlow | hhigh
  · rw [hplace, max_eq_right hlow]
    refine ⟨le_refl _, lt_of_le_of_lt ?_ hmax, .inl rfl⟩
    have hpow : (2 : ℚ) ^ place ≤ 2 ^ (-1074 : ℤ) := zpow_le_zpow_right₀ one_le_two hlow
    gcongr
  · rw [hplace, max_eq_left hhigh]
    exact ⟨hhigh, hmax, .inr hmin⟩

/-! ### The nearest double -/

section Digits

variable {x : ℚ} {place digits : ℕ}

theorem abs_sub_mul_place (x k : ℚ) (place : ℕ) :
    |x - k * 2 ^ (place - 1074 : ℤ)| =
      |x / 2 ^ (place - 1074 : ℤ) - k| * 2 ^ (place - 1074 : ℤ) := by
  have hpos : (0 : ℚ) < 2 ^ (place - 1074 : ℤ) := by positivity
  have hscale : x - k * 2 ^ (place - 1074 : ℤ) =
      (x / 2 ^ (place - 1074 : ℤ) - k) * 2 ^ (place - 1074 : ℤ) := by
    rw [sub_mul, div_mul_cancel₀ x hpos.ne']
  rw [hscale, abs_mul, abs_of_pos hpos]

theorem RoundsTo.le_of_le {y : ℚ} {n k : ℕ} (h : RoundsTo Nat.cast Set.univ y n) (hk : y ≤ k) :
    n ≤ k := by
  by_contra hlt
  have hlt : (k : ℚ) + 1 ≤ n := by exact_mod_cast not_le.mp hlt
  have hnearest := h.nearest k trivial
  rw [abs_of_nonpos (by linarith), abs_of_nonpos (by linarith)] at hnearest
  linarith

theorem RoundsTo.ge_of_ge {y : ℚ} {n k : ℕ} (h : RoundsTo Nat.cast Set.univ y n) (hk : k ≤ y) :
    k ≤ n := by
  by_contra hlt
  have hlt : (n : ℚ) + 1 ≤ k := by exact_mod_cast not_le.mp hlt
  have hnearest := h.nearest k trivial
  rw [abs_of_nonneg (by linarith), abs_of_nonneg (by linarith)] at hnearest
  linarith

/-- A double that is no multiple of the last place is not as near as one that is. -/
theorem exists_multiple (hmin : place = 0 ∨ 2 ^ 52 ≤ x / 2 ^ (place - 1074 : ℤ)) (bits : ℕ) :
    ∃ k : ℕ, bitsValue bits = k * 2 ^ (place - 1074 : ℤ) ∨
      |x - k * 2 ^ (place - 1074 : ℤ)| < |x - bitsValue bits| := by
  obtain ⟨place', digits, rfl, hmin', hmax'⟩ := exists_place_digits bits
  rw [bitsValue_add hmin' hmax'.le]
  rcases Nat.lt_or_ge place' place with hlt | hge
  · -- The place is not the least, so the double is below all that have its digits.
    have hx := hmin.resolve_left (Nat.ne_of_gt (Nat.zero_lt_of_lt hlt))
    rw [le_div_iff₀ (by positivity)] at hx
    have hbelow : (digits * 2 ^ (place' - 1074 : ℤ) : ℚ) < 2 ^ 52 * 2 ^ (place - 1074 : ℤ) := by
      calc (digits * 2 ^ (place' - 1074 : ℤ) : ℚ)
          < 2 ^ 53 * 2 ^ (place' - 1074 : ℤ) := by
            gcongr
            exact_mod_cast hmax'
        _ = 2 ^ 52 * 2 ^ (place' + 1 - 1074 : ℤ) := by
          rw [add_sub_right_comm, zpow_add_one₀ two_ne_zero]
          ring
        _ ≤ 2 ^ 52 * 2 ^ (place - 1074 : ℤ) := by
          gcongr
          · exact one_le_two
          · exact_mod_cast hlt
    refine ⟨2 ^ 52, .inr ?_⟩
    push_cast
    rw [abs_of_nonneg (by linarith), abs_of_nonneg (by linarith)]
    linarith
  · refine ⟨digits * 2 ^ (place' - place), .inl ?_⟩
    obtain ⟨more, rfl⟩ := Nat.exists_eq_add_of_le hge
    have hplace : ((place + more : ℕ) - 1074 : ℤ) = more + (place - 1074) := by
      push_cast
      ring
    rw [hplace, zpow_add₀ two_ne_zero, Nat.add_sub_cancel_left, zpow_natCast]
    push_cast
    ring

theorem RoundsTo.bits (h : RoundsTo Nat.cast Set.univ (x / 2 ^ (place - 1074 : ℤ)) digits)
    (hmin : place = 0 ∨ 2 ^ 52 ≤ x / 2 ^ (place - 1074 : ℤ))
    (hmax : x / 2 ^ (place - 1074 : ℤ) < 2 ^ 53) :
    RoundsTo bitsValue Set.univ x (place * 2 ^ 52 + digits) := by
  have hpos : (0 : ℚ) < 2 ^ (place - 1074 : ℤ) := by positivity
  have hdigits : digits ≤ 2 ^ 53 := h.le_of_le (by exact_mod_cast hmax.le)
  have hdigits' : place = 0 ∨ 2 ^ 52 ≤ digits :=
    hmin.imp_right fun hle => h.ge_of_ge (by exact_mod_cast hle)
  have hvalue := bitsValue_add hdigits' hdigits
  have hmultiple (k : ℕ) : |x - digits * 2 ^ (place - 1074 : ℤ)| ≤
      |x - k * 2 ^ (place - 1074 : ℤ)| := by
    rw [abs_sub_mul_place, abs_sub_mul_place]
    exact mul_le_mul_of_nonneg_right (h.nearest k trivial) hpos.le
  refine ⟨trivial, ?_, ?_⟩
  · intro m _
    rw [hvalue]
    obtain ⟨k, hk | hk⟩ := exists_multiple hmin m
    · exact hk ▸ hmultiple k
    · exact (hmultiple k).trans hk.le
  · intro m _ hne hsame
    rw [hvalue] at hsame
    obtain ⟨k, hk | hk⟩ := exists_multiple hmin m
    · have hother : k ≠ digits := by
        rintro rfl
        exact hne (strictMono_bitsValue.injective (hk.trans hvalue.symm))
      rw [hk, abs_sub_mul_place, abs_sub_mul_place] at hsame
      have heven := h.even k trivial hother (mul_right_cancel₀ hpos.ne' hsame)
      exact (Even.mul_left (by decide) place).add heven
    · exact absurd (hmultiple k) (not_le.mpr (hsame ▸ hk))

end Digits

theorem roundsTo_nearestBits (num : ℕ) {den : ℕ} (hden : 0 < den) :
    RoundsTo bitsValue (Set.Iic infinityBits) (num / den) (nearestBits num den) := by
  unfold nearestBits
  split
  · rename_i hnum
    have hzero : bitsValue 0 = 0 := by simp [bitsValue]
    refine ⟨Nat.zero_le _, ?_, fun _ _ _ _ => Even.zero⟩
    intro m _
    rw [hzero, hnum, Nat.cast_zero, zero_div, sub_zero, abs_zero]
    exact abs_nonneg _
  · rename_i hnum
    obtain ⟨hleast, hmax, hmin⟩ := lastPlace_spec (Nat.pos_of_ne_zero hnum) hden
    obtain ⟨place, hplace⟩ : ∃ place : ℕ, lastPlace num den = place - 1074 :=
      ⟨(lastPlace num den + 1074).toNat, by omega⟩
    obtain ⟨hscaled_pos, hscaled⟩ := scaleBinary_spec num hden (lastPlace num den)
    have hrounds := roundsTo_roundDiv (scaleBinary num den (lastPlace num den)).1 hscaled_pos
    rw [hscaled] at hrounds
    dsimp only
    rw [hplace] at hrounds hmax hmin ⊢
    have hbits := hrounds.bits (hmin.imp_left (by omega)) hmax
    rw [sub_add_cancel, Int.toNat_natCast, Nat.shiftLeft_eq]
    exact hbits.bounded strictMono_bitsValue infinityBits

end ConsoleScript.Decimal
