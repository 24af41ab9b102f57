import Mathlib
import ConsoleScript.Proofs.Decimal.Rounding

/-!
# Decimal numbers as floats

The float for a decimal number is the nearest of all floats. Its bits are what decides, so this is
about the parts that the bits of a float fall into.
-/

namespace ConsoleScript.Decimal

open Float.Model UnpackedFloat

def withSign : Sign → ℚ → ℚ
  | .positive, q => q
  | .negative, q => -q

/-- The number that the parts of a float stand for. The infinities stand for the first powers of two
that are too large. -/
def unpackedValue : UnpackedFloat → ℚ
  | .finite sign digits place _ => withSign sign (digits * 2 ^ place)
  | .infinity sign => withSign sign (2 ^ 1024)
  | .zero _ | .notANumber => 0

def floatValue (x : Float) : ℚ :=
  unpackedValue x.toModel.unpack

/-- No float is nearer to the number than this one, which has no sign, and its last digit is zero
if another is as near. -/
structure IsNearest (x : Float) (q : ℚ) : Prop where
  number : x.isNaN = false
  unsigned : x.toBits.toNat < 2 ^ 63
  nearest : ∀ y : Float, y.isNaN = false → |q - floatValue x| ≤ |q - floatValue y|
  even : ∀ y : Float, y.isNaN = false → y ≠ x → |q - floatValue y| = |q - floatValue x| →
    Even x.toBits.toNat

/-! ### The parts of a float -/

theorem unpackedValue_finite (sign : Sign) (digits : ℕ) (place : ℤ) (hpos : 0 < digits) :
    unpackedValue (.finite sign digits place hpos) = withSign sign (digits * 2 ^ place) :=
  rfl

theorem toNat_exponent (b : UInt64) :
    (@unpackExponent Format.binary64 b.toBitVec).toNat = b.toNat % 2 ^ 63 / 2 ^ 52 := by
  rw [unpackExponent_def, BitVec.extractLsb'_toNat, Nat.shiftRight_eq_div_pow]
  change b.toNat / 2 ^ 52 % 2 ^ 11 = _
  omega

theorem toNat_mantissa (b : UInt64) :
    (@unpackMantissa Format.binary64 b.toBitVec).toNat = b.toNat % 2 ^ 63 % 2 ^ 52 := by
  rw [unpackMantissa_def, BitVec.extractLsb'_toNat, Nat.shiftRight_eq_div_pow]
  change b.toNat / 2 ^ 0 % 2 ^ 52 = _
  omega

theorem sign_eq_positive_iff (b : UInt64) :
    Sign.ofBitVec (@unpackSign Format.binary64 b.toBitVec) = .positive ↔ b.toNat < 2 ^ 63 := by
  have hsign : (@unpackSign Format.binary64 b.toBitVec).toNat = b.toNat / 2 ^ 63 := by
    rw [unpackSign_def, BitVec.extractLsb'_toNat, Nat.shiftRight_eq_div_pow]
    change b.toNat / 2 ^ 63 % 2 ^ 1 = _
    have hlt := b.toNat_lt
    omega
  unfold Sign.ofBitVec
  split
  · rename_i hzero
    rw [hzero] at hsign
    change 0 = _ at hsign
    simp only [true_iff]
    omega
  · rename_i hone
    rw [← BitVec.toNat_inj, hsign] at hone
    change ¬ b.toNat / 2 ^ 63 = 0 at hone
    simp only [reduceCtorEq, false_iff]
    omega

theorem bitsValue_infinityBits : bitsValue infinityBits = 2 ^ 1024 := by
  have hbits : infinityBits = 2046 * 2 ^ 52 + 2 ^ 52 := rfl
  have hplace : ((2046 : ℕ) - 1074 : ℤ) = (972 : ℕ) := rfl
  rw [hbits, bitsValue_add (.inr (le_refl _)) (by norm_num), hplace, zpow_natCast, Nat.cast_pow,
    Nat.cast_ofNat, ← pow_add]

/-- The parts of a float that is a number have the value of its bits without the sign. -/
theorem unpackedValue_unpack (b : UInt64)
    (hnumber : unpack Format.binary64 b.toBitVec ≠ .notANumber) :
    b.toNat % 2 ^ 63 ≤ infinityBits ∧
      unpackedValue (unpack Format.binary64 b.toBitVec) =
        withSign (Sign.ofBitVec (@unpackSign Format.binary64 b.toBitVec))
          (bitsValue (b.toNat % 2 ^ 63)) := by
  have hexponent := toNat_exponent b
  have hmantissa := toNat_mantissa b
  have hinfinity : infinityBits = 2047 * 2 ^ 52 := rfl
  unfold UnpackedFloat.unpack at hnumber ⊢
  dsimp only at hnumber ⊢
  -- The branches are those of `unpack`.
  split
  · rename_i hmax
    rw [hmax] at hexponent
    change 2047 = _ at hexponent
    split
    · rename_i hzero
      rw [hzero] at hmantissa
      change 0 = _ at hmantissa
      have hbits : b.toNat % 2 ^ 63 = infinityBits := by omega
      rw [hbits, bitsValue_infinityBits]
      exact ⟨le_refl _, rfl⟩
    · rename_i hnonzero
      rw [if_pos hmax, if_neg hnonzero] at hnumber
      exact absurd rfl hnumber
  · rename_i hmax
    have hfinite : b.toNat % 2 ^ 63 / 2 ^ 52 ≠ 2047 := by
      intro h
      exact hmax (BitVec.eq_of_toNat_eq (hexponent.trans h))
    refine ⟨by omega, ?_⟩
    rw [bitsValue]
    split
    · rename_i hleast
      -- Below the normal numbers all digits are among the bits.
      rw [hleast] at hexponent
      change 0 = _ at hexponent
      rw [if_pos (by omega)]
      split
      · rename_i hzero
        rw [hzero] at hmantissa
        change 0 = _ at hmantissa
        have hbits : b.toNat % 2 ^ 63 = 0 := by omega
        rw [hbits, Nat.cast_zero, zero_mul]
        cases Sign.ofBitVec (@unpackSign Format.binary64 b.toBitVec) <;> rfl
      · have hbits : b.toNat % 2 ^ 63 = (@unpackMantissa Format.binary64 b.toBitVec).toNat := by
          omega
        have hplace : ((0#11).toNat - (Format.binary64.exponentBias + (52 : ℕ)) + 1 : ℤ) = -1074 :=
          rfl
        rw [hbits, unpackedValue_finite, hleast, hplace]
    · rename_i hleast
      -- The first digit of a normal number is not among the bits.
      have hnormal : b.toNat % 2 ^ 63 / 2 ^ 52 ≠ 0 := by
        intro h
        exact hleast (BitVec.eq_of_toNat_eq (hexponent.trans h))
      rw [if_neg (by omega)]
      have hdigits : (1#1 ++ @unpackMantissa Format.binary64 b.toBitVec).toNat =
          2 ^ 52 + (@unpackMantissa Format.binary64 b.toBitVec).toNat := by
        rw [BitVec.toNat_append, ← Nat.shiftLeft_add_eq_or_of_lt (BitVec.isLt _)]
        rfl
      have hplace (n : ℕ) : (n - (Format.binary64.exponentBias + (52 : ℕ)) : ℤ) = n - 1075 := rfl
      rw [unpackedValue_finite, hdigits, hmantissa, hexponent, hplace]

theorem floatValue_cases {x : Float} (hx : x.isNaN = false) : ∃ bits ≤ infinityBits,
    x.toBits.toNat = bits ∧ floatValue x = bitsValue bits ∨
      x.toBits.toNat = 2 ^ 63 + bits ∧ floatValue x = -bitsValue bits := by
  have hnumber : unpack Format.binary64 x.toBits.toBitVec ≠ .notANumber := by
    intro h
    rw [← isNaN_iff] at h
    cases h.symm.trans hx
  obtain ⟨hle, hvalue⟩ := unpackedValue_unpack x.toBits hnumber
  change floatValue x = _ at hvalue
  have hlt := x.toBits.toNat_lt
  refine ⟨x.toBits.toNat % 2 ^ 63, hle, ?_⟩
  rw [hvalue]
  cases hsign : Sign.ofBitVec (@unpackSign Format.binary64 x.toBits.toBitVec) with
  | positive =>
    rw [sign_eq_positive_iff] at hsign
    exact .inl ⟨by omega, rfl⟩
  | negative =>
    have hsigned : ¬ x.toBits.toNat < 2 ^ 63 := by
      rw [← sign_eq_positive_iff, hsign]
      rintro ⟨⟩
    exact .inr ⟨by omega, rfl⟩

theorem ofBits_spec {bits : ℕ} (h : bits ≤ infinityBits) :
    (Float.ofBits bits.toUInt64).isNaN = false ∧
      (Float.ofBits bits.toUInt64).toBits.toNat = bits := by
  have hinfinity : infinityBits = 2047 * 2 ^ 52 := rfl
  have hnat : bits.toUInt64.toNat = bits := Nat.mod_eq_of_lt (by omega)
  have hnumber : @isNaNBits Format.binary64 bits.toUInt64.toBitVec = false := by
    refine decide_eq_false ?_
    rintro ⟨hexponent, hmantissa⟩
    have hmax := toNat_exponent bits.toUInt64
    rw [hexponent] at hmax
    change 2047 = _ at hmax
    apply hmantissa
    apply BitVec.eq_of_toNat_eq
    rw [toNat_mantissa]
    change _ = 0
    omega
  have hbits : (Float.ofBits bits.toUInt64).toBits = bits.toUInt64 := by
    change UInt64.ofBitVec (UnpackedFloat.pack Format.binary64 (unpack Format.binary64 _)) = _
    rw [pack_unpack, hnumber]
    rfl
  refine ⟨?_, by rw [hbits, hnat]⟩
  cases hnan : (Float.ofBits bits.toUInt64).isNaN with
  | false => rfl
  | true =>
    have hvalid := (Float.ofBits bits.toUInt64).toModel.valid
    have hpacked := (unpack_eq_notANumber_iff_of_valid hvalid).mp (isNaN_iff.mp hnan)
    have htoNat := congrArg BitVec.toNat hpacked
    change (Float.ofBits bits.toUInt64).toBits.toNat = 0x7FF8000000000000 at htoNat
    rw [hbits, hnat] at htoNat
    omega

theorem floatValue_ofBits {bits : ℕ} (h : bits ≤ infinityBits) :
    floatValue (Float.ofBits bits.toUInt64) = bitsValue bits := by
  have hinfinity : infinityBits = 2047 * 2 ^ 52 := rfl
  obtain ⟨hnumber, hbits⟩ := ofBits_spec h
  obtain ⟨other, hother, ⟨hsame, hvalue⟩ | ⟨hsigned, -⟩⟩ := floatValue_cases hnumber
  · rw [hvalue, ← hsame, hbits]
  · omega

theorem eq_of_toBits {x y : Float} (h : x.toBits = y.toBits) : x = y := by
  obtain ⟨⟨b, hb⟩⟩ := x
  obtain ⟨⟨b', hb'⟩⟩ := y
  cases (h : b = b')
  rfl

theorem RoundsTo.isNearest {q : ℚ} (hq : 0 ≤ q) {bits : ℕ}
    (h : RoundsTo bitsValue (Set.Iic infinityBits) q bits) :
    IsNearest (Float.ofBits bits.toUInt64) q := by
  have hinfinity : infinityBits = 2047 * 2 ^ 52 := rfl
  have hle : bits ≤ infinityBits := h.mem
  obtain ⟨hnumber, hbits⟩ := ofBits_spec hle
  have hvalue := floatValue_ofBits hle
  have hzero : bitsValue 0 = 0 := by simp [bitsValue]
  have hnonneg (m : ℕ) : 0 ≤ bitsValue m := by
    rw [← hzero]
    exact strictMono_bitsValue.monotone (Nat.zero_le m)
  -- A float with a sign is not nearer than without it.
  have hsigned (m : ℕ) : |q - bitsValue m| ≤ |q - -bitsValue m| := by
    have hpos := hnonneg m
    rw [sub_neg_eq_add, abs_of_nonneg (by linarith : 0 ≤ q + bitsValue m), abs_le]
    constructor <;> linarith
  refine ⟨hnumber, by omega, ?_, ?_⟩
  · intro y hy
    rw [hvalue]
    obtain ⟨other, hother, ⟨-, hy⟩ | ⟨-, hy⟩⟩ := floatValue_cases hy
    · rw [hy]
      exact h.nearest other hother
    · rw [hy]
      exact (h.nearest other hother).trans (hsigned other)
  · intro y hy hne hsame
    rw [hvalue] at hsame
    rw [hbits]
    obtain ⟨other, hother, ⟨hsame_bits, hy⟩ | ⟨-, hy⟩⟩ := floatValue_cases hy
    · rw [hy] at hsame
      refine h.even other hother ?_ hsame
      rintro rfl
      exact hne (eq_of_toBits (UInt64.toNat_inj.mp (hsame_bits.trans hbits.symm)))
    · rw [hy] at hsame
      by_cases heq : other = bits
      · -- Only zero is as near with a sign.
        subst heq
        have hnearest := h.nearest 0 (Nat.zero_le _)
        have hpos := hnonneg other
        rw [← hsame, hzero, sub_zero, sub_neg_eq_add, abs_of_nonneg hq,
          abs_of_nonneg (by linarith)] at hnearest
        have hvalue_zero : bitsValue other = bitsValue 0 := by linarith
        rw [strictMono_bitsValue.injective hvalue_zero]
        exact Even.zero
      · exact h.even other hother heq
          (le_antisymm ((hsigned other).trans hsame.le) (h.nearest other hother))

theorem IsNearest.roundsTo {x : Float} {q : ℚ} (h : IsNearest x q) :
    RoundsTo bitsValue (Set.Iic infinityBits) q x.toBits.toNat := by
  have hunsigned := h.unsigned
  obtain ⟨bits, hle, ⟨hbits, hvalue⟩ | ⟨hbits, -⟩⟩ := floatValue_cases h.number
  · rw [← hbits] at hle hvalue
    refine ⟨hle, ?_, ?_⟩
    · intro m hm
      have hnearest := h.nearest _ (ofBits_spec hm).1
      rwa [hvalue, floatValue_ofBits hm] at hnearest
    · intro m hm hne hsame
      rw [← hvalue, ← floatValue_ofBits hm] at hsame
      refine h.even _ (ofBits_spec hm).1 ?_ hsame
      intro heq
      rw [← heq, (ofBits_spec hm).2] at hne
      exact hne rfl
  · omega

theorem IsNearest.unique {x y : Float} {q : ℚ} (h : IsNearest x q) (h' : IsNearest y q) : x = y :=
  eq_of_toBits (UInt64.toNat_inj.mp (h.roundsTo.unique strictMono_bitsValue h'.roundsTo))

/-- What is made of the digits of a number is the one float that is nearest to it. -/
theorem isNearest_iff_ofDigits? {whole fraction : List Char} (hdigits : whole ≠ [] ∨ fraction ≠ [])
    (x : Float) :
    IsNearest x (digitsValue (whole ++ fraction) / 10 ^ fraction.length) ↔
      ofDigits? whole fraction = some x := by
  have hden : 0 < 10 ^ fraction.length := Nat.pow_pos (Nat.succ_pos 9)
  have hrounds := roundsTo_nearestBits (digitsValue (whole ++ fraction)) hden
  rw [Nat.cast_pow, Nat.cast_ofNat] at hrounds
  have hnearest := hrounds.isNearest (by positivity)
  rw [ofDigits?, if_neg (by simpa [imp_iff_not_or] using hdigits), Option.some_inj]
  constructor
  · intro hx
    exact hnearest.unique hx
  · rintro rfl
    exact hnearest

end ConsoleScript.Decimal
