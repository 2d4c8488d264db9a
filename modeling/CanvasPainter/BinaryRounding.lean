import Mathlib.Data.Int.Log
import Mathlib.Data.Rat.Floor
import Mathlib.Tactic.Linarith
import Mathlib.Tactic.Ring

namespace BinaryRounding

-- A binary floating-point format: the digits of a significand, and the exponents its last place can have.
structure Format where
  precision : Nat
  least : Int
  greatest : Int
  deriving DecidableEq, Repr

variable {format : Format} {value more : ℚ} {significand exponent : Int}

def Representable (format : Format) (value : ℚ) : Prop :=
  ∃ significand exponent : Int, |significand| < 2^format.precision ∧ format.least ≤ exponent ∧
    exponent ≤ format.greatest ∧ value = significand * 2^exponent

-- The nearest integer, and of two the even one.
def nearest (value : ℚ) : Int :=
  if value - ⌊value⌋ < 1/2 ∨ value - ⌊value⌋ = 1/2 ∧ ⌊value⌋ % 2 = 0 then ⌊value⌋ else ⌊value⌋ + 1

-- The exponent of the last place of a value of this size.
def lastPlace (format : Format) (value : ℚ) : Int :=
  max (Int.log 2 |value| + 1 - format.precision) format.least

-- The greatest exponent plays no part: what overflows is left as it is.
def rounded (format : Format) (value : ℚ) : ℚ :=
  nearest (value / 2^lastPlace format value) * 2^lastPlace format value

theorem nearest_intCast (whole : Int) : nearest whole = whole := by
  simp [nearest]

theorem power_pos (exponent : Int) : (0 : ℚ) < 2^exponent := zpow_pos (by norm_num) exponent

theorem abs_scaled : |(significand : ℚ) * 2^exponent| = |significand| * 2^exponent := by
  rw [abs_mul,abs_of_pos (power_pos exponent),Int.cast_abs]

theorem scaled_lt (digits : |significand| < 2^format.precision) :
    |(significand : ℚ) * 2^exponent| < 2^((format.precision : Int) + exponent) := by
  have below : ((|significand| : Int) : ℚ) < 2^format.precision := by exact_mod_cast digits
  rw [abs_scaled,zpow_add₀ (by norm_num),zpow_natCast]
  exact mul_lt_mul_of_pos_right below (power_pos exponent)

-- A value with few enough digits has them all before its last place.
theorem lastPlace_le (nonzero : significand ≠ 0) (digits : |significand| < 2^format.precision)
    (least : format.least ≤ exponent) : lastPlace format (significand * 2^exponent) ≤ exponent := by
  have nonzero : (significand : ℚ) * 2^exponent ≠ 0 :=
    mul_ne_zero (by exact_mod_cast nonzero) (ne_of_gt (power_pos exponent))
  have size : Int.log 2 |(significand : ℚ) * 2^exponent| < format.precision + exponent :=
    (Int.lt_zpow_iff_log_lt (by norm_num) (abs_pos.mpr nonzero)).mp (by exact_mod_cast scaled_lt digits)
  exact max_le (by omega) least

theorem rounded_representable (exact' : Representable format value) : rounded format value = value := by
  obtain ⟨significand,exponent,digits,least,_,rfl⟩ := exact'
  by_cases zero : significand = 0
  · subst zero
    have zero : nearest 0 = 0 := nearest_intCast 0
    simp [rounded,zero]
  · have place := lastPlace_le zero digits least
    obtain ⟨shift,same⟩ := Int.le.dest place
    -- In units of the last place the value is whole.
    have units : (significand : ℚ) * 2^exponent / 2^lastPlace format (significand * 2^exponent) =
        ((significand * 2^shift : Int) : ℚ) := by
      rw [div_eq_iff (ne_of_gt (power_pos _)),Int.cast_mul,Int.cast_pow,mul_assoc]
      congr 1
      conv_lhs => rw [← same]
      rw [zpow_add₀ (by norm_num),zpow_natCast,mul_comm]
      norm_num
    rw [rounded,units,nearest_intCast,← units,div_mul_cancel₀ _ (ne_of_gt (power_pos _))]

theorem Representable.neg (exact' : Representable format value) : Representable format (-value) := by
  obtain ⟨significand,exponent,digits,least,greatest,rfl⟩ := exact'
  exact ⟨-significand,exponent,by rwa [abs_neg],least,greatest,by rw [Int.cast_neg,neg_mul]⟩

theorem Representable.abs_lt (exact' : Representable format value) :
    |value| < 2^((format.precision : Int) + format.greatest) := by
  obtain ⟨significand,exponent,digits,_,greatest,rfl⟩ := exact'
  refine lt_of_lt_of_le (scaled_lt digits) ?_
  exact zpow_le_zpow_right₀ (by norm_num) (by omega)

-- Doubling loses nothing, short of the greatest value.
theorem Representable.shifted (exact' : Representable format value) (range : format.least ≤ format.greatest) (shift : Nat)
    (fits : |value * 2^shift| < 2^((format.precision : Int) + format.greatest)) :
    Representable format (value * 2^shift) := by
  obtain ⟨significand,exponent,digits,least,greatest,rfl⟩ := exact'
  have moved : (significand : ℚ) * 2^exponent * 2^shift = significand * 2^(exponent + shift) := by
    rw [zpow_add₀ (by norm_num),zpow_natCast,mul_assoc]
  rw [moved] at fits ⊢
  by_cases room : exponent + shift ≤ format.greatest
  · exact ⟨significand,exponent + shift,digits,by omega,room,rfl⟩
  · obtain ⟨extra,same⟩ := Int.le.dest (Int.le_of_lt (Int.not_le.mp room))
    have spread : (significand : ℚ) * 2^(exponent + shift) = ((significand * 2^extra : Int) : ℚ) * 2^format.greatest := by
      rw [← same,zpow_add₀ (by norm_num),zpow_natCast]
      push_cast
      ring
    refine ⟨significand * 2^extra,format.greatest,?_,range,Int.le_refl _,spread⟩
    rw [spread,abs_scaled,zpow_add₀ (by norm_num),zpow_natCast] at fits
    exact_mod_cast lt_of_mul_lt_mul_right fits (le_of_lt (power_pos _))

end BinaryRounding
