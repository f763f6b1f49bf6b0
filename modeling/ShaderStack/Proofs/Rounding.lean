import Mathlib.Tactic.Ring
import ShaderStack.Frame.Driver

/-! Bounds of rounded quotients, and the frame caps whose interval has a representation.

Magnitudes are compared with the start of a binade: the value reaches `2 ^ (fractionBits + s)` units
exactly where the magnitude reaches `s + 1` significand fields. -/
namespace ShaderStack

theorem le_roundHalfEven (num den : Nat) : num / den ≤ roundHalfEven num den := by
  dsimp only [roundHalfEven]
  split
  · exact Nat.le_refl _
  · split <;> omega

theorem roundHalfEven_le (num den : Nat) : roundHalfEven num den ≤ num / den + 1 := by
  dsimp only [roundHalfEven]
  split
  · omega
  · split <;> omega

namespace BinaryFormat

variable {format : BinaryFormat} {magnitude num den : Nat}

/-- Below the first binade, units are counted one by one. -/
theorem units_of_lt (low : magnitude < 2 ^ format.fractionBits) :
    format.units magnitude = magnitude := by
  simp [units, significand, binade, low, Nat.mod_eq_of_lt low, Nat.div_eq_of_lt low]

/-- From the first binade on, the significand has a leading one. -/
theorem units_of_le (high : 2 ^ format.fractionBits ≤ magnitude) :
    format.units magnitude = (2 ^ format.fractionBits + magnitude % 2 ^ format.fractionBits) *
      2 ^ (magnitude / 2 ^ format.fractionBits - 1) := by
  simp [units, significand, binade, Nat.not_lt.mpr high]

theorem units_pos (positive : 0 < magnitude) : 0 < format.units magnitude := by
  by_cases low : magnitude < 2 ^ format.fractionBits
  · rwa [units_of_lt low]
  · rw [units_of_le (Nat.not_lt.mp low)]
    have one : 0 < 2 ^ format.fractionBits := Nat.two_pow_pos _
    apply Nat.mul_pos
    · omega
    · exact Nat.two_pow_pos _

/-- Where a binade starts. -/
theorem two_pow_le_units_iff (format : BinaryFormat) (magnitude s : Nat) :
    2 ^ (format.fractionBits + s) ≤ format.units magnitude ↔
      (s + 1) * 2 ^ format.fractionBits ≤ magnitude := by
  have one : 0 < 2 ^ format.fractionBits := Nat.two_pow_pos _
  have start : (s + 1) * 2 ^ format.fractionBits ≤ magnitude ↔
      s + 1 ≤ magnitude / 2 ^ format.fractionBits := (Nat.le_div_iff_mul_le one).symm
  rw [start]
  by_cases low : magnitude < 2 ^ format.fractionBits
  · have least : 2 ^ format.fractionBits ≤ 2 ^ (format.fractionBits + s) :=
      Nat.pow_le_pow_right (by omega) (by omega)
    rw [units_of_lt low, Nat.div_eq_of_lt low]
    omega
  · have high := Nat.not_lt.mp low
    rw [units_of_le high]
    have field : 1 ≤ magnitude / 2 ^ format.fractionBits := (Nat.one_le_div_iff one).mpr high
    obtain ⟨q, quotient⟩ := Nat.exists_eq_add_of_le' field
    rw [quotient, Nat.add_sub_cancel]
    have part : magnitude % 2 ^ format.fractionBits < 2 ^ format.fractionBits := Nat.mod_lt _ one
    constructor
    · intro reached
      by_contra below
      have less : (2 ^ format.fractionBits + magnitude % 2 ^ format.fractionBits) * 2 ^ q <
          2 ^ (format.fractionBits + s) := by
        calc (2 ^ format.fractionBits + magnitude % 2 ^ format.fractionBits) * 2 ^ q
            < (2 ^ format.fractionBits * 2) * 2 ^ q :=
              Nat.mul_lt_mul_of_pos_right (by omega) (Nat.two_pow_pos q)
          _ = 2 ^ (format.fractionBits + 1 + q) := by ring
          _ ≤ 2 ^ (format.fractionBits + s) := Nat.pow_le_pow_right (by omega) (by omega)
      omega
    · intro reached
      calc 2 ^ (format.fractionBits + s) ≤ 2 ^ (format.fractionBits + q) :=
            Nat.pow_le_pow_right (by omega) (by omega)
        _ = 2 ^ format.fractionBits * 2 ^ q := Nat.pow_add ..
        _ ≤ (2 ^ format.fractionBits + magnitude % 2 ^ format.fractionBits) * 2 ^ q :=
          Nat.mul_le_mul_right _ (by omega)

/-- Numbers of a binade are spaced by the weight of their last bit. -/
theorem add_le_units (s : Nat)
    (above : 2 ^ (format.fractionBits + s) < format.units magnitude) :
    2 ^ (format.fractionBits + s) + 2 ^ s ≤ format.units magnitude := by
  have one : 0 < 2 ^ format.fractionBits := Nat.two_pow_pos _
  have reached := (two_pow_le_units_iff format magnitude s).mp above.le
  have field : s + 1 ≤ magnitude / 2 ^ format.fractionBits := (Nat.le_div_iff_mul_le one).mpr reached
  have high : 2 ^ format.fractionBits ≤ magnitude :=
    (Nat.one_le_div_iff one).mp (by omega)
  have whole : 2 ^ s ∣ format.units magnitude := by
    rw [units_of_le high]
    exact Dvd.dvd.mul_left (Nat.pow_dvd_pow 2 (by omega)) _
  obtain ⟨k, units⟩ := whole
  rw [units, Nat.pow_add, Nat.mul_comm (2 ^ format.fractionBits)] at above ⊢
  have more : 2 ^ format.fractionBits + 1 ≤ k := Nat.lt_of_mul_lt_mul_left above
  calc 2 ^ s * 2 ^ format.fractionBits + 2 ^ s = 2 ^ s * (2 ^ format.fractionBits + 1) := by ring
    _ ≤ 2 ^ s * k := Nat.mul_le_mul_left _ more

section Round

/-- The binade that a quotient is rounded in. -/
theorem lt_two_pow_shift (format : BinaryFormat) (quotient : Nat) :
    quotient / 2 ^ (quotient.log2 - format.fractionBits) < 2 ^ (format.fractionBits + 1) := by
  rw [Nat.div_lt_iff_lt_mul (Nat.two_pow_pos _), ← Nat.pow_add]
  calc quotient < 2 ^ (quotient.log2 + 1) := Nat.lt_log2_self
    _ ≤ 2 ^ (format.fractionBits + 1 + (quotient.log2 - format.fractionBits)) :=
      Nat.pow_le_pow_right (by omega) (by omega)

/-- Rounding adds the fields of the binade to the significand. -/
theorem round_eq : format.round num den =
    let quotient := num * 2 ^ format.scale / den
    let shift := quotient.log2 - format.fractionBits
    min (shift * 2 ^ format.fractionBits +
      roundHalfEven (num * 2 ^ format.scale) (den * 2 ^ shift)) format.infinity := rfl

/-- A quotient that reaches a binade is rounded into it or above it. -/
theorem le_round (s : Nat) (positive : 0 < den)
    (reached : den * 2 ^ (format.fractionBits + s) ≤ num * 2 ^ format.scale) :
    min ((s + 1) * 2 ^ format.fractionBits) format.infinity ≤ format.round num den := by
  have least : 2 ^ (format.fractionBits + s) ≤ num * 2 ^ format.scale / den := by
    rw [Nat.le_div_iff_mul_le positive, Nat.mul_comm]
    exact reached
  rw [round_eq]
  dsimp only
  have rounded := le_roundHalfEven (num * 2 ^ format.scale)
    (den * 2 ^ ((num * 2 ^ format.scale / den).log2 - format.fractionBits))
  rw [← Nat.div_div_eq_div_mul] at rounded
  generalize num * 2 ^ format.scale / den = quotient at least rounded ⊢
  have nonzero : quotient ≠ 0 := by
    rintro rfl
    exact absurd least (Nat.not_le.mpr (Nat.two_pow_pos _))
  have deep : format.fractionBits + s ≤ quotient.log2 := (Nat.le_log2 nonzero).mpr least
  have leading : 2 ^ format.fractionBits ≤
      quotient / 2 ^ (quotient.log2 - format.fractionBits) := by
    rw [Nat.le_div_iff_mul_le (Nat.two_pow_pos _), ← Nat.pow_add,
      Nat.add_sub_cancel' (by omega)]
    exact Nat.log2_self_le nonzero
  have fields : s * 2 ^ format.fractionBits ≤
      (quotient.log2 - format.fractionBits) * 2 ^ format.fractionBits :=
    Nat.mul_le_mul_right _ (by omega)
  apply min_le_min_right
  rw [Nat.succ_mul]
  omega

/-- A quotient clear of the next binade, by a unit of its last place, is rounded below it. -/
theorem round_lt (s : Nat) (positive : 0 < den) (clear : num * 2 ^ format.scale <
      den * ((2 ^ (format.fractionBits + 1) - 1) * 2 ^ s)) :
    format.round num den < (s + 2) * 2 ^ format.fractionBits := by
  have most : num * 2 ^ format.scale / den < (2 ^ (format.fractionBits + 1) - 1) * 2 ^ s := by
    rw [Nat.div_lt_iff_lt_mul positive, Nat.mul_comm _ den]
    exact clear
  rw [round_eq]
  dsimp only
  have rounded := roundHalfEven_le (num * 2 ^ format.scale)
    (den * 2 ^ ((num * 2 ^ format.scale / den).log2 - format.fractionBits))
  rw [← Nat.div_div_eq_div_mul] at rounded
  generalize num * 2 ^ format.scale / den = quotient at most rounded ⊢
  have field : 0 < 2 ^ format.fractionBits := Nat.two_pow_pos _
  have double : 2 ^ (format.fractionBits + 1) = 2 * 2 ^ format.fractionBits := Nat.pow_succ' ..
  have short := lt_two_pow_shift format quotient
  apply lt_of_le_of_lt (min_le_left ..)
  rw [Nat.add_mul]
  rcases Nat.lt_trichotomy (quotient.log2 - format.fractionBits) s with less | same | more
  · -- In a lower binade the significand may carry over to the next one.
    have fields : (quotient.log2 - format.fractionBits + 1) * 2 ^ format.fractionBits ≤
        s * 2 ^ format.fractionBits := Nat.mul_le_mul_right _ (by omega)
    rw [Nat.succ_mul] at fields
    omega
  · rw [same] at rounded short ⊢
    have inside : quotient / 2 ^ s < 2 ^ (format.fractionBits + 1) - 1 := by
      rw [Nat.div_lt_iff_lt_mul (Nat.two_pow_pos s)]
      exact most
    omega
  · have nonzero : quotient ≠ 0 := by
      rintro rfl
      simp at more
    have reached : 2 ^ (format.fractionBits + 1 + s) ≤ quotient :=
      (Nat.le_log2 nonzero).mp (by omega)
    rw [Nat.pow_add] at reached
    have less : (2 ^ (format.fractionBits + 1) - 1) * 2 ^ s ≤
        2 ^ (format.fractionBits + 1) * 2 ^ s := Nat.mul_le_mul_right _ (by omega)
    omega

end Round
end BinaryFormat

namespace Single

variable {x : Single}

theorem magnitude_ofMagnitude {negative : Bool} {magnitude : Nat} (fits : magnitude < signBit) :
    (ofMagnitude negative magnitude).magnitude = magnitude := by
  unfold ofMagnitude Single.magnitude
  unfold signBit at *
  cases negative <;> simp <;> omega

theorem magnitude_reciprocal :
    x.reciprocal.magnitude = BinaryFormat.single.round unitsPerOne x.units := by
  apply magnitude_ofMagnitude
  have most : BinaryFormat.single.round unitsPerOne x.units ≤ BinaryFormat.single.infinity :=
    min_le_right ..
  have small : BinaryFormat.single.infinity < signBit := by decide
  omega

theorem units_pos (nonzero : x.isZero = false) : 0 < x.units := by
  apply BinaryFormat.units_pos
  simp only [isZero, decide_eq_false_iff_not] at nonzero
  omega

/-- Seconds have a representation below the binade of `2 ^ 64`. -/
theorem hasInterval_iff : FrameDriver.hasInterval x ↔ x.magnitude < 191 * 2 ^ 23 := by
  have binade : 2 ^ (23 + 190) ≤ x.units ↔ (190 + 1) * 2 ^ 23 ≤ x.magnitude :=
    BinaryFormat.two_pow_le_units_iff .single x.magnitude 190
  have limit : Nat.pow 2 64 * unitsPerOne = 2 ^ (23 + 190) := by decide +kernel
  have infinity : BinaryFormat.single.infinity = 255 * 2 ^ 23 := by decide
  simp only [FrameDriver.hasInterval, isFinite, Bool.and_eq_true, decide_eq_true_eq, limit, infinity]
  omega

/-- The interval of a cap has a representation exactly from a little above `2 ^ (-64)` on. -/
theorem hasInterval_reciprocal (nonzero : x.isZero = false) :
    FrameDriver.hasInterval x.reciprocal ↔ 2 ^ 85 < x.units := by
  have positive := units_pos nonzero
  have fraction : BinaryFormat.single.fractionBits = 23 := rfl
  have square : unitsPerOne * 2 ^ BinaryFormat.single.scale = 2 ^ 149 * 2 ^ 149 := by decide +kernel
  rw [hasInterval_iff, magnitude_reciprocal]
  constructor
  · intro short
    by_contra small
    have reached : x.units * 2 ^ (23 + 190) ≤ unitsPerOne * 2 ^ BinaryFormat.single.scale := by
      rw [square]
      calc x.units * 2 ^ (23 + 190) ≤ 2 ^ 85 * 2 ^ (23 + 190) :=
            Nat.mul_le_mul_right _ (Nat.not_lt.mp small)
        _ = 2 ^ 149 * 2 ^ 149 := by decide +kernel
    rw [← fraction] at reached
    have above := BinaryFormat.le_round 190 positive reached
    rw [fraction] at above
    have infinity : BinaryFormat.single.infinity = 255 * 2 ^ 23 := by decide
    omega
  · intro large
    -- The next number above `2 ^ (-64)` leaves enough room for rounding.
    have next := @BinaryFormat.add_le_units .single x.magnitude 62 (by rw [fraction]; exact large)
    rw [fraction] at next
    have room : unitsPerOne * 2 ^ BinaryFormat.single.scale <
        x.units * ((2 ^ (23 + 1) - 1) * 2 ^ 189) := by
      rw [square]
      calc 2 ^ 149 * 2 ^ 149 < (2 ^ (23 + 62) + 2 ^ 62) * ((2 ^ (23 + 1) - 1) * 2 ^ 189) := by
            decide +kernel
        _ ≤ x.units * ((2 ^ (23 + 1) - 1) * 2 ^ 189) := Nat.mul_le_mul_right _ next
    rw [← fraction] at room
    have below := BinaryFormat.round_lt 189 positive room
    rwa [fraction] at below

end Single
end ShaderStack
