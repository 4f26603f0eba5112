import Nodal.Decimal.Shortest
import Nodal.Proofs.Decimal.Double
/-!
# Rounding to the nearest double

A double stands for every number between the midpoints to its two neighbours (`Dyadic.Covers`). Whatever
is computed exactly up to the last step and lies there is rounded to this double
(`Decimal.roundWithAccuracy_eq`), products and quotients among it.
-/

namespace Nodal.Decimal

open Float.Model
open Float.Model.UnpackedFloat

/-! ### Approximations -/

/-- Whether `m` is the whole part of `w`, and `w` lies in the half of the unit behind it that the accuracy
says. -/
def Within (m : Nat) (w : ℚ) : Accuracy → Prop
  | .exact => w = m
  | .inexact .lt => m < w ∧ w < m + 1 / 2
  | .inexact .eq => w = m + 1 / 2
  | .inexact .gt => m + 1 / 2 < w ∧ w < m + 1

/-- The whole part of a number lies within one below it. -/
lemma Within.floor {m : Nat} {w : ℚ} {acc : Accuracy} (h : Within m w acc) : m ≤ w ∧ w < m + 1 := by
  cases acc with
  | exact =>
    change w = m at h
    constructor <;> linarith
  | inexact o =>
    cases o with
    | lt => exact ⟨h.1.le, by linarith [h.2]⟩
    | eq =>
      change w = m + 1 / 2 at h
      constructor <;> linarith
    | gt => exact ⟨by linarith [h.1], h.2⟩

/-- Whether `r` is the whole number nearest `w`, the even one of two that are equally near. -/
structure RoundsTo (w : ℚ) (r : Nat) : Prop where
  low : (r : ℚ) - 1 / 2 ≤ w
  high : w ≤ r + 1 / 2
  tie : w = (r : ℚ) - 1 / 2 ∨ w = r + 1 / 2 → r % 2 = 0

/-- A mantissa is rounded to the nearest whole number. -/
lemma roundToNearestEven_eq {m r : Nat} {w : ℚ} {acc : Accuracy} (h : Within m w acc)
    (hr : RoundsTo w r) : acc.roundToNearestEven m = r := by
  obtain ⟨hlow, hhigh, htie⟩ := hr
  cases acc with
  | exact =>
    change w = m at h
    have h1 : (r : ℚ) < m + 1 := by linarith
    have h2 : (m : ℚ) < r + 1 := by linarith
    norm_cast at h1 h2
    change m = r
    omega
  | inexact o =>
    obtain ⟨hf1, hf2⟩ := h.floor
    cases o with
    | lt =>
      have h1 : (r : ℚ) < m + 1 := by linarith [h.2]
      have h2 : (m : ℚ) < r + 1 := by linarith [h.1]
      norm_cast at h1 h2
      change m = r
      omega
    | eq =>
      -- the tie goes to the even one of two neighbours
      change w = m + 1 / 2 at h
      have h1 : (r : ℚ) ≤ m + 1 := by linarith
      have h2 : (m : ℚ) ≤ r := by linarith
      norm_cast at h1 h2
      change m + m % 2 = r
      rcases Nat.eq_or_lt_of_le h2 with rfl | hlt
      · have := htie (.inr h)
        omega
      · obtain rfl : r = m + 1 := by omega
        have := htie (.inl (by push_cast; linarith))
        omega
    | gt =>
      have h1 : (r : ℚ) < m + 2 := by linarith [h.2]
      have h2 : (m : ℚ) < r := by linarith [h.1]
      norm_cast at h1 h2
      change m + 1 = r
      omega

/-- An extended mantissa keeps the mantissa it is made of. -/
@[simp] lemma mantissa_ofMantissaAndAccuracy (m : Nat) (acc : Accuracy) :
    (ExtendedMantissa.ofMantissaAndAccuracy m acc).mantissa = m := by
  cases acc with
  | exact => rfl
  | inexact o => cases o <;> rfl

/-- An extended mantissa keeps the accuracy it is made of. -/
@[simp] lemma accuracy_ofMantissaAndAccuracy (m : Nat) (acc : Accuracy) :
    (ExtendedMantissa.ofMantissaAndAccuracy m acc).accuracy = acc := by
  cases acc with
  | exact => rfl
  | inexact o => cases o <;> rfl

/-- A shift by one bit keeps what is known of a number, in units twice as large. -/
lemma within_shiftRightOne {em : ExtendedMantissa} {w : ℚ} (h : Within em.mantissa w em.accuracy) :
    Within em.shiftRightOne.mantissa (w / 2) em.shiftRightOne.accuracy := by
  obtain ⟨m, round, sticky⟩ := em
  have hm : (m : ℚ) = 2 * (m / 2 : Nat) + (m % 2 : Nat) := by
    exact_mod_cast (Nat.div_add_mod m 2).symm
  -- the last bit becomes the new first one of the rest, and the old ones are taken together
  rcases Nat.mod_two_eq_zero_or_one m with h0 | h0
  all_goals
    rw [h0] at hm
    push_cast at hm
    cases round <;> cases sticky <;>
      simp only [ExtendedMantissa.shiftRightOne, ExtendedMantissa.accuracy, Within, h0, Bool.or_false,
        Bool.or_true, Bool.or_self, bne_self_eq_false, Nat.reduceBNe] at h ⊢
  all_goals first | linarith | exact ⟨by linarith [h.1], by linarith [h.2]⟩ |
    exact ⟨by linarith, by linarith⟩

/-- Shifts keep what is known of a number. -/
lemma within_shiftRight {em : ExtendedMantissa} {w : ℚ} (h : Within em.mantissa w em.accuracy)
    (k : Nat) : Within (em >>> k).mantissa (w / 2 ^ k) (em >>> k).accuracy := by
  induction k with
  | zero =>
    rw [pow_zero, div_one]
    exact h
  | succ k ih =>
    rw [pow_succ, ← div_div]
    exact within_shiftRightOne ih

/-- To shift an extended mantissa is to divide its mantissa. -/
lemma mantissa_shiftRight (em : ExtendedMantissa) (k : Nat) :
    (em >>> k).mantissa = em.mantissa / 2 ^ k := by
  induction k with
  | zero => exact (Nat.div_one em.mantissa).symm
  | succ k ih =>
    rw [pow_succ, ← Nat.div_div_eq_div_mul, ← ih]
    rfl

/-! ### The numbers that a double stands for -/

namespace Dyadic

/-- Whether a positive dyadic number is a double. -/
structure Normal (x : Dyadic) : Prop where
  pos : 0 < x.mantissa
  bits : x.mantissa < 2 ^ 53
  least : -1074 ≤ x.exponent
  greatest : x.exponent ≤ 971
  full : 2 ^ 52 ≤ x.mantissa ∨ x.exponent = -1074
  narrow_iff : x.narrow = true ↔ x.mantissa = 2 ^ 52 ∧ -1074 < x.exponent

/-- The distance from a double down to the midpoint between it and the next one, in its own units. -/
def gap (x : Dyadic) : ℚ :=
  if x.narrow then 1 / 4 else 1 / 2

/-- Whether a double stands for the number `v`: no double is nearer to `v`, and if another one is as near,
the mantissa of `x` is even. -/
structure Covers (x : Dyadic) (v : ℚ) : Prop where
  low : x.mantissa - x.gap ≤ v / 2 ^ x.exponent
  high : v / 2 ^ x.exponent ≤ x.mantissa + 1 / 2
  tie : v / 2 ^ x.exponent = x.mantissa - x.gap ∨ v / 2 ^ x.exponent = x.mantissa + 1 / 2 →
    x.mantissa % 2 = 0

/-- A midpoint is at most half a unit away. -/
lemma gap_le (x : Dyadic) : x.gap ≤ 1 / 2 := by
  unfold gap
  split <;> norm_num

/-- A midpoint is at least a quarter of a unit away. -/
lemma le_gap (x : Dyadic) : 1 / 4 ≤ x.gap := by
  unfold gap
  split <;> norm_num

/-- In its own units a number is rounded to the mantissa of the double that stands for it. -/
lemma Covers.roundsTo {x : Dyadic} {v : ℚ} (h : x.Covers v) : RoundsTo (v / 2 ^ x.exponent) x.mantissa where
  low := by linarith [h.low, x.gap_le]
  high := h.high
  tie := by
    rintro (he | he)
    · -- the midpoint below is no farther away than half a unit
      exact h.tie (.inl (le_antisymm (by linarith [x.gap_le]) h.low))
    · exact h.tie (.inr he)

end Dyadic

/-! ### Shifts to the exponent of the format -/

/-- A double aims at 53 bits, unless this goes below the least exponent. -/
lemma targetExponent_binary64 (t : Int) : Format.binary64.targetExponent t = max (t - 53) (-1074) :=
  rfl

/-- To divide by a power of two can be done in two steps. -/
lemma div_zpow_add (v : ℚ) (e : Int) (k : Nat) : v / 2 ^ (e + k) = v / 2 ^ e / 2 ^ k := by
  rw [zpow_add₀ two_ne_zero, zpow_natCast, div_div]

/-- The first shift finds the bits that the format keeps, if there were as many or more before. -/
lemma shiftToTargetExponent_spec {m : Nat} {e : Int} {acc : Accuracy} {v : ℚ}
    (h : Within m (v / 2 ^ e) acc) (hbits : 2 ^ 52 ≤ m ∨ e ≤ -1074) :
    ∃ em t, shiftToTargetExponent .binary64 m e acc = (em, t) ∧
      Within em.mantissa (v / 2 ^ t) em.accuracy ∧ -1074 ≤ t ∧ em.mantissa < 2 ^ 53 ∧
      (2 ^ 52 ≤ em.mantissa ∨ t = -1074) := by
  have hm : 2 ^ 52 ≤ m → 52 ≤ m.log2 := fun hle => (Nat.le_log2 (by omega)).2 hle
  have ht : Format.binary64.targetExponent (totalExponent m e) =
      max ((m.log2 : Int) + 1 + e - 53) (-1074) := rfl
  refine ⟨_, _, rfl, ?_⟩
  rw [ht]
  generalize hk : (max ((m.log2 : Int) + 1 + e - 53) (-1074) - e).toNat = k
  rw [mantissa_shiftRight, mantissa_ofMantissaAndAccuracy, div_zpow_add]
  refine ⟨?_, by omega, ?_, ?_⟩
  · have hm' : Within (ExtendedMantissa.ofMantissaAndAccuracy m acc).mantissa (v / 2 ^ e)
        (ExtendedMantissa.ofMantissaAndAccuracy m acc).accuracy := by
      rwa [mantissa_ofMantissaAndAccuracy, accuracy_ofMantissaAndAccuracy]
    have hw := within_shiftRight hm' k
    rwa [mantissa_shiftRight, mantissa_ofMantissaAndAccuracy] at hw
  · rw [Nat.div_lt_iff_lt_mul (Nat.two_pow_pos k), ← pow_add]
    exact (Nat.lt_log2_self).trans_le (Nat.pow_le_pow_right two_pos (by omega))
  · by_cases hl : (m.log2 : Int) + 1 + e - 53 ≤ -1074
    · exact .inr (by omega)
    · left
      have hpos : m ≠ 0 := by
        rintro rfl
        rcases hbits with hb | hb
        · exact absurd hb (by decide)
        · rw [Nat.log2_zero] at hl
          omega
      have hk' : m.log2 = 52 + k := by omega
      rw [Nat.le_div_iff_mul_le (Nat.two_pow_pos k), ← pow_add, ← hk']
      exact Nat.log2_self_le hpos

/-- What fits the format is not shifted. -/
lemma shiftToTargetExponent_of_lt {m : Nat} {e : Int} (hm : m < 2 ^ 53) (he : -1074 ≤ e) :
    shiftToTargetExponent .binary64 m e .exact = (.ofMantissaAndAccuracy m .exact, e) := by
  have hl : m.log2 < 53 := by
    by_cases h0 : m = 0
    · rw [h0, Nat.log2_zero]
      decide
    · exact (Nat.log2_lt h0).2 hm
  have hk : (Format.binary64.targetExponent (totalExponent m e) - e).toNat = 0 := by
    rw [targetExponent_binary64, totalExponent]
    omega
  simp only [shiftToTargetExponent, shiftToExponent, hk]
  rw [Int.natCast_zero, add_zero]
  rfl

/-- A mantissa that rounding has made too long by one bit is shifted back. -/
lemma shiftToTargetExponent_carry {e : Int} (he : -1074 ≤ e) :
    shiftToTargetExponent .binary64 (2 ^ 53) e .exact = (.ofMantissaAndAccuracy (2 ^ 52) .exact, e + 1) := by
  have hk : (Format.binary64.targetExponent (totalExponent (2 ^ 53) e) - e).toNat = 1 := by
    rw [targetExponent_binary64, totalExponent, Nat.log2_two_pow]
    omega
  simp only [shiftToTargetExponent, shiftToExponent, hk]
  rfl

/-- What lies just below a power of two and is rounded to it has the exponent of the numbers below. -/
lemma Dyadic.Covers.narrow_of_lt {x : Dyadic} (hx : x.Normal) {v : ℚ} (hv : x.Covers v) {t : Int}
    (ht : t < x.exponent) (hle : -1074 ≤ t) (hw : v / 2 ^ t < 2 ^ 53) :
    x.exponent = t + 1 ∧ x.mantissa = 2 ^ 52 ∧ (2 ^ 53 : ℚ) - 1 / 2 ≤ v / 2 ^ t := by
  obtain ⟨d, hd⟩ := Int.eq_ofNat_of_zero_le (show 0 ≤ x.exponent - t by omega)
  have he : x.exponent = t + d := by omega
  have hfull : 2 ^ 52 ≤ x.mantissa := hx.full.resolve_right (by omega)
  have hfull' : (2 ^ 52 : ℚ) ≤ x.mantissa := by exact_mod_cast hfull
  have hlow := hv.low
  rw [he, div_zpow_add, le_div_iff₀ (by positivity)] at hlow
  have hd1 : d = 1 := by
    by_contra hne
    have h4 : (2 : ℚ) ^ 2 ≤ 2 ^ d := pow_le_pow_right₀ (by norm_num) (by omega)
    have hmul : (x.mantissa - x.gap) * 2 ^ 2 ≤ (x.mantissa - x.gap) * 2 ^ d :=
      mul_le_mul_of_nonneg_left h4 (by linarith [x.gap_le])
    linarith [x.gap_le]
  subst hd1
  have hmant : x.mantissa = 2 ^ 52 := by
    have hlt : (x.mantissa : ℚ) < 2 ^ 52 + 1 := by linarith [x.gap_le]
    have hlt' : x.mantissa < 2 ^ 52 + 1 := by exact_mod_cast hlt
    omega
  refine ⟨he, hmant, ?_⟩
  have hnarrow : x.narrow = true := hx.narrow_iff.2 ⟨hmant, by omega⟩
  rw [gap, if_pos hnarrow, hmant] at hlow
  push_cast at hlow
  linarith

/-- Units in which a number has all the bits of a mantissa are no coarser than those of the double that
stands for it. -/
lemma Dyadic.Covers.le_exponent_of_full {x : Dyadic} (hx : x.Normal) {v : ℚ} (hv : x.Covers v) {t : Int}
    {m : Nat} (hm : 2 ^ 52 ≤ m) (hle : m ≤ v / 2 ^ t) : t ≤ x.exponent := by
  by_contra hgt
  obtain ⟨d, hd⟩ := Int.eq_ofNat_of_zero_le (show 0 ≤ t - x.exponent by omega)
  have he : t = x.exponent + d := by omega
  have hm' : (2 ^ 52 : ℚ) ≤ m := by exact_mod_cast hm
  have h2 : (2 : ℚ) ^ 1 ≤ 2 ^ d := pow_le_pow_right₀ (by norm_num) (by omega)
  have hmant : (x.mantissa : ℚ) + 1 ≤ 2 ^ 53 := by exact_mod_cast hx.bits
  rw [he, div_zpow_add, le_div_iff₀ (by positivity)] at hle
  have hmul : (m : ℚ) * 2 ^ 1 ≤ m * 2 ^ d := mul_le_mul_of_nonneg_left h2 (by positivity)
  linarith [hv.high]

/-- What lies near a double, and was computed with as many bits as it has, is rounded to this double. -/
theorem roundWithAccuracy_eq {x : Dyadic} (hx : x.Normal) {s : Sign} {m : Nat} {e : Int} {acc : Accuracy}
    {v : ℚ} (hm : Within m (v / 2 ^ e) acc) (hbits : 2 ^ 52 ≤ m ∨ e ≤ -1074) (hv : x.Covers v) :
    roundWithAccuracy .binary64 s m e acc = .finite s x.mantissa x.exponent hx.pos := by
  obtain ⟨em, t, hshift, hw, ht, hless, hfull⟩ := shiftToTargetExponent_spec hm hbits
  obtain ⟨hfloor, hceil⟩ := hw.floor
  have hrounded : ∀ r, RoundsTo (v / 2 ^ t) r → em.roundedMantissa = r :=
    fun r hr => roundToNearestEven_eq hw hr
  rcases lt_trichotomy t x.exponent with hlt | rfl | hgt
  · -- just below a power of two: rounding carries over into one more bit
    have hceil' : v / 2 ^ t < 2 ^ 53 := by
      have hle : (em.mantissa : ℚ) + 1 ≤ 2 ^ 53 := by exact_mod_cast hless
      linarith
    obtain ⟨he, hmant, hlow⟩ := hv.narrow_of_lt hx hlt ht hceil'
    have hr : em.roundedMantissa = 2 ^ 53 := by
      refine hrounded _ ⟨?_, ?_, fun _ => by decide⟩
      · push_cast
        linarith
      · push_cast
        linarith
    simp only [roundWithAccuracy, hshift, hr, shiftToTargetExponent_carry ht,
      mantissa_ofMantissaAndAccuracy]
    rw [dif_neg (by decide)]
    congr 1
    · exact hmant.symm
    · exact he.symm
  · have hr := hrounded _ hv.roundsTo
    simp only [roundWithAccuracy, hshift, hr, shiftToTargetExponent_of_lt hx.bits hx.least,
      mantissa_ofMantissaAndAccuracy, hx.pos.ne', dite_false]
  · have hq : 2 ^ 52 ≤ em.mantissa := hfull.resolve_right (by linarith [hx.least])
    exact absurd (hv.le_exponent_of_full hx hq hfloor) (not_le.2 hgt)

/-! ### Products and quotients -/

/-- What is left of a division says how far the quotient is from the whole number below it. -/
lemma within_div (m : Nat) {d : Nat} (hd : 0 < d) :
    Within (m / d) ((m : ℚ) / d) (accuracyOfFraction (m % d) d) := by
  have hd' : (0 : ℚ) < d := Nat.cast_pos.2 hd
  have hm : ((m / d : Nat) : ℚ) * d + (m % d : Nat) = m := by
    exact_mod_cast Nat.div_add_mod' m d
  have hq : (m : ℚ) / d = (m / d : Nat) + (m % d : Nat) / d := by
    rw [div_eq_iff hd'.ne', add_mul, div_mul_cancel₀ _ hd'.ne', hm]
  unfold accuracyOfFraction
  split
  · rename_i h0
    change (m : ℚ) / d = _
    rw [hq, h0]
    simp
  · rename_i h0
    have hpos : (0 : ℚ) < (m % d : Nat) / d := div_pos (Nat.cast_pos.2 (Nat.pos_of_ne_zero h0)) hd'
    have hlt : ((m % d : Nat) : ℚ) / d < 1 := (div_lt_one hd').2 (Nat.cast_lt.2 (Nat.mod_lt m hd))
    rcases Nat.lt_trichotomy (2 * (m % d)) d with hc | hc | hc
    · rw [Nat.compare_eq_lt.2 hc]
      have hc' : ((m % d : Nat) : ℚ) / d < 1 / 2 := by
        rw [div_lt_div_iff₀ hd' two_pos]
        exact_mod_cast (by omega : m % d * 2 < 1 * d)
      exact ⟨by linarith, by linarith⟩
    · rw [Nat.compare_eq_eq.2 hc]
      have hc' : ((m % d : Nat) : ℚ) / d = 1 / 2 := by
        rw [div_eq_div_iff hd'.ne' two_ne_zero]
        exact_mod_cast (by omega : m % d * 2 = 1 * d)
      change (m : ℚ) / d = _
      linarith
    · rw [Nat.compare_eq_gt.2 hc]
      have hc' : (1 : ℚ) / 2 < (m % d : Nat) / d := by
        rw [div_lt_div_iff₀ two_pos hd']
        exact_mod_cast (by omega : 1 * d < m % d * 2)
      exact ⟨by linarith, by linarith⟩

/-- With enough bits in front of a division there are enough behind it. -/
lemma two_pow_le_shiftLeft_div {m₁ m₂ k : Nat} (h₁ : 0 < m₁) (h₂ : 0 < m₂)
    (hlog : m₂.log2 + 1 + 52 ≤ m₁.log2 + k) : 2 ^ 52 ≤ m₁ <<< k / m₂ := by
  rw [Nat.le_div_iff_mul_le h₂, Nat.shiftLeft_eq]
  calc
    2 ^ 52 * m₂ ≤ 2 ^ 52 * 2 ^ (m₂.log2 + 1) := Nat.mul_le_mul_left _ Nat.lt_log2_self.le
    _ = 2 ^ (m₂.log2 + 1 + 52) := by rw [← pow_add, Nat.add_comm]
    _ ≤ 2 ^ (m₁.log2 + k) := Nat.pow_le_pow_right two_pos hlog
    _ = 2 ^ m₁.log2 * 2 ^ k := pow_add ..
    _ ≤ m₁ * 2 ^ k := Nat.mul_le_mul_right _ (Nat.log2_self_le h₁.ne')

section Operations

variable {x : Dyadic} (hx : x.Normal) {m₁ m₂ : Nat} {e₁ e₂ : Int} {h₁ : 0 < m₁} {h₂ : 0 < m₂}

include hx

/-- The product of two doubles is the double that covers it. -/
lemma mul_eq (hbits : 2 ^ 52 ≤ m₁ * m₂) (hv : x.Covers ((m₁ * 2 ^ e₁) * (m₂ * 2 ^ e₂))) :
    UnpackedFloat.mul .binary64 (.finite .positive m₁ e₁ h₁) (.finite .positive m₂ e₂ h₂) =
      .finite .positive x.mantissa x.exponent hx.pos := by
  have hw : Within (m₁ * m₂) ((m₁ * 2 ^ e₁) * (m₂ * 2 ^ e₂) / 2 ^ (e₁ + e₂)) .exact := by
    have hp : (2 : ℚ) ^ (e₁ + e₂) ≠ 0 := zpow_ne_zero _ two_ne_zero
    change _ = ((m₁ * m₂ : Nat) : ℚ)
    rw [div_eq_iff hp, zpow_add₀ two_ne_zero]
    push_cast
    ring
  exact roundWithAccuracy_eq hx hw (.inl hbits) hv

/-- The quotient of two doubles is the double that covers it. -/
lemma div_eq (hv : x.Covers ((m₁ * 2 ^ e₁) / (m₂ * 2 ^ e₂))) :
    UnpackedFloat.div .binary64 (.finite .positive m₁ e₁ h₁) (.finite .positive m₂ e₂ h₂) =
      .finite .positive x.mantissa x.exponent hx.pos := by
  -- the exponent of the quotient before rounding, and the bits that are added in front of the division
  have ht : Format.binary64.targetExponent (totalExponent m₁ e₁ - totalExponent m₂ e₂) =
      max ((m₁.log2 : Int) + 1 + e₁ - (m₂.log2 + 1 + e₂) - 53) (-1074) := rfl
  generalize hdef : min (e₁ - e₂) (Format.binary64.targetExponent
    (totalExponent m₁ e₁ - totalExponent m₂ e₂)) = t
  generalize hk : (e₁ - e₂ - t).toNat = k
  have hdiv : divCore .binary64 m₁ e₁ m₂ e₂ =
      (m₁ <<< k / m₂, t, accuracyOfFraction (m₁ <<< k % m₂) m₂) := by
    rw [← hk, ← hdef]
    rfl
  have he : e₁ = t + k + e₂ := by omega
  have hw : (m₁ * 2 ^ e₁ / (m₂ * 2 ^ e₂) / 2 ^ t : ℚ) = (m₁ <<< k : Nat) / (m₂ : ℚ) := by
    rw [he, zpow_add₀ two_ne_zero, zpow_add₀ two_ne_zero, zpow_natCast, Nat.shiftLeft_eq]
    push_cast
    have h1 : (2 : ℚ) ^ t ≠ 0 := zpow_ne_zero _ two_ne_zero
    have h2 : (2 : ℚ) ^ e₂ ≠ 0 := zpow_ne_zero _ two_ne_zero
    field_simp
  have hwithin := within_div (m₁ <<< k) h₂
  rw [← hw] at hwithin
  have hbits : 2 ^ 52 ≤ m₁ <<< k / m₂ ∨ t ≤ -1074 := by
    by_cases hle : t ≤ -1074
    · exact .inr hle
    · exact .inl (two_pow_le_shiftLeft_div h₁ h₂ (by omega))
  have hround := roundWithAccuracy_eq hx (s := .positive) hwithin hbits hv
  rw [← hround]
  change (match divCore .binary64 m₁ e₁ m₂ e₂ with
    | (m, e, acc) => roundWithAccuracy .binary64 (Sign.positive / Sign.positive) m e acc) = _
  rw [hdiv]
  rfl

end Operations

end Nodal.Decimal
