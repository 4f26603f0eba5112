import Nodal.Proofs.Decimal.Double
import Nodal.Proofs.Decimal.Shortest
/-!
# Doubles times one

Doubles that unpack alike are the same, also those that are not finite (`Decimal.eq_of_unpack`), so a double
times one is the double itself (`Decimal.times_one`).
-/

namespace Nodal.Decimal

open Float.Model
open Float.Model.UnpackedFloat (Sign packedNaN roundWithAccuracy)

/-! ### Doubles that are not finite -/

/-- The bits of an infinite double: all those of the exponent, and none of the mantissa. -/
lemma bits_of_infinity {x : Float} {s : Sign} (h : x.toModel.unpack = .infinity s) :
    x.toBits.toNat / 2 ^ 52 % 2048 = 2047 ∧ x.toBits.toNat % 2 ^ 52 = 0 ∧ signOf x = s := by
  change UnpackedFloat.unpack .binary64 x.toBits.toBitVec = _ at h
  unfold UnpackedFloat.unpack at h
  simp only at h
  split at h
  · rename_i he
    split at h
    · rename_i hm
      rw [← toNat_unpackExponent, ← toNat_unpackMantissa, he, hm]
      rw [ofBitVec_unpackSign] at h
      injection h with hs
      exact ⟨rfl, rfl, hs⟩
    · cases h
  · split at h
    · split at h <;> cases h
    · cases h

/-- There is only one double that is no number. -/
lemma bits_of_nan {x : Float} (h : x.toModel.unpack = .notANumber) :
    x.toBits.toBitVec = packedNaN .binary64 := by
  change UnpackedFloat.unpack .binary64 x.toBits.toBitVec = _ at h
  unfold UnpackedFloat.unpack at h
  simp only at h
  split at h
  · rename_i he
    split at h
    · cases h
    · rename_i hm
      exact x.toModel.valid.eq_packedNaN he hm
  · split at h
    · split at h <;> cases h
    · cases h

/-- A double is given by its bits. -/
lemma eq_of_toBits_eq {x y : Float} (h : y.toBits = x.toBits) : y = x := by
  obtain ⟨⟨_, _⟩⟩ := x
  obtain ⟨⟨_, _⟩⟩ := y
  cases h
  rfl

/-- Doubles that unpack alike are the same. -/
theorem eq_of_unpack {x y : Float} (h : y.toModel.unpack = x.toModel.unpack) : y = x := by
  cases hu : x.toModel.unpack with
  | notANumber =>
    apply eq_of_toBits_eq
    have hbits := (bits_of_nan (h.trans hu)).trans (bits_of_nan hu).symm
    exact UInt64.toBitVec_inj.1 hbits
  | infinity s =>
    obtain ⟨hxe, hxm, hxs⟩ := bits_of_infinity hu
    obtain ⟨hye, hym, hys⟩ := bits_of_infinity (h.trans hu)
    have hs := (signOf_eq_iff x y).1 (hys.trans hxs.symm)
    have hx : x.toBits.toNat < 2 ^ 64 := x.toBits.toNat_lt
    have hy : y.toBits.toNat < 2 ^ 64 := y.toBits.toNat_lt
    exact eq_of_toBits_eq (UInt64.toNat_inj.1 (by omega))
  | zero _ | finite _ _ _ _ =>
    refine eq_of_unpack_eq (?_ : x.toModel.unpack.isFinite = true) h
    rw [hu]
    rfl

/-! ### Products with one -/

/-- A positive factor keeps the sign. -/
lemma sign_mul_positive (s : Sign) : s * Sign.positive = s := by
  cases s <;> rfl

/-- The double one has the highest bit of its mantissa. -/
lemma unpack_one : (1 : Float).toModel.unpack = .finite .positive (2 ^ 52) (-52) (by decide) :=
  rfl

/-- The mantissa and the exponent of a finite double are not changed by a factor one. -/
lemma round_mul_one {x : Dyadic} (hx : x.Normal) (s : Sign) :
    UnpackedFloat.mul .binary64 (.finite s x.mantissa x.exponent hx.pos)
      (.finite .positive (2 ^ 52) (-52) (by decide)) = .finite s x.mantissa x.exponent hx.pos := by
  have hvalue : (x.mantissa : ℚ) * 2 ^ x.exponent / 2 ^ (x.exponent + -52) = (x.mantissa * 2 ^ 52 : Nat) := by
    have hp : (2 : ℚ) ^ x.exponent ≠ 0 := zpow_ne_zero _ two_ne_zero
    have h52 : (2 : ℚ) ^ (-52 : Int) = (2 ^ 52)⁻¹ := by rw [zpow_neg]; rfl
    rw [zpow_add₀ two_ne_zero, mul_comm ((2 : ℚ) ^ x.exponent), mul_div_mul_right _ _ hp, h52, div_inv_eq_mul]
    push_cast
    rfl
  have hw : Within (x.mantissa * 2 ^ 52) (x.mantissa * 2 ^ x.exponent / 2 ^ (x.exponent + -52)) .exact := hvalue
  have hbits : 2 ^ 52 ≤ x.mantissa * 2 ^ 52 := Nat.le_mul_of_pos_left _ hx.pos
  change roundWithAccuracy .binary64 (s * .positive) (x.mantissa * 2 ^ 52) (x.exponent + -52) .exact = _
  rw [sign_mul_positive]
  exact roundWithAccuracy_eq hx hw (.inl hbits) x.covers_self

/-- A double times one is the double. -/
theorem times_one (x : Float) : x * 1 = x := by
  apply eq_of_unpack
  suffices h : UnpackedFloat.mul .binary64 x.toModel.unpack (1 : Float).toModel.unpack = x.toModel.unpack by
    change (pack (UnpackedFloat.mul .binary64 x.toModel.unpack (1 : Float).toModel.unpack)).unpack = _
    rw [h]
    exact unpack_pack (normalized_unpack x.toModel)
  rw [unpack_one]
  by_cases hfin : x.isFinite = true
  · rcases Nat.eq_zero_or_pos (Dyadic.ofBits x.toBits).mantissa with h | h
    · rw [unpack_zero hfin h]
      exact congrArg UnpackedFloat.zero (sign_mul_positive _)
    · rw [unpack_finite hfin h]
      exact round_mul_one (normal_ofBits hfin h) _
  · change ¬x.toModel.unpack.isFinite = true at hfin
    cases hu : x.toModel.unpack with
    | notANumber => rfl
    | infinity s => exact congrArg UnpackedFloat.infinity (sign_mul_positive s)
    | zero _ | finite _ _ _ _ =>
      rw [hu] at hfin
      exact absurd rfl hfin

end Nodal.Decimal
