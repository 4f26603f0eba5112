import Nodal.Proofs.Decimal.Rounding
/-!
# Reading decimals

A decimal is read as the double that stands for it (`Decimal.unpack_nearest`). Few digits and a small power
of ten are two doubles, and one product or quotient of them; all others go through natural numbers.
-/

namespace Nodal.Decimal

open Float.Model
open Float.Model.UnpackedFloat

/-- What a double stands for is as far from zero and from infinity as doubles are. -/
lemma Dyadic.Covers.bounds {x : Dyadic} (hx : x.Normal) {v : ℚ} (hv : x.Covers v) :
    2 ^ (-1075 : Int) ≤ v ∧ v < 2 ^ (1024 : Int) := by
  have hp : (0 : ℚ) < 2 ^ x.exponent := zpow_pos two_pos _
  have hlow := hv.low
  have hhigh := hv.high
  rw [le_div_iff₀ hp] at hlow
  rw [div_le_iff₀ hp] at hhigh
  constructor
  · have hpos : (1 : ℚ) ≤ x.mantissa := by exact_mod_cast hx.pos
    calc
      (2 : ℚ) ^ (-1075 : Int) = 1 / 2 * 2 ^ (-1074 : Int) := by
        rw [one_div, ← zpow_neg_one, ← zpow_add₀ two_ne_zero]
        rfl
      _ ≤ 1 / 2 * 2 ^ x.exponent := by
        exact mul_le_mul_of_nonneg_left (zpow_le_zpow_right₀ (by norm_num) hx.least) (by norm_num)
      _ ≤ (x.mantissa - x.gap) * 2 ^ x.exponent := by
        exact mul_le_mul_of_nonneg_right (by linarith [x.gap_le]) hp.le
      _ ≤ v := hlow
  · have hbits : (x.mantissa : ℚ) + 1 ≤ 2 ^ 53 := by exact_mod_cast hx.bits
    calc
      v ≤ (x.mantissa + 1 / 2) * 2 ^ x.exponent := hhigh
      _ < 2 ^ 53 * 2 ^ x.exponent := mul_lt_mul_of_pos_right (by linarith) hp
      _ ≤ 2 ^ 53 * 2 ^ (971 : Int) := by
        exact mul_le_mul_of_nonneg_left (zpow_le_zpow_right₀ (by norm_num) hx.greatest) (by norm_num)
      _ = 2 ^ (1024 : Int) := by
        rw [← zpow_natCast, ← zpow_add₀ two_ne_zero]
        norm_num

section Decimals

variable {x : Dyadic} (hx : x.Normal) {m : Nat} {e : Int} (hv : x.Covers (m * 10 ^ e))

include hx hv

/-- A decimal number that a double covers is not zero. -/
lemma pos_of_covers : 0 < m := by
  rw [Nat.pos_iff_ne_zero]
  rintro rfl
  have hlow := (hv.bounds hx).1
  rw [Nat.cast_zero, zero_mul] at hlow
  exact absurd hlow (not_le.2 (zpow_pos two_pos _))

/-- No double stands for a decimal with so great an exponent. -/
lemma exponent_le : e ≤ 2048 := by
  by_contra he
  have hm := pos_of_covers hx hv
  refine absurd (hv.bounds hx).2 (not_lt.2 ?_)
  calc
    (2 : ℚ) ^ (1024 : Int) ≤ 2 ^ e := zpow_le_zpow_right₀ (by norm_num) (by omega)
    _ ≤ 10 ^ e := zpow_le_zpow_left₀ (by omega) (by norm_num) (by norm_num)
    _ ≤ m * 10 ^ e := le_mul_of_one_le_left (zpow_nonneg (by norm_num) e) (by exact_mod_cast hm)

/-- No double stands for a decimal with so small an exponent. -/
lemma le_exponent : -(2048 + m.log2 : Int) ≤ e := by
  by_contra he
  have hlog : (m : ℚ) < 2 ^ ((m.log2 + 1 : Nat) : Int) := by
    rw [zpow_natCast]
    exact_mod_cast Nat.lt_log2_self
  have hpow : (10 : ℚ) ^ e ≤ 2 ^ e := by
    have hp : (0 : ℚ) < 2 ^ (-e) := zpow_pos two_pos _
    have hle : (2 : ℚ) ^ (-e) ≤ 10 ^ (-e) := zpow_le_zpow_left₀ (by omega) (by norm_num) (by norm_num)
    calc
      (10 : ℚ) ^ e = (10 ^ (-e))⁻¹ := by rw [zpow_neg, inv_inv]
      _ ≤ (2 ^ (-e))⁻¹ := inv_anti₀ hp hle
      _ = 2 ^ e := by rw [zpow_neg, inv_inv]
  refine absurd (hv.bounds hx).1 (not_le.2 ?_)
  calc
    m * (10 : ℚ) ^ e < 2 ^ ((m.log2 + 1 : Nat) : Int) * 10 ^ e :=
      mul_lt_mul_of_pos_right hlog (zpow_pos (by norm_num) e)
    _ ≤ 2 ^ ((m.log2 + 1 : Nat) : Int) * 2 ^ e := by
      exact mul_le_mul_of_nonneg_left hpow (zpow_nonneg two_pos.le _)
    _ = 2 ^ ((m.log2 + 1 : Nat) + e) := (zpow_add₀ two_ne_zero _ _).symm
    _ ≤ 2 ^ (-1075 : Int) := zpow_le_zpow_right₀ (by norm_num) (by push_cast; omega)

/-- What covers a decimal number is what scientific notation gives for it. -/
lemma ofScientific_eq :
    UnpackedFloat.ofScientific .binary64 m e = .finite .positive x.mantissa x.exponent hx.pos := by
  have hm := pos_of_covers hx hv
  have hbits : (2 : Int) ^ Format.binary64.exponentBits = 2048 := rfl
  -- neither of the guards against great powers of ten is met
  have hbig : ¬ e > 2 ^ Format.binary64.exponentBits := by
    rw [hbits]
    exact not_lt.2 (exponent_le hx hv)
  have hsmall : ¬ e < -((2 ^ Format.binary64.exponentBits : Int) + m.log2) := by
    rw [hbits]
    exact not_lt.2 (le_exponent hx hv)
  rw [UnpackedFloat.ofScientific, dif_neg hm.ne', if_neg hbig, if_neg hsmall]
  split
  · rename_i he
    have hshift : m <<< Format.binary64.mantissaBits = m * 2 ^ 53 := Nat.shiftLeft_eq m 53
    have hneg : (-(Format.binary64.mantissaBits : Nat) : Int) = -53 := rfl
    apply mul_eq hx
    · rw [hshift]
      calc
        2 ^ 52 ≤ 1 * 2 ^ 53 * 1 := by decide
        _ ≤ m * 2 ^ 53 * 10 ^ e.toNat :=
          Nat.mul_le_mul (Nat.mul_le_mul_right _ hm) (Nat.pow_pos (by decide))
    · have hvalue : ((m <<< Format.binary64.mantissaBits : Nat) : ℚ) *
          2 ^ (-(Format.binary64.mantissaBits : Nat) : Int) * ((10 ^ e.toNat : Nat) * 2 ^ (0 : Int)) =
            m * 10 ^ e := by
        obtain ⟨k, rfl⟩ := Int.eq_ofNat_of_zero_le he
        rw [hshift, hneg, zpow_zero, mul_one, zpow_neg, Int.toNat_natCast, zpow_natCast]
        push_cast
        field_simp
      rw [hvalue]
      exact hv
  · rename_i he
    apply div_eq hx
    have hvalue : (m : ℚ) * 2 ^ (0 : Int) / ((10 ^ (-e).toNat : Nat) * 2 ^ (0 : Int)) = m * 10 ^ e := by
      obtain ⟨k, hk⟩ := Int.eq_ofNat_of_zero_le (show 0 ≤ -e by omega)
      obtain rfl : e = -k := by omega
      rw [zpow_zero, mul_one, mul_one, neg_neg, Int.toNat_natCast, zpow_neg, zpow_natCast, ← div_eq_mul_inv]
      push_cast
      rfl
    rw [hvalue]
    exact hv

end Decimals

/-! ### Decimals of few digits -/

/-- A double covers its own value. -/
lemma Dyadic.covers_self (x : Dyadic) : x.Covers (x.mantissa * 2 ^ x.exponent) := by
  have hv : (x.mantissa : ℚ) * 2 ^ x.exponent / 2 ^ x.exponent = x.mantissa :=
    mul_div_cancel_right₀ _ (zpow_ne_zero _ two_ne_zero)
  refine ⟨?_, ?_, ?_⟩
  all_goals rw [hv]
  · linarith [x.le_gap]
  · linarith
  · rintro (he | he)
    · linarith [x.le_gap]
    · linarith

/-- A double unpacks to its normalized form. -/
lemma Dyadic.Normal.normalized {x : Dyadic} (hx : x.Normal) (s : Sign) :
    Normalized (.finite s x.mantissa x.exponent hx.pos) :=
  ⟨hx.bits, hx.least, hx.greatest, hx.full⟩

/-- What comes to a double is packed and unpacked as it is. -/
lemma Dyadic.Normal.unpack_pack_eq {x : Dyadic} (hx : x.Normal) {s : Sign} {u : UnpackedFloat}
    (h : u = .finite s x.mantissa x.exponent hx.pos) :
    (pack u).unpack = .finite s x.mantissa x.exponent hx.pos := by
  rw [h]
  exact unpack_pack (hx.normalized s)

/-- The double that a whole number below `2 ^ 53` is. -/
def Dyadic.ofNat (n : Nat) : Dyadic where
  mantissa := n * 2 ^ (52 - n.log2)
  exponent := n.log2 - 52
  narrow := decide (n * 2 ^ (52 - n.log2) = 2 ^ 52)

section Few

variable {n : Nat} (hpos : 0 < n) (hlt : n < 2 ^ 53)

include hpos hlt

/-- The mantissa of a positive integer has its highest bit. -/
lemma two_pow_le_ofNat : 2 ^ 52 ≤ (Dyadic.ofNat n).mantissa := by
  have hl : n.log2 ≤ 52 := Nat.le_of_lt_succ ((Nat.log2_lt hpos.ne').2 hlt)
  calc
    2 ^ 52 = 2 ^ n.log2 * 2 ^ (52 - n.log2) := by rw [← pow_add, Nat.add_sub_cancel' hl]
    _ ≤ n * 2 ^ (52 - n.log2) := Nat.mul_le_mul_right _ (Nat.log2_self_le hpos.ne')

/-- The dyadic form of a small positive integer is a double. -/
lemma normal_ofNat : (Dyadic.ofNat n).Normal := by
  have hl : n.log2 ≤ 52 := Nat.le_of_lt_succ ((Nat.log2_lt hpos.ne').2 hlt)
  have hle := two_pow_le_ofNat hpos hlt
  have he : (Dyadic.ofNat n).exponent = n.log2 - 52 := rfl
  refine ⟨by omega, ?_, by omega, by omega, .inl hle, ?_⟩
  · calc
      n * 2 ^ (52 - n.log2) < 2 ^ (n.log2 + 1) * 2 ^ (52 - n.log2) :=
        Nat.mul_lt_mul_of_pos_right Nat.lt_log2_self (Nat.two_pow_pos _)
      _ = 2 ^ 53 := by
        rw [← pow_add]
        congr 1
        omega
  · rw [he]
    simp only [Dyadic.ofNat, decide_eq_true_eq]
    omega

/-- A positive integer is the value of its dyadic form. -/
lemma value_ofNat : ((Dyadic.ofNat n).mantissa : ℚ) * 2 ^ (Dyadic.ofNat n).exponent = n := by
  have hl : n.log2 ≤ 52 := Nat.le_of_lt_succ ((Nat.log2_lt hpos.ne').2 hlt)
  obtain ⟨k, hk⟩ := Nat.le.dest hl
  have he : (n.log2 : Int) - 52 = -(k : Int) := by omega
  have hs : 52 - n.log2 = k := by omega
  change ((n * 2 ^ (52 - n.log2) : Nat) : ℚ) * 2 ^ ((n.log2 : Int) - 52) = n
  rw [he, hs, zpow_neg, zpow_natCast]
  push_cast
  field_simp

/-- A small positive integer becomes the double of its dyadic form. -/
lemma ofUInt64_eq : UnpackedFloat.ofUInt64 .binary64 n.toUInt64 =
    .finite .positive (Dyadic.ofNat n).mantissa (Dyadic.ofNat n).exponent (normal_ofNat hpos hlt).pos := by
  have hl : n.log2 ≤ 52 := Nat.le_of_lt_succ ((Nat.log2_lt hpos.ne').2 hlt)
  have hn : n.toUInt64.toNat = n := by
    rw [Nat.toUInt64_eq, UInt64.toNat_ofNat']
    exact Nat.mod_eq_of_lt (by omega)
  have hcmp : compare (n : Int) 0 = .gt := Int.compare_eq_gt.2 (by omega)
  have ht : Format.binary64.targetExponent (totalExponent n 0) = n.log2 - 52 := by
    rw [targetExponent_binary64, totalExponent]
    omega
  have hs : ((0 : Int) - (n.log2 - 52)).toNat = 52 - n.log2 := by omega
  have he : (0 : Int) - (52 - n.log2 : Nat) = n.log2 - 52 := by omega
  have hwithin : Within (Dyadic.ofNat n).mantissa
      ((Dyadic.ofNat n).mantissa * 2 ^ (Dyadic.ofNat n).exponent / 2 ^ (Dyadic.ofNat n).exponent)
      .exact := mul_div_cancel_right₀ _ (zpow_ne_zero _ two_ne_zero)
  calc
    UnpackedFloat.ofUInt64 .binary64 n.toUInt64
      = UnpackedFloat.normalize .binary64 (n.toUInt64.toNat : Int) 0 .positive := rfl
    _ = roundWithAccuracy .binary64 .positive (Dyadic.ofNat n).mantissa (Dyadic.ofNat n).exponent
        .exact := by
      rw [hn]
      simp only [UnpackedFloat.normalize, hcmp, UnpackedFloat.round, ht, decreaseExponent, hs, he,
        Int.toNat_natCast, Nat.shiftLeft_eq]
      rfl
    _ = _ := roundWithAccuracy_eq (normal_ofNat hpos hlt) hwithin (.inl (two_pow_le_ofNat hpos hlt))
      (Dyadic.covers_self _)

/-- A whole number below `2 ^ 53` is a double. -/
lemma unpack_toFloat : n.toUInt64.toFloat.toModel.unpack =
    .finite .positive (Dyadic.ofNat n).mantissa (Dyadic.ofNat n).exponent (normal_ofNat hpos hlt).pos :=
  (normal_ofNat hpos hlt).unpack_pack_eq (ofUInt64_eq hpos hlt)

end Few

/-- Whether an unpacked double is `10 ^ e`, with all the bits of its mantissa. -/
def isPowerOfTen (e : Nat) : UnpackedFloat → Bool
  | .finite .positive m k _ => 2 ^ 52 ≤ m && -52 ≤ k && m * 2 ^ (k + 52).toNat == 10 ^ e * 2 ^ 52
  | _ => false

/-- What is checked to be a power of ten has the value of one. -/
lemma exists_of_isPowerOfTen {e : Nat} {u : UnpackedFloat} (h : isPowerOfTen e u = true) :
    ∃ m k hm, u = .finite .positive m k hm ∧ 2 ^ 52 ≤ m ∧ (m : ℚ) * 2 ^ k = 10 ^ e := by
  unfold isPowerOfTen at h
  split at h
  · rename_i m k hm
    simp only [Bool.and_eq_true, decide_eq_true_eq, beq_iff_eq] at h
    obtain ⟨⟨hfull, hk⟩, heq⟩ := h
    refine ⟨m, k, hm, rfl, hfull, ?_⟩
    obtain ⟨d, hd⟩ := Int.eq_ofNat_of_zero_le (show 0 ≤ k + 52 by omega)
    obtain rfl : k = d - 52 := by omega
    have heq' : (m : ℚ) * 2 ^ d = 10 ^ e * 2 ^ 52 := by
      rw [hd, Int.toNat_natCast] at heq
      exact_mod_cast heq
    rw [zpow_sub₀ two_ne_zero, zpow_natCast, ← mul_div_assoc, heq']
    exact mul_div_cancel_right₀ _ (by norm_num)
  · cases h

/-- The stored powers of ten are exact. -/
lemma unpack_powerOfTen {e : Nat} (he : e < Float.exactlyRepresentablePowersOfTen.size) :
    ∃ m k hm, Float.exactlyRepresentablePowersOfTen[e].toModel.unpack = .finite .positive m k hm ∧
      2 ^ 52 ≤ m ∧ (m : ℚ) * 2 ^ k = 10 ^ e := by
  have hall : ∀ e : Fin 23,
      isPowerOfTen e (Float.exactlyRepresentablePowersOfTen[e]).toModel.unpack = true := by
    decide +kernel
  exact exists_of_isPowerOfTen (hall ⟨e, he⟩)

/-- The number of digits says between which powers of ten a number is. -/
lemma digitCount_bounds {m : Nat} (hm : 0 < m) :
    (10 : ℚ) ^ (digitCount m - 1 : Int) ≤ m ∧ (m : ℚ) < 10 ^ (digitCount m : Int) := by
  obtain ⟨k, hk⟩ := Nat.exists_eq_add_of_lt (show 0 < digitCount m from Nat.length_toDigits_pos)
  have hk' : (digitCount m - 1 : Int) = k := by omega
  have hle : ∀ n, 0 < n → (digitCount m ≤ n ↔ m < 10 ^ n) := fun n hn =>
    Nat.length_toDigits_le_iff (by decide) hn
  rw [hk', zpow_natCast, zpow_natCast]
  constructor
  · rcases Nat.eq_zero_or_pos k with rfl | hpos
    · rw [pow_zero]
      exact_mod_cast hm
    · exact_mod_cast not_lt.1 (mt (hle k hpos).2 (by omega))
  · exact_mod_cast (hle _ Nat.length_toDigits_pos).1 le_rfl

section Read

variable {x : Dyadic} (hx : x.Normal) {m : Nat} {e : Int} (hv : x.Covers (m * 10 ^ e))

include hx hv

/-- The double of a decimal number is the one that covers it. -/
lemma unpack_ofScientific : (Float.ofScientific m (decide (e < 0)) e.natAbs).toModel.unpack =
    .finite .positive x.mantissa x.exponent hx.pos := by
  have hm := pos_of_covers hx hv
  unfold Float.ofScientific
  split
  · -- the mantissa and the power of ten are doubles, and the last step alone rounds
    rename_i h
    obtain ⟨hlt, hpow⟩ := h
    have hsize : e.natAbs < Float.exactlyRepresentablePowersOfTen.size := Nat.lt_succ_of_le hpow
    obtain ⟨p, k, hp, hunpack, hfull, hvalue⟩ := unpack_powerOfTen hsize
    have hnat := unpack_toFloat hm hlt
    have hm' := value_ofNat hm hlt
    split
    · rename_i hneg
      have he : e = -(e.natAbs : Int) := by
        have := of_decide_eq_true hneg
        omega
      refine hx.unpack_pack_eq (?_ : UnpackedFloat.div .binary64 m.toUInt64.toFloat.toModel.unpack
        Float.exactlyRepresentablePowersOfTen[e.natAbs].toModel.unpack = _)
      rw [hnat, hunpack]
      apply div_eq hx
      rw [hm', hvalue, div_eq_mul_inv, ← zpow_natCast, ← zpow_neg, ← he]
      exact hv
    · rename_i hneg
      have he : e = (e.natAbs : Int) := by
        have : ¬e < 0 := fun h => hneg (decide_eq_true h)
        omega
      refine hx.unpack_pack_eq (?_ : UnpackedFloat.mul .binary64 m.toUInt64.toFloat.toModel.unpack
        Float.exactlyRepresentablePowersOfTen[e.natAbs].toModel.unpack = _)
      rw [hnat, hunpack]
      apply mul_eq hx
      · exact (Nat.le_mul_of_pos_right _ hp).trans' (two_pow_le_ofNat hm hlt)
      · rw [hm', hvalue, ← zpow_natCast, ← he]
        exact hv
  · -- otherwise the number is rounded as it stands
    have he : (if decide (e < 0) = true then Int.negOfNat e.natAbs else Int.ofNat e.natAbs) = e := by
      split
      · rename_i hneg
        have := of_decide_eq_true hneg
        rw [Int.negOfNat_eq, Int.ofNat_eq_natCast]
        omega
      · rename_i hneg
        have : ¬e < 0 := fun h => hneg (decide_eq_true h)
        rw [Int.ofNat_eq_natCast]
        omega
    apply hx.unpack_pack_eq
    rw [he]
    exact ofScientific_eq hx hv

/-- To read the nearest double is to read scientific notation. -/
lemma nearest_eq : nearest m e = Float.ofScientific m (decide (e < 0)) e.natAbs := by
  have hm := pos_of_covers hx hv
  obtain ⟨hlow, hhigh⟩ := hv.bounds hx
  obtain ⟨hge, hlt⟩ := digitCount_bounds hm
  have hten : (0 : ℚ) < 10 ^ e := zpow_pos (by norm_num) e
  have hleast : 2 ^ 1075 ≤ 10 ^ 324 := by decide +kernel
  have hgreatest : 2 ^ 1024 ≤ 10 ^ 309 := by decide +kernel
  have hsmall : ¬ digitCount m + e ≤ -324 := by
    intro hle
    refine absurd hlow (not_le.2 ?_)
    calc
      m * (10 : ℚ) ^ e < 10 ^ (digitCount m : Int) * 10 ^ e := mul_lt_mul_of_pos_right hlt hten
      _ = 10 ^ (digitCount m + e) := (zpow_add₀ (by norm_num) _ _).symm
      _ ≤ 10 ^ (-324 : Int) := zpow_le_zpow_right₀ (by norm_num) hle
      _ = (10 ^ 324)⁻¹ := by rw [zpow_neg]; rfl
      _ ≤ (2 ^ 1075)⁻¹ := inv_anti₀ (by positivity) (by exact_mod_cast hleast)
      _ = 2 ^ (-1075 : Int) := by rw [zpow_neg]; rfl
  have hbig : ¬ 309 < digitCount m + e := by
    intro hgt
    refine absurd hhigh (not_lt.2 ?_)
    calc
      (2 : ℚ) ^ (1024 : Int) ≤ 10 ^ (309 : Int) := by exact_mod_cast hgreatest
      _ ≤ 10 ^ (digitCount m - 1 + e) := zpow_le_zpow_right₀ (by norm_num) (by omega)
      _ = 10 ^ (digitCount m - 1 : Int) * 10 ^ e := zpow_add₀ (by norm_num) _ _
      _ ≤ m * 10 ^ e := mul_le_mul_of_nonneg_right hge hten.le
  rw [nearest, if_neg (not_or.2 ⟨hm.ne', hsmall⟩), if_neg hbig]

/-- A decimal is read as the double that stands for it. -/
theorem unpack_nearest :
    (nearest m e).toModel.unpack = .finite .positive x.mantissa x.exponent hx.pos := by
  rw [nearest_eq hx hv]
  exact unpack_ofScientific hx hv

end Read

end Nodal.Decimal
