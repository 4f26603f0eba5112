import Nodal.Decimal.Positional
import Nodal.Proofs.Decimal.Nearest
/-!
# Shortest decimals read back

The decimal that is chosen for a double is one that the double stands for (`Decimal.Dyadic.covers_shortest`).
A finite double is determined by its sign, its mantissa and its exponent (`Decimal.eq_of_unpack_eq`), and its
bits write these three (`Decimal.unpack_eq`).
-/

namespace Nodal.Decimal

open Float.Model
open Float.Model.UnpackedFloat (Sign unpackSign unpackExponent unpackMantissa)

/-! ### The bits of a double -/

section Bits

variable (b : UInt64)

/-- The mantissa field is the low 52 bits. -/
lemma toNat_unpackMantissa :
    (@unpackMantissa Format.binary64 b.toBitVec).toNat = b.toNat % 2 ^ 52 := by
  simp [unpackMantissa, BitVec.extractLsb_toNat]

/-- The exponent field is the eleven bits above them. -/
lemma toNat_unpackExponent :
    (@unpackExponent Format.binary64 b.toBitVec).toNat = b.toNat / 2 ^ 52 % 2048 := by
  simp [unpackExponent, BitVec.extractLsb_toNat, Nat.shiftRight_eq_div_pow]

/-- The sign field is the highest bit. -/
lemma toNat_unpackSign :
    (@unpackSign Format.binary64 b.toBitVec).toNat = b.toNat / 2 ^ 63 % 2 := by
  simp [unpackSign, BitVec.extractLsb_toNat, Nat.shiftRight_eq_div_pow]

end Bits

/-- The sign of a double, as its first bit says. -/
def signOf (x : Float) : Sign :=
  if signBit x then .negative else .positive

/-- The sign of a double is that of its highest bit. -/
lemma ofBitVec_unpackSign (x : Float) :
    Sign.ofBitVec (@unpackSign Format.binary64 x.toBits.toBitVec) = signOf x := by
  have hlt : x.toBits.toNat < 2 ^ 64 := x.toBits.toNat_lt
  have hbit := toNat_unpackSign x.toBits
  by_cases h : 2 ^ 63 ≤ x.toBits.toNat
  · have hne : ¬@unpackSign Format.binary64 x.toBits.toBitVec = 0#1 := by
      intro h0
      rw [h0] at hbit
      change 0 = _ at hbit
      omega
    have hs : signBit x = true := decide_eq_true h
    rw [Sign.ofBitVec, if_neg hne, signOf, if_pos hs]
  · have h0 : @unpackSign Format.binary64 x.toBits.toBitVec = 0#1 := by
      apply BitVec.eq_of_toNat_eq
      rw [hbit]
      change _ = 0
      omega
    have hs : ¬signBit x = true := fun hc => h (of_decide_eq_true hc)
    rw [Sign.ofBitVec, if_pos h0, signOf, if_neg hs]

/-- Without an exponent field the mantissa has no hidden bit. -/
lemma Dyadic.ofBits_subnormal {b : UInt64} (h : b.toNat / 2 ^ 52 % 2048 = 0) :
    Dyadic.ofBits b = ⟨b.toNat % 2 ^ 52, -1074, false⟩ :=
  if_pos h

/-- With an exponent field the hidden bit stands before the mantissa. -/
lemma Dyadic.ofBits_normal {b : UInt64} (h : b.toNat / 2 ^ 52 % 2048 ≠ 0) :
    Dyadic.ofBits b = ⟨2 ^ 52 + b.toNat % 2 ^ 52, (b.toNat / 2 ^ 52 % 2048 : Nat) - 1075,
      decide (b.toNat % 2 ^ 52 = 0 ∧ 1 < b.toNat / 2 ^ 52 % 2048)⟩ :=
  if_neg h

section Finite

variable {x : Float} (hfin : x.isFinite = true)

include hfin

/-- A finite double has not the highest exponent field. -/
lemma unpackExponent_ne : @unpackExponent Format.binary64 x.toBits.toBitVec ≠ -1#11 := by
  intro h
  change (UnpackedFloat.unpack .binary64 x.toBits.toBitVec).isFinite = true at hfin
  unfold UnpackedFloat.unpack at hfin
  rw [if_pos h] at hfin
  split at hfin <;> cases hfin

/-- The exponent field of a finite double is below its highest value. -/
lemma exponent_lt : x.toBits.toNat / 2 ^ 52 % 2048 < 2047 := by
  have he := toNat_unpackExponent x.toBits
  have hne : ¬x.toBits.toNat / 2 ^ 52 % 2048 = 2047 := by
    intro h
    exact unpackExponent_ne hfin (BitVec.eq_of_toNat_eq (he.trans h))
  omega

/-- A finite double without mantissa is a zero. -/
lemma unpack_zero (h : (Dyadic.ofBits x.toBits).mantissa = 0) : x.toModel.unpack = .zero (signOf x) := by
  have hexp : x.toBits.toNat / 2 ^ 52 % 2048 = 0 := by
    by_contra hne
    rw [Dyadic.ofBits_normal hne] at h
    change 2 ^ 52 + x.toBits.toNat % 2 ^ 52 = 0 at h
    omega
  rw [Dyadic.ofBits_subnormal hexp] at h
  have he : @unpackExponent Format.binary64 x.toBits.toBitVec = 0#11 :=
    BitVec.eq_of_toNat_eq ((toNat_unpackExponent x.toBits).trans hexp)
  have hm : @unpackMantissa Format.binary64 x.toBits.toBitVec = 0#52 :=
    BitVec.eq_of_toNat_eq ((toNat_unpackMantissa x.toBits).trans h)
  change UnpackedFloat.unpack .binary64 x.toBits.toBitVec = _
  unfold UnpackedFloat.unpack
  simp only
  rw [if_neg (unpackExponent_ne hfin), if_pos he, dif_pos hm, ofBitVec_unpackSign]

/-- The bits of a finite double write its sign, its mantissa and its exponent. -/
lemma unpack_finite (h : 0 < (Dyadic.ofBits x.toBits).mantissa) :
    x.toModel.unpack =
      .finite (signOf x) (Dyadic.ofBits x.toBits).mantissa (Dyadic.ofBits x.toBits).exponent h := by
  change UnpackedFloat.unpack .binary64 x.toBits.toBitVec = _
  unfold UnpackedFloat.unpack
  simp only
  rw [if_neg (unpackExponent_ne hfin)]
  by_cases hexp : x.toBits.toNat / 2 ^ 52 % 2048 = 0
  · have hof := Dyadic.ofBits_subnormal hexp
    have he : @unpackExponent Format.binary64 x.toBits.toBitVec = 0#11 :=
      BitVec.eq_of_toNat_eq ((toNat_unpackExponent x.toBits).trans hexp)
    have hm : ¬@unpackMantissa Format.binary64 x.toBits.toBitVec = 0#52 := by
      intro h0
      have h0' : x.toBits.toNat % 2 ^ 52 = 0 := by
        rw [← toNat_unpackMantissa, h0]
        rfl
      rw [hof] at h
      exact absurd h0' h.ne'
    rw [if_pos he, dif_neg hm]
    congr 1
    · exact ofBitVec_unpackSign x
    · rw [toNat_unpackMantissa, hof]
    · rw [toNat_unpackExponent, hexp, hof]
      rfl
  · have hof := Dyadic.ofBits_normal hexp
    have he : ¬@unpackExponent Format.binary64 x.toBits.toBitVec = 0#11 := by
      intro h0
      apply hexp
      rw [← toNat_unpackExponent, h0]
      rfl
    rw [if_neg he]
    congr 1
    · exact ofBitVec_unpackSign x
    · rw [toNat_one_append, toNat_unpackMantissa, hof]
    · rw [toNat_unpackExponent, hof]
      rfl

/-- The mantissa of a finite double has all its bits, unless the exponent is the least. -/
lemma normal_ofBits (h : 0 < (Dyadic.ofBits x.toBits).mantissa) : (Dyadic.ofBits x.toBits).Normal := by
  have hlt := exponent_lt hfin
  by_cases hexp : x.toBits.toNat / 2 ^ 52 % 2048 = 0
  · rw [Dyadic.ofBits_subnormal hexp] at h ⊢
    refine ⟨h, ?_, le_rfl, (show (-1074 : Int) ≤ 971 by decide), .inr rfl, ?_⟩
    · change x.toBits.toNat % 2 ^ 52 < 2 ^ 53
      omega
    · simp
  · rw [Dyadic.ofBits_normal hexp] at h ⊢
    refine ⟨h, ?_, ?_, ?_, .inl (Nat.le_add_right _ _), ?_⟩
    · change 2 ^ 52 + x.toBits.toNat % 2 ^ 52 < 2 ^ 53
      omega
    · change -1074 ≤ ((x.toBits.toNat / 2 ^ 52 % 2048 : Nat) : Int) - 1075
      omega
    · change ((x.toBits.toNat / 2 ^ 52 % 2048 : Nat) : Int) - 1075 ≤ 971
      omega
    · simp only [decide_eq_true_eq]
      omega

end Finite

/-- Doubles have the same sign iff their highest bits agree. -/
lemma signOf_eq_iff (x y : Float) :
    signOf y = signOf x ↔ (2 ^ 63 ≤ y.toBits.toNat ↔ 2 ^ 63 ≤ x.toBits.toNat) := by
  have hx : signBit x = true ↔ 2 ^ 63 ≤ x.toBits.toNat := decide_eq_true_iff
  have hy : signBit y = true ↔ 2 ^ 63 ≤ y.toBits.toNat := decide_eq_true_iff
  rw [← hx, ← hy, signOf, signOf]
  cases signBit x <;> cases signBit y <;> simp

/-- A double is determined by its sign, its mantissa and its exponent, which is the least for zero. -/
lemma toBits_eq {x y : Float} (hs : signOf y = signOf x)
    (hm : (Dyadic.ofBits y.toBits).mantissa = (Dyadic.ofBits x.toBits).mantissa)
    (he : 0 < (Dyadic.ofBits x.toBits).mantissa →
      (Dyadic.ofBits y.toBits).exponent = (Dyadic.ofBits x.toBits).exponent) :
    y.toBits.toNat = x.toBits.toNat := by
  have hltx : x.toBits.toNat < 2 ^ 64 := x.toBits.toNat_lt
  have hlty : y.toBits.toNat < 2 ^ 64 := y.toBits.toNat_lt
  rw [signOf_eq_iff] at hs
  by_cases hx : x.toBits.toNat / 2 ^ 52 % 2048 = 0
  · rw [Dyadic.ofBits_subnormal hx] at hm he
    by_cases hy : y.toBits.toNat / 2 ^ 52 % 2048 = 0
    · rw [Dyadic.ofBits_subnormal hy] at hm
      simp only at hm
      omega
    · rw [Dyadic.ofBits_normal hy] at hm
      simp only at hm
      omega
  · rw [Dyadic.ofBits_normal hx] at hm he
    by_cases hy : y.toBits.toNat / 2 ^ 52 % 2048 = 0
    · rw [Dyadic.ofBits_subnormal hy] at hm
      simp only at hm
      omega
    · rw [Dyadic.ofBits_normal hy] at hm he
      have he := he (by simp)
      simp only at hm he
      omega

/-- Finite doubles with the same sign, mantissa and exponent are the same. -/
theorem eq_of_unpack_eq {x y : Float} (hfin : x.isFinite = true)
    (h : y.toModel.unpack = x.toModel.unpack) : y = x := by
  have hfin' : y.isFinite = true := by
    change y.toModel.unpack.isFinite = true
    rw [h]
    exact hfin
  suffices hbits : y.toBits.toNat = x.toBits.toNat by
    obtain ⟨⟨_, _⟩⟩ := x
    obtain ⟨⟨_, _⟩⟩ := y
    cases UInt64.toNat_inj.1 hbits
    rfl
  rcases Nat.eq_zero_or_pos (Dyadic.ofBits x.toBits).mantissa with hx | hx <;>
    rcases Nat.eq_zero_or_pos (Dyadic.ofBits y.toBits).mantissa with hy | hy
  · rw [unpack_zero hfin hx, unpack_zero hfin' hy] at h
    injection h with hs
    exact toBits_eq hs (hy.trans hx.symm) (fun hpos => absurd hx hpos.ne')
  · rw [unpack_zero hfin hx, unpack_finite hfin' hy] at h
    cases h
  · rw [unpack_finite hfin hx, unpack_zero hfin' hy] at h
    cases h
  · rw [unpack_finite hfin hx, unpack_finite hfin' hy] at h
    injection h with hs hm he
    exact toBits_eq hs hm (fun _ => he)

/-! ### The decimals that a double stands for -/

/-- A power is split into its upward and its downward part. -/
lemma pow_toNat {b : ℚ} (hb : b ≠ 0) (n : Int) : b ^ n.toNat = b ^ (-n).toNat * b ^ n := by
  rw [← zpow_natCast, ← zpow_natCast, ← zpow_add₀ hb]
  congr 1
  omega

namespace Dyadic

/-- The unit of a double and a power of ten, in a unit in which both are whole. -/
lemma ratio_eq (x : Dyadic) (place : Int) :
    ∃ unit grid : Nat, x.ratio place = (unit, grid) ∧ 0 < unit ∧
      (unit : ℚ) * 10 ^ place = grid * 2 ^ x.exponent := by
  refine ⟨2 ^ x.exponent.toNat * 10 ^ (-place).toNat, 2 ^ (-x.exponent).toNat * 10 ^ place.toNat, rfl,
    by positivity, ?_⟩
  push_cast
  rw [pow_toNat two_ne_zero x.exponent, pow_toNat (b := 10) (by norm_num) place]
  ring

/-- What is chosen on a grid reads back. -/
lemma readsBack_of_onGrid? {x : Dyadic} {place : Int} {d : Nat} (h : x.onGrid? place = some d) :
    x.readsBack d place = true := by
  unfold onGrid? at h
  simp only at h
  split at h
  · rename_i h1 h2
    split at h <;> cases h
    · exact h1
    · exact h2
  · rename_i h1 h2
    cases h
    exact h1
  · rename_i h1 h2
    cases h
    exact h2
  · cases h

/-- A double covers the decimal number that writes it exactly. -/
lemma covers_exact (x : Dyadic) : x.Covers (x.exact.digits * 10 ^ x.exact.exponent) := by
  have hvalue : (x.exact.digits : ℚ) * 10 ^ x.exact.exponent = x.mantissa * 2 ^ x.exponent := by
    have hten : (10 : ℚ) ^ (-x.exponent).toNat = 2 ^ (-x.exponent).toNat * 5 ^ (-x.exponent).toNat := by
      rw [← mul_pow]
      norm_num
    change ((x.mantissa * 2 ^ x.exponent.toNat * 5 ^ (-x.exponent).toNat : Nat) : ℚ) *
      10 ^ (-((-x.exponent).toNat : Int)) = _
    push_cast
    rw [zpow_neg, zpow_natCast, hten, pow_toNat two_ne_zero x.exponent]
    field_simp
  rw [hvalue]
  exact x.covers_self

section Shortest

variable {x : Dyadic} (hx : x.Normal)

include hx

/-- The lower midpoint is a whole number of quarters. -/
lemma cast_low :
    (((if x.narrow then 4 * x.mantissa - 1 else 4 * x.mantissa - 2 : Nat)) : ℚ) =
      4 * (x.mantissa - x.gap) := by
  have hpos := hx.pos
  unfold gap
  split
  · rw [Nat.cast_sub (by omega)]
    push_cast
    ring
  · rw [Nat.cast_sub (by omega)]
    push_cast
    ring

/-- What is tested to read back as a double is a number that the double stands for. -/
lemma covers_of_readsBack {d : Nat} {place : Int} (h : x.readsBack d place = true) :
    x.Covers (d * 10 ^ place) := by
  obtain ⟨unit, grid, hr, hunit, heq⟩ := x.ratio_eq place
  obtain ⟨w, hw⟩ : ∃ w : ℚ, w = d * 10 ^ place / 2 ^ x.exponent := ⟨_, rfl⟩
  have hunit' : (0 : ℚ) < unit := Nat.cast_pos.2 hunit
  have hp : (2 : ℚ) ^ x.exponent ≠ 0 := zpow_ne_zero _ two_ne_zero
  have hgrid : w * unit = d * grid := by
    rw [hw, div_mul_eq_mul_div, div_eq_iff hp, mul_assoc, mul_assoc, ← heq, mul_comm (unit : ℚ)]
  -- what is compared are quarters of the unit of `x`, counted in a smaller unit
  have hlow : (((if x.narrow then 4 * x.mantissa - 1 else 4 * x.mantissa - 2) * unit : Nat) : ℚ) =
      4 * (x.mantissa - x.gap) * unit := by
    rw [Nat.cast_mul, cast_low hx]
  have hmiddle : ((4 * d * grid : Nat) : ℚ) = 4 * w * unit := by
    push_cast
    linarith
  have hhigh : (((4 * x.mantissa + 2) * unit : Nat) : ℚ) = 4 * (x.mantissa + 1 / 2) * unit := by
    push_cast
    ring
  simp only [readsBack, hr] at h
  split at h
  · rename_i heven
    obtain ⟨hbelow, habove⟩ := of_decide_eq_true h
    have hbelow : _ ≤ ((4 * d * grid : Nat) : ℚ) := Nat.cast_le.2 hbelow
    have habove : ((4 * d * grid : Nat) : ℚ) ≤ _ := Nat.cast_le.2 habove
    rw [hlow, hmiddle] at hbelow
    rw [hmiddle, hhigh] at habove
    refine ⟨?_, ?_, fun _ => heven⟩
    · rw [← hw]
      linarith [le_of_mul_le_mul_right hbelow hunit']
    · rw [← hw]
      linarith [le_of_mul_le_mul_right habove hunit']
  · -- between the midpoints there is no tie
    obtain ⟨hbelow, habove⟩ := of_decide_eq_true h
    have hbelow : _ < ((4 * d * grid : Nat) : ℚ) := Nat.cast_lt.2 hbelow
    have habove : ((4 * d * grid : Nat) : ℚ) < _ := Nat.cast_lt.2 habove
    rw [hlow, hmiddle] at hbelow
    rw [hmiddle, hhigh] at habove
    have hbelow := lt_of_mul_lt_mul_right hbelow hunit'.le
    have habove := lt_of_mul_lt_mul_right habove hunit'.le
    refine ⟨?_, ?_, ?_⟩
    all_goals rw [← hw]
    · linarith
    · linarith
    · rintro (he | he) <;> linarith

/-- A double stands for the decimal that it is written as. -/
theorem covers_shortest : x.Covers (x.shortest.digits * 10 ^ x.shortest.exponent) := by
  unfold shortest
  simp only
  generalize hfind : ((List.range 17).map fun n => x.magnitude - (n + 1 : Nat)).findSome? (fun place =>
      (x.onGrid? place).map fun d => (⟨d, place⟩ : Scaled)) = found
  cases found with
  | none => exact x.covers_exact
  | some s =>
    obtain ⟨place, -, hs⟩ := List.exists_of_findSome?_eq_some hfind
    obtain ⟨d, hd, rfl⟩ := Option.map_eq_some_iff.1 hs
    exact covers_of_readsBack hx (readsBack_of_onGrid? hd)

end Shortest

end Dyadic

end Nodal.Decimal
