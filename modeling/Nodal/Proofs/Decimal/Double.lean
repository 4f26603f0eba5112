import Mathlib
import Nodal.Decimal.Numeral
import Nodal.Proofs.Expr.Exact
/-!
# Doubles as rational numbers

`Decimal.toRat` is the rational number that a finite double is. Negating a double negates this number
(`Decimal.toRat_neg`), and finite doubles are the same number iff they are equal as doubles
(`Decimal.toRat_inj`): every number has only one form in the format, as `Decimal.Normalized` says.
-/

namespace Nodal.Decimal

open Float.Model
open Float.Model.UnpackedFloat (Sign packComponents unpackSign unpackExponent unpackMantissa)

/-- The number that sign, mantissa and exponent write; what is not finite counts as zero. -/
def unpackedToRat : UnpackedFloat → ℚ
  | .finite s m e _ => s.apply m * 2 ^ e
  | _ => 0

/-- The rational number that a finite double is. -/
def toRat (x : Float) : ℚ :=
  unpackedToRat x.toModel.unpack

/-! ### Packing and unpacking -/

/-- Whether the mantissa has all its bits, unless the exponent is the least. -/
def Normalized : UnpackedFloat → Prop
  | .finite _ m e _ => m < 2 ^ 53 ∧ -1074 ≤ e ∧ e ≤ 971 ∧ (2 ^ 52 ≤ m ∨ e = -1074)
  | _ => True

/-- A one in front of the stored mantissa is worth `2 ^ 52`. -/
lemma toNat_one_append (v : BitVec 52) : (1#1 ++ v).toNat = 2 ^ 52 + v.toNat := by
  rw [BitVec.toNat_append, Nat.shiftLeft_eq, Nat.mul_comm, ← Nat.two_pow_add_eq_or_of_lt v.isLt]
  simp

/-- A double keeps the sign that it was packed with. -/
lemma unpackSign_packComponents {spec : Format} {s : Sign} {e : BitVec spec.exponentBits}
    {m : BitVec spec.mantissaBitsWithoutImplicit} :
    Sign.ofBitVec (unpackSign (packComponents spec s e m)) = s := by
  have hs : unpackSign (packComponents spec s e m) = s.toBitVec := by
    ext i hi
    have h1 : ¬spec.mantissaBitsWithoutImplicit + spec.exponentBits + i <
        spec.mantissaBitsWithoutImplicit := by omega
    have h2 : ¬spec.mantissaBitsWithoutImplicit + spec.exponentBits + i -
        spec.mantissaBitsWithoutImplicit < spec.exponentBits := by omega
    have h3 : spec.mantissaBitsWithoutImplicit + spec.exponentBits + i -
        spec.mantissaBitsWithoutImplicit - spec.exponentBits = i := by omega
    simp [unpackSign, packComponents, BitVec.getLsbD_append, h1, h2, h3,
      BitVec.getLsbD_eq_getElem hi]
  rw [hs]
  cases s <;> rfl

/-- Doubles are normalized. -/
lemma normalized_unpack (x : Float.Model) : Normalized x.unpack := by
  have hm : (@unpackMantissa Format.binary64 x.toBits.toBitVec).toNat < 2 ^ 52 :=
    BitVec.isLt _
  have he : (@unpackExponent Format.binary64 x.toBits.toBitVec).toNat < 2 ^ 11 :=
    BitVec.isLt _
  unfold Float.Model.unpack UnpackedFloat.unpack
  simp only
  split
  · split <;> trivial
  · rename_i h1
    split
    · rename_i h2
      split
      · trivial
      · simp only [Normalized, h2]
        refine ⟨by omega, ?_⟩
        simp [Format.exponentBias]
    · rename_i h2
      have h3 : (@unpackExponent Format.binary64 x.toBits.toBitVec).toNat ≠ 2047 :=
        fun h => h1 (BitVec.eq_of_toNat_eq h)
      have h4 : (@unpackExponent Format.binary64 x.toBits.toBitVec).toNat ≠ 0 :=
        fun h => h2 (BitVec.eq_of_toNat_eq h)
      simp only [Normalized, toNat_one_append, Format.exponentBias]
      omega

/-- A mantissa of 53 bits is packed without its first bit, with the exponent in excess. -/
lemma pack_normal {s : Sign} {m : Nat} {e : Int} {hm : 0 < m} (h1 : 2 ^ 52 ≤ m) (h2 : m < 2 ^ 53)
    (h3 : -1074 ≤ e) (h4 : e ≤ 971) :
    UnpackedFloat.pack .binary64 (.finite s m e hm) =
      packComponents .binary64 s (BitVec.ofNat 11 (e + 1075).toNat) (BitVec.ofNat 52 m) := by
  have hl : m.log2 = 52 := (Nat.log2_eq_iff (by omega)).2 ⟨h1, h2⟩
  have hb : e + (1023 : Nat) + (52 : Nat) = e + 1075 := by omega
  have hlt : ¬2 ^ 11 ≤ (e + (1023 : Nat) + (52 : Nat)).toNat + 1 := by omega
  rw [← hb]
  exact (if_neg hlt).trans (if_pos (by rw [hl]; rfl))

/-- A shorter mantissa at the least exponent is packed with a zero exponent field. -/
lemma pack_subnormal {s : Sign} {m : Nat} {hm : 0 < m} (h : m < 2 ^ 52) :
    UnpackedFloat.pack .binary64 (.finite s m (-1074) hm) =
      packComponents .binary64 s 0#11 (BitVec.ofNat 52 m) := by
  have hl : m.log2 < 52 := (Nat.log2_lt (by omega)).2 h
  have hlt : ¬2 ^ Format.binary64.exponentBits ≤ ((-1074 : Int) + Format.binary64.exponentBias +
      Format.binary64.mantissaBitsWithoutImplicit).toNat + 1 := by decide
  have hne : ¬m.log2 + 1 = Format.binary64.mantissaBits := by
    change ¬m.log2 + 1 = 53
    omega
  rw [UnpackedFloat.pack, if_neg hlt, if_neg hne]

/-- A double with an exponent field between its bounds has the hidden bit. -/
lemma unpack_packComponents_normal {s : Sign} {e : BitVec 11} {m : BitVec 52} (h1 : e ≠ -1#11)
    (h2 : e ≠ 0#11) (hm : 0 < (1#1 ++ m).toNat) :
    UnpackedFloat.unpack .binary64 (packComponents .binary64 s e m) =
      .finite s (1#1 ++ m).toNat (e.toNat - 1075) hm := by
  unfold UnpackedFloat.unpack
  simp only [UnpackedFloat.unpackExponent_packComponents,
    UnpackedFloat.unpackMantissa_packComponents, unpackSign_packComponents]
  rw [if_neg h1, if_neg h2]
  rfl

/-- A double with a zero exponent field has no hidden bit. -/
lemma unpack_packComponents_subnormal {s : Sign} {m : BitVec 52} (hm : 0 < m.toNat) :
    UnpackedFloat.unpack .binary64 (packComponents .binary64 s 0#11 m) =
      .finite s m.toNat (-1074) hm := by
  have h : m ≠ 0#52 := by
    rintro rfl
    exact absurd hm (by decide)
  unfold UnpackedFloat.unpack
  simp only [UnpackedFloat.unpackExponent_packComponents,
    UnpackedFloat.unpackMantissa_packComponents, unpackSign_packComponents]
  rw [if_neg (by decide), if_pos trivial, dif_neg h]
  rfl

/-- What is normalized is packed and unpacked without loss. -/
lemma unpack_pack {u : UnpackedFloat} (h : Normalized u) : (pack u).unpack = u := by
  cases u with
  | notANumber => rfl
  | infinity s => cases s <;> rfl
  | zero s => cases s <;> rfl
  | finite s m e hm =>
    obtain ⟨h1, h2, h3, h4⟩ := h
    change UnpackedFloat.unpack .binary64 (UnpackedFloat.pack .binary64 (.finite s m e hm)) = _
    -- with all its bits the mantissa is stored without the leading one, else as it is
    by_cases hn : 2 ^ 52 ≤ m
    · have hv : (BitVec.ofNat 11 (e + 1075).toNat).toNat = (e + 1075).toNat := by
        rw [BitVec.toNat_ofNat]
        omega
      have hne1 : BitVec.ofNat 11 (e + 1075).toNat ≠ -1#11 := by
        intro hc
        have hc : (e + 1075).toNat = 2047 := hv ▸ congrArg BitVec.toNat hc
        omega
      have hne0 : BitVec.ofNat 11 (e + 1075).toNat ≠ 0#11 := by
        intro hc
        have hc : (e + 1075).toNat = 0 := hv ▸ congrArg BitVec.toNat hc
        omega
      have hmv : (1#1 ++ BitVec.ofNat 52 m).toNat = m := by
        rw [toNat_one_append, BitVec.toNat_ofNat]
        omega
      rw [pack_normal hn h1 h2 h3, unpack_packComponents_normal hne1 hne0 (by rw [hmv]; exact hm)]
      congr 1
      rw [hv]
      omega
    · have he : e = -1074 := by omega
      subst he
      have hmv : (BitVec.ofNat 52 m).toNat = m := by
        rw [BitVec.toNat_ofNat]
        omega
      rw [pack_subnormal (by omega), unpack_packComponents_subnormal (by rw [hmv]; exact hm)]
      congr 1

/-! ### Negation -/

/-- To negate a double is to negate what it unpacks to. -/
lemma unpack_neg (x : Float) : (-x).toModel.unpack = x.toModel.unpack.neg := by
  have hn : Normalized x.toModel.unpack.neg := by
    have h := normalized_unpack x.toModel
    cases hu : x.toModel.unpack with
    | finite s m e hm =>
      rw [hu] at h
      exact h
    | notANumber | infinity _ | zero _ => trivial
  exact unpack_pack hn

/-- Negating a double negates the number that it is. -/
theorem toRat_neg (x : Float) : toRat (-x) = -toRat x := by
  unfold toRat
  rw [unpack_neg]
  cases x.toModel.unpack with
  | finite s m e hm =>
    have hs : (-s).apply m = -s.apply m := by
      cases s with
      | negative => exact (neg_neg _).symm
      | positive => rfl
    simp only [UnpackedFloat.neg, unpackedToRat, hs]
    push_cast
    ring
  | notANumber | infinity _ | zero _ => simp [UnpackedFloat.neg, unpackedToRat]

/-- The negation of a finite double is finite. -/
lemma isFinite_neg {x : Float} (h : x.isFinite = true) : (-x).isFinite = true := by
  change (-x).toModel.unpack.isFinite = true
  rw [unpack_neg]
  change x.toModel.unpack.isFinite = true at h
  cases hu : x.toModel.unpack <;> rw [hu] at h <;> first | rfl | exact h

/-! ### Equality -/

/-- A number has one form only. -/
lemma eq_of_mul_zpow_eq {m m' : Nat} {e e' : Int} (hm : m < 2 ^ 53)
    (hm' : 2 ^ 52 ≤ m' ∨ e' = -1074) (he : -1074 ≤ e) (hle : e ≤ e')
    (h : (m : ℚ) * 2 ^ e = m' * 2 ^ e') : e = e' ∧ m = m' := by
  obtain ⟨d, hd⟩ := Int.eq_ofNat_of_zero_le (sub_nonneg.2 hle)
  have hmul : (m : ℚ) = m' * 2 ^ d := by
    have hp : (2 : ℚ) ^ e' = 2 ^ d * 2 ^ e := by
      rw [← zpow_natCast, ← zpow_add₀ (by norm_num)]
      congr 1
      omega
    rw [hp, ← mul_assoc] at h
    exact mul_right_cancel₀ (by positivity) h
  have hnat : m = m' * 2 ^ d := by exact_mod_cast hmul
  cases d with
  | zero => exact ⟨by omega, by simpa using hnat⟩
  | succ d =>
    -- a greater exponent is not the least, so the mantissa has all its bits and the other too many
    have hp : 1 ≤ 2 ^ d := Nat.one_le_two_pow
    have hge : m' * 2 * 1 ≤ m' * 2 * 2 ^ d := Nat.mul_le_mul_left _ hp
    rw [Nat.pow_succ, Nat.mul_comm (2 ^ d), ← Nat.mul_assoc] at hnat
    omega

/-- Normalized numbers of the same value have the same exponent and mantissa. -/
lemma eq_of_normalized {s s' : Sign} {m m' : Nat} {e e' : Int} {hm : 0 < m} {hm' : 0 < m'}
    (hn : Normalized (.finite s m e hm)) (hn' : Normalized (.finite s' m' e' hm'))
    (h : (m : ℚ) * 2 ^ e = m' * 2 ^ e') : e = e' ∧ m = m' := by
  obtain ⟨h1, h2, -, h4⟩ := hn
  obtain ⟨h1', h2', -, h4'⟩ := hn'
  rcases le_total e e' with hle | hle
  · exact eq_of_mul_zpow_eq h1 h4' h2 hle h
  · obtain ⟨he, hm⟩ := eq_of_mul_zpow_eq h1' h4 h2' hle h.symm
    exact ⟨he.symm, hm.symm⟩

/-- A positive mantissa makes a positive number. -/
lemma mul_zpow_pos {m : Nat} (hm : 0 < m) (e : Int) : (0 : ℚ) < m * 2 ^ e :=
  mul_pos (Nat.cast_pos.2 hm) (zpow_pos (by norm_num) e)

/-- Finite normalized numbers are the same iff they compare as equal. -/
lemma unpackedToRat_inj {u v : UnpackedFloat} (hu : Normalized u) (hv : Normalized v)
    (hfu : u.isFinite = true) (hfv : v.isFinite = true) :
    unpackedToRat u = unpackedToRat v ↔ u.beq v = true := by
  cases u with
  | notANumber | infinity _ => cases hfu
  | zero s =>
    cases v with
    | notANumber | infinity _ => cases hfv
    | zero s' => simp [unpackedToRat, UnpackedFloat.beq, UnpackedFloat.compare]
    | finite s' m' e' hm' =>
      have hz : (2 : ℚ) ^ e' ≠ 0 := zpow_ne_zero e' two_ne_zero
      cases s' <;>
        simp [unpackedToRat, Sign.apply, UnpackedFloat.beq, UnpackedFloat.compare, hm'.ne', hz]
  | finite s m e hm =>
    cases v with
    | notANumber | infinity _ => cases hfv
    | zero s' =>
      have hz : (2 : ℚ) ^ e ≠ 0 := zpow_ne_zero e two_ne_zero
      cases s <;>
        simp [unpackedToRat, Sign.apply, UnpackedFloat.beq, UnpackedFloat.compare, hm.ne', hz]
    | finite s' m' e' hm' =>
      -- of opposite signs, one is positive and the other negative
      have hp := mul_zpow_pos hm e
      have hp' := mul_zpow_pos hm' e'
      have heq : (m : ℚ) * 2 ^ e = m' * 2 ^ e' ↔ e = e' ∧ m = m' := by
        constructor
        · exact eq_of_normalized hu hv
        · rintro ⟨rfl, rfl⟩
          rfl
      cases s <;> cases s' <;>
        simp [unpackedToRat, Sign.apply, UnpackedFloat.beq, UnpackedFloat.compare, heq]
      case negative.positive => linarith
      case positive.negative => linarith

/-- Finite doubles are the same number iff they are equal. -/
theorem toRat_inj {x y : Float} (hx : x.isFinite = true) (hy : y.isFinite = true) :
    toRat x = toRat y ↔ (x == y) = true :=
  unpackedToRat_inj (normalized_unpack _) (normalized_unpack _) hx hy

/-- The double zero is the number zero. -/
lemma toRat_zero : toRat 0 = 0 := rfl

/-- The double one is the number one. -/
lemma toRat_one : toRat 1 = 1 := by
  have h : (1 : Float).toModel.unpack = .finite .positive (2 ^ 52) (-52) (by decide) := rfl
  rw [toRat, h]
  norm_num [unpackedToRat, Sign.apply]

/-! ### Sums of opposite numbers -/

/-- Opposite finite numbers have no other sum than zero. -/
lemma add_eq_zero_of_beq_neg {u v : UnpackedFloat} (hu : u.isFinite = true) (hv : v.isFinite = true)
    (h : v.beq u.neg = true) : ∃ s, UnpackedFloat.add .binary64 u v = .zero s := by
  cases u with
  | notANumber | infinity _ => cases hu
  | zero s =>
    cases v with
    | notANumber | infinity _ => cases hv
    | zero s' => cases s <;> cases s' <;> exact ⟨_, rfl⟩
    | finite s' _ _ _ => cases s' <;> cases h
  | finite s m e hm =>
    cases v with
    | notANumber | infinity _ => cases hv
    | zero _ => cases s <;> cases h
    | finite s' m' e' hm' =>
      refine ⟨.positive, ?_⟩
      cases s <;> cases s' <;> simp [UnpackedFloat.beq, UnpackedFloat.compare, UnpackedFloat.neg] at h
      all_goals
        obtain ⟨rfl, rfl⟩ := h
        simp [UnpackedFloat.add, UnpackedFloat.normalize, Sign.apply]

/-- Finite doubles that are opposite numbers are added to zero. -/
lemma add_of_opposite {x y : Float} (hx : x.isFinite = true) (hy : y.isFinite = true)
    (h : toRat x + toRat y = 0) : (x + y).isFinite = true ∧ toRat (x + y) = 0 := by
  have hd : (x + y).toModel.unpack =
      (pack (UnpackedFloat.add .binary64 x.toModel.unpack y.toModel.unpack)).unpack := rfl
  have hyx : toRat y = toRat (-x) := by
    rw [toRat_neg]
    exact eq_neg_of_add_eq_zero_right h
  have hbeq : y.toModel.unpack.beq (-x).toModel.unpack = true :=
    (toRat_inj hy (isFinite_neg hx)).1 hyx
  rw [unpack_neg] at hbeq
  obtain ⟨s, hs⟩ := add_eq_zero_of_beq_neg hx hy hbeq
  have hz : (pack (.zero s)).unpack = .zero s := unpack_pack trivial
  change (x + y).toModel.unpack.isFinite = true ∧ _
  rw [toRat, hd, hs, hz]
  exact ⟨rfl, rfl⟩

/-! ### Constants of expressions -/

/-- Nothing is lost when a finite double is added to zero. -/
lemma zero_add_of_isFinite {x : Float} (h : x.isFinite = true) :
    (0 + x).isFinite = true ∧ toRat (0 + x) = toRat 0 + toRat x := by
  have hx := normalized_unpack x.toModel
  have hd : (0 + x).toModel.unpack =
      (pack (UnpackedFloat.add .binary64 (.zero .positive) x.toModel.unpack)).unpack := rfl
  change (0 + x).toModel.unpack.isFinite = true ∧ _
  rw [toRat_zero, zero_add, toRat, toRat, hd]
  change x.toModel.unpack.isFinite = true at h
  cases hu : x.toModel.unpack with
  | notANumber | infinity _ =>
    rw [hu] at h
    cases h
  | zero s => cases s <;> exact ⟨rfl, rfl⟩
  | finite s m e hm =>
    rw [hu] at hx
    have hp : (pack (UnpackedFloat.add .binary64 (.zero .positive) (.finite s m e hm))).unpack =
        .finite s m e hm := unpack_pack hx
    exact ⟨congrArg UnpackedFloat.isFinite hp, congrArg unpackedToRat hp⟩

/-- Finite constants are replaced faithfully by the numbers that they are. -/
theorem faithful_toRat : Expr.Faithful (fun x : Float => x.isFinite = true) toRat where
  zero := rfl
  one := rfl
  neg := isFinite_neg
  apply_zero := toRat_zero
  apply_one := toRat_one
  apply_neg := fun {x} _ => toRat_neg x
  apply_beq := fun hx hy => by
    rw [Bool.eq_iff_iff, beq_iff_eq]
    exact toRat_inj hx hy
  zero_add := zero_add_of_isFinite

end Nodal.Decimal
