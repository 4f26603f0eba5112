import Nodal.Proofs.Decimal.Double
/-!
# Equality of doubles

Doubles are equal if they are the same infinity, both zero, or the same finite number
(`Decimal.SameNumber`). So equality is symmetric (`Decimal.beq_comm`), goes with negation
(`Decimal.beq_neg`) and fails to be reflexive for what is not a number alone (`Decimal.beq_self`). Of a
double and its negation just the finite ones add up to zero (`Decimal.add_neg_beq_zero`).
-/

namespace Nodal.Decimal

open Float.Model
open Float.Model.UnpackedFloat (Sign)

/-- Whether two unpacked doubles count as equal. -/
inductive SameNumber : UnpackedFloat → UnpackedFloat → Prop where
  | infinity (s) :
    SameNumber (.infinity s) (.infinity s)
  | zero (s s') :
    SameNumber (.zero s) (.zero s')
  | finite (s m e hm hm') :
    SameNumber (.finite s m e hm) (.finite s m e hm')

namespace SameNumber

/-- To be the same number is symmetric. -/
lemma symm {u v : UnpackedFloat} (h : SameNumber u v) : SameNumber v u := by
  cases h with
  | infinity s => exact .infinity s
  | zero s s' => exact .zero s' s
  | finite s m e hm hm' => exact .finite s m e hm' hm

/-- To be the same number is transitive, as NaN is not among the numbers. -/
lemma trans {u v w : UnpackedFloat} (h : SameNumber u v) (h' : SameNumber v w) : SameNumber u w := by
  cases h with
  | infinity s => exact h'
  | zero s _ =>
    cases h' with
    | zero _ s' => exact .zero s s'
  | finite s m e hm _ =>
    cases h' with
    | finite _ _ _ _ hm' => exact .finite s m e hm hm'

/-- Negations of the same number are the same number. -/
lemma neg {u v : UnpackedFloat} (h : SameNumber u v) : SameNumber u.neg v.neg := by
  cases h with
  | infinity s => exact .infinity (-s)
  | zero s s' => exact .zero (-s) (-s')
  | finite s m e hm hm' => exact .finite (-s) m e hm hm'

end SameNumber

/-- To negate twice leaves an unpacked double as it is. -/
lemma neg_neg_unpacked (u : UnpackedFloat) : u.neg.neg = u := by
  cases u with
  | notANumber => rfl
  | infinity s => cases s <;> rfl
  | zero s => cases s <;> rfl
  | finite s m e hm => cases s <;> rfl

/-- Unpacked doubles compare equal iff they are the same number. -/
lemma unpackedBeq_iff {u v : UnpackedFloat} : u.beq v = true ↔ SameNumber u v := by
  constructor
  · intro h
    cases u with
    | notANumber => cases h
    | infinity s =>
      cases v with
      | infinity s' =>
        cases s <;> cases s' <;> first | exact .infinity _ | cases h
      | notANumber => cases h
      | zero _ | finite _ _ _ _ => cases s <;> cases h
    | zero s =>
      cases v with
      | zero s' => exact .zero s s'
      | notANumber => cases h
      | infinity s' | finite s' _ _ _ => cases s' <;> cases h
    | finite s m e hm =>
      cases v with
      | finite s' m' e' hm' =>
        cases s <;> cases s' <;> simp [UnpackedFloat.beq, UnpackedFloat.compare] at h
        all_goals
          obtain ⟨rfl, rfl⟩ := h
          exact .finite _ m e hm hm'
      | notANumber => cases h
      | infinity s' => cases s' <;> cases h
      | zero _ => cases s <;> cases h
  · intro h
    cases h with
    | infinity s => cases s <;> rfl
    | zero s s' => rfl
    | finite s m e hm hm' => cases s <;> simp [UnpackedFloat.beq, UnpackedFloat.compare]

/-- Doubles compare equal iff they unpack to the same number. -/
lemma beq_iff {x y : Float} :
    (x == y) = true ↔ SameNumber x.toModel.unpack y.toModel.unpack :=
  unpackedBeq_iff

/-- Equality of doubles is symmetric. -/
theorem beq_comm (x y : Float) : (x == y) = (y == x) :=
  Bool.eq_iff_iff.2 ⟨fun h => beq_iff.2 (beq_iff.1 h).symm, fun h => beq_iff.2 (beq_iff.1 h).symm⟩

/-- A double is equal to a negation iff its negation is equal to what is negated. -/
theorem beq_neg (x y : Float) : (x == -y) = (-x == y) := by
  rw [Bool.eq_iff_iff, beq_iff, beq_iff, unpack_neg, unpack_neg]
  constructor
  · intro h
    have hn := h.neg
    rwa [neg_neg_unpacked] at hn
  · intro h
    have hn := h.neg
    rwa [neg_neg_unpacked] at hn

/-- Both zeros are equal. -/
lemma beq_neg_zero (x : Float) : (x == -0) = (x == 0) := by
  rw [Bool.eq_iff_iff, beq_iff, beq_iff]
  exact ⟨fun h => h.trans (.zero .negative .positive), fun h => h.trans (.zero .positive .negative)⟩

/-- A double is equal to itself unless it is not a number. -/
theorem beq_self (x : Float) : (x == x) = !x.isNaN := by
  rw [Bool.eq_iff_iff, beq_iff]
  change _ ↔ (!x.toModel.unpack.isNaN) = true
  cases x.toModel.unpack with
  | notANumber => exact ⟨nofun, nofun⟩
  | infinity s => exact ⟨fun _ => rfl, fun _ => .infinity s⟩
  | zero s => exact ⟨fun _ => rfl, fun _ => .zero s s⟩
  | finite s m e hm => exact ⟨fun _ => rfl, fun _ => .finite s m e hm hm⟩

/-- A finite double is a number. -/
lemma isNaN_eq_false_of_isFinite {x : Float} (h : x.isFinite = true) : x.isNaN = false := by
  change x.toModel.unpack.isFinite = true at h
  change x.toModel.unpack.isNaN = false
  cases hu : x.toModel.unpack with
  | notANumber =>
    rw [hu] at h
    cases h
  | infinity _ | zero _ | finite _ _ _ _ => rfl

/-- A double that compares equal to zero is finite. -/
lemma isFinite_of_beq_zero {x : Float} (h : (x == 0) = true) : x.isFinite = true := by
  have h0 : (0 : Float).toModel.unpack = .zero .positive := rfl
  change x.toModel.unpack.isFinite = true
  rw [beq_iff, h0] at h
  cases hu : x.toModel.unpack with
  | zero _ | finite _ _ _ _ => rfl
  | notANumber | infinity _ =>
    rw [hu] at h
    cases h

/-- A double and its negation add up to zero iff it is finite. -/
theorem add_neg_beq_zero (x : Float) : (x + -x == 0) = x.isFinite := by
  rw [Bool.eq_iff_iff]
  constructor
  · intro h
    have hd : (x + -x).toModel.unpack =
        (pack (UnpackedFloat.add .binary64 x.toModel.unpack x.toModel.unpack.neg)).unpack := by
      rw [← unpack_neg]
      rfl
    change x.toModel.unpack.isFinite = true
    rw [beq_iff, hd] at h
    cases hu : x.toModel.unpack with
    | zero _ | finite _ _ _ _ => rfl
    | notANumber =>
      rw [hu] at h
      cases h
    | infinity s =>
      rw [hu] at h
      cases s <;> cases h
  · intro hx
    have hn : (-x).isFinite = true := isFinite_neg hx
    have h0 : toRat x + toRat (-x) = 0 := by rw [toRat_neg, add_neg_cancel]
    obtain ⟨hf, hz⟩ := add_of_opposite hx hn h0
    exact (toRat_inj hf rfl).1 (hz.trans toRat_zero.symm)

/-- Adding to zero changes nothing but the sign of zero. -/
lemma unpack_zero_add {x : Float} (h : (x == 0) = false) :
    (0 + x).toModel.unpack = x.toModel.unpack := by
  have hd : (0 + x).toModel.unpack =
      (pack (UnpackedFloat.add .binary64 (.zero .positive) x.toModel.unpack)).unpack := rfl
  have hn := normalized_unpack x.toModel
  rw [hd]
  cases hu : x.toModel.unpack with
  | notANumber => exact unpack_pack trivial
  | infinity s => exact unpack_pack trivial
  | zero s =>
    have hx : (x == 0) = true := by
      rw [beq_iff, hu]
      exact .zero s .positive
    rw [hx] at h
    cases h
  | finite s m e hm =>
    rw [hu] at hn
    exact unpack_pack hn

/-- Doubles with the same parts have the same sums. -/
lemma unpack_add_congr {x y : Float} (h : x.toModel.unpack = y.toModel.unpack) (z : Float) :
    (x + z).toModel.unpack = (y + z).toModel.unpack := by
  have hd (x : Float) : (x + z).toModel.unpack =
      (pack (UnpackedFloat.add .binary64 x.toModel.unpack z.toModel.unpack)).unpack := rfl
  rw [hd, hd, h]

/-- What a double compares equal to depends on what it unpacks to alone. -/
lemma beq_congr {x y : Float} (h : x.toModel.unpack = y.toModel.unpack) (z : Float) :
    (x == z) = (y == z) := by
  rw [Bool.eq_iff_iff, beq_iff, beq_iff, h]

end Nodal.Decimal
