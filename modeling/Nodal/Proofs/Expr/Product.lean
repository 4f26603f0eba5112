import Mathlib.Logic.Basic
import Mathlib.Tactic.Lemma
import Nodal.Expr.Basic
/-!
# The rules of multiplication

`Expr.Product a b c` says by which rules `c` is the product of `a` and `b`: two constants are multiplied,
a factor `0`, `1` or `-1` needs no product, negations move outward from either factor, and the factors of
what remains are joined. `Expr.product_mul` shows that multiplication follows these rules.
-/

namespace Nodal

namespace Expr

variable {K : Type} [BEq K] [Zero K] [One K] [Neg K]

/-- Whether an expression stays as it is in a product: it is no negation and not one of the constants `0`,
`1` and `-1`. -/
structure IsPlain (a : Expr K) : Prop where
  isZero_eq : a.isZero = false
  isOne_eq : a.isOne = false
  isNum_neg_one_eq : a.isNum (-1) = false
  ne_neg : ∀ b, a ≠ .neg b

variable [Mul K]

/-- The rules by which expressions are multiplied. -/
inductive Product : Expr K → Expr K → Expr K → Prop where
  | nums (x y) :
    Product (.num x) (.num y) (.num (x * y))
  | zero {a b} :
    a.isZero = true ∨ b.isZero = true →
    Product a b .zero
  | oneLeft {a b} :
    a.isOne = true →
    Product a b b
  | oneRight {a b} :
    b.isOne = true →
    Product a b a
  | minusLeft {a b} :
    a.isNum (-1) = true →
    Product a b (-b)
  | minusRight {a b} :
    b.isNum (-1) = true →
    Product a b (-a)
  | negLeft {a b c} :
    Product a b c →
    Product (.neg a) b (-c)
  | negRight {a b c} :
    Product a b c →
    Product a (.neg b) (-c)
  | joined {a b} :
    a.IsPlain →
    b.IsPlain →
    Product a b (.prod (a.factors ++ b.factors))

/-- A product that needs no new node follows one of the rules for constants. -/
lemma product_of_shortcut {a b c : Expr K} (h : shortcut? a b = some c) : Product a b c := by
  unfold shortcut? at h
  split at h
  · cases h
    exact .nums _ _
  · split at h
    · rename_i hz
      cases h
      exact .zero (Bool.or_eq_true_iff.1 hz)
    · split at h
      · cases h
        exact .oneLeft ‹_›
      · split at h
        · cases h
          exact .oneRight ‹_›
        · split at h
          · cases h
            exact .minusLeft ‹_›
          · split at h
            · cases h
              exact .minusRight ‹_›
            · cases h

/-- Where no rule for constants applies, factors that are no negations are plain. -/
lemma isPlain_of_shortcut {a b : Expr K} (h : shortcut? a b = none) (ha : ∀ c, a ≠ .neg c)
    (hb : ∀ c, b ≠ .neg c) : a.IsPlain ∧ b.IsPlain := by
  unfold shortcut? at h
  split at h
  · cases h
  · simp only [ite_eq_iff, reduceCtorEq, and_false, false_or, Bool.or_eq_true, not_or,
      Bool.not_eq_true, and_true] at h
    obtain ⟨⟨ha0, hb0⟩, ha1, hb1, ham, hbm⟩ := h
    exact ⟨⟨ha0, ha1, ham, ha⟩, hb0, hb1, hbm, hb⟩

/-- To multiply from the left by what is no negation follows the rules of products. -/
lemma product_timesRight {a : Expr K} (ha : ∀ c, a ≠ .neg c) (b : Expr K) :
    Product a b (timesRight a b) := by
  induction b using timesRight.induct with
  | case1 b ih =>
    rw [timesRight]
    cases hs : shortcut? a (.neg b) with
    | some c => exact product_of_shortcut hs
    | none => exact .negRight ih
  | case2 b hb =>
    rw [timesRight.eq_2 a b hb]
    cases hs : shortcut? a b with
    | some c => exact product_of_shortcut hs
    | none =>
      obtain ⟨hpa, hpb⟩ := isPlain_of_shortcut hs ha hb
      exact .joined hpa hpb

/-- Multiplication follows the rules. -/
theorem product_mul (a b : Expr K) : Product a b (a * b) := by
  change Product a b (times a b)
  induction a, b using times.induct with
  | case1 a b ih =>
    rw [times]
    cases hs : shortcut? (.neg a) b with
    | some c => exact product_of_shortcut hs
    | none => exact .negLeft ih
  | case2 a b ha =>
    rw [times.eq_2 a b ha]
    exact product_timesRight ha b

end Expr

end Nodal
