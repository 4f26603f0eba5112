import Nodal.Proofs.Decimal.Double
import Nodal.Proofs.Expr.Meaning
/-!
# What the operators mean

Expressions may fold constants, drop neutral elements and cancel terms, but an operator on expressions has
the meaning of the operator on numbers (`Expr.eval_operators`).
-/

namespace Nodal.Expr

/-- The operators compute the sums, differences, products and negations of values over the rationals, and over
doubles where no folding of constants loses anything. -/
theorem eval_operators :
    (∀ (a b : Expr ℚ) (env : String → ℚ),
      (a + b).eval env = a.eval env + b.eval env ∧
      (a - b).eval env = a.eval env - b.eval env ∧
      (a * b).eval env = a.eval env * b.eval env ∧
      (-a).eval env = -a.eval env ∧
      ∀ bs : List (Expr ℚ), (bs.foldl (· + ·) a).eval env = a.eval env + (bs.map (eval env)).sum) ∧
    ∀ a b : Expr Float, (a.All fun x => x.isFinite = true) → (b.All fun x => x.isFinite = true) →
      (AddsExactly (fun x => x.isFinite = true) Decimal.toRat a b →
        (a + b).map Decimal.toRat = a.map Decimal.toRat + b.map Decimal.toRat) ∧
      (AddsExactly (fun x => x.isFinite = true) Decimal.toRat a (-b) →
        (a - b).map Decimal.toRat = a.map Decimal.toRat - b.map Decimal.toRat) ∧
      (TimesExactly (fun x => x.isFinite = true) Decimal.toRat a b →
        (a * b).map Decimal.toRat = a.map Decimal.toRat * b.map Decimal.toRat) ∧
      (-a).map Decimal.toRat = -a.map Decimal.toRat := by
  have h := Decimal.faithful_toRat
  refine ⟨fun a b env => ⟨?_, ?_, ?_, ?_, ?_⟩, fun a b ha hb => ⟨?_, ?_, ?_, ?_⟩⟩
  · exact eval_add a b
  · exact eval_sub a b
  · exact eval_mul a b
  · exact eval_neg a
  · exact eval_foldl_add a
  · exact h.map_add ha hb
  · -- to subtract is to add the negation
    intro hab
    have hs : (a + -b).map Decimal.toRat = a.map Decimal.toRat + (-b).map Decimal.toRat :=
      h.map_add ha (h.all_neg hb) hab
    rw [h.map_neg hb] at hs
    exact hs
  · exact h.map_mul ha hb
  · exact h.map_neg ha

/-- A half and three are added, subtracted and multiplied without a loss. -/
theorem eval_operators_half :
    let a : Expr Float := .num 0.5
    let b : Expr Float := .num 3
    (a.All fun x => x.isFinite = true) ∧ (b.All fun x => x.isFinite = true) ∧
      (a + b).map Decimal.toRat = a.map Decimal.toRat + b.map Decimal.toRat ∧
      (a - b).map Decimal.toRat = a.map Decimal.toRat - b.map Decimal.toRat ∧
      (a * b).map Decimal.toRat = a.map Decimal.toRat * b.map Decimal.toRat := by
  intro a b
  have ha : a.All fun x => x.isFinite = true := by decide +kernel
  have hb : b.All fun x => x.isFinite = true := by decide +kernel
  have hadd : AddsExactly (fun x => x.isFinite = true) Decimal.toRat a b := by decide +kernel
  have hsub : AddsExactly (fun x => x.isFinite = true) Decimal.toRat a (-b) := by decide +kernel
  have hmul : TimesExactly (fun x => x.isFinite = true) Decimal.toRat a b := by
    intro x y hx hy
    cases hx
    cases hy
    decide +kernel
  obtain ⟨h1, h2, h3, -⟩ := eval_operators.2 a b ha hb
  exact ⟨ha, hb, h1 hadd, h2 hsub, h3 hmul⟩

end Nodal.Expr
