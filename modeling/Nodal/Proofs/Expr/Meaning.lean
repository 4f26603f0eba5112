import Mathlib.Algebra.BigOperators.Group.List.Basic
import Mathlib.Algebra.Ring.Defs
import Mathlib.Tactic.Lemma
import Mathlib.Tactic.Ring
import Nodal.Proofs.Expr.Product
/-!
# The operators keep the meaning

Over a commutative ring of constants the operators of expressions, for all their folding and
cancelling, mean what they are called: `Expr.eval_neg`, `Expr.eval_add`, `Expr.eval_sub` and
`Expr.eval_mul` show that the value of what an operator gives is found by the same operator from the
values of its operands.
-/

namespace Nodal

namespace Expr

section Equality

variable {K : Type}

mutual

/-- Expressions of the same shape with equal constants are equal. -/
lemma eq_of_same [BEq K] [LawfulBEq K] : ∀ {a b : Expr K}, same a b = true → a = b
  | .num _, .num _, h => congrArg num (eq_of_beq h)
  | .sym _, .sym _, h => congrArg sym (eq_of_beq h)
  | .neg _, .neg _, h => congrArg neg (eq_of_same h)
  | .sum _, .sum _, h => congrArg sum (eq_of_sameAll h)
  | .prod _, .prod _, h => congrArg prod (eq_of_sameAll h)

/-- Lists that compare as the same are equal where constants are lawful. -/
lemma eq_of_sameAll [BEq K] [LawfulBEq K] :
    ∀ {as bs : List (Expr K)}, sameAll as bs = true → as = bs
  | [], [], _ => rfl
  | a :: as, b :: bs, h => by
    simp only [sameAll, Bool.and_eq_true] at h
    rw [eq_of_same h.1, eq_of_sameAll h.2]

end

end Equality

section Sums

variable {R : Type} [CommRing R] {env : String → R}

/-- Zero is worth zero. -/
@[simp] lemma eval_zero : (zero : Expr R).eval env = 0 := rfl

/-- One is worth one. -/
@[simp] lemma eval_one : (one : Expr R).eval env = 1 := rfl

/-- Terms one behind the other are worth their sums. -/
@[simp] lemma evalSum_append (as bs : List (Expr R)) :
    evalSum env (as ++ bs) = evalSum env as + evalSum env bs := by
  induction as with
  | nil => simp [evalSum]
  | cons a as ih =>
    simp only [List.cons_append, evalSum, ih]
    ring

/-- The terms of an expression are worth the expression. -/
@[simp] lemma evalSum_terms (a : Expr R) : evalSum env a.terms = a.eval env := by
  cases a <;> simp [terms, evalSum, eval]

/-- A sum is worth what its terms add up to. -/
@[simp] lemma eval_ofTerms (as : List (Expr R)) : (ofTerms as).eval env = evalSum env as := by
  unfold ofTerms
  split
  · rfl
  · simp [evalSum]
  · rfl

/-- The negation of an expression is worth its negative. -/
@[simp] lemma eval_neg (a : Expr R) : (-a).eval env = -a.eval env := by
  change (negate a).eval env = _
  cases a <;> simp [negate, eval]

variable [BEq R] [LawfulBEq R]

/-- An expression that is a constant is worth it. -/
lemma eval_of_isNum {x : R} {a : Expr R} (h : a.isNum x = true) : a.eval env = x := by
  cases a with
  | num y => exact eq_of_beq h
  | sym _ | neg _ | sum _ | prod _ => cases h

/-- An expression that is zero is worth zero. -/
lemma eval_of_isZero {a : Expr R} (h : a.isZero = true) : a.eval env = 0 :=
  eval_of_isNum h

/-- Cancelling a term against others adds it to them. -/
lemma evalSum_cancel (as : List (Expr R)) (a : Expr R) :
    evalSum env (cancel as a) = evalSum env as + a.eval env := by
  unfold cancel
  split
  · rename_i h
    obtain ⟨b, hb, he⟩ := List.any_eq_true.1 h
    obtain ⟨c, before, behind, -, hc, has, her⟩ := List.exists_of_eraseP (p := (· == -a)) hb he
    have hca : c = -a := eq_of_same hc
    rw [her, has, hca]
    simp only [evalSum_append, evalSum, eval_neg]
    ring
  · simp [evalSum]

/-- Terms added one by one, with cancellation, are worth their sum. -/
lemma evalSum_foldl_cancel (as bs : List (Expr R)) :
    evalSum env (bs.foldl cancel as) = evalSum env as + evalSum env bs := by
  induction bs generalizing as with
  | nil => simp [evalSum]
  | cons b bs ih =>
    rw [List.foldl_cons, ih, evalSum_cancel]
    simp only [evalSum]
    ring

/-- A sum of expressions means the sum of their values. -/
@[simp] lemma eval_add (a b : Expr R) : (a + b).eval env = a.eval env + b.eval env := by
  change (plus a b).eval env = _
  unfold plus
  split
  · rfl
  · split
    · rename_i h
      rw [eval_of_isZero h, zero_add]
    · split
      · rename_i h
        rw [eval_of_isZero h, add_zero]
      · rw [eval_ofTerms, evalSum_foldl_cancel, evalSum_terms, evalSum_terms]

/-- A difference is worth the difference. -/
@[simp] lemma eval_sub (a b : Expr R) : (a - b).eval env = a.eval env - b.eval env := by
  have h : a - b = a + -b := rfl
  rw [h, eval_add, eval_neg, sub_eq_add_neg]

/-- Adding expressions one after another in the place of the first adds up all their values. -/
lemma eval_foldl_add (a : Expr R) (bs : List (Expr R)) :
    (bs.foldl (· + ·) a).eval env = a.eval env + (bs.map (eval env)).sum := by
  induction bs generalizing a with
  | nil => simp
  | cons b bs ih => rw [List.foldl_cons, ih, eval_add, List.map_cons, List.sum_cons, add_assoc]

end Sums

section Products

variable {R : Type} [CommRing R] {env : String → R}

/-- Factors one behind the other are worth their product. -/
@[simp] lemma evalProd_append (as bs : List (Expr R)) :
    evalProd env (as ++ bs) = evalProd env as * evalProd env bs := by
  induction as with
  | nil => simp [evalProd]
  | cons a as ih =>
    simp only [List.cons_append, evalProd, ih]
    ring

/-- The factors of an expression are worth the expression. -/
@[simp] lemma evalProd_factors (a : Expr R) : evalProd env a.factors = a.eval env := by
  cases a <;> simp [factors, evalProd, eval]

variable [BEq R] [LawfulBEq R]

/-- What the rules of multiplication give means the product of the values. -/
lemma Product.eval_eq {a b c : Expr R} (h : Product a b c) : c.eval env = a.eval env * b.eval env := by
  induction h with
  | nums x y => rfl
  | zero h =>
    rcases h with h | h
    · rw [eval_of_isNum h, zero_mul, eval_zero]
    · rw [eval_of_isNum h, mul_zero, eval_zero]
  | oneLeft h => rw [eval_of_isNum h, one_mul]
  | oneRight h => rw [eval_of_isNum h, mul_one]
  | minusLeft h => rw [eval_neg, eval_of_isNum h, neg_one_mul]
  | minusRight h => rw [eval_neg, eval_of_isNum h, mul_neg_one]
  | negLeft _ ih => rw [eval_neg, ih, eval, neg_mul]
  | negRight _ ih => rw [eval_neg, ih, eval, mul_neg]
  | joined _ _ => rw [eval, evalProd_append, evalProd_factors, evalProd_factors]

/-- A product of expressions means the product of their values. -/
@[simp] lemma eval_mul (a b : Expr R) : (a * b).eval env = a.eval env * b.eval env :=
  (product_mul a b).eval_eq

end Products

end Expr

end Nodal
