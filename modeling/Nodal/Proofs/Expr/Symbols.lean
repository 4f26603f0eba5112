import Nodal.Expr.Symbols
import Nodal.Proofs.Expr.NormalForm
/-!
# Where symbols come from

The operators bring in no symbols: those of a sum, a product or a negation are symbols of the operands
(`Expr.names_add_subset`, `Expr.Product.names_subset`, `Expr.names_neg`). So whatever the operators build has
no other symbols than the expressions that it is built from (`Expr.Generated.exists_of_mem_names`).
-/

namespace Nodal.Expr

variable {K : Type}

/-- The names in a list are those in its members, one behind the other. -/
lemma namesAll_eq_flatMap (as : List (Expr K)) : namesAll as = as.flatMap names := by
  induction as with
  | nil => rfl
  | cons a as ih => rw [namesAll, ih, List.flatMap_cons]

/-- A name is in a list iff it is in one of its members. -/
lemma mem_namesAll {as : List (Expr K)} {s : String} : s ∈ namesAll as ↔ ∃ a ∈ as, s ∈ a.names := by
  rw [namesAll_eq_flatMap, List.mem_flatMap]

/-- The names in a list of one are those in its member. -/
lemma namesAll_singleton (a : Expr K) : namesAll [a] = a.names := by
  rw [namesAll, namesAll, List.append_nil]

/-- The terms of an expression have its names. -/
lemma namesAll_terms (a : Expr K) : namesAll a.terms = a.names := by
  cases a with
  | sum as => rfl
  | num _ | sym _ | neg _ | prod _ => exact namesAll_singleton _

/-- The factors of an expression have its names. -/
lemma namesAll_factors (a : Expr K) : namesAll a.factors = a.names := by
  cases a with
  | prod as => rfl
  | num _ | sym _ | neg _ | sum _ => exact namesAll_singleton _

/-- A sum has the names of its terms. -/
lemma names_ofTerms [Zero K] (as : List (Expr K)) : (ofTerms as).names = namesAll as := by
  match as with
  | [] => rfl
  | [a] => exact (namesAll_singleton a).symm
  | _ :: _ :: _ => rfl

/-- The negation of an expression has its names. -/
lemma names_neg [Neg K] (a : Expr K) : (-a).names = a.names := by
  change (negate a).names = a.names
  cases a <;> rfl

section Terms

variable [BEq K] [Neg K]

/-- To cancel brings in nothing but the new term. -/
lemma cancel_subset (as : List (Expr K)) (a : Expr K) : cancel as a ⊆ as ++ [a] := by
  unfold cancel
  split
  · exact fun t ht => List.mem_append_left [a] (List.mem_of_mem_eraseP ht)
  · exact List.Subset.refl _

/-- Cancelling brings in no terms. -/
lemma foldl_cancel_subset (as bs : List (Expr K)) : bs.foldl cancel as ⊆ as ++ bs := by
  induction bs generalizing as with
  | nil => exact List.subset_append_left as []
  | cons b bs ih =>
    intro t ht
    rw [List.append_cons]
    rcases List.mem_append.1 (ih (cancel as b) ht) with ht | ht
    · exact List.mem_append_left bs (cancel_subset as b ht)
    · exact List.mem_append_right (as ++ [b]) ht

/-- Terms added one by one, with cancellation, bring in no names but their own. -/
lemma namesAll_foldl_cancel_subset (as bs : List (Expr K)) :
    namesAll (bs.foldl cancel as) ⊆ namesAll as ++ namesAll bs := by
  intro s hs
  obtain ⟨t, ht, hs⟩ := mem_namesAll.1 hs
  rw [namesAll_eq_flatMap, namesAll_eq_flatMap, ← List.flatMap_append, List.mem_flatMap]
  exact ⟨t, foldl_cancel_subset as bs ht, hs⟩

end Terms

section Operators

variable [BEq K] [Zero K] [Neg K]

/-- A sum has no other symbols than its operands. -/
lemma names_add_subset [Add K] (a b : Expr K) : (a + b).names ⊆ a.names ++ b.names := by
  change (plus a b).names ⊆ _
  unfold plus
  split
  · exact List.nil_subset _
  · split
    · exact List.subset_append_right _ _
    · split
      · exact List.subset_append_left _ _
      · have h := namesAll_foldl_cancel_subset a.terms b.terms
        rwa [namesAll_terms, namesAll_terms, ← names_ofTerms] at h

variable [One K] [Mul K]

/-- A product has no other symbols than its factors. -/
lemma Product.names_subset {a b c : Expr K} (h : Product a b c) : c.names ⊆ a.names ++ b.names := by
  induction h with
  | nums _ _ => exact List.nil_subset _
  | zero _ => exact List.nil_subset _
  | oneLeft _ => exact List.subset_append_right _ _
  | oneRight _ => exact List.subset_append_left _ _
  | minusLeft _ =>
    rw [names_neg]
    exact List.subset_append_right _ _
  | minusRight _ =>
    rw [names_neg]
    exact List.subset_append_left _ _
  | negLeft _ ih | negRight _ ih =>
    rw [names_neg]
    exact ih
  | @joined a b _ _ =>
    have h : (Expr.prod (a.factors ++ b.factors)).names = a.names ++ b.names := by
      rw [names, namesAll_eq_flatMap, List.flatMap_append, ← namesAll_eq_flatMap, ← namesAll_eq_flatMap,
        namesAll_factors, namesAll_factors]
    exact h ▸ List.Subset.refl _

/-- Every symbol of what the operators build is one of an expression that it is built from. -/
lemma Generated.exists_of_mem_names [Add K] {G : Expr K → Prop} {a : Expr K} (h : Generated G a) {s : String}
    (hs : s ∈ a.names) : ∃ b, G b ∧ s ∈ b.names := by
  induction h with
  | given h => exact ⟨_, h, hs⟩
  | @add a b _ _ iha ihb => exact (List.mem_append.1 (names_add_subset a b hs)).elim iha ihb
  | @sub a b _ _ iha ihb =>
    have hs := names_add_subset a (-b) hs
    rw [names_neg] at hs
    exact (List.mem_append.1 hs).elim iha ihb
  | @mul a b _ _ iha ihb => exact (List.mem_append.1 ((product_mul a b).names_subset hs)).elim iha ihb
  | neg _ ih =>
    rw [names_neg] at hs
    exact ih hs

end Operators

end Nodal.Expr
