import Nodal.Expr.Token
import Nodal.Proofs.Decimal.Equality
import Nodal.Proofs.Expr.Product
/-!
# Normal forms

`Expr.Normal` says that no rule of the operators is left to apply, at any depth of an expression: negations
stand on sums, products and symbols only, sums have no terms that cancel, and products no factors to be
dropped or joined. Every operator keeps this (`Expr.normal_neg`, `Expr.normal_add`, `Expr.normal_mul`), so it
holds for whatever the operators build (`Expr.normal_of_generated`).
-/

namespace Nodal

namespace Expr

variable {K : Type}

section Definitions

variable [BEq K] [Zero K]

/-- Whether an expression can be one of the terms of a sum. -/
structure IsTerm (a : Expr K) : Prop where
  ne_sum : ∀ as, a ≠ .sum as
  isZero_eq : a.isZero = false

/-- Whether expressions can be the terms of a sum together: none is the negation of another. -/
structure AreTerms [Neg K] (as : List (Expr K)) : Prop where
  isTerm : ∀ a ∈ as, a.IsTerm
  pairwise : as.Pairwise fun a b => (a == -b) = false ∧ (b == -a) = false

variable [One K] [Neg K]

/-- Whether an expression can be one of the factors of a product. -/
structure IsFactor (a : Expr K) : Prop where
  isPlain : a.IsPlain
  ne_prod : ∀ as, a ≠ .prod as

/-- Whether an expression has its normal form, at every depth. -/
inductive Normal : Expr K → Prop where
  | num (x) :
    Normal (.num x)
  | sym (s) :
    Normal (.sym s)
  | neg {a} :
    (∀ x, a ≠ .num x) →
    (∀ b, a ≠ .neg b) →
    Normal a →
    Normal (.neg a)
  | sum {as} :
    2 ≤ as.length →
    AreTerms as →
    (∀ a ∈ as, Normal a) →
    Normal (.sum as)
  | prod {as} :
    2 ≤ as.length →
    (∀ a ∈ as, a.IsFactor) →
    (∀ a ∈ as, Normal a) →
    Normal (.prod as)

end Definitions

/-- What the operators build from given expressions. To add in place is to add. -/
inductive Generated [BEq K] [Zero K] [One K] [Add K] [Mul K] [Neg K] (G : Expr K → Prop) :
    Expr K → Prop where
  | given {a} :
    G a →
    Generated G a
  | add {a b} :
    Generated G a →
    Generated G b →
    Generated G (a + b)
  | sub {a b} :
    Generated G a →
    Generated G b →
    Generated G (a - b)
  | mul {a b} :
    Generated G a →
    Generated G b →
    Generated G (a * b)
  | neg {a} :
    Generated G a →
    Generated G (-a)

/-! ### Equality and negation -/

mutual

/-- To be the same is symmetric, also for doubles. -/
lemma same_comm (a b : Expr Float) : same a b = same b a := by
  cases a with
  | num x =>
    cases b with
    | num y => exact Decimal.beq_comm x y
    | sym _ | neg _ | sum _ | prod _ => rfl
  | sym s =>
    cases b with
    | sym t => exact Bool.beq_comm
    | num _ | neg _ | sum _ | prod _ => rfl
  | neg a =>
    cases b with
    | neg b => exact same_comm a b
    | num _ | sym _ | sum _ | prod _ => rfl
  | sum as =>
    cases b with
    | sum bs => exact sameAll_comm as bs
    | num _ | sym _ | neg _ | prod _ => rfl
  | prod as =>
    cases b with
    | prod bs => exact sameAll_comm as bs
    | num _ | sym _ | neg _ | sum _ => rfl

/-- For lists, to be the same is symmetric, also for doubles. -/
lemma sameAll_comm (as bs : List (Expr Float)) : sameAll as bs = sameAll bs as := by
  cases as with
  | nil => cases bs <;> rfl
  | cons a as =>
    cases bs with
    | nil => rfl
    | cons b bs => rw [sameAll, sameAll, same_comm a b, sameAll_comm as bs]

end

/-- A constant is the same as no other kind of expression. -/
lemma same_num_eq_false [BEq K] {x : K} {a : Expr K} (h : ∀ y, a ≠ .num y) :
    same (.num x) a = false := by
  cases a with
  | num y => exact absurd rfl (h y)
  | sym _ | neg _ | sum _ | prod _ => rfl

/-- A negation is the same as no other kind of expression. -/
lemma same_neg_eq_false [BEq K] {a b : Expr K} (h : ∀ c, b ≠ .neg c) : same (.neg a) b = false := by
  cases b with
  | neg c => exact absurd rfl (h c)
  | num _ | sym _ | sum _ | prod _ => rfl

/-- An expression in normal form is the negation of one iff the converse holds. -/
lemma Normal.neg_beq_of_beq_neg {a b : Expr Float} (ha : a.Normal) (hb : b.Normal)
    (h : (a == -b) = true) : (-a == b) = true := by
  change same a (negate b) = true at h
  change same (negate a) b = true
  cases hb with
  | num y =>
    cases ha with
    | num x =>
      change (x == -y) = true at h
      rwa [Decimal.beq_neg] at h
    | sym _ | neg _ _ _ | sum _ _ _ | prod _ _ _ => cases h
  | neg hx hn _ =>
    -- what is under the negation is neither a constant nor a negation, so neither is the other
    cases ha with
    | num x =>
      rw [negate, same_num_eq_false hx] at h
      cases h
    | neg _ _ _ =>
      rw [negate, same_neg_eq_false hn] at h
      cases h
    | sym _ | sum _ _ _ | prod _ _ _ => exact h
  | sym _ | sum _ _ _ | prod _ _ _ =>
    cases ha with
    | neg _ _ _ => exact h
    | num _ | sym _ | sum _ _ _ | prod _ _ _ => cases h

/-- In normal form an expression is the negation of another iff that is the negation of it. -/
lemma Normal.beq_neg_comm {a b : Expr Float} (ha : a.Normal) (hb : b.Normal) :
    (a == -b) = (b == -a) := by
  have hc (a b : Expr Float) : (-a == b) = (b == -a) := same_comm (-a) b
  rw [Bool.eq_iff_iff]
  constructor
  · intro h
    rw [← hc]
    exact ha.neg_beq_of_beq_neg hb h
  · intro h
    rw [← hc]
    exact hb.neg_beq_of_beq_neg ha h

/-! ### Negation and sums -/

/-- The negation of a normal form is one. -/
lemma normal_neg {a : Expr Float} (h : a.Normal) : (-a).Normal := by
  change (negate a).Normal
  cases h with
  | num x => exact .num (-x)
  | neg _ _ ha => exact ha
  | sym s => exact .neg nofun nofun (.sym s)
  | sum hl hs ha => exact .neg nofun nofun (.sum hl hs ha)
  | prod hl hs ha => exact .neg nofun nofun (.prod hl hs ha)

/-- The terms of a normal form can stand in a sum together. -/
lemma areTerms_terms {a : Expr Float} (h : a.Normal) (h0 : a.isZero = false) :
    AreTerms a.terms ∧ ∀ t ∈ a.terms, t.Normal := by
  by_cases hs : ∃ as, a = .sum as
  · obtain ⟨as, rfl⟩ := hs
    cases h with
    | sum _ hs ha => exact ⟨hs, ha⟩
  · have ht : a.terms = [a] := terms.eq_2 a fun as ha => hs ⟨as, ha⟩
    rw [ht]
    refine ⟨⟨?_, List.pairwise_singleton _ a⟩, ?_⟩
    · intro t ht
      rw [List.mem_singleton.1 ht]
      exact ⟨fun as ha => hs ⟨as, ha⟩, h0⟩
    · intro t ht
      rwa [List.mem_singleton.1 ht]

/-- A term that is appended is not the negation of one of the others, or it would have been cancelled. -/
lemma AreTerms.cancel {as : List (Expr Float)} {a : Expr Float} (h : AreTerms as)
    (hn : ∀ t ∈ as, t.Normal) (ha : a.IsTerm) (han : a.Normal) :
    AreTerms (cancel as a) ∧ ∀ t ∈ Expr.cancel as a, t.Normal := by
  unfold Expr.cancel
  split
  · exact ⟨⟨fun t ht => h.isTerm t (List.mem_of_mem_eraseP ht), h.pairwise.sublist List.eraseP_sublist⟩,
      fun t ht => hn t (List.mem_of_mem_eraseP ht)⟩
  · rename_i hany
    have hne : ∀ t ∈ as, (t == -a) = false := by
      intro t ht
      by_contra hc
      exact hany (List.any_eq_true.2 ⟨t, ht, Bool.of_not_eq_false hc⟩)
    refine ⟨⟨?_, List.pairwise_append.2 ⟨h.pairwise, List.pairwise_singleton _ a, ?_⟩⟩, ?_⟩
    · intro t ht
      rcases List.mem_append.1 ht with ht | ht
      · exact h.isTerm t ht
      · rwa [List.mem_singleton.1 ht]
    · intro t ht b hb
      rw [List.mem_singleton.1 hb, han.beq_neg_comm (hn t ht)]
      exact ⟨hne t ht, hne t ht⟩
    · intro t ht
      rcases List.mem_append.1 ht with ht | ht
      · exact hn t ht
      · rwa [List.mem_singleton.1 ht]

/-- Terms that can stand in a sum together still can after others are added with cancellation. -/
lemma AreTerms.foldl_cancel {as bs : List (Expr Float)} (h : AreTerms as) (hn : ∀ t ∈ as, t.Normal)
    (hb : ∀ t ∈ bs, t.IsTerm) (hbn : ∀ t ∈ bs, t.Normal) :
    AreTerms (bs.foldl Expr.cancel as) ∧ ∀ t ∈ bs.foldl Expr.cancel as, t.Normal := by
  induction bs generalizing as with
  | nil => exact ⟨h, hn⟩
  | cons b bs ih =>
    obtain ⟨h', hn'⟩ := h.cancel hn (hb b List.mem_cons_self) (hbn b List.mem_cons_self)
    exact ih h' hn' (fun t ht => hb t (List.mem_cons_of_mem b ht)) fun t ht =>
      hbn t (List.mem_cons_of_mem b ht)

/-- Terms in normal form that can stand together make a normal form. -/
lemma AreTerms.normal_ofTerms {as : List (Expr Float)} (h : AreTerms as) (hn : ∀ t ∈ as, t.Normal) :
    (ofTerms as).Normal := by
  match as, h, hn with
  | [], _, _ => exact .num 0
  | [a], _, hn => exact hn a List.mem_cons_self
  | _ :: _ :: as, h, hn => exact .sum (Nat.le_add_left 2 as.length) h hn

/-- The sum of normal forms is one. -/
lemma normal_add {a b : Expr Float} (ha : a.Normal) (hb : b.Normal) : (a + b).Normal := by
  change (plus a b).Normal
  unfold plus
  split
  · exact .num _
  · split
    · exact hb
    · split
      · exact ha
      · rename_i ha0 hb0
        obtain ⟨h, hn⟩ := areTerms_terms ha (Bool.of_not_eq_true ha0)
        obtain ⟨h', hn'⟩ := areTerms_terms hb (Bool.of_not_eq_true hb0)
        obtain ⟨hc, hcn⟩ := h.foldl_cancel hn h'.isTerm hn'
        exact hc.normal_ofTerms hcn

/-- The difference of normal forms is one. -/
lemma normal_sub {a b : Expr Float} (ha : a.Normal) (hb : b.Normal) : (a - b).Normal :=
  normal_add ha (normal_neg hb)

/-! ### Products -/

/-- The factors of a normal form can stand in a product. -/
lemma isFactor_factors {a : Expr Float} (h : a.Normal) (hp : a.IsPlain) :
    (1 ≤ a.factors.length ∧ ∀ t ∈ a.factors, t.IsFactor) ∧ ∀ t ∈ a.factors, t.Normal := by
  by_cases hs : ∃ as, a = .prod as
  · obtain ⟨as, rfl⟩ := hs
    cases h with
    | prod hl hs ha => exact ⟨⟨Nat.le_of_succ_le hl, hs⟩, ha⟩
  · have ht : a.factors = [a] := factors.eq_2 a fun as ha => hs ⟨as, ha⟩
    rw [ht]
    refine ⟨⟨Nat.le_refl 1, ?_⟩, ?_⟩
    · intro t ht
      rw [List.mem_singleton.1 ht]
      exact ⟨hp, fun as ha => hs ⟨as, ha⟩⟩
    · intro t ht
      rwa [List.mem_singleton.1 ht]

/-- What the rules of products make of normal forms is one. -/
lemma Product.normal {a b c : Expr Float} (h : Product a b c) (ha : a.Normal) (hb : b.Normal) :
    c.Normal := by
  induction h with
  | nums x y => exact .num _
  | zero _ => exact .num _
  | oneLeft _ => exact hb
  | oneRight _ => exact ha
  | minusLeft _ => exact normal_neg hb
  | minusRight _ => exact normal_neg ha
  | negLeft _ ih =>
    cases ha with
    | neg _ _ ha => exact normal_neg (ih ha hb)
  | negRight _ ih =>
    cases hb with
    | neg _ _ hb => exact normal_neg (ih ha hb)
  | @joined a b hpa hpb =>
    obtain ⟨⟨hla, hfa⟩, hna⟩ := isFactor_factors ha hpa
    obtain ⟨⟨hlb, hfb⟩, hnb⟩ := isFactor_factors hb hpb
    refine .prod ?_ ?_ ?_
    · rw [List.length_append]
      omega
    · intro t ht
      exact (List.mem_append.1 ht).elim (hfa t) (hfb t)
    · intro t ht
      exact (List.mem_append.1 ht).elim (hna t) (hnb t)

/-- The product of normal forms is one. -/
lemma normal_mul {a b : Expr Float} (ha : a.Normal) (hb : b.Normal) : (a * b).Normal :=
  (product_mul a b).normal ha hb

/-! ### What is built -/

/-- What the operators build from normal forms is in normal form. -/
lemma Generated.normal {G : Expr Float → Prop} (hG : ∀ a, G a → a.Normal) {a : Expr Float}
    (h : Generated G a) : a.Normal := by
  induction h with
  | given h => exact hG _ h
  | add _ _ iha ihb => exact normal_add iha ihb
  | sub _ _ iha ihb => exact normal_sub iha ihb
  | mul _ _ iha ihb => exact normal_mul iha ihb
  | neg _ ih => exact normal_neg ih

/-- What the operators start from: tokens, constants and symbols. -/
inductive Leaf : Expr Float → Prop where
  | token (s) :
    Leaf (ofToken s)
  | num (x) :
    Leaf (.num x)
  | sym (s) :
    Leaf (.sym s)
  | zero :
    Leaf zero
  | one :
    Leaf one

/-- A leaf has its normal form. -/
lemma Leaf.normal {a : Expr Float} (h : Leaf a) : a.Normal := by
  cases h with
  | token s =>
    unfold ofToken
    split
    · exact .num _
    · exact .sym s
  | num x => exact .num x
  | sym s => exact .sym s
  | zero => exact .num 0
  | one => exact .num 1

/-- Whatever the operators build from tokens, constants and symbols is in normal form. -/
theorem normal_of_generated {a : Expr Float} (h : Generated Leaf a) : a.Normal :=
  h.normal fun _ => Leaf.normal

/-- The factor `-1` becomes a negation, which the difference takes away again. -/
theorem normal_of_generated_balance :
    let a : Expr Float := ofToken "1k" - .num (-1) * (.sym "g" * (.sym "x" + -.sym "y"))
    Generated Leaf a ∧ a.Normal := by
  intro a
  have h : Generated Leaf a :=
    .sub (.given (.token "1k")) (.mul (.given (.num (-1)))
      (.mul (.given (.sym "g")) (.add (.given (.sym "x")) (.neg (.given (.sym "y"))))))
  exact ⟨h, normal_of_generated h⟩

/-- The finite constants and the symbols. -/
inductive FiniteLeaf : Expr Float → Prop where
  | num {x} :
    x.isFinite = true →
    FiniteLeaf (.num x)
  | sym (s) :
    FiniteLeaf (.sym s)

/-- A finite leaf has its normal form. -/
lemma FiniteLeaf.normal {a : Expr Float} (h : FiniteLeaf a) : a.Normal := by
  cases h with
  | num _ => exact .num _
  | sym s => exact .sym s

end Expr

end Nodal
