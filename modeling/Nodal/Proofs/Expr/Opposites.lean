import Nodal.Proofs.Expr.Exact
import Nodal.Proofs.Expr.NormalForm
/-!
# Opposite expressions

When an expression in normal form and its negation add up to zero (`Expr.isZero_add_neg_iff`): if it is a
single term, all its constants are numbers, and it is no infinite constant. Sums are compared term by term with
what is added to them, and a negated sum is one term, so they do not cancel as a whole.
-/

namespace Nodal

namespace Expr

variable {K : Type}

/-- Whether an expression is one term or the negation of one, and not a sum. -/
structure IsSingle (a : Expr K) : Prop where
  ne_sum : ∀ as, a ≠ .sum as
  ne_neg_sum : ∀ as, a ≠ .neg (.sum as)

/-- Whether all constants of an expression are numbers, and the expression is no infinite constant. -/
structure IsDefinite (a : Expr Float) : Prop where
  isNaN_eq : a.All fun x => x.isNaN = false
  isFinite : ∀ x, a = .num x → x.isFinite = true

mutual

/-- An expression equals itself unless one of its constants is not a number. -/
lemma same_self (a : Expr Float) : same a a = true ↔ a.All fun x => x.isNaN = false := by
  cases a with
  | num x =>
    change (x == x) = true ↔ _
    rw [Decimal.beq_self, Bool.not_eq_true']
    rfl
  | sym s => exact ⟨fun _ => trivial, fun _ => beq_self_eq_true s⟩
  | neg a => exact same_self a
  | sum as => exact sameAll_self as
  | prod as => exact sameAll_self as

/-- A list is the same as itself iff it holds no NaN. -/
lemma sameAll_self (as : List (Expr Float)) :
    sameAll as as = true ↔ AllIn (fun x => x.isNaN = false) as := by
  cases as with
  | nil => exact ⟨fun _ => trivial, fun _ => rfl⟩
  | cons a as => rw [sameAll, Bool.and_eq_true, same_self a, sameAll_self as, AllIn]

end

/-- A constant is definite iff it is finite. -/
lemma isDefinite_num {x : Float} : IsDefinite (.num x) ↔ x.isFinite = true := by
  constructor
  · exact fun h => h.isFinite x rfl
  · intro h
    refine ⟨Decimal.isNaN_eq_false_of_isFinite h, fun y hy => ?_⟩
    cases hy
    exact h

/-- Apart from constants, what is definite is what is equal to itself. -/
lemma isDefinite_of_ne_num {a : Expr Float} (h : ∀ x, a ≠ .num x) :
    a.IsDefinite ↔ (a == a) = true :=
  ⟨fun hd => (same_self a).2 hd.isNaN_eq, fun hs => ⟨(same_self a).1 hs, fun x hx => absurd hx (h x)⟩⟩

/-- An expression is a constant or is not. -/
lemma eq_num_or_ne_num (a : Expr K) : (∃ x, a = .num x) ∨ ∀ x, a ≠ .num x := by
  cases a with
  | num x => exact .inl ⟨x, rfl⟩
  | sym _ | neg _ | sum _ | prod _ => exact .inr nofun

/-- The constant zero is zero. -/
lemma isZero_zero : (zero : Expr Float).isZero = true :=
  rfl

/-- Only a constant is zero. -/
lemma isZero_of_ne_num {a : Expr Float} (h : ∀ x, a ≠ .num x) : a.isZero = false := by
  cases a with
  | num x => exact absurd rfl (h x)
  | sym _ | neg _ | sum _ | prod _ => rfl

/-- Two terms add up to nothing if one is the negation of the other, and to a sum of both if not. -/
lemma isZero_add_of_terms {a b : Expr Float} (ha : ∀ x, a ≠ .num x) (hb : ∀ x, b ≠ .num x)
    (hs : ∀ as, a ≠ .sum as) (hs' : ∀ as, b ≠ .sum as) : (a + b).isZero = (a == -b) := by
  rw [add_eq_of_not_num fun ⟨x, _, hx, _⟩ => ha x hx, isZero_of_ne_num ha, isZero_of_ne_num hb,
    terms.eq_2 a hs, terms.eq_2 b hs']
  simp only [Bool.false_eq_true, if_false, List.foldl_cons, List.foldl_nil]
  cases h : a == -b with
  | true =>
    have hc : cancel [a] b = [] := by simp [cancel, h]
    rw [hc]
    exact isZero_zero
  | false =>
    have hc : cancel [a] b = [a, b] := by simp [cancel, h]
    rw [hc]
    rfl

namespace Normal

variable {a : Expr Float}

/-- The negation of what is no constant is no constant. -/
lemma neg_ne_num (h : a.Normal) (ha : ∀ x, a ≠ .num x) (x : Float) : -a ≠ .num x := by
  change negate a ≠ _
  cases h with
  | num y => exact absurd rfl (ha y)
  | neg hn _ _ => exact hn x
  | sym _ | sum _ _ _ | prod _ _ _ => exact nofun

/-- To negate twice what is no constant leaves it as it is. -/
lemma neg_neg (h : a.Normal) (ha : ∀ x, a ≠ .num x) : -(-a) = a := by
  change negate (negate a) = a
  cases h with
  | num y => exact absurd rfl (ha y)
  | neg hx hn _ => exact negate.eq_3 _ hx hn
  | sym _ | sum _ _ _ | prod _ _ _ => rfl

/-- The negation of an expression is zero iff the expression is. -/
lemma isZero_neg (h : a.Normal) : (-a).isZero = a.isZero := by
  obtain ⟨x, rfl⟩ | ha := a.eq_num_or_ne_num
  · change (-x == 0) = (x == 0)
    rw [← Decimal.beq_neg, Decimal.beq_neg_zero]
  · rw [isZero_of_ne_num ha, isZero_of_ne_num (h.neg_ne_num ha)]

end Normal

/-- The negation of a single term is no sum. -/
lemma IsSingle.neg_ne_sum {a : Expr Float} (h : a.IsSingle) (as : List (Expr Float)) :
    -a ≠ .sum as := by
  change negate a ≠ _
  cases a with
  | neg b => exact fun hb => h.ne_neg_sum as (congrArg Expr.neg hb)
  | num _ | sym _ | sum _ | prod _ => exact nofun

/-- A single term and its negation add up to zero iff the term is definite. -/
lemma isZero_add_neg_of_single {a : Expr Float} (h : a.Normal) (hs : a.IsSingle) :
    (a + -a).isZero = true ↔ a.IsDefinite := by
  obtain ⟨x, rfl⟩ | ha := a.eq_num_or_ne_num
  · change (x + -x == 0) = true ↔ _
    rw [Decimal.add_neg_beq_zero, isDefinite_num]
  · rw [isZero_add_of_terms ha (h.neg_ne_num ha) hs.ne_sum hs.neg_ne_sum, h.neg_neg ha,
      isDefinite_of_ne_num ha]

/-! ### Sums -/

/-- A sum is the same as no other kind of expression. -/
lemma same_sum_eq_false [BEq K] {a : Expr K} {bs : List (Expr K)} (h : ∀ as, a ≠ .sum as) :
    same a (.sum bs) = false := by
  cases a with
  | sum as => exact absurd rfl (h as)
  | num _ | sym _ | neg _ | prod _ => rfl

/-- A term that none of the others is the negation of stays. -/
lemma mem_foldl_cancel [BEq K] [Neg K] {t : Expr K} {as bs : List (Expr K)} (ht : t ∈ as)
    (h : ∀ b ∈ bs, (t == -b) = false) : t ∈ bs.foldl cancel as := by
  induction bs generalizing as with
  | nil => exact ht
  | cons b bs ih =>
    refine ih ?_ fun c hc => h c (List.mem_cons_of_mem b hc)
    have hb : ¬(t == -b) = true := Bool.eq_false_iff.1 (h b List.mem_cons_self)
    unfold cancel
    split
    · exact (List.mem_eraseP_of_neg (p := (· == -b)) hb).2 ht
    · exact List.mem_append_left [b] ht

/-- A sum that has terms is not zero. -/
lemma isZero_ofTerms {as : List (Expr Float)} (h : ∀ a ∈ as, a.IsTerm) (hne : as ≠ []) :
    (ofTerms as).isZero = false := by
  match as, h, hne with
  | [a], h, _ => exact (h a List.mem_cons_self).isZero_eq
  | _ :: _ :: _, _, _ => rfl

/-- If a term stays, then a sum of terms is not zero. -/
lemma isZero_add_of_mem {a b t : Expr Float} (ha : a.Normal) (hb : b.Normal) (ha' : ∀ x, a ≠ .num x)
    (hb' : ∀ x, b ≠ .num x) (ht : t ∈ b.terms.foldl cancel a.terms) : (a + b).isZero = false := by
  have hz : a.isZero = false := isZero_of_ne_num ha'
  have hz' : b.isZero = false := isZero_of_ne_num hb'
  obtain ⟨has, han⟩ := areTerms_terms ha hz
  obtain ⟨hbs, hbn⟩ := areTerms_terms hb hz'
  obtain ⟨hc, -⟩ := has.foldl_cancel han hbs.isTerm hbn
  rw [add_eq_of_not_num fun ⟨x, _, hx, _⟩ => ha' x hx, hz, hz']
  simp only [Bool.false_eq_true, if_false]
  exact isZero_ofTerms hc.isTerm (List.ne_nil_of_mem ht)

/-- A sum does not cancel with its negation as a whole, whichever comes first. -/
lemma isZero_sum_add_neg {as : List (Expr Float)} (h : (Expr.sum as).Normal) :
    (Expr.sum as + .neg (.sum as)).isZero = false ∧
      (Expr.neg (.sum as) + .sum as).isZero = false := by
  have hn : (Expr.neg (.sum as)).Normal := .neg nofun nofun h
  cases h with
  | sum hl hs ha =>
    have hne (t) (ht : t ∈ as) : (t == Expr.sum as) = false :=
      same_sum_eq_false (hs.isTerm t ht).ne_sum
    constructor
    · obtain ⟨t, ht⟩ : ∃ t, t ∈ as := List.exists_mem_of_length_pos (by omega)
      refine isZero_add_of_mem (t := t) (.sum hl hs ha) hn nofun nofun (mem_foldl_cancel ht ?_)
      intro b hb
      rw [List.mem_singleton.1 hb]
      exact hne t ht
    · refine isZero_add_of_mem (t := .neg (.sum as)) hn (.sum hl hs ha) nofun nofun
        (mem_foldl_cancel List.mem_cons_self ?_)
      intro b hb
      rw [hn.beq_neg_comm (ha b hb)]
      exact hne b hb

/-- An expression and its negation add up to zero iff it is a single term and definite. -/
theorem isZero_add_neg_iff {a : Expr Float} (h : a.Normal) :
    (a + -a).isZero = true ↔ a.IsSingle ∧ a.IsDefinite := by
  by_cases hs : a.IsSingle
  · rw [isZero_add_neg_of_single h hs]
    exact ⟨fun hd => ⟨hs, hd⟩, fun hd => hd.2⟩
  · refine ⟨fun hz => ?_, fun hd => absurd hd.1 hs⟩
    have hf : (a + -a).isZero = false := by
      cases h with
      | sum hl ht ha => exact (isZero_sum_add_neg (.sum hl ht ha)).1
      | @neg b hx hn hb =>
        cases hb with
        | sum hl ht ha => exact (isZero_sum_add_neg (.sum hl ht ha)).2
        | num x => exact absurd rfl (hx x)
        | neg _ _ _ => exact absurd rfl (hn _)
        | sym _ | prod _ _ _ => exact absurd ⟨nofun, nofun⟩ hs
      | num _ | sym _ | prod _ _ _ => exact absurd ⟨nofun, nofun⟩ hs
    rw [hf] at hz
    cases hz

/-! ### Zero -/

/-- What is zero adds up to zero with its negation. -/
lemma isZero_add_neg_of_isZero {a : Expr Float} (h : a.isZero = true) : (a + -a).isZero = true := by
  cases a with
  | num x => exact (Decimal.add_neg_beq_zero x).trans (Decimal.isFinite_of_beq_zero h)
  | sym _ | neg _ | sum _ | prod _ => cases h

/-- Zero in front of a sum is dropped. -/
lemma zero_add_of_ne_num {a : Expr Float} (h : ∀ x, a ≠ .num x) : zero + a = a := by
  rw [add_eq_of_not_num fun ⟨_, x, _, hx⟩ => h x hx, if_pos isZero_zero]

/-- What is added to zero cancels as if it was not. -/
lemma isZero_zero_add_add_neg {a : Expr Float} (h : a.isZero = false) :
    (zero + a).isZero = false ∧ (zero + a + -a).isZero = (a + -a).isZero := by
  obtain ⟨x, rfl⟩ | ha := a.eq_num_or_ne_num
  · have hu := Decimal.unpack_zero_add (x := x) h
    exact ⟨(Decimal.beq_congr hu 0).trans h, Decimal.beq_congr (Decimal.unpack_add_congr hu (-x)) 0⟩
  · rw [zero_add_of_ne_num ha]
    exact ⟨h, rfl⟩

end Expr

end Nodal
