import Mathlib.Tactic.Lemma
import Nodal.Proofs.Expr.Product
/-!
# Other constants

Constants of one type can be replaced by numbers of another. If the replacement is faithful to zero,
one, negation and equality (`Expr.Faithful`), then it commutes with the operators on expressions
wherever these add or multiply no two constants with a loss (`Expr.AddsExactly`, `Expr.TimesExactly`):
`Expr.Faithful.map_neg`, `Expr.Faithful.map_add` and `Expr.Faithful.map_mul`. What the constants are is
asked of those alone that have a property `P`, such as being finite.
-/

namespace Nodal

namespace Expr

variable {K L : Type}

mutual

/-- Whether all constants in an expression have a property. -/
def All (P : K → Prop) : Expr K → Prop
  | .num x => P x
  | .sym _ => True
  | .neg a => All P a
  | .sum as => AllIn P as
  | .prod as => AllIn P as

/-- Whether all constants in a list of expressions have a property. -/
def AllIn (P : K → Prop) : List (Expr K) → Prop
  | [] => True
  | a :: as => All P a ∧ AllIn P as

end

mutual

def decidableAll (P : K → Prop) [DecidablePred P] : (a : Expr K) → Decidable (a.All P)
  | .num x => inferInstanceAs (Decidable (P x))
  | .sym _ => .isTrue trivial
  | .neg a => decidableAll P a
  | .sum as => decidableAllIn P as
  | .prod as => decidableAllIn P as

def decidableAllIn (P : K → Prop) [DecidablePred P] : (as : List (Expr K)) → Decidable (AllIn P as)
  | [] => .isTrue trivial
  | a :: as => @instDecidableAnd _ _ (decidableAll P a) (decidableAllIn P as)

end

instance (P : K → Prop) [DecidablePred P] (a : Expr K) : Decidable (a.All P) :=
  decidableAll P a

/-- A property holds of all constants in a list iff it holds of those in each member. -/
lemma allIn_iff {P : K → Prop} {as : List (Expr K)} : AllIn P as ↔ ∀ a ∈ as, a.All P := by
  induction as with
  | nil => simp [AllIn]
  | cons a as ih => simp [AllIn, ih]

/-- Constants in a list are replaced member by member. -/
lemma mapAll_eq_map (f : K → L) (as : List (Expr K)) : mapAll f as = as.map (map f) := by
  induction as with
  | nil => rfl
  | cons a as ih => rw [mapAll, ih, List.map_cons]

/-- Whether a sum of two constants is again a constant with the property `P`, and is found from their
images as well. -/
def AddsExactly [Add K] [Add L] (P : K → Prop) (φ : K → L) : Expr K → Expr K → Prop
  | .num x, .num y => P (x + y) ∧ φ (x + y) = φ x + φ y
  | _, _ => True

instance [Add K] [Add L] [DecidableEq L] (P : K → Prop) [DecidablePred P] (φ : K → L)
    (a b : Expr K) : Decidable (AddsExactly P φ a b) :=
  match a with
  | .num x =>
    match b with
    | .num y => inferInstanceAs (Decidable (P (x + y) ∧ φ (x + y) = φ x + φ y))
    | .sym _ | .neg _ | .sum _ | .prod _ => .isTrue trivial
  | .sym _ | .neg _ | .sum _ | .prod _ => .isTrue trivial

/-- A replacement of the constants with the property `P` that is faithful to them, apart from their
sums and products. -/
structure Faithful [BEq K] [Zero K] [One K] [Add K] [Neg K] [BEq L] [Zero L] [One L] [Add L]
    [Neg L] (P : K → Prop) (φ : K → L) : Prop where
  zero : P 0
  one : P 1
  /-- Negation keeps the property. -/
  neg : ∀ {x}, P x → P (-x)
  apply_zero : φ 0 = 0
  apply_one : φ 1 = 1
  apply_neg : ∀ {x}, P x → φ (-x) = -φ x
  /-- Equality is that of the images. -/
  apply_beq : ∀ {x y}, P x → P y → (φ x == φ y) = (x == y)
  /-- Nothing is lost when a constant is added to zero. -/
  zero_add : ∀ {x}, P x → P (0 + x) ∧ φ (0 + x) = φ 0 + φ x

namespace Faithful

variable [BEq K] [Zero K] [One K] [Add K] [Neg K] [BEq L] [Zero L] [One L] [Add L] [Neg L]
variable {P : K → Prop} {φ : K → L}

mutual

/-- Expressions have the same shape iff their images have. -/
lemma same_map (h : Faithful P φ) (a b : Expr K) (ha : a.All P) (hb : b.All P) :
    same (a.map φ) (b.map φ) = same a b := by
  cases a with
  | num x =>
    cases b with
    | num y => exact h.apply_beq ha hb
    | sym _ | neg _ | sum _ | prod _ => rfl
  | sym s => cases b <;> rfl
  | neg a =>
    cases b with
    | neg b => exact h.same_map a b ha hb
    | num _ | sym _ | sum _ | prod _ => rfl
  | sum as =>
    cases b with
    | sum bs => exact h.sameAll_map as bs ha hb
    | num _ | sym _ | neg _ | prod _ => rfl
  | prod as =>
    cases b with
    | prod bs => exact h.sameAll_map as bs ha hb
    | num _ | sym _ | neg _ | sum _ => rfl

/-- A faithful replacement keeps which lists are the same. -/
lemma sameAll_map (h : Faithful P φ) (as bs : List (Expr K)) (ha : AllIn P as) (hb : AllIn P bs) :
    sameAll (mapAll φ as) (mapAll φ bs) = sameAll as bs := by
  cases as with
  | nil => cases bs <;> rfl
  | cons a as =>
    cases bs with
    | nil => rfl
    | cons b bs =>
      simp only [mapAll, sameAll]
      rw [h.same_map a b ha.1 hb.1, h.sameAll_map as bs ha.2 hb.2]

end

/-- A faithful replacement keeps zero. -/
lemma map_zero (h : Faithful P φ) : (Expr.zero : Expr K).map φ = Expr.zero :=
  congrArg num h.apply_zero

/-- A faithful replacement keeps one. -/
lemma map_one (h : Faithful P φ) : (Expr.one : Expr K).map φ = Expr.one :=
  congrArg num h.apply_one

/-- A faithful replacement keeps which constant an expression is. -/
lemma isNum_map (h : Faithful P φ) {a : Expr K} (ha : a.All P) {x : K} (hx : P x) :
    (a.map φ).isNum (φ x) = a.isNum x := by
  cases a with
  | num y => exact h.apply_beq ha hx
  | sym _ | neg _ | sum _ | prod _ => rfl

/-- A faithful replacement keeps which expressions are zero. -/
lemma isZero_map (h : Faithful P φ) {a : Expr K} (ha : a.All P) :
    (a.map φ).isZero = a.isZero := by
  rw [isZero, isZero, ← h.isNum_map ha h.zero, h.apply_zero]

/-- A faithful replacement keeps which expressions are one. -/
lemma isOne_map (h : Faithful P φ) {a : Expr K} (ha : a.All P) : (a.map φ).isOne = a.isOne := by
  rw [isOne, isOne, ← h.isNum_map ha h.one, h.apply_one]

/-- A faithful replacement keeps which expressions are minus one. -/
lemma isNum_neg_one_map (h : Faithful P φ) {a : Expr K} (ha : a.All P) :
    (a.map φ).isNum (-1) = a.isNum (-1) := by
  rw [← h.isNum_map ha (h.neg h.one), h.apply_neg h.one, h.apply_one]

/-- The negation of an expression has the property of its constants. -/
lemma all_neg (h : Faithful P φ) {a : Expr K} (ha : a.All P) : (-a).All P := by
  change (negate a).All P
  cases a with
  | num x => exact h.neg ha
  | sym _ | neg _ | sum _ | prod _ => exact ha

/-- The image of a negation is the negated image. -/
lemma map_neg (h : Faithful P φ) {a : Expr K} (ha : a.All P) : (-a).map φ = -a.map φ := by
  change (negate a).map φ = negate (a.map φ)
  cases a with
  | num x => exact congrArg num (h.apply_neg ha)
  | sym _ | neg _ | sum _ | prod _ => rfl

end Faithful

section Terms

/-- The terms that are left after cancelling are some of those there were. -/
lemma all_cancel [BEq K] [Neg K] {P : K → Prop} {as : List (Expr K)} {a : Expr K}
    (has : ∀ b ∈ as, b.All P) (ha : a.All P) : ∀ b ∈ cancel as a, b.All P := by
  intro b hb
  unfold cancel at hb
  split at hb
  · exact has b (List.mem_of_mem_eraseP hb)
  · rcases List.mem_append.1 hb with hb | hb
    · exact has b hb
    · rwa [List.mem_singleton.1 hb]

/-- What is left of terms that cancel has the property of their constants. -/
lemma all_foldl_cancel [BEq K] [Neg K] {P : K → Prop} {as bs : List (Expr K)}
    (has : ∀ a ∈ as, a.All P) (hbs : ∀ b ∈ bs, b.All P) : ∀ c ∈ bs.foldl cancel as, c.All P := by
  induction bs generalizing as with
  | nil => exact has
  | cons b bs ih =>
    exact ih (all_cancel has (hbs b List.mem_cons_self)) fun c hc => hbs c (List.mem_cons_of_mem b hc)

/-- The terms of an expression have the property of its constants. -/
lemma all_terms {P : K → Prop} {a : Expr K} (ha : a.All P) : ∀ t ∈ a.terms, t.All P := by
  cases a with
  | sum as => exact allIn_iff.1 ha
  | num _ | sym _ | neg _ | prod _ =>
    intro t ht
    rwa [List.mem_singleton.1 ht]

/-- A sum has the property of the constants in its terms. -/
lemma all_ofTerms [Zero K] {P : K → Prop} (h0 : P 0) {as : List (Expr K)}
    (has : ∀ a ∈ as, a.All P) : (ofTerms as).All P := by
  unfold ofTerms
  split
  · exact h0
  · exact has _ List.mem_cons_self
  · exact allIn_iff.2 has

/-- The terms of an expression are replaced one by one. -/
lemma terms_map (φ : K → L) (a : Expr K) : (a.map φ).terms = a.terms.map (map φ) := by
  cases a with
  | sum as => exact mapAll_eq_map φ as
  | num _ | sym _ | neg _ | prod _ => rfl

/-- A sum is replaced term by term if zero is kept. -/
lemma ofTerms_map [Zero K] [Zero L] {φ : K → L} (h0 : φ 0 = 0) (as : List (Expr K)) :
    (ofTerms as).map φ = ofTerms (as.map (map φ)) := by
  match as with
  | [] => exact congrArg num h0
  | [_] => rfl
  | a :: b :: as => exact congrArg sum (mapAll_eq_map φ (a :: b :: as))

/-- Only a constant is replaced by a constant. -/
lemma exists_of_map_eq_num {φ : K → L} {a : Expr K} {y : L} (h : a.map φ = .num y) :
    ∃ x, a = .num x := by
  cases a with
  | num x => exact ⟨x, rfl⟩
  | sym _ | neg _ | sum _ | prod _ => cases h

/-- Only two constants are replaced by two constants. -/
lemma exists_nums_of_map (φ : K → L) {a b : Expr K}
    (h : ∃ x y, a.map φ = .num x ∧ b.map φ = .num y) : ∃ x y, a = .num x ∧ b = .num y := by
  obtain ⟨x, y, hx, hy⟩ := h
  obtain ⟨x', rfl⟩ := exists_of_map_eq_num hx
  obtain ⟨y', rfl⟩ := exists_of_map_eq_num hy
  exact ⟨x', y', rfl, rfl⟩

/-- A sum that is not one of two constants. -/
lemma add_eq_of_not_num [BEq K] [Zero K] [Add K] [Neg K] {a b : Expr K}
    (h : ¬∃ x y, a = .num x ∧ b = .num y) :
    a + b = if a.isZero then b else if b.isZero then a else ofTerms (b.terms.foldl cancel a.terms) :=
  plus.eq_2 a b fun x y ha hb => h ⟨x, y, ha, hb⟩

end Terms

/-- What is removed from a list does not depend on what the members are replaced by. -/
lemma eraseP_map_of_beq {α β : Type} {f : α → β} {p : α → Bool} {q : β → Bool} {as : List α}
    (h : ∀ a ∈ as, q (f a) = p a) :
    (as.map f).any q = as.any p ∧ (as.map f).eraseP q = (as.eraseP p).map f := by
  induction as with
  | nil => exact ⟨rfl, rfl⟩
  | cons a as ih =>
    have ha : q (f a) = p a := h a List.mem_cons_self
    obtain ⟨ih1, ih2⟩ := ih fun b hb => h b (List.mem_cons_of_mem a hb)
    refine ⟨by rw [List.map_cons, List.any_cons, List.any_cons, ha, ih1], ?_⟩
    rw [List.map_cons, List.eraseP_cons, List.eraseP_cons, ha, ih2]
    cases p a <;> rfl

namespace Faithful

variable [BEq K] [Zero K] [One K] [Add K] [Neg K] [BEq L] [Zero L] [One L] [Add L] [Neg L]
variable {P : K → Prop} {φ : K → L}

/-- Cancelling a term keeps the image of the others. -/
lemma map_cancel (h : Faithful P φ) {as : List (Expr K)} {a : Expr K} (has : ∀ b ∈ as, b.All P)
    (ha : a.All P) : (cancel as a).map (map φ) = cancel (as.map (map φ)) (a.map φ) := by
  have hs : ∀ b ∈ as, (b.map φ == -a.map φ) = (b == -a) := by
    intro b hb
    rw [← h.map_neg ha]
    exact h.same_map b (-a) (has b hb) (h.all_neg ha)
  obtain ⟨hany, herase⟩ := eraseP_map_of_beq (p := (· == -a)) (q := (· == -a.map φ)) hs
  unfold cancel
  rw [hany, herase]
  split
  · rfl
  · rw [List.map_append, List.map_singleton]

/-- A faithful replacement keeps which terms cancel in a sum. -/
lemma map_foldl_cancel (h : Faithful P φ) {as bs : List (Expr K)} (has : ∀ a ∈ as, a.All P)
    (hbs : ∀ b ∈ bs, b.All P) :
    (bs.foldl cancel as).map (map φ) = (bs.map (map φ)).foldl cancel (as.map (map φ)) := by
  induction bs generalizing as with
  | nil => rfl
  | cons b bs ih =>
    have hb : b.All P := hbs b List.mem_cons_self
    rw [List.map_cons, List.foldl_cons, List.foldl_cons, ← h.map_cancel has hb]
    exact ih (all_cancel has hb) fun c hc => hbs c (List.mem_cons_of_mem b hc)

/-- Nothing is lost when an expression is added to zero. -/
lemma addsExactly_zero (h : Faithful P φ) {a : Expr K} (ha : a.All P) :
    AddsExactly P φ Expr.zero a := by
  cases a with
  | num x => exact h.zero_add ha
  | sym _ | neg _ | sum _ | prod _ => trivial

/-- An exact sum has the property of the constants in its summands. -/
lemma all_add (h : Faithful P φ) {a b : Expr K} (ha : a.All P) (hb : b.All P)
    (hab : AddsExactly P φ a b) : (a + b).All P := by
  by_cases hn : ∃ x y, a = .num x ∧ b = .num y
  · obtain ⟨x, y, rfl, rfl⟩ := hn
    exact hab.1
  · rw [add_eq_of_not_num hn]
    split
    · exact hb
    · split
      · exact ha
      · exact all_ofTerms h.zero (all_foldl_cancel (all_terms ha) (all_terms hb))

/-- The image of a sum is the sum of the images, unless two constants are added with a loss. -/
lemma map_add (h : Faithful P φ) {a b : Expr K} (ha : a.All P) (hb : b.All P)
    (hab : AddsExactly P φ a b) : (a + b).map φ = a.map φ + b.map φ := by
  by_cases hn : ∃ x y, a = .num x ∧ b = .num y
  · obtain ⟨x, y, rfl, rfl⟩ := hn
    exact congrArg num hab.2
  -- otherwise both sums cancel terms, and no constants are added
  · have hm := mt (exists_nums_of_map φ) hn
    rw [add_eq_of_not_num hn, add_eq_of_not_num hm, h.isZero_map ha, h.isZero_map hb]
    split
    · rfl
    · split
      · rfl
      · rw [ofTerms_map h.apply_zero, h.map_foldl_cancel (all_terms ha) (all_terms hb),
          terms_map, terms_map]

end Faithful

section Factors

/-- What is left of an expression without the negations around it. -/
def unsigned : Expr K → Expr K
  | .neg a => unsigned a
  | a => a

/-- Whether the product of two constants, whatever their signs, is again a constant with the property `P`,
and is found from their images as well. -/
def TimesExactly [Mul K] [Mul L] (P : K → Prop) (φ : K → L) (a b : Expr K) : Prop :=
  ∀ x y, a.unsigned = .num x → b.unsigned = .num y → P (x * y) ∧ φ (x * y) = φ x * φ y

/-- The factors of an expression have the property of its constants. -/
lemma all_factors {P : K → Prop} {a : Expr K} (ha : a.All P) : ∀ t ∈ a.factors, t.All P := by
  cases a with
  | prod as => exact allIn_iff.1 ha
  | num _ | sym _ | neg _ | sum _ =>
    intro t ht
    rwa [List.mem_singleton.1 ht]

/-- The factors of an expression are replaced one by one. -/
lemma factors_map (φ : K → L) (a : Expr K) : (a.map φ).factors = a.factors.map (map φ) := by
  cases a with
  | prod as => exact mapAll_eq_map φ as
  | num _ | sym _ | neg _ | sum _ => rfl

/-- What is no negation is not replaced by one. -/
lemma map_ne_neg {φ : K → L} {a : Expr K} (h : ∀ b, a ≠ .neg b) (b : Expr L) : a.map φ ≠ .neg b := by
  cases a with
  | neg a => exact absurd rfl (h a)
  | num _ | sym _ | sum _ | prod _ => exact nofun

end Factors

namespace Faithful

variable [BEq K] [Zero K] [One K] [Add K] [Mul K] [Neg K]
variable [BEq L] [Zero L] [One L] [Add L] [Mul L] [Neg L]
variable {P : K → Prop} {φ : K → L}

/-- An exact product has the property of the constants in its factors. -/
lemma all_product (h : Faithful P φ) {a b c : Expr K} (hc : Product a b c) (ha : a.All P)
    (hb : b.All P) (hab : TimesExactly P φ a b) : c.All P := by
  induction hc with
  | nums x y => exact (hab x y rfl rfl).1
  | zero _ => exact h.zero
  | oneLeft _ => exact hb
  | oneRight _ => exact ha
  | minusLeft _ => exact h.all_neg hb
  | minusRight _ => exact h.all_neg ha
  | negLeft _ ih => exact h.all_neg (ih ha hb hab)
  | negRight _ ih => exact h.all_neg (ih ha hb hab)
  | joined _ _ =>
    refine allIn_iff.2 fun t ht => ?_
    rcases List.mem_append.1 ht with ht | ht
    · exact all_factors ha t ht
    · exact all_factors hb t ht

/-- A product needs no new node iff that of the images needs none. -/
lemma shortcut_map (h : Faithful P φ) {a b : Expr K} (ha : a.All P) (hb : b.All P)
    (hab : TimesExactly P φ a b) :
    shortcut? (a.map φ) (b.map φ) = (shortcut? a b).map (map φ) := by
  by_cases hn : ∃ x y, a = .num x ∧ b = .num y
  · obtain ⟨x, y, rfl, rfl⟩ := hn
    exact congrArg (some ∘ num) (hab x y rfl rfl).2.symm
  · have hm := mt (exists_nums_of_map φ) hn
    rw [shortcut?.eq_2 a b fun x y ha hb => hn ⟨x, y, ha, hb⟩,
      shortcut?.eq_2 _ _ fun x y ha hb => hm ⟨x, y, ha, hb⟩, h.isZero_map ha, h.isZero_map hb,
      h.isOne_map ha, h.isOne_map hb, h.isNum_neg_one_map ha, h.isNum_neg_one_map hb, ← h.map_neg ha,
      ← h.map_neg hb, ← h.map_zero]
    simp only [apply_ite (Option.map (map φ)), Option.map_some, Option.map_none]

/-- An exact product by a factor on the right is replaced factor by factor. -/
lemma map_timesRight (h : Faithful P φ) {a : Expr K} (hn : ∀ c, a ≠ .neg c) (b : Expr K)
    (ha : a.All P) (hb : b.All P) (hab : TimesExactly P φ a b) :
    (timesRight a b).map φ = timesRight (a.map φ) (b.map φ) := by
  induction b using timesRight.induct with
  | case1 b ih =>
    have hp : (timesRight a b).All P := h.all_product (product_timesRight hn b) ha hb hab
    rw [map, timesRight, timesRight, ← map, h.shortcut_map ha hb hab, ← ih hb hab, ← h.map_neg hp]
    cases shortcut? a (.neg b) <;> rfl
  | case2 b hbn =>
    rw [timesRight.eq_2 a b hbn, timesRight.eq_2 _ _ (map_ne_neg hbn), h.shortcut_map ha hb hab,
      factors_map, factors_map, ← List.map_append]
    cases shortcut? a b with
    | some c => rfl
    | none => exact congrArg prod (mapAll_eq_map φ _)

/-- The image of a product is the product of the images, unless two constants are multiplied with a loss. -/
lemma map_mul (h : Faithful P φ) {a b : Expr K} (ha : a.All P) (hb : b.All P)
    (hab : TimesExactly P φ a b) : (a * b).map φ = a.map φ * b.map φ := by
  change (times a b).map φ = times (a.map φ) (b.map φ)
  induction a, b using times.induct with
  | case1 a b ih =>
    have hp : (times a b).All P := h.all_product (product_mul a b) ha hb hab
    rw [map, times, times, ← map, h.shortcut_map ha hb hab, ← ih ha hb hab, ← h.map_neg hp]
    cases shortcut? (.neg a) b <;> rfl
  | case2 a b hn =>
    rw [times.eq_2 a b hn, times.eq_2 _ _ (map_ne_neg hn)]
    exact h.map_timesRight hn b ha hb hab

end Faithful

end Expr

end Nodal
