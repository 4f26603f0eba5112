import Nodal.Proofs.Decimal.Double
import Nodal.Proofs.Expr.Reading
/-!
# Texts put together

How a text is read as a part of an expression can be told from how its parts are read (`Expr.Spells`), up to
the value: a product behind a minus sign is read as the product of a negated factor, and sums in sums and
products in products lose their parts to the tree around them, but none of this changes the value.
-/

namespace Nodal

namespace Expr

/-! ### Pieces -/

/-- A character that is neither of a word nor a space is a piece of its own. -/
lemma pieces_cons_mark {c : Char} (h : isWordChar c = false) (hs : c ≠ ' ') (cs : List Char) :
    pieces (c :: cs) = .mark c :: pieces cs := by
  simp [pieces, scan, h, hs, putWord]

/-- A space is no piece. -/
lemma pieces_cons_space (cs : List Char) : pieces (' ' :: cs) = pieces cs := by
  have h : isWordChar ' ' = false := by decide
  simp [pieces, scan, h, putWord]

/-- Whether a text falls into these pieces wherever its last word ends with it. -/
def FallsInto (cs : List Char) (ps : List Piece) : Prop :=
  ∀ rest, (∀ c ∈ rest.head?, isWordChar c = false) → pieces (cs ++ rest) = ps ++ pieces rest

namespace FallsInto

variable {cs ds : List Char} {ps qs : List Piece}

/-- The empty text falls into no pieces. -/
lemma nil : FallsInto [] [] :=
  fun _ _ => rfl

/-- A mark in front of a text is a piece in front of its pieces. -/
lemma mark (h : FallsInto cs ps) {c : Char} (hc : isWordChar c = false) (hs : c ≠ ' ') :
    FallsInto (c :: cs) (.mark c :: ps) := by
  intro rest hr
  rw [List.cons_append, pieces_cons_mark hc hs, h rest hr, List.cons_append]

/-- A space in front of a text changes nothing. -/
lemma space (h : FallsInto cs ps) : FallsInto (' ' :: cs) ps := by
  intro rest hr
  rw [List.cons_append, pieces_cons_space, h rest hr]

/-- A text in front of a mark falls into pieces on its own. -/
lemma append (h : FallsInto cs ps) {c : Char} (hc : isWordChar c = false) (h' : FallsInto (c :: ds) qs) :
    FallsInto (cs ++ c :: ds) (ps ++ qs) := by
  intro rest hr
  have hd : ∀ x ∈ (c :: ds ++ rest).head?, isWordChar x = false := by
    intro x hx
    cases hx
    exact hc
  rw [List.append_assoc, h (c :: ds ++ rest) hd, h' rest hr, List.append_assoc]

/-- Characters of a word make one piece. -/
lemma word {w : List Char} (hne : w ≠ []) (hw : ∀ c ∈ w, isWordChar c = true) :
    FallsInto w [.word (String.ofList w)] := by
  intro rest hr
  -- no word goes on behind `w`, so `w` is all of the word that is found at the head
  have hrest : (scan rest).1 = [] ∧ pieces rest = (scan rest).2 := by
    cases rest with
    | nil => exact ⟨rfl, rfl⟩
    | cons c cs =>
      have hc : isWordChar c = false := hr c rfl
      have hs : (scan (c :: cs)).1 = [] := by
        simp only [scan, hc, Bool.false_eq_true, if_false]
        split <;> rfl
      exact ⟨hs, by simp [pieces, putWord, hs]⟩
  have hscan : scan (w ++ rest) = (w, (scan rest).2) := by
    clear hne hr
    induction w with
    | nil => rw [List.nil_append, ← hrest.1]
    | cons c cs ih =>
      have hc := hw c List.mem_cons_self
      have hcs := ih fun x hx => hw x (List.mem_cons_of_mem c hx)
      simp [scan, hc, hcs]
  rw [pieces, hscan, hrest.2]
  exact if_neg hne

end FallsInto

/-! ### Values -/

/-- Whether expressions have the same value whatever numbers the symbols stand for. -/
def SameValue (a b : Expr Float) : Prop :=
  ∀ env : String → ℚ, (a.map Decimal.toRat).eval env = (b.map Decimal.toRat).eval env

namespace SameValue

variable {a b c d : Expr Float}

/-- An expression has the value of itself. -/
lemma refl (a : Expr Float) : SameValue a a :=
  fun _ => rfl

/-- To have the same value is transitive. -/
lemma trans (h : SameValue a b) (h' : SameValue b c) : SameValue a c :=
  fun env => (h env).trans (h' env)

/-- Negations of the same value have the same value. -/
lemma neg (h : SameValue a b) : SameValue (.neg a) (.neg b) :=
  fun env => congrArg Neg.neg (h env)

/-- Products of two factors have the same value if their factors do. -/
lemma prod (h : SameValue a b) (h' : SameValue c d) : SameValue (.prod [a, c]) (.prod [b, d]) := by
  intro env
  simp only [map, mapAll, eval, evalProd]
  rw [h env, h' env]

/-- Sums of two terms have the same value if their terms do. -/
lemma sum (h : SameValue a b) (h' : SameValue c d) : SameValue (.sum [a, c]) (.sum [b, d]) := by
  intro env
  simp only [map, mapAll, eval, evalSum]
  rw [h env, h' env]

/-- A constant has the value of its negation, negated. -/
lemma neg_num (x : Float) : SameValue (.neg (.num (-x))) (.num x) := by
  intro env
  simp only [map, eval, Decimal.toRat_neg, neg_neg]

/-- A negation can be moved out of a product. -/
lemma neg_prod (a b : Expr Float) : SameValue (.prod [.neg a, b]) (.neg (.prod [a, b])) := by
  intro env
  simp only [map, mapAll, eval, evalProd]
  ring

/-- A product in front of factors can be opened. -/
lemma prod_cons (a b : Expr Float) (bs : List (Expr Float)) :
    SameValue (.prod (.prod [a, b] :: bs)) (.prod (a :: b :: bs)) := by
  intro env
  simp only [map, mapAll, eval, evalProd]
  ring

/-- Products of three factors can be put together either way. -/
lemma prod_assoc (a b c : Expr Float) : SameValue (.prod [.prod [a, b], c]) (.prod [a, .prod [b, c]]) := by
  intro env
  simp only [map, mapAll, eval, evalProd]
  ring

/-- A product of one factor has its value. -/
lemma prod_singleton (a : Expr Float) : SameValue a (.prod [a]) := by
  intro env
  simp only [map, mapAll, eval, evalProd, mul_one]

/-- A sum in front of terms can be opened. -/
lemma sum_cons (a b : Expr Float) (bs : List (Expr Float)) :
    SameValue (.sum (.sum [a, b] :: bs)) (.sum (a :: b :: bs)) := by
  intro env
  simp only [map, mapAll, eval, evalSum]
  ring

/-- Sums of three terms can be put together either way. -/
lemma sum_assoc (a b c : Expr Float) : SameValue (.sum [.sum [a, b], c]) (.sum [a, .sum [b, c]]) := by
  intro env
  simp only [map, mapAll, eval, evalSum]
  ring

/-- A sum of one term has its value. -/
lemma sum_singleton (a : Expr Float) : SameValue a (.sum [a]) := by
  intro env
  simp only [map, mapAll, eval, evalSum, add_zero]

end SameValue

namespace Derives

variable {ps qs : List Piece} {a b : Expr Float}

/-- A minus sign in front of a product negates it, though it belongs to the first factor. -/
lemma exists_minus (h : Derives .product ps a) :
    ∃ c, Derives .product (.mark '-' :: ps) c ∧ SameValue c (.neg a) := by
  generalize hl : Level.product = l at h
  induction h with
  | @operand ps a h _ => exact ⟨.neg a, .operand (.minus h), .refl _⟩
  | @times ps qs a b _ hb iha _ =>
    obtain ⟨c, hc, hv⟩ := iha hl
    exact ⟨.prod [c, b], .times hc hb, (hv.prod (.refl b)).trans (.neg_prod a b)⟩
  | word _ | minus _ _ | paren _ _ | product _ _ | plus _ _ _ _ | less _ _ _ _ => cases hl

/-- Products are multiplied by writing the factors of one behind those of the other. -/
lemma exists_times (ha : Derives .product ps a) (hb : Derives .product qs b) :
    ∃ c, Derives .product (ps ++ .mark '*' :: qs) c ∧ SameValue c (.prod [a, b]) := by
  generalize hl : Level.product = l at hb
  induction hb with
  | @operand qs b hb _ => exact ⟨.prod [a, b], .times ha hb, .refl _⟩
  | @times qs rs b d _ hd ihb _ =>
    obtain ⟨c, hc, hv⟩ := ihb hl
    have hcd := Derives.times hc hd
    rw [List.append_assoc] at hcd
    exact ⟨.prod [c, d], hcd, (hv.prod (.refl d)).trans (.prod_assoc a b d)⟩
  | word _ | minus _ _ | paren _ _ | product _ _ | plus _ _ _ _ | less _ _ _ _ => cases hl

/-- Sums are added by writing the terms of one behind those of the other. -/
lemma exists_plus (ha : Derives .sum ps a) (hb : Derives .sum qs b) :
    ∃ c, Derives .sum (ps ++ .mark '+' :: qs) c ∧ SameValue c (.sum [a, b]) := by
  generalize hl : Level.sum = l at hb
  induction hb with
  | @product qs b hb _ => exact ⟨.sum [a, b], .plus ha hb, .refl _⟩
  | @plus qs rs b d _ hd ihb _ =>
    obtain ⟨c, hc, hv⟩ := ihb hl
    have hcd := Derives.plus hc hd
    rw [List.append_assoc] at hcd
    exact ⟨.sum [c, d], hcd, (hv.sum (.refl d)).trans (.sum_assoc a b d)⟩
  | @less qs rs b d _ hd ihb _ =>
    obtain ⟨c, hc, hv⟩ := ihb hl
    have hcd := Derives.less hc hd
    rw [List.append_assoc] at hcd
    exact ⟨.sum [c, .neg d], hcd, (hv.sum (.refl (.neg d))).trans (.sum_assoc a b (.neg d))⟩
  | word _ | minus _ _ | paren _ _ | operand _ _ | times _ _ _ _ => cases hl

end Derives

/-! ### Texts that are read as a part of an expression -/

/-- Whether a text can be read as a part of an expression that has the value of `a`. -/
def Spells (l : Level) (cs : List Char) (a : Expr Float) : Prop :=
  ∃ ps b, FallsInto cs ps ∧ Derives l ps b ∧ SameValue b a

namespace Spells

variable {l : Level} {cs ds : List Char} {a b : Expr Float}

/-- A text spells all that has the same value. -/
lemma congr (h : Spells l cs a) (hv : SameValue a b) : Spells l cs b := by
  obtain ⟨ps, c, hf, hd, hc⟩ := h
  exact ⟨ps, c, hf, hd, hc.trans hv⟩

/-- What spells an operand spells a product. -/
lemma product (h : Spells .operand cs a) : Spells .product cs a := by
  obtain ⟨ps, b, hf, hd, hv⟩ := h
  exact ⟨ps, b, hf, .operand hd, hv⟩

/-- What spells a product spells a sum. -/
lemma sum (h : Spells .product cs a) : Spells .sum cs a := by
  obtain ⟨ps, b, hf, hd, hv⟩ := h
  exact ⟨ps, b, hf, .product hd, hv⟩

/-- A sum in parentheses spells an operand. -/
lemma paren (h : Spells .sum cs a) : Spells .operand ('(' :: cs ++ [')']) a := by
  obtain ⟨ps, b, hf, hd, hv⟩ := h
  have hclose : FallsInto [')'] [.mark ')'] := FallsInto.nil.mark (by decide) (by decide)
  refine ⟨.mark '(' :: ps ++ [.mark ')'], b, ?_, .paren hd, hv⟩
  exact (hf.mark (by decide) (by decide)).append (by decide) hclose

/-- A minus in front of a product spells its negation. -/
lemma minus (h : Spells .product cs a) : Spells .product ('-' :: cs) (.neg a) := by
  obtain ⟨ps, b, hf, hd, hv⟩ := h
  obtain ⟨c, hc, hcv⟩ := hd.exists_minus
  exact ⟨_, c, hf.mark (by decide) (by decide), hc, hcv.trans hv.neg⟩

/-- Products with a star between them spell their product. -/
lemma times (ha : Spells .product cs a) (hb : Spells .product ds b) :
    Spells .product (cs ++ '*' :: ds) (.prod [a, b]) := by
  obtain ⟨ps, a', hf, hd, hv⟩ := ha
  obtain ⟨qs, b', hf', hd', hv'⟩ := hb
  obtain ⟨c, hc, hcv⟩ := hd.exists_times hd'
  exact ⟨_, c, hf.append (by decide) (hf'.mark (by decide) (by decide)), hc, hcv.trans (hv.prod hv')⟩

/-- Sums with a plus between them spell their sum. -/
lemma plus (ha : Spells .sum cs a) (hb : Spells .sum ds b) :
    Spells .sum (cs ++ ' ' :: '+' :: ' ' :: ds) (.sum [a, b]) := by
  obtain ⟨ps, a', hf, hd, hv⟩ := ha
  obtain ⟨qs, b', hf', hd', hv'⟩ := hb
  obtain ⟨c, hc, hcv⟩ := hd.exists_plus hd'
  have hf' := (hf'.space.mark (c := '+') (by decide) (by decide)).space
  exact ⟨_, c, hf.append (by decide) hf', hc, hcv.trans (hv.sum hv')⟩

/-- A sum and a product with a minus between them spell their difference. -/
lemma less (ha : Spells .sum cs a) (hb : Spells .product ds b) :
    Spells .sum (cs ++ ' ' :: '-' :: ' ' :: ds) (.sum [a, .neg b]) := by
  obtain ⟨ps, a', hf, hd, hv⟩ := ha
  obtain ⟨qs, b', hf', hd', hv'⟩ := hb
  have hf' := (hf'.space.mark (c := '-') (by decide) (by decide)).space
  exact ⟨_, .sum [a', .neg b'], hf.append (by decide) hf', .less hd hd', hv.sum hv'.neg⟩

end Spells

end Expr

end Nodal
