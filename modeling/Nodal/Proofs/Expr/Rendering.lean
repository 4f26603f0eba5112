import Nodal.Expr.Printer
import Nodal.Proofs.Decimal.Positional
import Nodal.Proofs.Expr.Spelling
import Nodal.Proofs.Expr.Symbols
/-!
# Texts of expressions read back

The text of an expression is read in just one way, as an expression with the same value
(`Expr.read?_text`). Parentheses are left out only where the value does not depend on them. Constants that are
not finite are no numbers in the text, and are read as symbols (`Expr.not_faithful_overflow`).
-/

namespace Nodal

namespace Expr

/-! ### Words -/

/-- A digit can stand in a word. -/
lemma isWordChar_of_isDigit {c : Char} (h : c.isDigit = true) : isWordChar c = true := by
  have hlt : c.toNat < 0x80 := by
    have h9 : c.toNat ≤ 57 := by
      simp only [Char.isDigit, Bool.and_eq_true, decide_eq_true_eq] at h
      exact h.2
    omega
  simp [isWordChar, isIdentChar, Text.isAlphanumeric_of_lt hlt, Char.isAlphanum, h]

/-- A word that starts with a digit is no symbol. -/
lemma not_isSymbol_of_isDigit {c : Char} {cs : List Char} (h : c.isDigit = true) :
    isSymbol (String.ofList (c :: cs)) = false := by
  simp [isSymbol, h]

/-- A symbol is read as itself. -/
lemma spells_sym {s : String} (h : isSymbol s = true) : Spells .operand s.toList (.sym s) := by
  have hs := h
  simp only [isSymbol, isIdentifier, Bool.and_eq_true, Bool.not_eq_true', List.isEmpty_eq_false_iff,
    List.all_eq_true] at hs
  obtain ⟨⟨hne, hall⟩, -⟩ := hs
  have hw : ∀ c ∈ s.toList, isWordChar c = true := by
    intro c hc
    rw [isWordChar, hall c hc, Bool.true_or]
  refine ⟨_, .sym s, .word hne hw, .word ?_, .refl _⟩
  rw [String.ofList_toList, ofWord?, if_pos h]

section Number

variable {x : Float} (hx : x.isFinite = true)

include hx

/-- The digits of a finite double are read as the double without its sign. -/
lemma value?_magnitudeText : ∃ y, Decimal.value? (String.ofList (Decimal.magnitudeText x)) = some y ∧
    y.toModel.unpack = x.toModel.unpack.abs := by
  obtain ⟨whole, fraction, hlit, hvalue⟩ := Decimal.isLiteral_magnitudeText hx
  refine ⟨_, ?_, hvalue⟩
  have hread := hlit.read? false
  rw [if_neg Bool.false_ne_true] at hread
  rw [Decimal.value?, String.toList_ofList, Decimal.trimWhite_of_isTextChar fun _ => hlit.isTextChar, hread]
  simp [Decimal.Numeral.value, Decimal.Numeral.unscaled, Decimal.Numeral.mantissa, Decimal.Numeral.power]

/-- A finite constant is read as its magnitude, which is negated if there is a sign in front of it. -/
lemma spells_num : Spells .operand (Decimal.text x).toList (.num x) := by
  obtain ⟨whole, fraction, hlit, -⟩ := Decimal.isLiteral_magnitudeText hx
  obtain ⟨y, hy, habs⟩ := value?_magnitudeText hx
  obtain ⟨c, ds, rfl⟩ := List.exists_cons_of_ne_nil hlit.whole_ne_nil
  have hmag := hlit.eq
  have hdigit : c.isDigit = true := hlit.areDigits c List.mem_cons_self
  have hw : ∀ c ∈ Decimal.magnitudeText x, isWordChar c = true := by
    intro c hc
    rcases hlit.isMantissa.isDigit_or_eq hc with hd | rfl
    · exact isWordChar_of_isDigit hd
    · rfl
  have hfalls : FallsInto (Decimal.magnitudeText x) [.word (String.ofList (Decimal.magnitudeText x))] :=
    .word hlit.isMantissa.ne_nil hw
  have hword : ofWord? (String.ofList (Decimal.magnitudeText x)) = some (.num y) := by
    rw [ofWord?, hy, hmag, List.cons_append, not_isSymbol_of_isDigit hdigit]
    rfl
  have hrat : Decimal.toRat x = Decimal.unpackedToRat
      (if Decimal.signBit x then (-y).toModel.unpack else y.toModel.unpack) := by
    rw [Decimal.unpack_neg, habs, ← Decimal.unpack_eq_abs hx, Decimal.toRat]
  rw [Decimal.toList_text hx]
  cases hs : Decimal.signBit x with
  | true =>
    rw [hs, if_pos rfl] at hrat
    refine ⟨_, .neg (.num y), hfalls.mark (by decide) (by decide), .minus (.word hword), fun env => ?_⟩
    exact ((Decimal.toRat_neg y).symm.trans hrat.symm)
  | false =>
    rw [hs, if_neg Bool.false_ne_true] at hrat
    exact ⟨_, .num y, hfalls, .word hword, fun env => hrat.symm⟩

end Number

/-! ### Expressions -/

/-- Whether all constants are finite, all symbols identifiers, and no sum or product empty. -/
inductive Legible : Expr Float → Prop where
  | num {x} :
    x.isFinite = true →
    Legible (.num x)
  | sym {s} :
    isSymbol s = true →
    Legible (.sym s)
  | neg {a} :
    Legible a →
    Legible (.neg a)
  | sum {as} :
    as ≠ [] →
    (∀ a ∈ as, Legible a) →
    Legible (.sum as)
  | prod {as} :
    as ≠ [] →
    (∀ a ∈ as, Legible a) →
    Legible (.prod as)

/-- Whether an expression is spelled by its text, and behind the terms of a sum by its signed text. -/
structure IsSpelled (a : Expr Float) : Prop where
  text : Spells (if a.isSum then .sum else .product) a.text.toList a
  signedText : ∀ cs b, Spells .sum cs b → Spells .sum (cs ++ a.signedText.toList) (.sum [b, a])

namespace IsSpelled

variable {a : Expr Float}

/-- An expression that is spelled by its text is so as a sum. -/
lemma sum (h : IsSpelled a) : Spells .sum a.text.toList a := by
  have h := h.text
  split at h
  · exact h
  · exact Spells.sum h

/-- Parentheses can stand around any expression, and have to stand around a sum. -/
lemma enclosed (h : IsSpelled a) {needed : Bool} (hn : a.isSum = true → needed = true) :
    Spells .product (enclose needed a.text).toList a := by
  cases needed with
  | true =>
    have hp := h.sum.paren.product
    simpa [enclose] using hp
  | false =>
    have hs : ¬a.isSum = true := fun hs => Bool.false_ne_true (hn hs)
    have h := h.text
    rwa [if_neg hs] at h

/-- The text behind ` + ` spells a term. -/
lemma of_plus (ht : Spells (if a.isSum then .sum else .product) a.text.toList a)
    (hs : a.signedText = " + " ++ a.text) : IsSpelled a where
  text := ht
  signedText cs b hb := by
    have ht : Spells .sum a.text.toList a := by
      split at ht
      · exact ht
      · exact ht.sum
    rw [hs]
    simpa using hb.plus ht

end IsSpelled

/-- A sum is put in parentheses inside a product. -/
lemma isCompound_of_isSum {K : Type} {a : Expr K} (h : a.isSum = true) : a.isCompound = true := by
  cases a with
  | sum _ => rfl
  | num _ | sym _ | neg _ | prod _ => cases h

/-- Factors that are spelled, each behind a mark, go on with a product. -/
lemma Spells.factorsText {cs : List Char} {a : Expr Float} {bs : List (Expr Float)}
    (ha : Spells .product cs a) (hb : ∀ b ∈ bs, IsSpelled b) :
    Spells .product (cs ++ (factorsText bs).toList) (.prod (a :: bs)) := by
  induction bs generalizing cs a with
  | nil =>
    rw [Expr.factorsText, String.toList_empty, List.append_nil]
    exact ha.congr (.prod_singleton a)
  | cons b bs ih =>
    have hb' := (hb b List.mem_cons_self).enclosed isCompound_of_isSum
    have h := ih (ha.times hb') fun c hc => hb c (List.mem_cons_of_mem b hc)
    have ht : cs ++ (Expr.factorsText (b :: bs)).toList =
        cs ++ '*' :: (enclose b.isCompound b.text).toList ++ (Expr.factorsText bs).toList := by
      simp [Expr.factorsText]
    rw [ht]
    exact h.congr (.prod_cons a b bs)

/-- Terms that are spelled, each behind its sign, go on with a sum. -/
lemma Spells.tailText {cs : List Char} {a : Expr Float} {bs : List (Expr Float)}
    (ha : Spells .sum cs a) (hb : ∀ b ∈ bs, IsSpelled b) :
    Spells .sum (cs ++ (tailText bs).toList) (.sum (a :: bs)) := by
  induction bs generalizing cs a with
  | nil =>
    rw [Expr.tailText, String.toList_empty, List.append_nil]
    exact ha.congr (.sum_singleton a)
  | cons b bs ih =>
    have hb' := (hb b List.mem_cons_self).signedText cs a ha
    have h := ih hb' fun c hc => hb c (List.mem_cons_of_mem b hc)
    rw [Expr.tailText, String.toList_append, ← List.append_assoc]
    exact h.congr (.sum_cons a b bs)

/-- A legible expression is spelled by its text. -/
lemma Legible.isSpelled {a : Expr Float} (h : Legible a) : IsSpelled a := by
  induction h with
  | @num x hx =>
    refine ⟨(spells_num hx).product, fun cs b hb => ?_⟩
    rw [signedText]
    split
    · -- the sign of a negative constant becomes that of the term
      have h := hb.less (spells_num (Decimal.isFinite_neg hx)).product
      simpa using h.congr ((SameValue.refl b).sum (.neg_num x))
    · simpa using hb.plus (spells_num hx).product.sum
  | sym hs => exact .of_plus (spells_sym hs).product rfl
  | @neg a _ ih =>
    refine ⟨?_, fun cs b hb => ?_⟩
    · have h := (ih.enclosed fun h => h).minus
      simpa [text, isSum] using h
    · have h := hb.less (ih.enclosed isCompound_of_isSum)
      simpa [signedText] using h
  | sum hne _ ih =>
    obtain ⟨a, as, rfl⟩ := List.exists_cons_of_ne_nil hne
    obtain ⟨iha, ihs⟩ := List.forall_mem_cons.1 ih
    refine .of_plus ?_ rfl
    have h := Spells.tailText iha.sum ihs
    simpa [text, sumText, isSum] using h
  | prod hne _ ih =>
    obtain ⟨a, as, rfl⟩ := List.exists_cons_of_ne_nil hne
    obtain ⟨iha, ihs⟩ := List.forall_mem_cons.1 ih
    refine .of_plus ?_ rfl
    have h := Spells.factorsText (iha.enclosed isCompound_of_isSum) ihs
    simpa [text, prodText, isSum] using h

/-- A normal form is legible if its constants are finite and its symbols are identifiers. -/
lemma Normal.legible {a : Expr Float} (h : a.Normal) (hfin : a.All fun x => x.isFinite = true)
    (hs : ∀ s ∈ a.names, isSymbol s = true) : Legible a := by
  induction h with
  | num x => exact .num hfin
  | sym s => exact .sym (hs s List.mem_cons_self)
  | neg _ _ _ ih => exact .neg (ih hfin hs)
  | sum hl _ _ ih =>
    refine .sum (List.ne_nil_of_length_pos (Nat.zero_lt_of_lt hl)) fun b hb => ?_
    exact ih b hb (allIn_iff.1 hfin b hb) fun s h => hs s (mem_namesAll.2 ⟨b, hb, h⟩)
  | prod hl _ _ ih =>
    refine .prod (List.ne_nil_of_length_pos (Nat.zero_lt_of_lt hl)) fun b hb => ?_
    exact ih b hb (allIn_iff.1 hfin b hb) fun s h => hs s (mem_namesAll.2 ⟨b, hb, h⟩)

/-- The text of a legible expression is read as an expression with its value. -/
lemma Legible.exists_isReading {a : Expr Float} (h : Legible a) : ∃ b, IsReading a.text b ∧ SameValue b a := by
  obtain ⟨ps, b, hf, hd, hv⟩ := h.isSpelled.sum
  have hps := hf [] (fun _ h => by cases h)
  rw [List.append_nil] at hps
  refine ⟨b, ?_, hv⟩
  rw [IsReading, hps]
  simpa [pieces, scan, putWord] using hd

/-- The finite constants, and the symbols that are identifiers. -/
inductive NamedLeaf : Expr Float → Prop where
  | num {x} :
    x.isFinite = true →
    NamedLeaf (.num x)
  | sym {s} :
    isSymbol s = true →
    NamedLeaf (.sym s)

/-- A leaf with a name has its normal form. -/
lemma NamedLeaf.normal {a : Expr Float} (h : NamedLeaf a) : a.Normal := by
  cases h with
  | num _ => exact .num _
  | sym _ => exact .sym _

/-- The names in a leaf are symbols. -/
lemma NamedLeaf.isSymbol_of_mem_names {a : Expr Float} (h : NamedLeaf a) {s : String} (hs : s ∈ a.names) :
    isSymbol s = true := by
  cases h with
  | num _ => cases hs
  | sym h => exact List.mem_singleton.1 hs ▸ h

/-- The text of what the operators build from finite constants and identifiers is read in just one way, with
the same value, unless a constant has overflowed. -/
theorem read?_text {a : Expr Float} (h : Generated NamedLeaf a) (hfin : a.All fun x => x.isFinite = true) :
    ∃ b, read? a.text = some b ∧ IsReading a.text b ∧ (∀ c, IsReading a.text c → c = b) ∧
      ∀ env : String → ℚ, (b.map Decimal.toRat).eval env = (a.map Decimal.toRat).eval env := by
  have hs : ∀ s ∈ a.names, isSymbol s = true := by
    intro s hs
    obtain ⟨b, hb, hsb⟩ := h.exists_of_mem_names hs
    exact hb.isSymbol_of_mem_names hsb
  have hleg := (h.normal fun _ => NamedLeaf.normal).legible hfin hs
  obtain ⟨b, hb, hv⟩ := hleg.exists_isReading
  exact ⟨b, read?_of_isReading hb, hb, fun c hc => hc.unique hb, hv⟩

/-- A difference of products, with a negative factor and a sum among the factors. -/
theorem read?_text_difference :
    let a : Expr Float := .num (-2) * .sym "x" - .sym "y" * (.sym "z" - .num 3)
    Generated NamedLeaf a ∧ (a.All fun x => x.isFinite = true) ∧ a.text = "-2*x - y*(z - 3)" ∧
      ∃ b, read? a.text = some b ∧ IsReading a.text b ∧ (∀ c, IsReading a.text c → c = b) ∧
        ∀ env : String → ℚ, (b.map Decimal.toRat).eval env = (a.map Decimal.toRat).eval env := by
  intro a
  have hnum {x : Float} (hx : x.isFinite = true) : Generated NamedLeaf (.num x) := .given (.num hx)
  have hsym {s : String} (hs : isSymbol s = true) : Generated NamedLeaf (.sym s) := .given (.sym hs)
  have ha : Generated NamedLeaf a :=
    .sub (.mul (hnum (by decide +kernel)) (hsym (by decide +kernel)))
      (.mul (hsym (by decide +kernel)) (.sub (hsym (by decide +kernel)) (hnum (by decide +kernel))))
  have hfin : a.All fun x => x.isFinite = true := by decide +kernel
  exact ⟨ha, hfin, by decide +kernel, read?_text ha hfin⟩

/-- A product of two constants that is too large for a double is written as a symbol, which has another value
whatever the constant counts as. -/
theorem not_faithful_overflow :
    let a : Expr Float := .num 1e308 * .num 10
    Generated NamedLeaf a ∧ (∃ x, a = .num x ∧ x.isFinite = false) ∧ IsReading a.text (.sym "inf") ∧
      ∀ b, IsReading a.text b → ∀ v : ℚ, ¬∀ env : String → ℚ, (b.map Decimal.toRat).eval env = v := by
  intro a
  have ht : a.text = "inf" := by decide +kernel
  have hr : IsReading a.text (.sym "inf") := by
    rw [ht]
    exact .product (.operand (.word rfl))
  have ha : Generated NamedLeaf a :=
    .mul (.given (.num (by decide +kernel))) (.given (.num (by decide +kernel)))
  refine ⟨ha, ⟨_, rfl, by decide +kernel⟩, hr, ?_⟩
  intro b hb v h
  rw [hb.unique hr] at h
  have h := h fun _ => v + 1
  exact (lt_add_one v).ne' h

end Expr

end Nodal
