import Mathlib.Tactic.Lemma
import Nodal.Proofs.Expr.Grammar
/-!
# What the reader reads

The reader reads every text that the grammar derives an expression from, and reads it as this expression
(`Expr.read?_of_isReading`). So there is only one way to read a text (`Expr.IsReading.unique`).
-/

namespace Nodal.Expr

/-- What the reader has read behind a part of an expression, with `fs` waiting in front of it and `rest` still
to come. -/
def Run : Level → List Piece → Expr Float → Prop
  | .operand, ps, a => ∀ fs rest,
    readOperand? fs (ps ++ rest) = readOperator? (closeProduct a fs).1 (closeProduct a fs).2 rest
  | .product, ps, a => ∀ fs rest, (∀ b, closeProduct b fs = (b, fs)) →
    readOperand? fs (ps ++ rest) = readOperator? a fs rest
  | .sum, ps, a => ∀ fs rest, (∀ b, closeProduct b fs = (b, fs)) → (∀ b, closeSum b fs = (b, fs)) →
    ∃ b gs, closeSum b gs = (a, fs) ∧ readOperand? fs (ps ++ rest) = readOperator? b gs rest

/-- The reader follows the grammar, whatever waits and whatever is to come. -/
lemma Derives.run {l : Level} {ps : List Piece} {a : Expr Float} (h : Derives l ps a) : Run l ps a := by
  induction h with
  | word hw =>
    intro fs rest
    rw [List.singleton_append, readOperand?, hw]
  | minus _ ih =>
    intro fs rest
    rw [List.cons_append, readOperand?, ih]
    rfl
  | @paren ps a _ ih =>
    -- the closing mark ends the sum that the opening one has put on the stack
    intro fs rest
    obtain ⟨b, gs, hc, hr⟩ := ih (.paren :: fs) (.mark ')' :: rest) (fun _ => rfl) fun _ => rfl
    rw [List.cons_append, List.cons_append, List.append_assoc, List.singleton_append, readOperand?, hr,
      readOperator?, hc]
  | operand _ ih =>
    intro fs rest hfs
    rw [ih, hfs]
  | @times ps qs a b _ _ iha ihb =>
    intro fs rest hfs
    have hc : closeProduct b (.times a :: fs) = (.prod [a, b], fs) := hfs (.prod [a, b])
    rw [List.append_assoc, List.cons_append, iha fs _ hfs, readOperator?, ihb, hc]
  | @product ps a _ ih =>
    intro fs rest hfs hfs'
    exact ⟨a, fs, hfs' a, ih fs rest hfs⟩
  | @plus ps qs a b _ _ iha ihb =>
    intro fs rest hfs hfs'
    obtain ⟨c, gs, hc, hr⟩ := iha fs (.mark '+' :: (qs ++ rest)) hfs hfs'
    refine ⟨b, .plus a :: fs, rfl, ?_⟩
    rw [List.append_assoc, List.cons_append, hr, readOperator?, hc]
    exact ihb (.plus a :: fs) rest fun _ => rfl
  | @less ps qs a b _ _ iha ihb =>
    intro fs rest hfs hfs'
    obtain ⟨c, gs, hc, hr⟩ := iha fs (.mark '-' :: (qs ++ rest)) hfs hfs'
    refine ⟨b, .less a :: fs, rfl, ?_⟩
    rw [List.append_assoc, List.cons_append, hr, readOperator?, hc]
    exact ihb (.less a :: fs) rest fun _ => rfl

/-- What the grammar derives from a text is what the reader reads. -/
theorem read?_of_isReading {text : String} {a : Expr Float} (h : IsReading text a) :
    read? text = some a := by
  obtain ⟨b, gs, hc, hr⟩ := h.run [] [] (fun _ => rfl) fun _ => rfl
  rw [List.append_nil] at hr
  rw [read?, hr, readOperator?, hc]

/-- A text is read in one way at most. -/
theorem IsReading.unique {text : String} {a b : Expr Float} (ha : IsReading text a)
    (hb : IsReading text b) : a = b := by
  have h := (read?_of_isReading ha).symm.trans (read?_of_isReading hb)
  exact Option.some.inj h

end Nodal.Expr
