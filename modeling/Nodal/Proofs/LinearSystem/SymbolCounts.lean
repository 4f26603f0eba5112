import Nodal.Proofs.Expr.Opposites
import Nodal.Proofs.LinearSystem.Writes
/-!
# Symbols counted in a cell

A symbol and its negation cancel in a cell. Where only symbols and negated symbols are written, what is left of
each symbol are as many copies as it was written more often with one sign than with the other
(`Write.get?_foldl_perform_signed`), however many terms there were in between. If nothing is left the cell has no
entry.
-/

namespace Nodal

namespace Expr

variable {K : Type}

/-- A symbol or the negation of one. -/
inductive IsSigned : Expr K → Prop where
  | sym (s) :
    IsSigned (.sym s)
  | neg (s) :
    IsSigned (.neg (.sym s))

section Equality

variable [BEq K] {t u : Expr K}

/-- Only a symbol compares equal to it. -/
lemma beq_sym_iff {s : String} : (t == .sym s) = true ↔ t = .sym s := by
  change same t (.sym s) = true ↔ _
  cases t with
  | sym s' => simp [same]
  | num _ | neg _ | sum _ | prod _ => exact ⟨nofun, nofun⟩

/-- Only a negated symbol compares equal to it. -/
lemma beq_neg_sym_iff {s : String} : (t == .neg (.sym s)) = true ↔ t = .neg (.sym s) := by
  change same t (.neg (.sym s)) = true ↔ _
  cases t with
  | neg a =>
    rw [same, neg.injEq]
    exact beq_sym_iff
  | num _ | sym _ | sum _ | prod _ => exact ⟨nofun, nofun⟩

/-- To a symbol or a negated one no other expression is equal. -/
lemma IsSigned.beq_iff (h : u.IsSigned) : (t == u) = true ↔ t = u := by
  cases h with
  | sym s => exact beq_sym_iff
  | neg s => exact beq_neg_sym_iff

end Equality

namespace IsSigned

variable {t : Expr K}

/-- A signed symbol is no constant. -/
lemma ne_num (h : t.IsSigned) (x : K) : t ≠ .num x := by
  cases h <;> exact nofun

/-- A signed symbol is no sum. -/
lemma ne_sum (h : t.IsSigned) (as : List (Expr K)) : t ≠ .sum as := by
  cases h <;> exact nofun

/-- A signed symbol is its only term. -/
lemma terms_eq (h : t.IsSigned) : t.terms = [t] :=
  terms.eq_2 t h.ne_sum

variable [Neg K]

/-- The negation of a signed symbol is one. -/
lemma isSigned_neg (h : t.IsSigned) : (-t).IsSigned := by
  cases h with
  | sym s => exact .neg s
  | neg s => exact .sym s

end IsSigned

/-- By how many copies a list has more of a symbol than of its negation. -/
def surplus [BEq K] (s : String) (ts : List (Expr K)) : Int :=
  ts.count (.sym s) - ts.count (.neg (.sym s))

/-- Whether a list consists of symbols and negated symbols, none of which cancel. -/
structure Settled (ts : List (Expr K)) : Prop where
  isSigned : ∀ t ∈ ts, t.IsSigned
  notMem : ∀ s, .sym s ∈ ts → .neg (.sym s) ∉ ts

/-- No terms are settled. -/
lemma Settled.nil : Settled ([] : List (Expr K)) :=
  ⟨nofun, nofun⟩

section Surplus

variable [BEq K] {s : String}

/-- The surplus of two lists is that of both together. -/
lemma surplus_append (ts us : List (Expr K)) : surplus s (ts ++ us) = surplus s ts + surplus s us := by
  simp only [surplus, List.count_append]
  omega

/-- A signed symbol counts as none iff it is not there. -/
lemma count_eq_zero_iff {t : Expr K} (h : t.IsSigned) {ts : List (Expr K)} : ts.count t = 0 ↔ t ∉ ts := by
  rw [List.count, List.countP_eq_zero]
  constructor
  · intro hn hm
    exact hn t hm (h.beq_iff.2 rfl)
  · intro hn u hu hut
    exact hn (h.beq_iff.1 hut ▸ hu)

/-- Where nothing cancels, the surplus is the number of copies, with their sign. -/
lemma Settled.count_eq {ts : List (Expr K)} (h : Settled ts) (s : String) :
    ts.count (.sym s) = (surplus s ts).toNat ∧ ts.count (.neg (.sym s)) = (-surplus s ts).toNat := by
  have hz : ts.count (.sym s) = 0 ∨ ts.count (.neg (.sym s)) = 0 := by
    by_cases hm : .sym s ∈ ts
    · exact .inr ((count_eq_zero_iff (.neg s)).2 (h.notMem s hm))
    · exact .inl ((count_eq_zero_iff (.sym s)).2 hm)
  unfold surplus
  omega

/-- Settled terms are none iff no symbol has a surplus. -/
lemma Settled.eq_nil_iff {ts : List (Expr K)} (h : Settled ts) : ts = [] ↔ ∀ s, surplus s ts = 0 := by
  constructor
  · rintro rfl s
    rfl
  · intro hs
    rw [List.eq_nil_iff_forall_not_mem]
    intro t ht
    cases h.isSigned t ht with
    | sym s =>
      have hc := (h.count_eq s).1
      rw [hs s] at hc
      exact (count_eq_zero_iff (.sym s)).1 hc ht
    | neg s =>
      have hc := (h.count_eq s).2
      rw [hs s] at hc
      exact (count_eq_zero_iff (.neg s)).1 hc ht

/-- A symbol adds one to its own surplus. -/
lemma surplus_sym (s' : String) : surplus s [(.sym s' : Expr K)] = if s' = s then 1 else 0 := by
  have hp : ((.sym s' : Expr K) == .sym s) = (s' == s) := rfl
  have hm : ((.sym s' : Expr K) == .neg (.sym s)) = false := rfl
  simp only [surplus, List.count_cons, List.count_nil, hp, hm, beq_iff_eq]
  by_cases h : s' = s <;> simp [h]

/-- A negated symbol takes one from the surplus of its symbol. -/
lemma surplus_neg_sym (s' : String) :
    surplus s [(.neg (.sym s') : Expr K)] = if s' = s then -1 else 0 := by
  have hp : ((.neg (.sym s') : Expr K) == .sym s) = false := rfl
  have hm : ((.neg (.sym s') : Expr K) == .neg (.sym s)) = (s' == s) := rfl
  simp only [surplus, List.count_cons, List.count_nil, hp, hm, beq_iff_eq]
  by_cases h : s' = s <;> simp [h]

variable [Neg K]

/-- Negation turns the surplus round. -/
lemma surplus_neg {t : Expr K} (h : t.IsSigned) : surplus s [-t] = -surplus s [t] := by
  cases h with
  | sym s' =>
    change surplus s [.neg (.sym s')] = _
    rw [surplus_sym, surplus_neg_sym]
    split <;> rfl
  | neg s' =>
    change surplus s [.sym s'] = _
    rw [surplus_sym, surplus_neg_sym]
    split <;> rfl

/-- A term that is cancelled, or else appended, adds to the surplus, and nothing that is left cancels. -/
lemma Settled.cancel {ts : List (Expr K)} (h : Settled ts) {t : Expr K} (ht : t.IsSigned) :
    Settled (cancel ts t) ∧ ∀ s, surplus s (Expr.cancel ts t) = surplus s ts + surplus s [t] := by
  have hn : (-t).IsSigned := ht.isSigned_neg
  unfold Expr.cancel
  split
  · -- the negation of the term is taken out, which changes the surplus as the term would
    rename_i hany
    obtain ⟨u, hu, hut⟩ := List.any_eq_true.1 hany
    obtain ⟨c, before, behind, -, hc, hts, hrest⟩ := List.exists_of_eraseP (p := (· == -t)) hu hut
    obtain rfl : c = -t := hn.beq_iff.1 hc
    refine ⟨⟨fun v hv => h.isSigned v (List.mem_of_mem_eraseP hv), fun s hs hm => ?_⟩, fun s => ?_⟩
    · exact h.notMem s (List.mem_of_mem_eraseP hs) (List.mem_of_mem_eraseP hm)
    · have hcons : surplus s (-t :: behind) = surplus s [-t] + surplus s behind := surplus_append [-t] behind
      rw [hrest, hts, surplus_append, surplus_append, hcons, surplus_neg ht]
      omega
  · rename_i hany
    have hne : -t ∉ ts := fun hm => hany (List.any_eq_true.2 ⟨-t, hm, hn.beq_iff.2 rfl⟩)
    refine ⟨⟨fun v hv => ?_, fun s hs hm => ?_⟩, fun s => surplus_append ts [t]⟩
    · rcases List.mem_append.1 hv with hv | hv
      · exact h.isSigned v hv
      · rwa [List.mem_singleton.1 hv]
    · rcases List.mem_append.1 hs with hs | hs <;> rcases List.mem_append.1 hm with hm | hm
      · exact h.notMem s hs hm
      · rw [← List.mem_singleton.1 hm] at hne
        exact hne hs
      · rw [← List.mem_singleton.1 hs] at hne
        exact hne hm
      · have he := (List.mem_singleton.1 hs).trans (List.mem_singleton.1 hm).symm
        cases he

end Surplus

/-! ### Sums of signed symbols -/

section Sums

variable {ts : List (Expr Float)}

/-- A sum of signed symbols has these as its terms. -/
lemma terms_ofTerms (h : ∀ t ∈ ts, t.IsSigned) (hne : ts ≠ []) : (ofTerms ts).terms = ts := by
  match ts, h, hne with
  | [t], h, _ => exact (h t List.mem_cons_self).terms_eq
  | _ :: _ :: _, _, _ => rfl

/-- A sum of signed symbols is zero iff it has no terms. -/
lemma isZero_ofTerms_iff (h : ∀ t ∈ ts, t.IsSigned) : (ofTerms ts).isZero = true ↔ ts = [] := by
  constructor
  · intro hz
    by_contra hne
    have hterm : ∀ t ∈ ts, t.IsTerm := fun t ht => ⟨(h t ht).ne_sum, isZero_of_ne_num (h t ht).ne_num⟩
    rw [isZero_ofTerms hterm hne] at hz
    cases hz
  · rintro rfl
    exact isZero_zero

/-- A symbol is added to a sum by cancelling it against the terms, however many these are. -/
lemma ofTerms_add (h : ∀ t ∈ ts, t.IsSigned) {t : Expr Float} (ht : t.IsSigned) :
    ofTerms ts + t = ofTerms (cancel ts t) := by
  rw [add_eq_of_not_num fun ⟨_, x, _, hx⟩ => ht.ne_num x hx, isZero_of_ne_num ht.ne_num, ht.terms_eq]
  by_cases hne : ts = []
  · subst hne
    rfl
  · rw [if_neg (mt (isZero_ofTerms_iff h).1 hne), terms_ofTerms h hne]
    rfl

end Sums

end Expr

namespace SparseMatrix

/-- The terms that are written to a cell. -/
def writtenTo {K : Type} (row col : Nat) (es : List (Entry K)) : List (Expr K) :=
  (es.filter (isAt row col)).map Entry.term

/-- What is stored of the sum of a list of terms. -/
def stored {K : Type} [Zero K] : List (Expr K) → Option (Expr K)
  | [] => none
  | ts => some (.ofTerms ts)

/-- What is stored of terms is their sum, or zero where nothing is stored. -/
lemma getD_stored {K : Type} [Zero K] (ts : List (Expr K)) : (stored ts).getD .zero = .ofTerms ts := by
  cases ts <;> rfl

/-- A symbol that is written to a cell cancels with its negation if that is there. -/
lemma get?_add_signed {m : SparseMatrix Float} (hm : m.Ordered) {row col : Nat} (hr : row ≠ 0) (hc : col ≠ 0)
    {ts : List (Expr Float)} (hts : Expr.Settled ts) (hcell : m.get? row col = stored ts) {t : Expr Float}
    (ht : t.IsSigned) : (m.add ⟨row, col, t⟩).get? row col = stored (Expr.cancel ts t) := by
  have hsum : m.cell row col + t = .ofTerms (Expr.cancel ts t) := by
    rw [cell, hcell, getD_stored, Expr.ofTerms_add hts.isSigned ht]
  rw [get?_add_self hm hr hc (Expr.isZero_of_ne_num ht.ne_num), hsum]
  have hz := Expr.isZero_ofTerms_iff (hts.cancel ht).1.isSigned
  cases hcs : Expr.cancel ts t with
  | nil => rfl
  | cons u us =>
    rw [hcs] at hz
    exact if_neg (mt hz.1 (List.cons_ne_nil u us))

/-- Symbols that are written to a cell add to the surplus of each. -/
lemma get?_foldl_add_signed {m : SparseMatrix Float} (hm : m.Ordered) {row col : Nat} (hr : row ≠ 0)
    (hc : col ≠ 0) {ts : List (Expr Float)} (hts : Expr.Settled ts) (hcell : m.get? row col = stored ts)
    {es : List (Entry Float)} (hes : ∀ t ∈ writtenTo row col es, t.IsSigned) :
    ∃ us, Expr.Settled us ∧ (es.foldl add m).get? row col = stored us ∧
      ∀ s, Expr.surplus s us = Expr.surplus s ts + Expr.surplus s (writtenTo row col es) := by
  -- the invariant: the cell holds settled terms, or nothing for none
  induction es generalizing m ts with
  | nil => exact ⟨ts, hts, hcell, fun s => (Int.add_zero _).symm⟩
  | cons e es ih =>
    by_cases ha : isAt row col e = true
    · have hw : writtenTo row col (e :: es) = e.term :: writtenTo row col es := by simp [writtenTo, ha]
      rw [hw] at hes
      have ht := hes e.term List.mem_cons_self
      obtain ⟨hr', hc'⟩ := isAt_iff.1 ha
      obtain ⟨hset, hsur⟩ := hts.cancel ht
      have hadd := get?_add_signed hm hr hc hts hcell ht
      have he : (⟨row, col, e.term⟩ : Entry Float) = e := by rw [← hr', ← hc']
      rw [he] at hadd
      obtain ⟨us, hus, hget, hs⟩ := ih (hm.add e) hset hadd fun t hm => hes t (List.mem_cons_of_mem _ hm)
      refine ⟨us, hus, hget, fun s => ?_⟩
      have happ : Expr.surplus s (e.term :: writtenTo row col es) =
          Expr.surplus s [e.term] + Expr.surplus s (writtenTo row col es) :=
        Expr.surplus_append [e.term] _
      rw [hs, hsur, hw, happ, Int.add_assoc]
    · have hw : writtenTo row col (e :: es) = writtenTo row col es := by simp [writtenTo, ha]
      rw [hw] at hes ⊢
      exact ih (hm.add e) hts ((get?_add_of_ne (mt isAt_iff.2 ha)).trans hcell) hes

end SparseMatrix

namespace Write

/-- A cell that only symbols and negated symbols are written to holds of each symbol as many copies as it was
written more often than its negation, and nothing else. -/
theorem get?_foldl_perform_signed {m : SparseMatrix Float} (hm : m.Ordered) {row col : Nat} (hr : 1 ≤ row)
    (hc : 1 ≤ col) (he : m.get? row col = none) {ws : List (Write Float)}
    (hws : ∀ t ∈ SparseMatrix.writtenTo row col (ws.flatMap (entries m.size)), t.IsSigned) :
    let after := ws.foldl perform m
    let copies := fun t => (SparseMatrix.writtenTo row col (ws.flatMap (entries m.size))).count t
    (after.get? row col = none ↔ ∀ s, copies (.sym s) = copies (-.sym s)) ∧
    ∀ a, after.get? row col = some a →
      a = .ofTerms a.terms ∧ (∀ t ∈ a.terms, t.IsSigned) ∧
      ∀ s, a.terms.count (.sym s) = copies (.sym s) - copies (-.sym s) ∧
        a.terms.count (-.sym s) = copies (-.sym s) - copies (.sym s) := by
  intro after copies
  obtain ⟨us, hus, hget, hs⟩ := SparseMatrix.get?_foldl_add_signed hm (Nat.ne_of_gt hr) (Nat.ne_of_gt hc)
    Expr.Settled.nil he hws
  rw [← foldl_perform] at hget
  change after.get? row col = _ at hget
  have hsur (s : String) : Expr.surplus s us = copies (.sym s) - copies (-.sym s) := by
    rw [hs]
    exact Int.zero_add _
  rw [hget]
  constructor
  · have hnil : SparseMatrix.stored us = none ↔ us = [] := by cases us <;> simp [SparseMatrix.stored]
    rw [hnil, hus.eq_nil_iff]
    refine forall_congr' fun s => ?_
    rw [hsur]
    omega
  · intro a ha
    have hne : us ≠ [] := by
      rintro rfl
      cases ha
    have hterms := Expr.terms_ofTerms hus.isSigned hne
    obtain rfl : Expr.ofTerms us = a := by
      rw [← SparseMatrix.getD_stored, ha, Option.getD_some]
    rw [hterms]
    refine ⟨rfl, hus.isSigned, fun s => ?_⟩
    obtain ⟨hp, hq⟩ := hus.count_eq s
    rw [hsur] at hp hq
    change us.count (.sym s) = _ ∧ us.count (.neg (.sym s)) = _
    omega

/-- `R` is taken out twice and put in once, `S` is put in twice, and other cells are written to in between. -/
theorem get?_foldl_perform_signed_both :
    let m : SparseMatrix Float := ({ size := 2 } : SparseMatrix Float).add ⟨2, 1, .one⟩
    let ws : List (Write Float) := [.add ⟨1, 2, -.sym "R"⟩,
      .apply "L1" [⟨1, 2, .sym "S"⟩, ⟨2, 2, .num 0.5⟩, ⟨1, 2, .sym "R"⟩, ⟨1, 3, .sym "S"⟩, ⟨1, 2, .sym "S"⟩],
      .add ⟨1, 2, .sym "S"⟩, .add ⟨1, 2, -.sym "R"⟩]
    let after := ws.foldl perform m
    m.Ordered ∧ m.get? 1 2 = none ∧
      (∀ t ∈ SparseMatrix.writtenTo 1 2 (ws.flatMap (entries m.size)), t.IsSigned) ∧
      after.get? 1 2 ≠ none ∧
      ∀ a, after.get? 1 2 = some a →
        a.terms.count (-.sym "R") = 1 ∧ a.terms.count (.sym "S") = 2 := by
  intro m ws after
  have hm : m.Ordered := (SparseMatrix.ordered_empty 2).add _
  have he : m.get? 1 2 = none := rfl
  have hw : SparseMatrix.writtenTo 1 2 (ws.flatMap (entries m.size)) =
      [-.sym "R", .sym "S", .sym "R", .sym "S", -.sym "R"] := rfl
  have hws : ∀ t ∈ SparseMatrix.writtenTo 1 2 (ws.flatMap (entries m.size)), t.IsSigned := by
    intro t ht
    simp only [hw, List.mem_cons, List.not_mem_nil, or_false] at ht
    rcases ht with rfl | rfl | rfl | rfl | rfl
    · exact .neg "R"
    · exact .sym "S"
    · exact .sym "R"
    · exact .sym "S"
    · exact .neg "R"
  obtain ⟨hnone, hsome⟩ := get?_foldl_perform_signed hm (by decide) (by decide) he hws
  refine ⟨hm, he, hws, ?_, fun a ha => ?_⟩
  · intro h
    have hr := hnone.1 h "R"
    rw [hw] at hr
    exact absurd hr (by decide)
  · obtain ⟨-, -, hcount⟩ := hsome a ha
    have hr := (hcount "R").2
    have hs := (hcount "S").1
    rw [hw] at hr hs
    exact ⟨hr, hs⟩

end Write

end Nodal
