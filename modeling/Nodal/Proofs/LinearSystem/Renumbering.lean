import Mathlib.Algebra.BigOperators.Fin
import Nodal.Proofs.LinearSystem.Labels
/-!
# Unknowns of rearranged elements

Elements in another order have as many unknowns, but other numbers. `Layout.Moves` says where an index of
the one layout stands in the other: nodes stay, and the auxiliary unknowns of an element go with its offset.
Each index moves to just one place and no two to the same (`Layout.Moves.unique`, `Layout.Moves.injective`),
so that a function renumbers them (`Layout.exists_renumbers`). Labels move along with their unknowns
(`LinearSystem.getElem?_unknownLabels_of_moves`).
-/

namespace Nodal

/-- Whether `as'` has the members of `as` in another order, at position `i` the one from position `σ i`. -/
structure Rearranges {α : Type} {n : Nat} (σ : Equiv.Perm (Fin n)) (as as' : List α) : Prop where
  length_eq : as.length = n
  length_eq' : as'.length = n
  getElem?_eq : ∀ i : Fin n, as'[i.val]? = as[(σ i).val]?

namespace Rearranges

variable {α β : Type} {n : Nat} {σ : Equiv.Perm (Fin n)} {as as' : List α}

/-- A rearrangement is undone by the inverse permutation. -/
lemma symm (h : Rearranges σ as as') : Rearranges σ.symm as' as :=
  ⟨h.length_eq', h.length_eq, fun i => by rw [h.getElem?_eq, Equiv.apply_symm_apply]⟩

/-- What is computed from each member is rearranged with the list. -/
lemma map (h : Rearranges σ as as') (f : α → β) : Rearranges σ (as.map f) (as'.map f) where
  length_eq := by rw [List.length_map, h.length_eq]
  length_eq' := by rw [List.length_map, h.length_eq']
  getElem?_eq i := by rw [List.getElem?_map, List.getElem?_map, h.getElem?_eq]

/-- Each position is one that a member comes from. -/
lemma exists_position (h : Rearranges σ as as') {i : Nat} {a : α} (hi : as[i]? = some a) :
    ∃ k : Fin n, (σ k).val = i ∧ as'[k.val]? = some a := by
  have hlt : i < n := h.length_eq ▸ (List.getElem?_eq_some_iff.1 hi).1
  refine ⟨σ.symm ⟨i, hlt⟩, by rw [Equiv.apply_symm_apply], ?_⟩
  rw [h.getElem?_eq, Equiv.apply_symm_apply, hi]

/-- A rearranged list has the members of the list. -/
lemma mem (h : Rearranges σ as as') {a : α} (ha : a ∈ as') : a ∈ as := by
  obtain ⟨i, hi⟩ := List.mem_iff_getElem?.1 ha
  obtain ⟨k, -, hk⟩ := h.symm.exists_position hi
  exact List.mem_of_getElem? hk

/-- A sum does not depend on the order. -/
lemma sum_eq {M : Type} [AddCommMonoid M] {as as' : List M} (h : Rearranges σ as as') :
    as'.sum = as.sum := by
  obtain ⟨rfl, hl, hget⟩ := h
  have has' : as' = List.ofFn fun i => as.get (σ i) := by
    apply List.ext_getElem?
    intro i
    by_cases hi : i < as.length
    · rw [hget ⟨i, hi⟩, List.getElem?_ofFn, dif_pos hi]
      exact List.getElem?_eq_getElem (σ ⟨i, hi⟩).isLt
    · rw [List.getElem?_eq_none (by omega), List.getElem?_eq_none (by rw [List.length_ofFn]; omega)]
  calc
    as'.sum = ∑ i, as.get (σ i) := by rw [has', List.sum_ofFn]
    _ = ∑ i, as.get i := Equiv.sum_comp σ as.get
    _ = as.sum := by rw [← List.sum_ofFn, List.ofFn_get]

end Rearranges

namespace Layout

variable {n : Nat}

/-- Whether `l'` is the layout of the same nodes and of the kinds of `l` in another order. -/
structure Reorders (σ : Equiv.Perm (Fin n)) (l l' : Layout) : Prop where
  nodeCount_eq : l'.nodeCount = l.nodeCount
  kinds : Rearranges σ l.kinds l'.kinds

/-- Where an index of the layout `l` stands in the layout `l'`. -/
inductive Moves (σ : Equiv.Perm (Fin n)) (l l' : Layout) (r r' : Nat) : Prop where
  | node :
    r ≤ l.nodeCount →
    r' = r →
    Moves σ l l' r r'
  /-- The auxiliary unknowns of an element start at its offset in either layout. -/
  | aux {i : Fin n} {kind k k' j} :
    l.kinds[(σ i).val]? = some kind →
    l.offsets[(σ i).val]? = some (some k) →
    l'.offsets[i.val]? = some (some k') →
    j < kind.auxCount →
    r = k + j →
    r' = k' + j →
    Moves σ l l' r r'

/-- Whether a function takes each index of the layout `l` to where it stands in the layout `l'`. -/
def Renumbers (σ : Equiv.Perm (Fin n)) (l l' : Layout) (φ : Nat → Nat) : Prop :=
  ∀ r r', Moves σ l l' r r' → φ r = r'

variable {σ : Equiv.Perm (Fin n)} {l l' : Layout} {r r' : Nat}

/-- Layouts in another order are reordered back by the inverse permutation. -/
lemma Reorders.symm (h : Reorders σ l l') : Reorders σ.symm l' l :=
  ⟨h.nodeCount_eq.symm, h.kinds.symm⟩

/-- Reordered layouts have the same size. -/
lemma Reorders.size_eq (h : Reorders σ l l') : l'.size = l.size := by
  rw [Layout.size_eq, Layout.size_eq, h.nodeCount_eq, (h.kinds.map Kind.auxCount).sum_eq]

/-- An index that is moved is moved back by the inverse permutation. -/
lemma Moves.symm (h : Moves σ l l' r r') (hl : Reorders σ l l') : Moves σ.symm l' l r' r := by
  cases h with
  | node hr hr' => exact .node (by rw [hl.nodeCount_eq, hr']; exact hr) hr'.symm
  | @aux i kind k k' j hkind ho ho' hj hr hr' =>
    refine .aux (i := σ i) ?_ ?_ ho hj hr' hr
    · rw [Equiv.symm_apply_apply, hl.kinds.getElem?_eq, hkind]
    · rw [Equiv.symm_apply_apply, ho']

/-- An index moves to one place. -/
lemma Moves.unique {r'' : Nat} (h : Moves σ l l' r r') (h' : Moves σ l l' r r'') : r' = r'' := by
  have hapart : ∀ {i j k : Nat} {kind : Kind}, r ≤ l.nodeCount → l.kinds[i]? = some kind →
      l.offsets[i]? = some (some k) → j < kind.auxCount → r ≠ k + j := by
    intro i j k kind hr hk ho hj he
    have hb := (exists_owns_iff.1 ⟨i, owns_of_offset hk ho hj⟩).1
    omega
  cases h with
  | node hr hr' =>
    cases h' with
    | node _ hr'' => exact hr'.trans hr''.symm
    | aux hk ho _ hj he _ => exact absurd he (hapart hr hk ho hj)
  | @aux i kind k k' j hk ho ho' hj he he' =>
    cases h' with
    | node hr _ => exact absurd he (hapart hr hk ho hj)
    | @aux i₂ kind₂ k₂ k₂' j₂ hk₂ ho₂ ho₂' hj₂ he₂ he₂' =>
      -- both are offsets of the owner of the index
      have hown := owns_of_offset hk ho hj
      have hown₂ := owns_of_offset hk₂ ho₂ hj₂
      rw [← he] at hown
      rw [← he₂] at hown₂
      have hi : i = i₂ := σ.injective (Fin.ext (hown.unique hown₂))
      subst hi
      rw [ho] at ho₂
      rw [ho'] at ho₂'
      cases ho₂
      cases ho₂'
      omega

/-- No two indices move to one place. -/
lemma Moves.injective {r₂ : Nat} (hl : Reorders σ l l') (h : Moves σ l l' r r')
    (h' : Moves σ l l' r₂ r') : r = r₂ :=
  (h.symm hl).unique (h'.symm hl)

/-- Each index moves to some place. -/
lemma exists_moves (hl : Reorders σ l l') (hr : r ≤ l.size) : ∃ r', Moves σ l l' r r' := by
  by_cases hn : r ≤ l.nodeCount
  · exact ⟨r, .node hn rfl⟩
  · obtain ⟨i, kind, k, hk, ho, h1, h2⟩ := exists_owns_iff.2 ⟨Nat.lt_of_not_le hn, hr⟩
    obtain ⟨p, rfl, hk'⟩ := hl.kinds.exists_position hk
    obtain ⟨f, hf, -⟩ := family?_of_offset hk ho
    exact ⟨_, .aux hk ho (offset_of_family? hk' hf) (j := r - k) (by omega) (by omega) rfl⟩

/-- What moves lies within the system. -/
lemma Moves.le_size (h : Moves σ l l' r r') : r ≤ l.size := by
  cases h with
  | node hr =>
    have hs := l.size_eq
    omega
  | aux hk ho _ hj he =>
    rw [he]
    exact (exists_owns_iff.1 ⟨_, owns_of_offset hk ho hj⟩).2

/-- Ground alone moves to ground. -/
lemma Moves.pos_iff (h : Moves σ l l' r r') (hl : Reorders σ l l') : 0 < r' ↔ 0 < r := by
  have h0 : Moves σ l l' 0 0 := .node (Nat.zero_le _) rfl
  rw [Nat.pos_iff_ne_zero, Nat.pos_iff_ne_zero, not_iff_not]
  constructor
  · rintro rfl
    exact h.injective hl h0
  · rintro rfl
    exact h.unique h0

/-- There is a renumbering of the indices of a layout. -/
lemma exists_renumbers (σ : Equiv.Perm (Fin n)) (l l' : Layout) : ∃ φ, Renumbers σ l l' φ := by
  have h : ∀ r, ∃ r', ∀ r'', Moves σ l l' r r'' → r' = r'' := by
    intro r
    by_cases hm : ∃ r', Moves σ l l' r r'
    · obtain ⟨r', hm⟩ := hm
      exact ⟨r', fun r'' hm' => hm.unique hm'⟩
    · exact ⟨0, fun r'' hm' => absurd ⟨r'', hm'⟩ hm⟩
  choose φ hφ using h
  exact ⟨φ, hφ⟩

namespace Renumbers

variable {φ : Nat → Nat}

/-- A renumbering moves each index to where it stands. -/
lemma moves (h : Renumbers σ l l' φ) (hl : Reorders σ l l') (hr : r ≤ l.size) :
    Moves σ l l' r (φ r) := by
  obtain ⟨r', hm⟩ := exists_moves hl hr
  rwa [h r r' hm]

/-- A renumbering keeps different indices apart. -/
lemma eq_iff (h : Renumbers σ l l' φ) (hl : Reorders σ l l') (hr : r ≤ l.size) (hr' : r' ≤ l.size) :
    φ r = φ r' ↔ r = r' := by
  constructor
  · intro he
    have hm := h.moves hl hr
    rw [he] at hm
    exact hm.injective hl (h.moves hl hr')
  · exact congrArg φ

/-- The unknowns of the one layout are renumbered to those of the other. -/
lemma bijOn (h : Renumbers σ l l' φ) (hl : Reorders σ l l') :
    Set.BijOn φ (Set.Icc 1 l.size) (Set.Icc 1 l'.size) := by
  refine ⟨fun r hr => ?_, fun r hr r' hr' he => ?_, fun r' hr' => ?_⟩
  · have hm := h.moves hl hr.2
    exact ⟨(hm.pos_iff hl).2 hr.1, (hm.symm hl).le_size⟩
  · exact (h.eq_iff hl hr.2 hr'.2).1 he
  · obtain ⟨r, hm⟩ := exists_moves hl.symm hr'.2
    have hm' : Moves σ l l' r r' := hm.symm hl.symm
    exact ⟨r, ⟨(hm'.pos_iff hl).1 hr'.1, hm'.le_size⟩, h r r' hm'⟩

/-- A renumbering leaves the nodes where they are. -/
lemma apply_node (h : Renumbers σ l l' φ) (hr : r ≤ l.nodeCount) : φ r = r :=
  h r r (.node hr rfl)

end Renumbers

end Layout

namespace LinearSystem

variable {K : Type} {n : Nat} {σ : Equiv.Perm (Fin n)} {elements elements' : List (Element K)}
  {nodes : NodeTable}

/-- Rearranged elements have a reordered layout. -/
lemma reorders_layoutOf (h : Rearranges σ elements elements') :
    Layout.Reorders σ (layoutOf elements nodes) (layoutOf elements' nodes) :=
  ⟨rfl, h.map Element.kind⟩

/-- An unknown is called the same in either layout. -/
lemma getElem?_unknownLabels_of_moves (h : Rearranges σ elements elements') {labels labels' : List String}
    (hl : unknownLabels elements nodes = .ok labels) (hl' : unknownLabels elements' nodes = .ok labels')
    {q q' : Nat}
    (hm : Layout.Moves σ (layoutOf elements nodes) (layoutOf elements' nodes) (q + 1) (q' + 1)) :
    labels'[q']? = labels[q]? := by
  cases hm with
  | node hq hqq =>
    cases hqq
    have hn := List.getElem?_eq_getElem (Nat.lt_of_succ_le hq : q < nodes.names.length)
    rw [(getElem?_unknownLabels hl).2 (.inl hn), (getElem?_unknownLabels hl').2 (.inl hn)]
  | @aux i kind k k' j hk ho ho' hj hq hq' =>
    obtain ⟨e, he, rfl⟩ : ∃ e, elements[(σ i).val]? = some e ∧ e.kind = kind := by
      simpa [layoutOf] using hk
    have he' : elements'[i.val]? = some e := by rw [h.getElem?_eq, he]
    have hlabel := List.getElem?_eq_getElem (show j < e.auxLabels.length by
      rw [Element.length_auxLabels]
      exact hj)
    rw [(getElem?_unknownLabels hl).2 (.inr ⟨he, ho, k, j, rfl, hq, hlabel⟩),
      (getElem?_unknownLabels hl').2 (.inr ⟨he', ho', k', j, rfl, hq', hlabel⟩)]

end LinearSystem

end Nodal
