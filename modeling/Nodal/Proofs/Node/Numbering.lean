import Mathlib.Tactic.Lemma
import Nodal.Element.Basic
/-!
# Numbering nets

A table of nets only ever grows at its end (`NodeTable.Extends`), so a net keeps the node that it was
given first (`Extends.find?`). An element is `Numbered` in a table if its nodes are those that the
table has for its nets; resolving a list of elements numbers all of them in the table at the end
(`numbered_resolveAll`).
-/

namespace Nodal

namespace NodeTable

variable {K : Type}

/-- Whether the table `t'` has the nets of `t` under the same numbers. -/
def Extends (t t' : NodeTable) : Prop :=
  t.names <+: t'.names

/-- A table extends itself. -/
lemma Extends.refl (t : NodeTable) : t.Extends t :=
  List.prefix_refl _

/-- To extend a table is transitive. -/
lemma Extends.trans {t t' t'' : NodeTable} (h : t.Extends t') (h' : t'.Extends t'') :
    t.Extends t'' :=
  List.IsPrefix.trans h h'

/-- The node of a name that is found is in the table. -/
lemma index_le_count {t : NodeTable} {name : String} {n : Node} (h : t.find? name = some n) :
    n.index ≤ t.count := by
  unfold find? at h
  split at h
  · cases h
    exact Nat.zero_le _
  · obtain ⟨i, hi, rfl⟩ := Option.map_eq_some_iff.1 h
    obtain ⟨hlt, -⟩ := List.idxOf?_eq_some_iff.1 hi
    exact hlt

/-- A longer table has the nodes of the table. -/
lemma Extends.find? {t t' : NodeTable} (h : t.Extends t') {name : String} {n : Node}
    (hn : t.find? name = some n) : t'.find? name = some n := by
  unfold NodeTable.find? at *
  split at hn
  case isTrue hg => simpa [hg] using hn
  case isFalse hg =>
    obtain ⟨i, hi, rfl⟩ := Option.map_eq_some_iff.1 hn
    obtain ⟨hlt, he, hne⟩ := List.idxOf?_eq_some_iff.1 hi
    obtain ⟨later, hl⟩ := h
    rw [if_neg hg, ← hl]
    refine Option.map_eq_some_iff.2 ⟨i, ?_, rfl⟩
    rw [List.idxOf?_eq_some_iff]
    refine ⟨by rw [List.length_append]; omega, ?_, fun j hj => ?_⟩
    · rw [List.getElem_append_left hlt]
      exact he
    · rw [List.getElem_append_left (by omega)]
      exact hne j hj

/-- Only the names of ground stand for node zero. -/
lemma find?_eq_ground_iff {t : NodeTable} {name : String} :
    t.find? name = some .ground ↔ name ∈ groundNames := by
  unfold find?
  split
  case isTrue hg =>
    exact iff_of_true rfl (List.contains_iff_mem.1 hg)
  case isFalse hg =>
    refine iff_of_false (fun h => ?_) (fun h => hg (List.contains_iff_mem.2 h))
    -- the others are numbered from one
    obtain ⟨i, -, hi⟩ := Option.map_eq_some_iff.1 h
    cases hi

/-- Nets other than ground that have one node are one net. -/
lemma eq_of_find?_eq_some {t : NodeTable} {name name' : String} {n : Node}
    (h : t.find? name = some n) (h' : t.find? name' = some n) (hn : name ∉ groundNames) :
    name = name' := by
  have hg : ¬ isGroundName name = true := fun hg => hn (List.contains_iff_mem.1 hg)
  have hg' : ¬ isGroundName name' = true := by
    intro hg'
    rw [find?_eq_ground_iff.2 (List.contains_iff_mem.1 hg')] at h'
    cases h'
    exact hn (find?_eq_ground_iff.1 h)
  rw [find?, if_neg hg] at h
  rw [find?, if_neg hg'] at h'
  obtain ⟨i, hi, rfl⟩ := Option.map_eq_some_iff.1 h
  obtain ⟨j, hj, hij⟩ := Option.map_eq_some_iff.1 h'
  cases hij
  obtain ⟨hlt, he, -⟩ := List.idxOf?_eq_some_iff.1 hi
  obtain ⟨hlt', he', -⟩ := List.idxOf?_eq_some_iff.1 hj
  exact he.symm.trans he'

/-- To intern a name extends the table. -/
lemma extends_intern (t : NodeTable) (name : String) : t.Extends (t.intern name).2 := by
  cases h : t.find? name with
  | some n =>
    rw [intern_of_find?_eq_some h]
    exact Extends.refl t
  | none =>
    rw [intern_of_find?_eq_none h]
    exact List.prefix_append _ _

/-- A name that was interned is found. -/
lemma find?_intern (t : NodeTable) (name : String) :
    (t.intern name).2.find? name = some (t.intern name).1 := by
  cases h : t.find? name with
  | some n =>
    rw [intern_of_find?_eq_some h]
    exact h
  | none =>
    have hg := isGroundName_of_find?_eq_none h
    have hm := not_mem_of_find?_eq_none h
    rw [intern_of_find?_eq_none h]
    simp only [find?, hg, Bool.false_eq_true, if_false, names_push, count]
    refine Option.map_eq_some_iff.2 ⟨t.names.length, ?_, rfl⟩
    rw [List.idxOf?_eq_some_iff]
    refine ⟨by simp, by simp, fun j hj => ?_⟩
    rw [List.getElem_append_left hj]
    intro he
    exact hm (he ▸ List.getElem_mem hj)

/-- To intern names extends the table. -/
lemma extends_internAll (t : NodeTable) (names : List String) :
    t.Extends (t.internAll names).2 := by
  induction names generalizing t with
  | nil => exact Extends.refl t
  | cons name rest ih => exact (extends_intern t name).trans (ih _)

/-- Nets that were interned are found under the numbers they were given. -/
lemma map_find?_internAll (t : NodeTable) (names : List String) :
    names.map (t.internAll names).2.find? = (t.internAll names).1.map some := by
  induction names generalizing t with
  | nil => rfl
  | cons name rest ih =>
    -- the later names only extend the table, so the first one is still found
    have h := (extends_internAll (t.intern name).2 rest).find? (find?_intern t name)
    simp only [internAll, List.map_cons, h, ih]

end NodeTable

namespace Element

variable {K : Type}

/-- Whether the nodes of an element are those that a table has for its nets. -/
def Numbered (t : NodeTable) (e : Element K) : Prop :=
  e.nets.map t.find? = e.nodes.map some

/-- The element without the nodes of its nets. -/
def unresolved (e : Element K) : Element K :=
  e.setNets e.nets

/-- A numbered element has a node for each of its nets. -/
lemma Numbered.length_nodes {t : NodeTable} {e : Element K} (h : e.Numbered t) :
    e.nodes.length = e.nets.length := by
  have hl := congrArg List.length h
  simpa using hl.symm

/-- A node of a numbered element is that of one of its nets. -/
lemma Numbered.exists_net {t : NodeTable} {e : Element K} (h : e.Numbered t) {n : Node}
    (hn : n ∈ e.nodes) : ∃ net ∈ e.nets, t.find? net = some n := by
  have hm : some n ∈ e.nets.map t.find? := by
    rw [h]
    exact List.mem_map_of_mem hn
  exact List.mem_map.1 hm

/-- The nodes of a numbered element are in the table. -/
lemma Numbered.index_le_count {t : NodeTable} {e : Element K} (h : e.Numbered t) {n : Node}
    (hn : n ∈ e.nodes) : n.index ≤ t.count := by
  obtain ⟨net, -, hf⟩ := h.exists_net hn
  exact NodeTable.index_le_count hf

/-- An element stays numbered in a longer table. -/
lemma Numbered.mono {t t' : NodeTable} {e : Element K} (h : e.Numbered t) (ht : t.Extends t') :
    e.Numbered t' := by
  have hm : e.nets.map t'.find? = e.nets.map t.find? := by
    apply List.map_congr_left
    intro name hn
    have hs : t.find? name ∈ e.nodes.map some := by
      rw [← h]
      exact List.mem_map_of_mem hn
    obtain ⟨n, -, hf⟩ := List.mem_map.1 hs
    rw [← hf]
    exact ht.find? hf.symm
  exact hm.trans h

/-- To resolve an element numbers it. -/
lemma numbered_resolve (e : Element K) (t : NodeTable) :
    (e.resolve t).1.Numbered (e.resolve t).2 :=
  NodeTable.map_find?_internAll t e.nets

/-- An element that is resolved is the same without its nodes. -/
@[simp] lemma unresolved_resolve (e : Element K) (t : NodeTable) :
    (e.resolve t).1.unresolved = e.unresolved := rfl

end Element

namespace NodeTable

variable {K : Type}

/-- Numbers the nets of elements, one element after another. -/
def resolveAll (t : NodeTable) : List (Element K) → List (Element K) × NodeTable
  | [] => ([], t)
  | e :: es =>
    let (e, t) := e.resolve t
    let (es, t) := t.resolveAll es
    (e :: es, t)

/-- To resolve elements extends the table. -/
lemma extends_resolveAll (t : NodeTable) (es : List (Element K)) :
    t.Extends (t.resolveAll es).2 := by
  induction es generalizing t with
  | nil => exact Extends.refl t
  | cons e es ih => exact (extends_internAll t e.nets).trans (ih _)

/-- Elements one behind the other are resolved one after another. -/
lemma resolveAll_append (t : NodeTable) (es es' : List (Element K)) :
    t.resolveAll (es ++ es') =
      ((t.resolveAll es).1 ++ ((t.resolveAll es).2.resolveAll es').1,
        ((t.resolveAll es).2.resolveAll es').2) := by
  induction es generalizing t with
  | nil => rfl
  | cons e es ih => simp only [List.cons_append, resolveAll, ih]

/-- Elements that are resolved are the same without their nodes. -/
lemma map_unresolved_resolveAll (t : NodeTable) (es : List (Element K)) :
    (t.resolveAll es).1.map Element.unresolved = es.map Element.unresolved := by
  induction es generalizing t with
  | nil => rfl
  | cons e es ih => simp only [resolveAll, List.map_cons, ih, Element.unresolved_resolve]

/-- Resolved elements are numbered in the table at the end. -/
lemma numbered_resolveAll (t : NodeTable) (es : List (Element K)) :
    ∀ e ∈ (t.resolveAll es).1, e.Numbered (t.resolveAll es).2 := by
  induction es generalizing t with
  | nil => simp [resolveAll]
  | cons e es ih =>
    intro e' he
    rcases List.mem_cons.1 he with rfl | he
    · exact (e.numbered_resolve t).mono (extends_resolveAll _ es)
    · exact ih _ e' he

end NodeTable

end Nodal
