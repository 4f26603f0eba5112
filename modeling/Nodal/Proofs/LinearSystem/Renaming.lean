import Mathlib.Control.Monad.Basic
import Mathlib.Logic.Equiv.Basic
import Nodal.Proofs.Circuit.Connected
import Nodal.Proofs.LinearSystem.Labels
import Nodal.Proofs.Node.Renaming
/-!
# Systems of elements with renamed nets

Stamps and labels know the nodes of an element, and not its nets. So elements that differ in the names of
their nets alone have the same offsets and the same matrix, and their systems differ in the labels of the
nodes at most (`LinearSystem.assemble_renamed`).
-/

namespace Nodal

namespace LinearSystem

variable {K : Type}

/-- The system with `ρ` applied to the labels of its nodes. -/
def relabelNodes (ρ : String → String) (s : LinearSystem K) : LinearSystem K :=
  let n := s.layout.nodeCount
  { s with labels := (s.labels.take n).map ρ ++ s.labels.drop n }

variable {es es' : List (Element K)} {t t' : NodeTable}

section Labels

/-- The first labels are the nets. -/
lemma take_unknownLabels {labels : List String} (h : unknownLabels es t = .ok labels) :
    labels.take t.count = t.names := by
  apply List.ext_getElem?
  intro q
  by_cases hq : q < t.count
  · have hn := List.getElem?_eq_getElem hq
    rw [List.getElem?_take_of_lt hq, (getElem?_unknownLabels h).2 (.inl hn), hn]
  · have hq' := Nat.le_of_not_lt hq
    rw [List.getElem?_take_eq_none hq', List.getElem?_eq_none hq']

/-- What elements that differ in the names of nets agree in, they agree in one by one. -/
lemma map_alike {α : Type} {f : Element K → α} (hf : ∀ {e e'}, e.Alike e' → f e' = f e)
    (h : List.Forall₂ Element.Alike es es') : es'.map f = es.map f := by
  induction h with
  | nil => rfl
  | cons he _ ih => rw [List.map_cons, hf he, ih, List.map_cons]

variable (h : List.Forall₂ Element.Alike es es') (ht : t'.count = t.count)
include h ht

/-- The layout does not depend on the names of nets. -/
lemma layoutOf_alike : layoutOf es' t' = layoutOf es t := by
  rw [layoutOf, ht, map_alike (fun he => he.kind) h, layoutOf]

/-- The labels of auxiliary unknowns do not depend on the names of nets. -/
lemma AuxLabel.alike {n : Nat} {label : String} (ha : AuxLabel es t n label) :
    AuxLabel es' t' n label := by
  obtain @⟨i, e, offset, he, ho, hl⟩ := ha
  obtain ⟨hi, rfl⟩ := List.getElem?_eq_some_iff.1 he
  have hi' : i < es'.length := h.length_eq ▸ hi
  have hee : es[i].Alike es'[i] := h.get hi hi'
  have hlabels : es'[i].auxLabels = es[i].auxLabels := by
    rw [Element.auxLabels, hee.kind, hee.name, Element.auxLabels]
  refine ⟨List.getElem?_eq_getElem hi', by rwa [layoutOf_alike h ht], ?_⟩
  rwa [Element.Labels, hlabels]

/-- Behind the nets the labels do not depend on the names of the nets. -/
lemma drop_unknownLabels {labels labels' : List String} (hl : unknownLabels es t = .ok labels)
    (hl' : unknownLabels es' t' = .ok labels') : labels'.drop t.count = labels.drop t.count := by
  apply List.ext_getElem?
  intro q
  rw [List.getElem?_drop, List.getElem?_drop]
  obtain ⟨labels₁, h₁, hlen⟩ := unknownLabels_eq_ok es t
  obtain ⟨labels₂, h₂, hlen'⟩ := unknownLabels_eq_ok es' t'
  rw [hl] at h₁
  rw [hl'] at h₂
  cases h₁
  cases h₂
  rw [layoutOf_alike h ht] at hlen'
  by_cases hq : t.count + q < labels.length
  · -- the element that owns the unknown labels it in both
    obtain ⟨label, ha⟩ := exists_auxLabel_iff.2
      ⟨Nat.succ_le_succ (Nat.le_add_right t.count q), hlen ▸ hq⟩
    rw [(getElem?_unknownLabels hl).2 (.inr ha), (getElem?_unknownLabels hl').2 (.inr (ha.alike h ht))]
  · rw [List.getElem?_eq_none (by omega), List.getElem?_eq_none (by omega)]

end Labels

section Stamps

variable [BEq K] [Zero K] [One K] [Add K] [Neg K]

omit [BEq K] [Zero K] [Add K] in
/-- The stamp of an element does not depend on the names of its nets. -/
lemma stamp_alike {e e' : Element K} (h : e.Alike e') (offset : Option Nat) :
    e'.stamp offset = e.stamp offset := by
  obtain ⟨kind, name, nets, value, nodes⟩ := e
  obtain ⟨kind', name', nets', value', nodes'⟩ := e'
  obtain ⟨rfl, rfl, rfl, rfl⟩ := h
  rfl

/-- What is stamped into a matrix does not depend on the names of nets. -/
lemma stampAll_alike (h : List.Forall₂ Element.Alike es es') (m : SparseMatrix K)
    (offsets : List (Option Nat)) : stampAll m (es'.zip offsets) = stampAll m (es.zip offsets) := by
  induction h generalizing m offsets with
  | nil => rfl
  | @cons e e' es es' he _ ih =>
    cases offsets with
    | nil => rfl
    | cons offset offsets =>
      simp only [List.zip_cons_cons, stampAll, stampInto, stamp_alike he, he.name, ih]

/-- Alike elements are assembled alike in tables that hold the same nets under other names. -/
lemma assemble_alike {ρ : String → String} (h : List.Forall₂ Element.Alike es es')
    (ht : t'.names = t.names.map ρ) : assemble es' t' = (assemble es t).map (relabelNodes ρ) := by
  have hcount : t'.count = t.count := by rw [NodeTable.count, ht, List.length_map, NodeTable.count]
  obtain ⟨labels, hl, -⟩ := unknownLabels_eq_ok es t
  obtain ⟨labels', hl', -⟩ := unknownLabels_eq_ok es' t'
  have hlabels : labels' = (labels.take t.count).map ρ ++ labels.drop t.count := by
    rw [take_unknownLabels hl, ← ht, ← take_unknownLabels hl', ← drop_unknownLabels h hcount hl hl',
      hcount, List.take_append_drop]
  simp only [assemble, hl, hl', layoutOf_alike h hcount, stampAll_alike h]
  generalize stampAll { size := (layoutOf es t).size } (es.zip (layoutOf es t).offsets) = result
  cases result with
  | error e => rfl
  | ok m =>
    rw [hlabels]
    rfl

/-- Elements whose nets are renamed, no two nets to one name and none to ground, have the same nodes and the
same system, but for the labels of the nodes. -/
theorem assemble_renamed {ρ : String → String} {es es' : List (Element K)}
    (h : List.Forall₂ (Element.Renamed ρ) es es')
    (hρ : Set.InjOn ρ {net | net ∉ groundNames ∧ ∃ e ∈ es, net ∈ e.nets}) :
    let fs := (NodeTable.empty.resolveAll es).1
    let t := (NodeTable.empty.resolveAll es).2
    let fs' := (NodeTable.empty.resolveAll es').1
    let t' := (NodeTable.empty.resolveAll es').2
    fs'.map Element.nodes = fs.map Element.nodes ∧
      t'.names = t.names.map ρ ∧
      assemble fs' t' = (assemble fs t).map (relabelNodes ρ) ∧
      ((∀ e ∈ es, e.nets.length = e.kind.terminalCount) → ∃ s, assemble fs t = .ok s) := by
  intro fs t fs' t'
  obtain ⟨ha, ht⟩ := (NodeTable.renamed_empty ρ _).resolveAll hρ h fun e he net hn hg => ⟨hg, e, he, hn⟩
  exact ⟨map_alike (fun he => he.nodes) ha, ht.names, assemble_alike ha ht.names, fun hf =>
    exists_assemble_eq_ok (NodeTable.connected_resolveAll hf)⟩

/-- A resistor and a controlled source whose nets trade their names, and whose ground goes by another of
its names. -/
theorem assemble_renamed_swap :
    let ρ : String → String := Equiv.swap "a" "b"
    let r : Element Float := { kind := .resistor, name := "R1", nets := ["a", "0"], value := .sym "R" }
    let g : Element Float :=
      { kind := .vccs, name := "G1", nets := ["b", "gnd", "a", "b"], value := .num 2 }
    let r' : Element Float :=
      { kind := .resistor, name := "R1", nets := ["b", "GND"], value := .sym "R" }
    let g' : Element Float :=
      { kind := .vccs, name := "G1", nets := ["a", "0", "b", "a"], value := .num 2 }
    List.Forall₂ (Element.Renamed ρ) [r, g] [r', g'] ∧
      Set.InjOn ρ {net | net ∉ groundNames ∧ ∃ e ∈ [r, g], net ∈ e.nets} ∧
      (∀ e ∈ [r, g], e.nets.length = e.kind.terminalCount) ∧
      let fs := (NodeTable.empty.resolveAll [r, g]).1
      let t := (NodeTable.empty.resolveAll [r, g]).2
      let fs' := (NodeTable.empty.resolveAll [r', g']).1
      let t' := (NodeTable.empty.resolveAll [r', g']).2
      fs'.map Element.nodes = fs.map Element.nodes ∧ t'.names = t.names.map ρ ∧
        assemble fs' t' = (assemble fs t).map (relabelNodes ρ) ∧ ∃ s, assemble fs t = .ok s := by
  intro ρ r g r' g'
  have ha : RenamedNet ρ "a" "b" := .other (by decide) (by decide)
  have hb : RenamedNet ρ "b" "a" := .other (by decide) (by decide)
  have h : List.Forall₂ (Element.Renamed ρ) [r, g] [r', g'] :=
    .cons ⟨rfl, rfl, rfl, .cons ha (.cons (.ground (by decide) (by decide)) .nil)⟩
      (.cons ⟨rfl, rfl, rfl, .cons hb (.cons (.ground (by decide) (by decide))
        (.cons ha (.cons hb .nil)))⟩ .nil)
  have hρ : Set.InjOn ρ {net | net ∉ groundNames ∧ ∃ e ∈ [r, g], net ∈ e.nets} :=
    (Equiv.swap "a" "b").injective.injOn
  have hf : ∀ e ∈ [r, g], e.nets.length = e.kind.terminalCount := by
    simp [r, g, Kind.terminalCount]
  obtain ⟨h1, h2, h3, h4⟩ := assemble_renamed h hρ
  exact ⟨h, hρ, hf, h1, h2, h3, h4 hf⟩

end Stamps

end LinearSystem

end Nodal
