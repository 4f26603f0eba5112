import Mathlib.Data.List.Forall2
import Mathlib.Data.Set.Function
import Nodal.Proofs.Node.Numbering
/-!
# Nets under other names

Two tables stay in step while nets are numbered in the one and, under other names, in the other
(`NodeTable.Renamed`): as long as no two nets get one name, a net is found in both or in neither, so that it
has the same node in both. Elements that differ in the names of their nets are thus given the same nodes
(`NodeTable.Renamed.resolveAll`).
-/

namespace Nodal

/-- Whether a net goes by `net'` when `ρ` renames the nets other than ground. Ground goes by any of its
names. -/
inductive RenamedNet (ρ : String → String) (net : String) : String → Prop where
  | ground {net'} :
    net ∈ groundNames →
    net' ∈ groundNames →
    RenamedNet ρ net net'
  | other :
    net ∉ groundNames →
    ρ net ∉ groundNames →
    RenamedNet ρ net (ρ net)

namespace Element

variable {K : Type}

/-- Whether `e'` is the element `e` with its nets renamed. -/
structure Renamed (ρ : String → String) (e e' : Element K) : Prop where
  kind : e'.kind = e.kind
  name : e'.name = e.name
  value : e'.value = e.value
  nets : List.Forall₂ (RenamedNet ρ) e.nets e'.nets

/-- Whether elements differ in the names of their nets at most. -/
structure Alike (e e' : Element K) : Prop where
  kind : e'.kind = e.kind
  name : e'.name = e.name
  value : e'.value = e.value
  nodes : e'.nodes = e.nodes

end Element

/-- A member stands at the same place among the images as among the members, if no other member has its
image. -/
lemma idxOf?_map_of_injOn {ρ : String → String} {names : List String} {name : String}
    (h : Set.InjOn ρ {s | s = name ∨ s ∈ names}) : (names.map ρ).idxOf? (ρ name) = names.idxOf? name := by
  induction names with
  | nil => rfl
  | cons s names ih =>
    have hs : ρ s = ρ name ↔ s = name := h.eq_iff (.inr List.mem_cons_self) (.inl rfl)
    have hnames := ih (h.mono fun t ht => ht.imp_right (List.mem_cons_of_mem s))
    simp only [List.map_cons, List.idxOf?_cons, beq_iff_eq, hs, hnames]

namespace NodeTable

variable {K : Type} {ρ : String → String} {used : Set String} {t t' : NodeTable}

/-- Whether the table `t'` has the nets of `t`, renamed, under the same numbers, and all of them are among
the nets in use. -/
structure Renamed (ρ : String → String) (used : Set String) (t t' : NodeTable) : Prop where
  names : t'.names = t.names.map ρ
  used : ∀ net ∈ t.names, net ∈ used

/-- Empty tables are renamed to each other. -/
lemma renamed_empty (ρ : String → String) (used : Set String) : Renamed ρ used empty empty :=
  ⟨rfl, nofun⟩

namespace Renamed

/-- A renamed table has as many nodes. -/
lemma count_eq (h : Renamed ρ used t t') : t'.count = t.count := by
  rw [count, h.names, List.length_map, count]

variable (hρ : Set.InjOn ρ used)
include hρ

/-- A net has the same node in both tables, or none in either. -/
lemma find?_eq (h : Renamed ρ used t t') {net net' : String} (hn : RenamedNet ρ net net')
    (hu : net ∉ groundNames → net ∈ used) : t'.find? net' = t.find? net := by
  cases hn with
  | ground hg hg' => rw [find?_eq_ground_iff.2 hg, find?_eq_ground_iff.2 hg']
  | other hg hg' =>
    have hinj : Set.InjOn ρ {s | s = net ∨ s ∈ t.names} := by
      refine hρ.mono fun s hs => ?_
      rcases hs with rfl | hs
      · exact hu hg
      · exact h.used s hs
    have hz : ¬ isGroundName net = true := fun hz => hg (List.contains_iff_mem.1 hz)
    have hz' : ¬ isGroundName (ρ net) = true := fun hz => hg' (List.contains_iff_mem.1 hz)
    rw [find?, if_neg hz', find?, if_neg hz, h.names, idxOf?_map_of_injOn hinj]

/-- A net is given the same node in both tables. -/
lemma intern (h : Renamed ρ used t t') {net net' : String} (hn : RenamedNet ρ net net')
    (hu : net ∉ groundNames → net ∈ used) :
    (t'.intern net').1 = (t.intern net).1 ∧ Renamed ρ used (t.intern net).2 (t'.intern net').2 := by
  have hfind := h.find?_eq hρ hn hu
  cases hf : t.find? net with
  | some n =>
    rw [hf] at hfind
    rw [intern_of_find?_eq_some hf, intern_of_find?_eq_some hfind]
    exact ⟨rfl, h⟩
  | none =>
    rw [hf] at hfind
    have hg : net ∉ groundNames := by
      intro hg
      rw [find?_eq_ground_iff.2 hg] at hf
      cases hf
    rw [intern_of_find?_eq_none hf, intern_of_find?_eq_none hfind]
    refine ⟨congrArg (fun n => Node.mk (n + 1)) h.count_eq, ?_, fun s hs => ?_⟩
    · cases hn with
      | ground hg' => exact absurd hg' hg
      | other => simp only [names_push, h.names, List.map_append, List.map_cons, List.map_nil]
    · rcases List.mem_append.1 hs with hs | hs
      · exact h.used s hs
      · rw [List.mem_singleton.1 hs]
        exact hu hg

/-- Renamed nets get the same nodes, and the tables stay renamed. -/
lemma internAll (h : Renamed ρ used t t') {nets nets' : List String}
    (hn : List.Forall₂ (RenamedNet ρ) nets nets') (hu : ∀ net ∈ nets, net ∉ groundNames → net ∈ used) :
    (t'.internAll nets').1 = (t.internAll nets).1 ∧
      Renamed ρ used (t.internAll nets).2 (t'.internAll nets').2 := by
  induction hn generalizing t t' with
  | nil => exact ⟨rfl, h⟩
  | @cons net net' nets nets' hnet _ ih =>
    obtain ⟨hnode, ht⟩ := h.intern hρ hnet (hu net List.mem_cons_self)
    obtain ⟨hnodes, ht'⟩ := ih ht fun s hs => hu s (List.mem_cons_of_mem net hs)
    refine ⟨?_, ht'⟩
    simp only [NodeTable.internAll, hnode, hnodes]

/-- Renamed elements are resolved to elements that differ in names only, and the tables stay renamed. -/
lemma resolve (h : Renamed ρ used t t') {e e' : Element K} (he : e.Renamed ρ e')
    (hu : ∀ net ∈ e.nets, net ∉ groundNames → net ∈ used) :
    (e.resolve t).1.Alike (e'.resolve t').1 ∧ Renamed ρ used (e.resolve t).2 (e'.resolve t').2 := by
  obtain ⟨hnodes, ht⟩ := h.internAll hρ he.nets hu
  exact ⟨⟨he.kind, he.name, he.value, hnodes⟩, ht⟩

/-- Elements are given the same nodes in both tables. -/
theorem resolveAll (h : Renamed ρ used t t') {es es' : List (Element K)}
    (hes : List.Forall₂ (Element.Renamed ρ) es es')
    (hu : ∀ e ∈ es, ∀ net ∈ e.nets, net ∉ groundNames → net ∈ used) :
    List.Forall₂ Element.Alike (t.resolveAll es).1 (t'.resolveAll es').1 ∧
      Renamed ρ used (t.resolveAll es).2 (t'.resolveAll es').2 := by
  induction hes generalizing t t' with
  | nil => exact ⟨.nil, h⟩
  | @cons e e' es es' he _ ih =>
    obtain ⟨ha, ht⟩ := h.resolve hρ he (hu e List.mem_cons_self)
    obtain ⟨has, ht'⟩ := ih ht fun f hf => hu f (List.mem_cons_of_mem e hf)
    exact ⟨.cons ha has, ht'⟩

end Renamed

end NodeTable

end Nodal
