import Mathlib.Data.List.Forall2
import Nodal.LinearSystem.Assembly
import Nodal.Proofs.Element.Stamp
import Nodal.Proofs.LinearSystem.Matrix
import Nodal.Proofs.LinearSystem.Tiling
/-!
# Assembling connected elements

Elements with a node of the table for each terminal are assembled without error: every offset leaves
room for the auxiliary unknowns of its element (`LinearSystem.placed_of_mem`), so that every label has
a place and every entry of a stamp lies within the matrix. `LinearSystem.assemble_eq_ok` says what the
system is: its matrix holds the stamps, written one after another to an empty matrix.
-/

namespace Nodal

namespace Element

variable {K : Type}

/-- Whether an element has a node of a table for each of its terminals. -/
structure Connected (nodes : NodeTable) (e : Element K) : Prop where
  length_nodes : e.nodes.length = e.kind.terminalCount
  /-- The nodes are ground or nodes of the table. -/
  index_le_count : ∀ n ∈ e.nodes, n.index ≤ nodes.count

/-- Whether an offset leaves room for the auxiliary unknowns of an element behind the nodes. -/
structure Placed (l : Layout) (e : Element K) (offset : Option Nat) : Prop where
  /-- Without an offset there are no auxiliary unknowns. -/
  of_none : offset = none → e.kind.family? = none
  /-- The auxiliary unknowns stand behind the nodes and within the system. -/
  of_some : ∀ k, offset = some k → l.nodeCount < k ∧ k + e.auxCount ≤ l.size + 1

/-- What a connected and placed element touches lies in the system. -/
lemma Touches.le_size {l : Layout} {nodes : NodeTable} {e : Element K} {offset : Option Nat} {i : Nat}
    (h : e.Touches offset i) (hc : e.Connected nodes) (hn : nodes.count = l.nodeCount)
    (hp : e.Placed l offset) : i ≤ l.size := by
  rcases h with ⟨n, hm, rfl⟩ | ⟨k, ho, -, hi⟩
  · have := hc.index_le_count n hm
    have := l.size_eq
    omega
  · have := hp.of_some k ho
    omega

end Element

namespace LinearSystem

section Places

variable {K : Type}

/-- Every offset of a layout leaves room for its element. -/
lemma placed_of_mem {elements : List (Element K)} {nodes : NodeTable} {p : Element K × Option Nat}
    (h : p ∈ elements.zip (layoutOf elements nodes).offsets) :
    p.1.Placed (layoutOf elements nodes) p.2 := by
  obtain ⟨i, hi⟩ := List.mem_iff_getElem?.1 h
  obtain ⟨he, ho⟩ := List.getElem?_zip_eq_some.1 hi
  have hk : (layoutOf elements nodes).kinds[i]? = some p.1.kind := by simp [layoutOf, he]
  constructor
  · intro hn
    rw [hn, Layout.getElem?_offsets, hk] at ho
    simpa using ho
  · intro k hs
    rw [hs] at ho
    obtain ⟨f, hf, rfl⟩ := Layout.family?_of_offset hk ho
    have hw := Layout.offset_add_width_le hk hf
    have hb := (layoutOf elements nodes).nodeCount_lt_start f
    have he := (layoutOf elements nodes).start_add_auxCount_le_size f
    rw [Element.auxCount, Kind.auxCount_of_family? hf]
    omega

/-- Labels are written where there is room for them. -/
lemma place?_eq_some (places labels : List String) {k : Nat} (hk : 1 ≤ k)
    (h : k + labels.length ≤ places.length + 1) :
    ∃ places', place? places k labels = some places' ∧ places'.length = places.length := by
  induction labels generalizing places k with
  | nil => exact ⟨places, rfl, rfl⟩
  | cons label rest ih =>
    rw [List.length_cons] at h
    rw [place?, if_pos (by omega)]
    obtain ⟨places', hp, hl⟩ := ih (places.set (k - 1) label) (k := k + 1) (by omega)
      (by rw [List.length_set]; omega)
    exact ⟨places', hp, hl.trans List.length_set⟩

/-- Labels find their places if the auxiliary unknowns of all elements do. -/
lemma placeAll_eq_ok (places : List String) (ps : List (Element K × Option Nat))
    (h : ∀ p ∈ ps, ∀ k, p.2 = some k → 1 ≤ k ∧ k + p.1.auxCount ≤ places.length + 1) :
    ∃ places', placeAll places ps = .ok places' ∧ places'.length = places.length := by
  induction ps generalizing places with
  | nil => exact ⟨places, rfl, rfl⟩
  | cons p ps ih =>
    obtain ⟨e, offset⟩ := p
    cases offset with
    | none => exact ih places fun p hp => h p (List.mem_cons_of_mem _ hp)
    | some k =>
      obtain ⟨h1, h2⟩ := h (e, some k) List.mem_cons_self k rfl
      obtain ⟨places', hp, hl⟩ := place?_eq_some places e.auxLabels h1
        (by rw [Element.length_auxLabels]; exact h2)
      -- writing labels leaves as many places as before
      simp only [placeAll, hp]
      rw [← hl]
      apply ih
      intro p hm
      rw [hl]
      exact h p (List.mem_cons_of_mem _ hm)

/-- All unknowns of a system are labelled. -/
lemma unknownLabels_eq_ok (elements : List (Element K)) (nodes : NodeTable) :
    ∃ labels, unknownLabels elements nodes = .ok labels ∧
      labels.length = (layoutOf elements nodes).size := by
  have hs := (layoutOf elements nodes).size_eq
  have hn : (layoutOf elements nodes).nodeCount = nodes.names.length := rfl
  have hl : (nodes.names ++ List.replicate ((layoutOf elements nodes).size - nodes.count) "").length =
      (layoutOf elements nodes).size := by
    rw [List.length_append, List.length_replicate, NodeTable.count]
    omega
  obtain ⟨labels, h, hlen⟩ := placeAll_eq_ok
    (nodes.names ++ List.replicate ((layoutOf elements nodes).size - nodes.count) "")
    (elements.zip (layoutOf elements nodes).offsets) fun p hp k hk => by
      have := (placed_of_mem hp).of_some k hk
      rw [hl]
      omega
  exact ⟨labels, h, hlen.trans hl⟩

end Places

section Stamps

variable {K : Type} [One K] [Neg K]

/-- The stamps of elements, each behind its element and offset. -/
def Stamps (ps : List (Element K × Option Nat)) (stamps : List (List (Entry K))) : Prop :=
  List.Forall₂ (fun p stamp => p.1.Stamped p.2 stamp) ps stamps

/-- Each element has the stamp at its position. -/
lemma Stamps.exists_stamp {ps : List (Element K × Option Nat)} {stamps : List (List (Entry K))}
    (h : Stamps ps stamps) {i : Nat} {p : Element K × Option Nat} (hp : ps[i]? = some p) :
    ∃ stamp, stamps[i]? = some stamp ∧ p.1.Stamped p.2 stamp := by
  obtain ⟨hi, rfl⟩ := List.getElem?_eq_some_iff.1 hp
  have hi' : i < stamps.length := List.Forall₂.length_eq h ▸ hi
  exact ⟨stamps[i], List.getElem?_eq_getElem hi', List.Forall₂.get h hi hi'⟩

/-- Connected elements with suitable offsets have stamps, all within the system. -/
lemma exists_stamps {l : Layout} {nodes : NodeTable} (hn : nodes.count = l.nodeCount)
    (ps : List (Element K × Option Nat))
    (h : ∀ p ∈ ps, p.1.Connected nodes ∧ p.1.Placed l p.2) :
    ∃ stamps, Stamps ps stamps ∧ ∀ x ∈ stamps.flatten, x.row ≤ l.size ∧ x.col ≤ l.size := by
  induction ps with
  | nil => exact ⟨[], .nil, nofun⟩
  | cons p ps ih =>
    obtain ⟨hc, hp⟩ := h p List.mem_cons_self
    obtain ⟨stamp, hs⟩ := Element.exists_stamped hc.length_nodes hp.of_none
    obtain ⟨stamps, hss, hr⟩ := ih fun p hp => h p (List.mem_cons_of_mem _ hp)
    refine ⟨stamp :: stamps, .cons hs hss, fun x hx => ?_⟩
    rcases List.mem_append.1 hx with hx | hx
    · obtain ⟨h1, h2⟩ := hs.touches x hx
      exact ⟨h1.le_size hc hn hp, h2.le_size hc hn hp⟩
    · exact hr x hx

variable [BEq K] [Zero K] [Add K]

/-- Stamps that a matrix admits are written to it. -/
lemma stampAll_eq_ok {m : SparseMatrix K} {ps : List (Element K × Option Nat)}
    {stamps : List (List (Entry K))} (h : Stamps ps stamps)
    (hm : ∀ x ∈ stamps.flatten, m.admits x = true) :
    stampAll m ps = .ok (stamps.flatten.foldl SparseMatrix.add m) := by
  induction h generalizing m with
  | nil => rfl
  | @cons p stamp ps stamps hp _ ih =>
    have hs : p.1.stamp p.2 = .ok stamp := Element.stamp_eq_ok_iff.2 hp
    have ha : m.addAll stamp = (stamp.foldl SparseMatrix.add m, none) :=
      SparseMatrix.addAll_of_admits fun x hx => hm x (List.mem_append_left _ hx)
    simp only [stampAll, stampInto, hs, SparseMatrix.apply, ha]
    rw [ih, List.flatten_cons, List.foldl_append]
    intro x hx
    have := hm x (List.mem_append_right stamp hx)
    rwa [SparseMatrix.admits_iff, SparseMatrix.size_foldl_add, ← SparseMatrix.admits_iff]

/-- Connected elements are assembled: the labels are written, and the stamps are added up in an empty
matrix that has room for them. -/
theorem assemble_eq_ok {elements : List (Element K)} {nodes : NodeTable}
    (h : ∀ e ∈ elements, e.Connected nodes) :
    let l := layoutOf elements nodes
    ∃ labels stamps, unknownLabels elements nodes = .ok labels ∧ labels.length = l.size ∧
      Stamps (elements.zip l.offsets) stamps ∧
      (∀ x ∈ stamps.flatten, x.row ≤ l.size ∧ x.col ≤ l.size) ∧
      assemble elements nodes = .ok
        { matrix := stamps.flatten.foldl SparseMatrix.add { size := l.size }
          offsets := l.offsets, labels, layout := l } := by
  intro l
  obtain ⟨labels, hl, hlen⟩ := unknownLabels_eq_ok elements nodes
  obtain ⟨stamps, hs, hr⟩ := exists_stamps (l := l) rfl (elements.zip l.offsets)
    fun p hp => ⟨h p.1 (List.of_mem_zip hp).1, placed_of_mem hp⟩
  refine ⟨labels, stamps, hl, hlen, hs, hr, ?_⟩
  have ha := stampAll_eq_ok (m := { size := l.size }) hs fun x hx =>
    SparseMatrix.admits_iff.2 (hr x hx)
  simp only [assemble, hl]
  rw [ha]

/-- Elements that are connected are assembled. -/
lemma exists_assemble_eq_ok {elements : List (Element K)} {nodes : NodeTable}
    (h : ∀ e ∈ elements, e.Connected nodes) : ∃ s, assemble elements nodes = .ok s := by
  obtain ⟨labels, stamps, -, -, -, -, hs⟩ := assemble_eq_ok h
  exact ⟨_, hs⟩

/-- A system has the labels, the offsets and the size that its elements ask for. -/
lemma layout_of_assemble {elements : List (Element K)} {nodes : NodeTable}
    (hc : ∀ e ∈ elements, e.Connected nodes) {s : LinearSystem K}
    (h : assemble elements nodes = .ok s) :
    unknownLabels elements nodes = .ok s.labels ∧
      s.offsets = (layoutOf elements nodes).offsets ∧ s.size = (layoutOf elements nodes).size := by
  obtain ⟨labels, stamps, hl, -, -, -, ha⟩ := assemble_eq_ok hc
  rw [ha] at h
  cases h
  exact ⟨hl, rfl, SparseMatrix.size_foldl_add _ _⟩

/-- The unknowns of a system are laid out as its elements ask for. -/
lemma layout_eq_of_assemble {elements : List (Element K)} {nodes : NodeTable}
    (hc : ∀ e ∈ elements, e.Connected nodes) {s : LinearSystem K}
    (h : assemble elements nodes = .ok s) : s.layout = layoutOf elements nodes := by
  obtain ⟨labels, stamps, -, -, -, -, ha⟩ := assemble_eq_ok hc
  rw [ha] at h
  cases h
  rfl

end Stamps

end LinearSystem

end Nodal
