import Nodal.Proofs.Circuit.Run
import Nodal.Proofs.LinearSystem.Assembly
import Nodal.Proofs.Netlist.Records
/-!
# Circuits are connected

The reader lets an element line of a known kind pass only with as many nets as the kind has terminals.
Neither expansion nor numbering changes that count, so every element of a circuit that was read has a
node of the table for each of its terminals (`Circuit.connected_of_read`).
-/

namespace Nodal

namespace Element

variable {K : Type}

/-- Whether an element has as many nets as its kind has terminals. -/
def Fits (e : Element K) : Prop :=
  e.nets.length = e.kind.terminalCount

/-- Whether an element fits its kind does not depend on its nodes. -/
lemma fits_unresolved {e : Element K} : e.unresolved.Fits ↔ e.Fits := Iff.rfl

/-- A line that fits its kind makes an element that does. -/
lemma fits_of_ofLine {l : ElementLine} (hl : l.Fits) {e : Element Float} (h : ofLine l = .ok e) :
    e.Fits := by
  unfold ofLine at h
  split at h
  · rename_i kind hk
    cases h
    exact hl kind hk
  · cases h

/-- Lines that fit their kinds make elements that do. -/
lemma fits_of_mem_ofLines {ls : List ElementLine} (hls : ∀ l ∈ ls, l.Fits) :
    ∀ e ∈ ofLines ls, e.Fits := by
  intro e he
  obtain ⟨l, hl, hs⟩ := List.mem_filterMap.1 he
  cases h : ofLine l with
  | ok e' =>
    rw [h] at hs
    cases hs
    exact fits_of_ofLine (hls l hl) h
  | error w =>
    rw [h] at hs
    cases hs

/-- An element that fits its kind and is numbered is connected. -/
lemma Numbered.connected {t : NodeTable} {e : Element K} (h : e.Numbered t) (hf : e.Fits) :
    e.Connected t :=
  ⟨h.length_nodes.trans hf, fun _ => h.index_le_count⟩

end Element

namespace NodeTable

/-- Resolved elements that fit their kinds are connected. -/
lemma connected_resolveAll {K : Type} {t : NodeTable} {es : List (Element K)} (h : ∀ e ∈ es, e.Fits) :
    ∀ e ∈ (t.resolveAll es).1, e.Connected (t.resolveAll es).2 := by
  intro e hm
  refine (numbered_resolveAll t es e hm).connected ?_
  have hu : e.unresolved ∈ es.map Element.unresolved := by
    rw [← map_unresolved_resolveAll t]
    exact List.mem_map_of_mem hm
  obtain ⟨e', hm', hu⟩ := List.mem_map.1 hu
  have hfu : e.unresolved.Fits := hu ▸ Element.fits_unresolved.2 (h e' hm')
  exact Element.fits_unresolved.1 hfu

end NodeTable

namespace Subcircuit

/-- The copy of an element has as many nets as the element. -/
lemma fits_instantiate (s : Subcircuit) (c : Call) {e : Element Float} (h : e.Fits) :
    (s.instantiate c e).Fits := by
  change (e.nets.map _).length = _
  rw [List.length_map]
  exact h

end Subcircuit

namespace Library

/-- Whether all element lines of a library fit their kinds. -/
def Fits (lib : Library) : Prop :=
  ∀ s ∈ lib.definitions, ∀ i ∈ s.body, i.Fits

/-- The empty library fits. -/
lemma fits_empty : Fits {} :=
  fun _ h => nomatch h

/-- A library still fits after a record whose items do. -/
lemma Fits.after {lib : Library} (h : lib.Fits) {r : Record} (hr : ∀ i ∈ r.items, i.Fits) :
    (lib.after r).Fits := by
  cases r with
  | item | call => exact h
  | subcircuit s =>
    intro s' hs
    rcases List.mem_cons.1 hs with rfl | hs
    · exact hr
    · exact h s' (List.mem_filter.1 hs).1

/-- A record that fits contributes elements that do. -/
lemma fits_of_contribution {lib : Library} (h : lib.Fits) {r : Record} (hr : ∀ i ∈ r.items, i.Fits)
    {x : Expansion} (hx : lib.contribution r = .ok x) : ∀ e ∈ x.elements, e.Fits := by
  cases r with
  | item i =>
    cases i with
    | element l =>
      simp only [contribution] at hx
      split at hx
      · rename_i e he
        cases hx
        intro e' hm
        rw [List.mem_singleton.1 hm]
        exact Element.fits_of_ofLine (hr _ List.mem_cons_self l rfl) he
      · cases hx
        intro e hm
        cases hm
    | directive _ | comment _ =>
      cases hx
      intro e hm
      cases hm
  | subcircuit s =>
    cases hx
    intro e hm
    cases hm
  | call c =>
    simp only [contribution, expand] at hx
    split at hx
    · rename_i s hs
      unfold Subcircuit.expand at hx
      split at hx
      · cases hx
        intro e he
        obtain ⟨e', he', rfl⟩ := List.mem_map.1 he
        have hb := h s (List.mem_of_find?_eq_some hs)
        have hl := Subcircuit.forall_elementLines hb
        exact s.fits_instantiate c (Element.fits_of_mem_ofLines hl e' he')
      · cases hx
    · cases hx

/-- What fitting records come to are elements that fit their kinds. -/
lemma fits_of_flatten {lib : Library} (h : lib.Fits) {rs : List Record}
    (hrs : ∀ r ∈ rs, ∀ i ∈ r.items, i.Fits) {x : Expansion} (hx : lib.flatten rs = .ok x) :
    ∀ e ∈ x.elements, e.Fits := by
  induction rs generalizing lib x with
  | nil =>
    cases hx
    nofun
  | cons r rs ih =>
    obtain ⟨y, z, hy, hz, he, -⟩ := flatten_cons_eq_ok hx
    have hr := hrs r List.mem_cons_self
    intro e hm
    rw [he] at hm
    rcases List.mem_append.1 hm with hm | hm
    · exact fits_of_contribution h hr hy e hm
    · exact ih (h.after hr) (fun r hr => hrs r (List.mem_cons_of_mem _ hr)) hz e hm

end Library

namespace Circuit

/-- The elements of a circuit that was read are connected. -/
lemma connected_of_read {o : Options} {text : String} (h : (read o text).error? = none) :
    ∀ e ∈ (read o text).circuit.elements, e.Connected (read o text).circuit.nodes := by
  obtain ⟨n, x, hn, hx, he, ht, -⟩ := read_eq_ok h
  have hf : ∀ e ∈ x.elements, e.Fits :=
    Library.fits_of_flatten Library.fits_empty (Netlist.fits_of_read hn) hx
  rw [he, ht]
  exact NodeTable.connected_resolveAll hf

end Circuit

end Nodal
