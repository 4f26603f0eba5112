import Nodal.Command
import Nodal.Proofs.Circuit.Connected
/-!
# Assembling what was read

A circuit has a system iff it was read successfully: the errors that assembling can report do not
occur after a successful reading (`Circuit.assemble_of_read`), and a circuit that was not read, or
whose last reading failed, is refused. `Circuit.read_assembles` states this for one reading, for
readings in sequence and for the command.
-/

namespace Nodal

namespace Circuit

/-- The system of a circuit that was read is that of its elements. -/
lemma assemble_eq_of_read {o : Options} {text : String} (h : (read o text).error? = none) :
    (read o text).circuit.assemble =
      LinearSystem.assemble (read o text).circuit.elements (read o text).circuit.nodes :=
  if_pos ((valid_read o text).2 h)

/-- A circuit that was read is assembled to a system of its size, with all cells in range. -/
lemma assemble_of_read {o : Options} {text : String} (h : (read o text).error? = none) :
    ∃ s, (read o text).circuit.assemble = .ok s ∧ s.size = (read o text).circuit.size ∧
      s.matrix.InRange := by
  obtain ⟨labels, stamps, -, -, -, hr, ha⟩ := LinearSystem.assemble_eq_ok (connected_of_read h)
  refine ⟨_, by rw [assemble_eq_of_read h, ha], ?_, ?_⟩
  · exact SparseMatrix.size_foldl_add _ _
  · refine SparseMatrix.InRange.foldl_add (SparseMatrix.inRange_empty _) fun x hx => ?_
    exact SparseMatrix.admits_iff.2 (hr x hx)

/-- A circuit that is not valid is refused. -/
lemma assemble_of_not_valid {c : Circuit} (h : c.valid = false) : c.assemble = .error .notValid := by
  simp [assemble, h]

/-- To read into a circuit is to read a text, unless the file has none. -/
lemma exists_text_of_reread {c : Circuit} {o : Options} {origin : Origin}
    (h : (c.reread o origin).error? = none) : ∃ text, c.reread o origin = read o text := by
  cases origin with
  | text text => exact ⟨text, rfl⟩
  | file path contents =>
    cases contents with
    | error fault => cases h
    | ok text => exact ⟨text, rfl⟩

/-- The last of several readings starts from what the others left. -/
lemma rereadAll_concat (c : Circuit) (steps : List (Options × Origin)) (o : Options)
    (origin : Origin) :
    c.rereadAll (steps ++ [(o, origin)]) = ((c.rereadAll steps).reread o origin).circuit := by
  induction steps generalizing c with
  | nil => rfl
  | cons step steps ih => exact ih _

/-- A circuit that was read into has a system iff the reading succeeded; otherwise it is refused. -/
lemma assemble_reread (c : Circuit) (o : Options) (origin : Origin) :
    ((c.reread o origin).error? = none ∧ ∃ s, (c.reread o origin).circuit.assemble = .ok s) ∨
      ((c.reread o origin).error? ≠ none ∧
        (c.reread o origin).circuit.assemble = .error .notValid) := by
  by_cases h : (c.reread o origin).error? = none
  · obtain ⟨text, ht⟩ := exists_text_of_reread h
    obtain ⟨s, hs, -⟩ := assemble_of_read (ht ▸ h)
    exact .inl ⟨h, s, ht ▸ hs⟩
  · have hv := mt (valid_reread c o origin).1 h
    exact .inr ⟨h, assemble_of_not_valid (Bool.eq_false_iff.2 hv)⟩

/-- Whether several readings leave nothing behind: there was none, or the last one failed. -/
def Unread (steps : List (Options × Origin)) : Prop :=
  steps = [] ∨ ∃ before o origin, steps = before ++ [(o, origin)] ∧
    ((empty.rereadAll before).reread o origin).error? ≠ none

/-- Only the last reading decides whether anything is left behind. -/
lemma unread_concat {before : List (Options × Origin)} {o : Options} {origin : Origin} :
    Unread (before ++ [(o, origin)]) ↔ ((empty.rereadAll before).reread o origin).error? ≠ none := by
  constructor
  · rintro (h | ⟨before', o', origin', h, he⟩)
    · simp at h
    · obtain ⟨rfl, hl⟩ := List.append_inj' h rfl
      cases hl
      exact he
  · exact fun h => .inr ⟨before, o, origin, rfl, h⟩

/-- A circuit that was read into several times is refused if nothing is left behind, and otherwise
assembled. -/
lemma assemble_rereadAll (steps : List (Options × Origin)) :
    (Unread steps ∧ (empty.rereadAll steps).assemble = .error .notValid) ∨
      (¬Unread steps ∧ ∃ s, (empty.rereadAll steps).assemble = .ok s) := by
  rcases List.eq_nil_or_concat' steps with rfl | ⟨before, ⟨o, origin⟩, rfl⟩
  · exact .inl ⟨.inl rfl, rfl⟩
  · rw [rereadAll_concat, unread_concat]
    rcases assemble_reread (empty.rereadAll before) o origin with ⟨hn, hs⟩ | h
    · exact .inr ⟨not_not_intro hn, hs⟩
    · exact .inl h

end Circuit

namespace Report

/-- A report that shows the system says success iff the reading succeeded. -/
lemma code_ofReading_eq_zero_iff {r : Request} (hr : r.matrix = true) (c : Circuit) (o : Options)
    (origin : Origin) :
    (ofReading r (c.reread o origin)).code = 0 ↔ (c.reread o origin).error? = none := by
  have hv := Circuit.valid_reread c o origin
  rcases Circuit.assemble_reread c o origin with ⟨hn, s, hs⟩ | ⟨he, -⟩
  · simp [ofReading, hn, hv.2 hn, hr, hs]
  · have hf : (c.reread o origin).circuit.valid = false := Bool.eq_false_iff.2 (mt hv.1 he)
    simp [ofReading, he, hf]

end Report

namespace Circuit

/-- A circuit has a system iff its last reading succeeded. Its elements are connected to nodes of the table,
and the cells of the system lie in its rows and columns. -/
theorem read_assembles :
    (∀ (o : Options) (text : String), (read o text).error? = none →
      (∀ e ∈ (read o text).circuit.elements, e.nodes.length = e.kind.terminalCount ∧
        ∀ n ∈ e.nodes, n.index ≤ (read o text).circuit.nodes.count) ∧
      ∃ s, (read o text).circuit.assemble = .ok s ∧ s.size = (read o text).circuit.size ∧
        ∀ x ∈ s.matrix.cells, (1 ≤ x.row ∧ x.row ≤ s.size) ∧ 1 ≤ x.col ∧ x.col ≤ s.size) ∧
    (∀ steps : List (Options × Origin),
      ((empty.rereadAll steps).assemble = .error .notValid ↔
        steps = [] ∨ ∃ before o origin, steps = before ++ [(o, origin)] ∧
          ((empty.rereadAll before).reread o origin).error? ≠ none) ∧
      ((empty.rereadAll steps).assemble = .error .notValid ∨
        ∃ s, (empty.rereadAll steps).assemble = .ok s)) ∧
    (∀ (r : Request) (bytes : Option ByteArray), r.matrix = true →
      ((r.run bytes).code = 0 ↔ (ofFile r.options r.path (fileText bytes)).error? = none)) := by
  refine ⟨fun o text h => ⟨fun e he => ?_, assemble_of_read h⟩, fun steps => ?_, fun r bytes hr => ?_⟩
  · obtain ⟨hl, hi⟩ := connected_of_read h e he
    exact ⟨hl, hi⟩
  · rcases assemble_rereadAll steps with ⟨hu, he⟩ | ⟨hu, s, hs⟩
    · exact ⟨⟨fun _ => hu, fun _ => he⟩, .inl he⟩
    · rw [hs]
      exact ⟨⟨nofun, fun h => absurd h hu⟩, .inr ⟨s, rfl⟩⟩
  · exact Report.code_ofReading_eq_zero_iff hr empty r.options (.file r.path (fileText bytes))

/-- A netlist with two calls and elements of five kinds is read and assembled; of three readings in sequence
the last one decides. -/
theorem read_assembles_calls :
    let text := ".subckt S p\nR1 p m R\nV1 m 0 v\n.ends\nX1 a S\nX2 b S\nF1 a b c 0 r\nG1 a 0 c b 2\nO1 b a c 1\n"
    let c := (read {} text).circuit
    let steps : List (Options × Origin) := [({}, .text text), ({}, .text "R1 a\n"), ({}, .text text)]
    let r : Request := { path := "s.cir", matrix := true }
    (read {} text).error? = none ∧
      (∀ e ∈ c.elements, e.nodes.length = e.kind.terminalCount ∧ ∀ n ∈ e.nodes, n.index ≤ c.nodes.count) ∧
      (∃ s, c.assemble = .ok s ∧ s.size = c.size ∧
        ∀ x ∈ s.matrix.cells, (1 ≤ x.row ∧ x.row ≤ s.size) ∧ 1 ≤ x.col ∧ x.col ≤ s.size) ∧
      c.size = 12 ∧ (empty.rereadAll (steps.take 2)).assemble = .error .notValid ∧
      ((empty.rereadAll steps).assemble = .error .notValid ∨
        ∃ s, (empty.rereadAll steps).assemble = .ok s) ∧
      ((r.run none).code = 0 ↔ (ofFile r.options r.path (fileText none)).error? = none) := by
  intro text c steps r
  have h : (read {} text).error? = none := by decide +kernel
  have hfault : (read {} "R1 a\n").error? ≠ none := by decide +kernel
  obtain ⟨hread, hsteps, hrun⟩ := read_assembles
  obtain ⟨hnodes, hs⟩ := hread {} text h
  refine ⟨h, hnodes, hs, by decide +kernel, ?_, (hsteps steps).2, hrun r none rfl⟩
  exact (hsteps (steps.take 2)).1.2 (.inr ⟨[({}, .text text)], {}, .text "R1 a\n", rfl, hfault⟩)

end Circuit

end Nodal
