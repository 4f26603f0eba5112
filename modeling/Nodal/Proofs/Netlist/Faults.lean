import Mathlib.Control.Monad.Basic
import Nodal.Proofs.Netlist.Records
import Nodal.Proofs.Netlist.Stops
import Nodal.Proofs.Source.Cuts
import Nodal.Proofs.Source.Words
/-!
# What is at fault in a text

A text that is no netlist is cut in front of the line at fault, and the report of the fault consists of
the line feeds before the cut, the separators that the line starts with, and the text behind the cut.
`Netlist.Fault` lists what can be wrong with the line, in terms of the text before the cut. That one of
these is the case is `Netlist.read_fault`.
-/

namespace Nodal

namespace Netlist

/-- What is wrong with a line between a text `p`, read from dialect `d` on, and the lines `back`. -/
inductive Fault (d : Dialect) (p : String) (l : Line) (back : List Line) : Prop where
  /-- Outside of subcircuits the line is nothing that may stand there. -/
  | outside {n} :
    read d p = .ok n →
    Reader.Refuses { dialect := n.dialect } l →
    Fault d p l back
  /-- The line is a title, and all lines behind it belong to the body of its subcircuit, which is never
  closed. -/
  | unclosed {n t d'} :
    read d p = .ok n →
    Opens n.dialect l t →
    BodyLines t.name n.dialect back d' →
    Fault d p l back
  /-- Behind a title and lines of the body of its subcircuit the line is nothing that may stand there, so
  that `p` alone is at fault with the title. -/
  | inside {q n b body d'} :
    read d q = .ok n →
    Source.lines p = Source.lines q ++ b.opening :: body →
    Opens n.dialect b.opening b.title →
    BodyLines b.title.name n.dialect body d' →
    Reader.Refuses { dialect := d', block := some b } l →
    read d p = .error
      { line := b.opening.number, column := b.opening.firstColumn
        remainder := Line.join (b.opening :: body), dialect := d' } →
    Fault d p l back

/-- A text is refused because reading stops, and with the report of the stop. -/
lemma exists_stop_of_read {d : Dialect} {text : String} {e : SyntaxError}
    (h : read d text = .error e) :
    ∃ s, Reader.run { dialect := d } (Source.lines text) = .error s ∧
      e = s.toSyntaxError (Source.lines text) := by
  simp only [read] at h
  split at h
  · cases h
  · rename_i s hs
    cases h
    exact ⟨s, hs, rfl⟩

/-- A text is a netlist if the steps over its lines lead out of all blocks. -/
lemma read_of_steps {d : Dialect} {text : String} {r : Reader} {records : List Record}
    (hs : Reader.Steps { dialect := d } (Source.lines text) r records) (hb : r.block = none) :
    read d text = .ok { records := records, dialect := r.dialect } := by
  have h := Reader.run_eq_ok_iff (n := { records := records, dialect := r.dialect }).2 ⟨r, hs, hb, rfl⟩
  simp only [read, h]

/-- A stop is reported with the text from its line on. -/
lemma toSyntaxError_of_cut {text p : String} {l : Line} {back : List Line}
    (h : Source.Cut text p l back) (d : Dialect) :
    Stop.toSyntaxError { line := l, dialect := d } (Source.lines text) =
      { line := l.number, column := l.firstColumn, remainder := Line.join (l :: back)
        dialect := d } := by
  have hdrop : (Source.lines text).drop (l.number - 1) = l :: back := by
    rw [h.lines_eq, h.number_eq, Nat.add_sub_cancel, ← Source.length_lines h.whole, List.drop_left]
  simp only [Stop.toSyntaxError, hdrop]

/-- What a stop leaves of the text is its slice from the byte on at which the line starts. -/
lemma toByteArray_remainder {text : String} {l : Line} (hl : l ∈ Source.lines text) (d : Dialect) :
    (Stop.toSyntaxError { line := l, dialect := d } (Source.lines text)).remainder.toByteArray =
      text.toByteArray.extract l.offset text.utf8ByteSize := by
  obtain ⟨front, back, h⟩ := List.append_of_mem hl
  obtain ⟨p, -, hc⟩ := Source.exists_cut h
  rw [toSyntaxError_of_cut hc, hc.offset_eq]
  simp only [hc.eq_append, String.toByteArray_append, String.utf8ByteSize_append]
  exact (ByteArray.extract_append_eq_right rfl rfl).symm

/-- A text that ends inside a block is cut in front of the title of the block, which is at fault. -/
lemma read_of_open {d : Dialect} {text : String} {r : Reader} {records : List Record}
    (hs : Reader.Steps { dialect := d } (Source.lines text) r records) {b : OpenBlock}
    (hb : r.block = some b) :
    ∃ q n body, Source.Cut text q b.opening body ∧ read d q = .ok n ∧
      Opens n.dialect b.opening b.title ∧ BodyLines b.title.name n.dialect body r.dialect ∧
      read d text = .error
        { line := b.opening.number, column := b.opening.firstColumn
          remainder := Line.join (b.opening :: body), dialect := r.dialect } := by
  rcases hs.opened hb with ⟨b', hb', -⟩ | ⟨front, body, r₀, records', hls, hf, h₀, hop, hbody⟩
  · cases hb'
  · obtain ⟨q, rfl, hc⟩ := Source.exists_cut hls
    refine ⟨q, _, body, hc, read_of_steps hf h₀, hop, hbody, ?_⟩
    have hrun := hs.run_append []
    rw [List.append_nil] at hrun
    simp only [Reader.run, hb, Except.map] at hrun
    simp only [read, hrun, toSyntaxError_of_cut hc]

/-- A text that is no netlist is cut in front of the line at fault, and the report has the place of the cut
and all that stands behind it. -/
theorem read_fault {d : Dialect} {text : String} {e : SyntaxError} (h : read d text = .error e) :
    ∃ p l back, text = p ++ e.remainder ∧ WholeLines p ∧ e.line = feedCount p + 1 ∧
      Source.lines text = Source.lines p ++ l :: back ∧ e.remainder = Line.join (l :: back) ∧
      e.remainder.toByteArray = text.toByteArray.extract l.offset text.utf8ByteSize ∧
      e.column = (l.text.toList.takeWhile Text.isSeparator).length + 1 ∧ Fault d p l back := by
  obtain ⟨s, hrun, rfl⟩ := exists_stop_of_read h
  rcases Reader.run_eq_error hrun with ⟨front, l, back, r, records, hls, hs, hr, rfl⟩ |
    ⟨r, records, b, hs, hb, rfl⟩
  · obtain ⟨p, rfl, hc⟩ := Source.exists_cut hls
    refine ⟨p, l, back, ?_⟩
    have hslice := toByteArray_remainder hc.mem r.dialect
    rw [toSyntaxError_of_cut hc] at hslice ⊢
    refine ⟨hc.eq_append, hc.whole, hc.number_eq, hls, rfl, hslice,
      Source.firstColumn_of_mem hc.mem hr.noBlank, ?_⟩
    obtain ⟨d', block⟩ := r
    cases block with
    | none => exact .outside (read_of_steps hs rfl) hr
    | some b =>
      obtain ⟨q, n, body, hq, hn, hop, hbody, hp⟩ := read_of_open hs rfl
      exact .inside hn hq.lines_eq hop hbody hr hp
  · obtain ⟨p, n, back, hc, hn, hop, hbody, -⟩ := read_of_open hs hb
    refine ⟨p, b.opening, back, ?_⟩
    have hslice := toByteArray_remainder hc.mem r.dialect
    rw [toSyntaxError_of_cut hc] at hslice ⊢
    exact ⟨hc.eq_append, hc.whole, hc.number_eq, hc.lines_eq, rfl, hslice,
      Source.firstColumn_of_mem hc.mem hop.noBlank, .unclosed hn hop hbody⟩

/-- An instance in the body of a subcircuit, behind lines of other ends and with a tab before it. -/
theorem read_fault_call :
    let text := "R1 a 0 1\r\n.subckt S p\r\n* µ\n\tX1 p T\n.ends\n"
    let e : SyntaxError := { line := 4, column := 2, remainder := "\tX1 p T\n.ends\n", dialect := .spice }
    read .spice text = .error e ∧
      ∃ p l back, text = p ++ e.remainder ∧ WholeLines p ∧ e.line = feedCount p + 1 ∧
        Source.lines text = Source.lines p ++ l :: back ∧ e.remainder = Line.join (l :: back) ∧
        e.remainder.toByteArray = text.toByteArray.extract l.offset text.utf8ByteSize ∧
        e.column = (l.text.toList.takeWhile Text.isSeparator).length + 1 ∧
        Fault .spice p l back := by
  intro text e
  have h : read .spice text = .error e := by decide +kernel
  exact ⟨h, read_fault h⟩

end Netlist

end Nodal
