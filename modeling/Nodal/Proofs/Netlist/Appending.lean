import Nodal.Proofs.Netlist.Records
import Nodal.Proofs.Netlist.Relabelling
import Nodal.Proofs.Source.Cuts
/-!
# Reading a text behind another

What a reader does with a line does not depend on where the line stands, apart from the line numbers
that it notes (`Reader.run_shift`). So a text behind whole lines is read as it would be on its own, in
the dialect that these lines leave, with all line numbers raised by the number of these lines, whether
reading succeeds or fails (`Netlist.read_append`).
-/

namespace Nodal

/-- The item when its line stands `k` lines further down. -/
def Item.shift (k : Nat) : Item → Item
  | .element e => .element { e with line := k + e.line }
  | .directive d => .directive { d with line := k + d.line }
  | .comment c => .comment { c with line := k + c.line }

/-- The subcircuit when all its lines stand `k` lines further down. -/
def Subcircuit.shift (k : Nat) (s : Subcircuit) : Subcircuit :=
  { s with body := s.body.map (Item.shift k), line := k + s.line, lastLine := k + s.lastLine }

/-- The record when all its lines stand `k` lines further down. -/
def Record.shift (k : Nat) : Record → Record
  | .item i => .item (i.shift k)
  | .subcircuit s => .subcircuit (s.shift k)
  | .call c => .call { c with line := k + c.line }

/-- The netlist when all its lines stand `k` lines further down. -/
def Netlist.shift (k : Nat) (n : Netlist) : Netlist :=
  { n with records := n.records.map (Record.shift k) }

/-- The stop when `k` more lines, of `j` bytes, stand before it. -/
def Stop.shift (k j : Nat) (s : Stop) : Stop :=
  { s with line := s.line.shift k j }

/-- The open block when `k` more lines, of `j` bytes, stand before it. -/
def OpenBlock.shift (k j : Nat) (b : OpenBlock) : OpenBlock :=
  { b with opening := b.opening.shift k j, body := b.body.map (Item.shift k) }

/-- The reader when `k` more lines, of `j` bytes, stand before its block. -/
def Reader.shift (k j : Nat) (r : Reader) : Reader :=
  { r with block := r.block.map (OpenBlock.shift k j) }

/-- Puts lines further down: behind `k` more lines, of `j` bytes. -/
def Relabelling.shift (k j : Nat) : Relabelling where
  line := Line.shift k j
  number := (k + ·)
  text := id
  words_line := Line.words_shift k j
  number_line := Line.number_shift k j
  trimmed_line := Line.trimmed_shift k j

variable (k j : Nat)

/-- To shift an item is to relabel it with the shifted lines. -/
lemma Item.relabel_shift : Item.relabel (.shift k j) = Item.shift k := by
  funext i
  cases i <;> rfl

/-- To shift a record is to relabel it with the shifted lines. -/
lemma Record.relabel_shift : Record.relabel (.shift k j) = Record.shift k := by
  funext r
  cases r with
  | item i => exact congrArg (fun g => Record.item (g i)) (Item.relabel_shift k j)
  | subcircuit s =>
    simp only [relabel, shift, Subcircuit.relabel, Subcircuit.shift, Item.relabel_shift]
    rfl
  | call c => rfl

/-- To shift a netlist is to relabel it with the shifted lines. -/
lemma Netlist.relabel_shift (n : Netlist) : n.relabel (.shift k j) = n.shift k := by
  rw [relabel, Record.relabel_shift, shift]

/-- To shift a state is to relabel it with the shifted lines. -/
lemma Reader.relabel_shift (r : Reader) : r.relabel (.shift k j) = r.shift k j := by
  have h : OpenBlock.relabel (.shift k j) = OpenBlock.shift k j := by
    funext b
    rw [OpenBlock.relabel, Item.relabel_shift]
    rfl
  rw [relabel, h, shift]

/-- Reading lines commutes with moving them down. -/
lemma Reader.run_shift (r : Reader) (ls : List Line) :
    (r.shift k j).run (ls.map (Line.shift k j)) =
      match r.run ls with
      | .ok n => .ok (n.shift k)
      | .error stop => .error (stop.shift k j) := by
  have h := run_relabel (.shift k j) r ls
  simp only [relabel_shift, Netlist.relabel_shift] at h
  exact h

/-- A stop is reported alike wherever it is, apart from its line number. -/
lemma Stop.toSyntaxError_shift {s : Stop} {front ls : List Line} (h : 0 < s.line.number) :
    (s.shift front.length j).toSyntaxError (front ++ ls.map (Line.shift front.length j)) =
      { s.toSyntaxError ls with line := front.length + s.line.number } := by
  have hdrop : front.length + s.line.number - 1 = front.length + (s.line.number - 1) :=
    Nat.add_sub_assoc h _
  simp [toSyntaxError, Stop.shift, hdrop, ← List.map_drop]

namespace Netlist

/-- A text behind whole lines is read as on its own, in the dialect that these leave and with its line
numbers, also that of a fault, raised by theirs. -/
theorem read_append {a b : String} {d : Dialect} {n : Netlist} (ha : WholeLines a)
    (hn : read d a = .ok n) :
    read d (a ++ b) =
      match read n.dialect b with
      | .ok m =>
        .ok
          { records := n.records ++ m.records.map (Record.shift (feedCount a))
            dialect := m.dialect }
      | .error e => .error { e with line := feedCount a + e.line } := by
  obtain ⟨⟨d', block⟩, hs, rfl, rfl⟩ := Reader.run_eq_ok_iff.1 (run_of_read hn)
  have hl := Source.length_lines ha
  -- outside of blocks there is nothing in the reader that could move
  have hshift : Reader.run { dialect := n.dialect } _ = _ :=
    Reader.run_shift (feedCount a) (Source.byteLength a.toList) { dialect := n.dialect }
      (Source.lines b)
  simp only [read, Source.lines_append ha, hs.run_append, hshift]
  cases h : Reader.run { dialect := n.dialect } (Source.lines b) with
  | ok m => rfl
  | error stop =>
    have hpos := Source.number_pos (Reader.line_mem_of_run h)
    rw [← hl]
    exact congrArg Except.error (Stop.toSyntaxError_shift _ hpos)

/-- A subcircuit in the dialect that the line before it switches to. -/
theorem read_append_switch :
    let a := "simulator lang=spectre\n"
    let b := "subckt S (p)\n\tC1 p 0 C\nends S\nX1 (q) S"
    let n : Netlist :=
      { records := [.item (.directive
          { keyword := "simulator", args := ["lang=spectre"], text := "simulator lang=spectre"
            dialect := .spectre, line := 1 })]
        dialect := .spectre }
    WholeLines a ∧ read .spice a = .ok n ∧
      read .spice (a ++ b) =
        match read n.dialect b with
        | .ok m =>
          .ok
            { records := n.records ++ m.records.map (Record.shift (feedCount a))
              dialect := m.dialect }
        | .error e => .error { e with line := feedCount a + e.line } := by
  intro a b n
  have ha : WholeLines a := .inr (by decide)
  have hn : read .spice a = .ok n := by decide +kernel
  exact ⟨ha, hn, read_append ha hn⟩

end Netlist

end Nodal
