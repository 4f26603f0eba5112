import Mathlib.Control.Monad.Basic
import Nodal.Proofs.Netlist.Stops
/-!
# Lines under other numbers and texts

A reader tells lines apart by their words; the number and the text of a line it only notes. So it reads a
line as it reads another one with the same words, and notes the number and the text of that one instead. A
`Relabelling` says which line is put in place of each, and `Reader.run_relabel` that putting lines in place
of others and reading them commute.
-/

namespace Nodal

/-- Lines in place of lines: they have the same words, and numbers and texts that depend on those that they
replace. -/
structure Relabelling where
  line : Line → Line
  number : Nat → Nat
  text : String → String
  words_line : ∀ l, (line l).words = l.words
  number_line : ∀ l, (line l).number = number l.number
  trimmed_line : ∀ l, (line l).trimmed = text l.trimmed

attribute [simp] Relabelling.words_line Relabelling.number_line Relabelling.trimmed_line

/-- The item when its line is replaced. -/
def Item.relabel (f : Relabelling) : Item → Item
  | .element e => .element { e with line := f.number e.line }
  | .directive d => .directive { d with text := f.text d.text, line := f.number d.line }
  | .comment c => .comment { text := f.text c.text, line := f.number c.line }

/-- The subcircuit when all its lines are replaced. -/
def Subcircuit.relabel (f : Relabelling) (s : Subcircuit) : Subcircuit :=
  { s with
    body := s.body.map (Item.relabel f)
    line := f.number s.line
    lastLine := f.number s.lastLine }

/-- The record when all its lines are replaced. -/
def Record.relabel (f : Relabelling) : Record → Record
  | .item i => .item (i.relabel f)
  | .subcircuit s => .subcircuit (s.relabel f)
  | .call c => .call { c with line := f.number c.line }

/-- The netlist when all its lines are replaced. -/
def Netlist.relabel (f : Relabelling) (n : Netlist) : Netlist :=
  { n with records := n.records.map (Record.relabel f) }

/-- The stop when its line is replaced. -/
def Stop.relabel (f : Relabelling) (s : Stop) : Stop :=
  { s with line := f.line s.line }

/-- The open block when all its lines are replaced. -/
def OpenBlock.relabel (f : Relabelling) (b : OpenBlock) : OpenBlock :=
  { b with opening := f.line b.opening, body := b.body.map (Item.relabel f) }

/-- The reader when the lines of its block are replaced. -/
def Reader.relabel (f : Relabelling) (r : Reader) : Reader :=
  { r with block := r.block.map (OpenBlock.relabel f) }

variable (f : Relabelling)

/-- A line is blank iff its relabelled one is. -/
@[simp] lemma Line.isBlank_relabel (l : Line) : (f.line l).isBlank = l.isBlank := by
  have h : ∀ l : Line, l.isBlank = l.words.isEmpty := fun l => List.isEmpty_map.symm
  rw [h, h, f.words_line]

/-- An element line is read alike under another number. -/
lemma ElementLine.ofWords?_relabel (d : Dialect) (n : Nat) (words : List String) :
    ofWords? d (f.number n) words =
      (ofWords? d n words).map fun e => { e with line := f.number e.line } := by
  rcases words with _ | ⟨name, _ | ⟨net, rest⟩⟩
  · rfl
  · rfl
  · simp only [ofWords?]
    split
    · split <;> rfl
    · rfl

/-- A relabelled line makes the relabelled directive. -/
lemma Directive.ofLine_relabel (d : Dialect) (l : Line) :
    Item.directive (ofLine d (f.line l)) = Item.relabel f (.directive (ofLine d l)) := by
  simp [ofLine, Item.relabel]

/-- A relabelled line makes the relabelled item. -/
@[simp] lemma Item.ofLine?_relabel (d : Dialect) (l : Line) :
    ofLine? d (f.line l) = (ofLine? d l).map (Item.relabel f) := by
  simp only [ofLine?, f.number_line, f.words_line, f.trimmed_line, ElementLine.ofWords?_relabel]
  cases ElementLine.ofWords? d l.number l.words with
  | some e => rfl
  | none =>
    simp only [Option.map_none]
    split
    · rw [Directive.ofLine_relabel]
      rfl
    · split <;> rfl

/-- Relabelling leaves the title of a block alone. -/
lemma OpenBlock.title_relabel (b : OpenBlock) : (b.relabel f).title = b.title := rfl

/-- A block is closed to the relabelled subcircuit. -/
lemma OpenBlock.close_relabel (b : OpenBlock) (n : Nat) :
    (b.relabel f).close (f.number n) = (b.close n).relabel f := by
  simp [close, relabel, Subcircuit.relabel]

namespace Reader

/-- Relabelling leaves the dialect of a state alone. -/
lemma dialect_relabel (r : Reader) : (r.relabel f).dialect = r.dialect := rfl

/-- The block of a relabelled state is relabelled with it. -/
lemma block_relabel (r : Reader) : (r.relabel f).block = r.block.map (OpenBlock.relabel f) := rfl

/-- A relabelled item is taken to where the item itself goes. -/
lemma take_relabel (r : Reader) (i : Item) :
    (r.relabel f).take (i.relabel f) =
      ((r.take i).1.relabel f, (r.take i).2.map (Record.relabel f)) := by
  obtain ⟨d, block⟩ := r
  cases block with
  | none => rfl
  | some b => simp [take, relabel, OpenBlock.relabel]

/-- A line is read as the line in its place. -/
lemma Step.relabel {r r' : Reader} {l : Line} {out : Option Record} (h : r.Step l r' out) :
    (r.relabel f).Step (f.line l) (r'.relabel f) (out.map (Record.relabel f)) := by
  have htake : ∀ {r₁ : Reader} {i}, r₁.take i = (r', out) →
      (r₁.relabel f).take (i.relabel f) = (r'.relabel f, out.map (Record.relabel f)) := by
    intro r₁ i ht
    rw [take_relabel, ht]
  cases h with
  | blank hb => exact .blank (by simp [hb])
  | @switch d _ _ hb hs ht =>
    refine .switch (d := d) (by simp [hb]) (by simp [hs]) ?_
    rw [Directive.ofLine_relabel]
    exact htake ht
  | item hb hs hc hi ht =>
    refine .item (by simp [hb]) (by simp [hs]) (fun b' hb' => ?_) ?_ (htake ht)
    · rw [block_relabel] at hb'
      obtain ⟨b, hr, rfl⟩ := Option.map_eq_some_iff.1 hb'
      simpa [dialect_relabel, OpenBlock.title_relabel] using hc b hr
    · simp [dialect_relabel, hi]
  | title hb hs hr hi ht =>
    refine .title (by simp [hb]) (by simp [hs]) ?_ ?_ ?_
    · rw [block_relabel, hr, Option.map_none]
    · simp [dialect_relabel, hi]
    · simp [dialect_relabel, ht]
  | @call c hb hs hr hi ht hc =>
    have hcall := Step.call (r := r.relabel f) (l := f.line l) (c := c) (by simp [hb]) (by simp [hs])
      (by simp [block_relabel, hr]) (by simp [dialect_relabel, hi]) (by simp [dialect_relabel, ht])
      (by simp [dialect_relabel, hc])
    rwa [f.number_line] at hcall
  | @close b hb hs hr hc =>
    have hclose := Step.close (r := r.relabel f) (l := f.line l) (b := b.relabel f) (by simp [hb])
      (by simp [hs]) (by simp [block_relabel, hr])
      (by simpa [dialect_relabel, OpenBlock.title_relabel] using hc)
    rwa [f.number_line, OpenBlock.close_relabel] at hclose

/-- A line is refused as the line in its place. -/
lemma Refuses.relabel {r : Reader} {l : Line} (h : r.Refuses l) : (r.relabel f).Refuses (f.line l) := by
  cases h with
  | outside hb hs hr hi ht hc =>
    refine .outside (by simp [hb]) (by simp [hs]) ?_ ?_ ?_ ?_
    · rw [block_relabel, hr, Option.map_none]
    · simp [dialect_relabel, hi]
    · simp [dialect_relabel, ht]
    · simp [dialect_relabel, hc]
  | @inside b hb hs hr hc hi =>
    refine .inside (b := b.relabel f) (by simp [hb]) (by simp [hs]) ?_ ?_ ?_
    · rw [block_relabel, hr, Option.map_some]
    · simpa [dialect_relabel, OpenBlock.title_relabel] using hc
    · simp [dialect_relabel, hi]

/-- Reading a line commutes with replacing it. -/
lemma step_relabel (r : Reader) (l : Line) :
    (r.relabel f).step (f.line l) =
      match r.step l with
      | .ok (r', out) => .ok (r'.relabel f, out.map (Record.relabel f))
      | .error bad => .error (f.line bad) := by
  cases h : r.step l with
  | ok p => exact step_eq_ok_iff.2 ((step_eq_ok_iff.1 h).relabel f)
  | error bad =>
    obtain ⟨rfl, hr⟩ := step_eq_error_iff.1 h
    exact step_eq_error_iff.2 ⟨rfl, hr.relabel f⟩

/-- Reading lines commutes with replacing them. -/
lemma run_relabel (r : Reader) (ls : List Line) :
    (r.relabel f).run (ls.map f.line) =
      match r.run ls with
      | .ok n => .ok (n.relabel f)
      | .error stop => .error (stop.relabel f) := by
  induction ls generalizing r with
  | nil =>
    obtain ⟨d, block⟩ := r
    cases block <;> rfl
  | cons l ls ih =>
    simp only [List.map_cons, run, step_relabel]
    cases r.step l with
    | error bad => rfl
    | ok p =>
      simp only [ih]
      cases p.1.run ls with
      | error stop => rfl
      | ok n => cases p.2 <;> simp [Netlist.relabel]

end Reader

end Nodal
