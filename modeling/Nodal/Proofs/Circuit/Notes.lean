import Nodal.Proofs.Circuit.Run
import Nodal.Proofs.Netlist.Notes
/-!
# Notes of a circuit

A circuit keeps the directives outside of subcircuits, counts the comments and, if it is asked to, echoes the
texts of both, those in bodies when their subcircuit is complete. All three are what the records of the netlist
hold (`Draft.notes_run`), and so what the lines of the text are (`Circuit.read_notes`). The echo is only ever
added to: a reading without echo goes through the same states without the echoed texts (`Draft.run_quiet`).
-/

namespace Nodal

namespace Circuit

/-- What is noted between two circuits: of some items the texts and comments, and of some the directives. -/
structure Notes (o : Options) (c : Circuit) (items outer : List Item) (c' : Circuit) : Prop where
  echoed : c'.echoed = c.echoed ++ if o.echo then items.filterMap Item.note? else []
  commentCount : c'.commentCount = c.commentCount + items.countP Item.isComment
  directives : c'.directives = c.directives ++ outer.filterMap Item.directive?

/-- Between circuits with the same notes nothing is noted. -/
lemma Notes.of_eq {o : Options} {c c' : Circuit} (he : c'.echoed = c.echoed)
    (hc : c'.commentCount = c.commentCount) (hd : c'.directives = c.directives) : c.Notes o [] [] c' := by
  refine ⟨?_, hc, ?_⟩
  · simp [he]
  · simp [hd]

/-- Notes of one step and of the next are those of both. -/
lemma Notes.trans {o : Options} {c c' c'' : Circuit} {items outer items' outer' : List Item}
    (h : c.Notes o items outer c') (h' : c'.Notes o items' outer' c'') :
    c.Notes o (items ++ items') (outer ++ outer') c'' := by
  refine ⟨?_, ?_, ?_⟩
  · rw [h'.echoed, h.echoed, List.filterMap_append, List.append_assoc]
    split <;> rfl
  · rw [h'.commentCount, h.commentCount, List.countP_append, Nat.add_assoc]
  · rw [h'.directives, h.directives, List.filterMap_append, List.append_assoc]

/-- An item in a body leaves its own text and comment. -/
lemma notes_noteItem (c : Circuit) (o : Options) (i : Item) : c.Notes o [i] [] (c.noteItem o i) := by
  cases i with
  | element l => exact ⟨by simp [noteItem, Item.note?], rfl, by simp [noteItem]⟩
  | directive d =>
    refine ⟨?_, ?_, ?_⟩ <;> cases h : o.echo <;> simp [noteItem, keepText, h, Item.note?, Item.isComment]
  | comment v =>
    refine ⟨?_, ?_, ?_⟩ <;> cases h : o.echo <;>
      simp [noteItem, addComment, keepText, h, Item.note?, Item.isComment]

/-- The items of a body leave their texts and comments in order. -/
lemma notes_noteItems (c : Circuit) (o : Options) (body : List Item) :
    c.Notes o body [] (body.foldl (fun c i => c.noteItem o i) c) := by
  induction body generalizing c with
  | nil => exact .of_eq rfl rfl rfl
  | cons i body ih => exact (c.notes_noteItem o i).trans (ih _)

/-- An item outside of subcircuits leaves its directive as well. -/
lemma notes_addItem (c : Circuit) (o : Options) (i : Item) : c.Notes o [i] [i] (c.addItem o i) := by
  cases i with
  | element l =>
    refine ⟨?_, ?_, ?_⟩ <;> cases h : Element.ofLine l <;>
      simp [addItem, h, addElement, warn, Item.note?, Item.isComment, Item.directive?]
  | directive d =>
    refine ⟨?_, ?_, ?_⟩ <;> cases h : o.echo <;>
      simp [addItem, keepText, h, Item.note?, Item.isComment, Item.directive?]
  | comment v =>
    refine ⟨?_, ?_, ?_⟩ <;> cases h : o.echo <;>
      simp [addItem, addComment, keepText, h, Item.note?, Item.isComment, Item.directive?]

end Circuit

namespace Draft

/-- A step notes the items of its record. -/
lemma notes_step {o : Options} {d d' : Draft} {r : Record} (h : d.step o r = .ok d') :
    d.circuit.Notes o r.items r.outerItems d'.circuit := by
  cases r with
  | item i =>
    cases h
    exact d.circuit.notes_addItem o i
  | subcircuit s =>
    cases h
    -- the warning about a redefinition changes nothing of this
    have hn := d.circuit.notes_noteItems o s.body
    exact ⟨hn.echoed, hn.commentCount, hn.directives⟩
  | call c =>
    simp only [step] at h
    split at h <;> cases h
    rw [Circuit.addElements_eq]
    exact .of_eq rfl rfl rfl

/-- A run notes the items of its records. -/
lemma notes_run {o : Options} {d d' : Draft} {rs : List Record} (h : d.run o rs = (d', none)) :
    d.circuit.Notes o (rs.flatMap Record.items) (rs.flatMap Record.outerItems) d'.circuit := by
  induction rs generalizing d with
  | nil =>
    cases h
    exact .of_eq rfl rfl rfl
  | cons r rs ih =>
    simp only [run] at h
    split at h
    · cases h
    · rename_i d₁ hd
      exact (notes_step hd).trans (ih h)

end Draft

section Quiet

/-- The same options without echo. -/
def Options.quiet (o : Options) : Options :=
  { o with echo := false }

namespace Circuit

/-- The circuit without the texts that it has echoed. -/
def quiet (c : Circuit) : Circuit :=
  { c with echoed := [] }

/-- Without echo no text is kept, and nothing else changes. -/
lemma keepText_quiet (c : Circuit) (o : Options) (text : String) :
    c.quiet.keepText o.quiet text = (c.keepText o text).quiet := by
  cases h : o.echo <;> simp [keepText, Options.quiet, quiet, h]

/-- A comment is added alike without echo. -/
lemma addComment_quiet (c : Circuit) (o : Options) (v : Comment) :
    c.quiet.addComment o.quiet v = (c.addComment o v).quiet := by
  rw [addComment, keepText_quiet]
  rfl

/-- An item is noted alike without echo. -/
lemma noteItem_quiet (c : Circuit) (o : Options) (i : Item) :
    c.quiet.noteItem o.quiet i = (c.noteItem o i).quiet := by
  cases i with
  | element l => rfl
  | directive d => exact c.keepText_quiet o d.text
  | comment v => exact c.addComment_quiet o v

/-- The items of a body are noted alike without echo. -/
lemma noteItems_quiet (c : Circuit) (o : Options) (body : List Item) :
    body.foldl (fun c i => c.noteItem o.quiet i) c.quiet =
      (body.foldl (fun c i => c.noteItem o i) c).quiet := by
  induction body generalizing c with
  | nil => rfl
  | cons i body ih => rw [List.foldl_cons, noteItem_quiet, ih, List.foldl_cons]

/-- An item outside of subcircuits is taken in alike without echo. -/
lemma addItem_quiet (c : Circuit) (o : Options) (i : Item) :
    c.quiet.addItem o.quiet i = (c.addItem o i).quiet := by
  cases i with
  | element l =>
    simp only [addItem]
    cases Element.ofLine l <;> rfl
  | directive d =>
    simp only [addItem, keepText_quiet]
    rfl
  | comment v => exact c.addComment_quiet o v

end Circuit

namespace Draft

def quiet (d : Draft) : Draft :=
  { d with circuit := d.circuit.quiet }

/-- A step without echo does the same, or fails with the same error. -/
lemma step_quiet (o : Options) (d : Draft) (r : Record) :
    d.quiet.step o.quiet r = (d.step o r).map quiet := by
  cases r with
  | item i =>
    simp only [step, quiet, Circuit.addItem_quiet]
    rfl
  | subcircuit s =>
    simp only [step, quiet, Circuit.noteItems_quiet]
    rfl
  | call c =>
    simp only [step, quiet]
    cases d.library.expand c with
    | error e => rfl
    | ok x =>
      simp only [Circuit.addElements_eq]
      rfl

/-- A run without echo does the same, up to the same error. -/
lemma run_quiet (o : Options) (d : Draft) (rs : List Record) :
    d.quiet.run o.quiet rs = ((d.run o rs).1.quiet, (d.run o rs).2) := by
  induction rs generalizing d with
  | nil => rfl
  | cons r rs ih =>
    simp only [run, step_quiet]
    cases d.step o r with
    | error e => rfl
    | ok d₁ => exact ih d₁

end Draft

end Quiet

namespace Circuit

/-- A reading without echo has the same outcome, but for the echoed texts. -/
lemma read_quiet (o : Options) (text : String) :
    read o.quiet text = { read o text with circuit := (read o text).circuit.quiet } := by
  cases hn : Netlist.read o.dialect text with
  | error e =>
    rw [read_of_malformed hn, @read_of_malformed o.quiet _ _ hn]
    rfl
  | ok n =>
    obtain ⟨d, e?, hd⟩ : ∃ d e?, Draft.run o {} n.records = (d, e?) := ⟨_, _, rfl⟩
    have hq : Draft.run o.quiet {} n.records = (d.quiet, e?) := by
      have hrun := Draft.run_quiet o {} n.records
      rwa [hd] at hrun
    cases e? with
    | none =>
      rw [read_of_run_none hn hd, @read_of_run_none o.quiet _ _ _ hn hq]
      rfl
    | some e =>
      rw [read_of_run_some hn hd, @read_of_run_some o.quiet _ _ _ _ hn hq]
      rfl

/-- A reading that succeeds has the items of its netlist noted. -/
lemma notes_of_read {o : Options} {text : String} (h : (read o text).error? = none) :
    ∃ n, Netlist.read o.dialect text = .ok n ∧
      empty.Notes o (n.records.flatMap Record.items) (n.records.flatMap Record.outerItems)
        (read o text).circuit := by
  obtain ⟨n, d, hn, hd, hc⟩ := exists_run_of_read h
  have hnotes := Draft.notes_run hd
  rw [hc]
  exact ⟨n, hn, hnotes.echoed, hnotes.commentCount, hnotes.directives⟩

/-- A circuit that was read has noted the comments and directives of the text in order, and with echo their
texts; without echo all else is the same. -/
theorem read_notes {d : Dialect} {text : String} (h : (read { dialect := d } text).error? = none) :
    let ls := Source.lines text
    let inEffect := d.onLine ls
    let r := read { dialect := d, echo := true } text
    ∃ n, Netlist.read d text = .ok n ∧
      r.circuit.echoed = (n.notes inEffect ls).map Line.trimmed ∧
      r.circuit.commentCount =
        (n.notes inEffect ls).countP (fun l => l.isComment (inEffect l.number)) ∧
      r.circuit.directives =
        (ls.filter fun l => !n.encloses l.number && l.isDirective (inEffect l.number)).map
          (fun l => Directive.ofLine (inEffect l.number) l) ∧
      read { dialect := d } text = { r with circuit := { r.circuit with echoed := [] } } := by
  intro ls inEffect r
  have hquiet : read { dialect := d } text = { r with circuit := { r.circuit with echoed := [] } } :=
    read_quiet { dialect := d, echo := true } text
  rw [hquiet] at h
  obtain ⟨n, hn, hnotes⟩ := notes_of_read h
  refine ⟨n, hn, ?_, ?_, ?_, hquiet⟩
  · rw [Netlist.map_trimmed_notes hn]
    exact hnotes.echoed
  · rw [Netlist.countP_comments hn, hnotes.commentCount]
    exact Nat.zero_add _
  · rw [Netlist.map_outer_directives hn]
    exact hnotes.directives

/-- A switch and a comment in the body of a subcircuit whose closing line looks like a directive. -/
theorem read_notes_switch :
    let text :=
      "* top\n.subckt dc a\n simulator lang=spectre\n// inside\nR1 a 0 1\nends dc\nX1 (n) dc\nsave n\n"
    let quiet := read {} text
    let r := read { echo := true } text
    quiet.error? = none ∧ quiet = { r with circuit := { r.circuit with echoed := [] } } ∧
      r.circuit.echoed = ["* top", "simulator lang=spectre", "// inside", "save n"] ∧
      r.circuit.commentCount = 2 ∧
      r.circuit.directives =
        [{ keyword := "save", args := ["n"], text := "save n", dialect := .spectre, line := 8 }] := by
  intro text quiet r
  have h : (read { dialect := .spice } text).error? = none := by decide +kernel
  let switch : Directive :=
    { keyword := "simulator", args := ["lang=spectre"], text := "simulator lang=spectre"
      dialect := .spectre, line := 3 }
  let save : Directive :=
    { keyword := "save", args := ["n"], text := "save n", dialect := .spectre, line := 8 }
  let r₁ : ElementLine := { letter := 'R', name := "R1", nets := ["a", "0"], value := "1", line := 5 }
  let n₀ : Netlist :=
    { records :=
        [.item (.comment { text := "* top", line := 1 }),
          .subcircuit
            { name := "dc", ports := ["a"], line := 2, lastLine := 6
              body := [.directive switch, .comment { text := "// inside", line := 4 }, .element r₁] },
          .call { label := "X1", nets := ["n"], subcircuit := "dc", line := 7 },
          .item (.directive save)]
      dialect := .spectre }
  have hread : Netlist.read .spice text = .ok n₀ := by decide +kernel
  obtain ⟨n, hn, hechoed, hcount, hdirectives, hquiet⟩ := read_notes h
  cases hn.symm.trans hread
  refine ⟨h, hquiet, hechoed.trans ?_, hcount.trans ?_, hdirectives.trans ?_⟩
  · decide +kernel
  · decide +kernel
  · decide +kernel

end Circuit

end Nodal
