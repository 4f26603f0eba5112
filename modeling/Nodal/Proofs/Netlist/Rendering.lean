import Nodal.Proofs.Netlist.Writing
/-!
# Written records are read again

Records that both dialects can write are read again in the dialect that they are written in, at the
lines where they are written. Spice does so for all of them; Spectre unless a subcircuit is called like
an analysis, whose title it takes for a directive (`Netlist.read_render_dialects`).
-/

namespace Nodal

open Source

namespace Line.Holds

variable {d : Dialect} {l : Line} {i : Item}

/-- Outside of subcircuits the item is a record. -/
lemma step_outside (h : l.Holds d i) :
    Reader.Step { dialect := d } l { dialect := d } (some (.item i)) :=
  .item h.notBlank h.noSwitch nofun h.item rfl

/-- Inside a subcircuit the item goes into the body. -/
lemma step_inside (h : l.Holds d i) (b : OpenBlock) :
    Reader.Step { dialect := d, block := some b } l
      { dialect := d, block := some { b with body := b.body ++ [i] } } none := by
  refine .item h.notBlank h.noSwitch (fun b' hb => ?_) h.item rfl
  cases hb
  exact h.notClosing b.title.name

end Line.Holds

namespace Item

/-- Items as they are read from lines one after another. -/
def onLines (number : Nat) : List Item → List Item
  | [] => []
  | i :: is => i.onLine number :: onLines (number + 1) is

/-- The lines of items go into the body of the open block. -/
lemma steps_body {d : Dialect} {is : List Item} (h : ∀ i ∈ is, i.Writable d) (b : OpenBlock)
    (number offset : Nat) :
    Reader.Steps { dialect := d, block := some b }
      (writtenLines number offset (is.map text))
      { dialect := d, block := some { b with body := b.body ++ onLines number is } } [] := by
  induction is generalizing b number offset with
  | nil =>
    rw [onLines, List.append_nil]
    exact .nil
  | cons i is ih =>
    have hi := (h i List.mem_cons_self).holds number offset
    have his := ih (fun j hj => h j (List.mem_cons_of_mem _ hj))
      { b with body := b.body ++ [i.onLine number] } (number + 1)
    rw [onLines, List.append_cons]
    exact .cons (hi.step_inside b) (his _)

end Item

namespace Subcircuit

/-- A subcircuit as it is read from lines one after another. -/
def onLines (number : Nat) (s : Subcircuit) : Subcircuit where
  name := s.name
  ports := s.ports
  body := Item.onLines (number + 1) s.body
  line := number
  lastLine := number + 1 + s.body.length

namespace Titled

variable {s : Subcircuit}

/-- A written title is neither blank nor a switch. -/
lemma title_not_blank_or_switch (h : s.Titled) (d : Dialect) (number offset : Nat) :
    (writtenLine number offset (s.titleText d)).isBlank = false ∧
      Dialect.switch? (writtenLine number offset (s.titleText d)).words = none := by
  have hw := h.words_title d number offset
  cases d with
  | spice => exact Line.not_blank_or_switch hw (by decide)
  | spectre => exact Line.not_blank_or_switch hw (by decide)

/-- A written closing line is neither blank nor a switch. -/
lemma closing_not_blank_or_switch (h : s.Titled) (d : Dialect) (number offset : Nat) :
    (writtenLine number offset (s.closingText d)).isBlank = false ∧
      Dialect.switch? (writtenLine number offset (s.closingText d)).words = none := by
  have hw := h.words_closing d number offset
  cases d with
  | spice => exact Line.not_blank_or_switch hw (by decide)
  | spectre => exact Line.not_blank_or_switch hw (by decide)

/-- A title that the dialect does not take for a directive opens a block. -/
lemma step_title (h : s.Titled) {d : Dialect} (ht : d.isDirective (s.titleWords d) = false)
    (number offset : Nat) :
    Reader.Step { dialect := d } (writtenLine number offset (s.titleText d))
      { dialect := d
        block := some
          { title := { name := s.name, ports := s.ports }
            opening := writtenLine number offset (s.titleText d) } } none := by
  obtain ⟨hb, hs⟩ := h.title_not_blank_or_switch d number offset
  have hw := h.words_title d number offset
  refine .title hb hs rfl ?_ ?_
  · rw [ofLine?_title d s hw, if_neg (by rw [ht]; exact Bool.false_ne_true)]
  · rw [hw]
    exact h.title?_titleWords d

/-- A title that the dialect takes for a directive opens none. -/
lemma step_directive (h : s.Titled) {d : Dialect} (ht : d.isDirective (s.titleWords d) = true)
    (number offset : Nat) :
    Reader.Step { dialect := d } (writtenLine number offset (s.titleText d)) { dialect := d }
      (some (.item (.directive
        (Directive.ofLine d (writtenLine number offset (s.titleText d)))))) := by
  obtain ⟨hb, hs⟩ := h.title_not_blank_or_switch d number offset
  refine .item hb hs nofun ?_ rfl
  rw [ofLine?_title d s (h.words_title d number offset), if_pos ht]

/-- The closing line completes the block that the title has opened. -/
lemma step_closing (h : s.Titled) (d : Dialect) {b : OpenBlock} (hb : b.title.name = s.name)
    (number offset : Nat) :
    Reader.Step { dialect := d, block := some b } (writtenLine number offset (s.closingText d))
      { dialect := d } (some (.subcircuit (b.close number))) := by
  obtain ⟨hblank, hs⟩ := h.closing_not_blank_or_switch d number offset
  refine .close hblank hs rfl ?_
  rw [h.words_closing d number offset, hb]
  exact closes_closingWords d s

/-- The lines of a subcircuit are read as this subcircuit, unless the title is a directive. -/
lemma steps (h : s.Titled) {d : Dialect} (hbody : ∀ i ∈ s.body, i.Writable d)
    (ht : d.isDirective (s.titleWords d) = false) (number offset : Nat) :
    Reader.Steps { dialect := d }
      (writtenLines number offset (s.titleText d :: s.body.map Item.text ++ [s.closingText d]))
      { dialect := d } [.subcircuit (s.onLines number)] := by
  obtain ⟨offset', hl⟩ :=
    writtenLines_append number offset (s.titleText d :: s.body.map Item.text) [s.closingText d]
  have hn : number + (s.titleText d :: s.body.map Item.text).length = number + 1 + s.body.length := by
    rw [List.length_cons, List.length_map]
    omega
  rw [hl, hn]
  exact (Reader.Steps.cons (h.step_title ht number offset) (Item.steps_body hbody _ _ _)).append
    (.single (h.step_closing d rfl _ _))

end Titled

end Subcircuit

namespace Call.Portable

variable {c : Call}

/-- The line of a call is read as this call. -/
lemma step (h : c.Portable) (d : Dialect) (number offset : Nat) :
    Reader.Step { dialect := d } (writtenLine number offset (c.text d)) { dialect := d }
      (some (.call { c with line := number })) := by
  have hw := h.words_line d number offset
  have hf : c.label ≠ "simulator" := by
    have hm : c.label ∉ ["simulator"] := h.label_notMem (by decide)
    simpa using hm
  obtain ⟨hb, hs⟩ : (writtenLine number offset (c.text d)).isBlank = false ∧
      Dialect.switch? (writtenLine number offset (c.text d)).words = none := by
    cases d with
    | spice => exact Line.not_blank_or_switch hw hf
    | spectre => exact Line.not_blank_or_switch hw hf
  have ht : d.title? (writtenLine number offset (c.text d)).words = none := by
    rw [hw]
    exact h.title?_eq_none d
  have hc : d.call? (writtenLine number offset (c.text d)).words =
      some { label := c.label, nets := c.nets, subcircuit := c.subcircuit } := by
    rw [hw]
    exact h.call?_words d
  exact Reader.Step.call (r := { dialect := d }) hb hs rfl (h.ofLine?_eq_none d hw) ht hc

end Call.Portable

namespace Record

/-- Whether a dialect can write a record, apart from titles that it takes for directives. -/
inductive Writable (d : Dialect) : Record → Prop where
  | item {i} :
    i.Writable d →
    Writable d (.item i)
  | subcircuit {s} :
    s.Titled →
    (∀ i ∈ s.body, i.Writable d) →
    Writable d (.subcircuit s)
  | call {c} :
    c.Portable →
    Writable d (.call c)

/-- Each dialect can write what both can. -/
lemma Portable.writable {r : Record} (h : r.Portable) (d : Dialect) : r.Writable d := by
  cases h with
  | item hi => exact .item (hi.writable d)
  | subcircuit hs => exact .subcircuit hs.toTitled fun i hi => (hs.body i hi).writable d
  | call hc => exact .call hc

/-- A record as it is read from lines from a given number on. -/
def onLines (number : Nat) : Record → Record
  | .item i => .item (i.onLine number)
  | .subcircuit s => .subcircuit (s.onLines number)
  | .call c => .call { c with line := number }

/-- The lines of a record are read as this record, unless it is a subcircuit whose title is a
directive. -/
lemma Writable.steps {d : Dialect} {r : Record} (h : r.Writable d)
    (ht : ∀ s, r = .subcircuit s → d.isDirective (s.titleWords d) = false) (number offset : Nat) :
    Reader.Steps { dialect := d } (writtenLines number offset (r.texts d)) { dialect := d }
      [r.onLines number] := by
  cases h with
  | item hi => exact .single (hi.holds number offset).step_outside
  | subcircuit hs hbody => exact hs.steps hbody (ht _ rfl) number offset
  | call hc => exact .single (hc.step d number offset)

/-- A record is a subcircuit whose title is a directive, or it is none. -/
lemma Writable.title_cases {d : Dialect} {r : Record} (h : r.Writable d) :
    (∀ s, r = .subcircuit s → d.isDirective (s.titleWords d) = false) ∨
      ∃ s : Subcircuit, s.Titled ∧ r = .subcircuit s ∧ d.isDirective (s.titleWords d) = true := by
  cases h with
  | item => exact .inl nofun
  | call => exact .inl nofun
  | @subcircuit s hs _ =>
    cases hd : d.isDirective (s.titleWords d) with
    | true => exact .inr ⟨s, hs, rfl, hd⟩
    | false =>
      refine .inl fun s' he => ?_
      cases he
      exact hd

/-- A record is written on as many lines as it has numbers. -/
lemma length_texts (d : Dialect) (r : Record) : (r.texts d).length = r.lineNumbers.length := by
  cases r with
  | item i => rfl
  | subcircuit s => simp [texts, lineNumbers]
  | call c => rfl

/-- What is written of a record fits on its lines. -/
lemma Writable.isLineText {d : Dialect} {r : Record} (h : r.Writable d) :
    ∀ text ∈ r.texts d, IsLineText text := by
  intro text hm
  cases h with
  | item hi =>
    rw [List.mem_singleton.1 hm]
    exact hi.isLineText
  | @subcircuit s hs hbody =>
    rcases List.mem_append.1 hm with hm | hm
    · rcases List.mem_cons.1 hm with rfl | hm
      · rw [Subcircuit.titleText_eq]
        exact isLineText_wordLine (hs.isWord_titleWords d)
      · obtain ⟨i, hi, rfl⟩ := List.mem_map.1 hm
        exact (hbody i hi).isLineText
    · rw [List.mem_singleton.1 hm, Subcircuit.closingText_eq]
      exact isLineText_wordLine (hs.isWord_closingWords d)
  | call hc =>
    rw [List.mem_singleton.1 hm, Call.text_eq]
    exact isLineText_wordLine (hc.isWord_words d)

end Record

namespace Netlist

/-- Records as they are read from lines one after another. -/
def onLines (number : Nat) : List Record → List Record
  | [] => []
  | r :: rs => r.onLines number :: onLines (number + r.lineNumbers.length) rs

/-- Records in front of a result are the first of its records. -/
lemma map_append_eq_ok_iff {x : Except Stop Netlist} (front : List Record) {records : List Record}
    {d : Dialect} :
    (x.map fun n => { n with records := front ++ n.records }) =
        .ok { records := front ++ records, dialect := d } ↔
      x = .ok { records := records, dialect := d } := by
  cases x with
  | error stop => exact iff_of_false nofun nofun
  | ok n =>
    cases n with
    | mk records' d' => simp [Except.map]

/-- Where the title of the first record is a directive, the record is not read as a subcircuit. -/
lemma run_title_ne {s : Subcircuit} (h : s.Titled) {d : Dialect}
    (ht : d.isDirective (s.titleWords d) = true) (number offset : Nat) (later : List Line)
    (records : List Record) :
    Reader.run { dialect := d }
        (writtenLines number offset ((Record.subcircuit s).texts d) ++ later) ≠
      .ok { records := .subcircuit (s.onLines number) :: records, dialect := d } := by
  have hl : ∃ ls, writtenLines number offset ((Record.subcircuit s).texts d) ++ later =
      [writtenLine number offset (s.titleText d)] ++ ls := ⟨_, rfl⟩
  obtain ⟨ls, hl⟩ := hl
  rw [hl, (Reader.Steps.single (h.step_directive ht number offset)).run_append]
  cases Reader.run { dialect := d } ls with
  | error stop => nofun
  | ok n =>
    intro hn
    cases hn

/-- The lines of records are read as these records, if and only if no title is a directive. -/
lemma run_writtenLines_iff {d : Dialect} {rs : List Record} (h : ∀ r ∈ rs, r.Writable d)
    (number offset : Nat) :
    Reader.run { dialect := d } (writtenLines number offset (rs.flatMap (Record.texts d))) =
        .ok { records := onLines number rs, dialect := d } ↔
      ∀ s, .subcircuit s ∈ rs → d.isDirective (s.titleWords d) = false := by
  induction rs generalizing number offset with
  | nil => exact iff_of_true rfl nofun
  | cons r rs ih =>
    have hr := h r List.mem_cons_self
    obtain ⟨offset', hl⟩ := writtenLines_append number offset (r.texts d) (rs.flatMap (Record.texts d))
    have hrs := ih (fun r' hm => h r' (List.mem_cons_of_mem _ hm))
      (number + r.lineNumbers.length) offset'
    rw [List.flatMap_cons, hl, Record.length_texts]
    rcases hr.title_cases with ht | ⟨s, hs, rfl, hd⟩
    · have hs := hr.steps ht number offset
      rw [hs.run_append, onLines]
      refine (map_append_eq_ok_iff [r.onLines number]).trans (hrs.trans ?_)
      constructor
      · intro hall s hm
        rcases List.mem_cons.1 hm with hm | hm
        · exact ht s hm.symm
        · exact hall s hm
      · intro hall s hm
        exact hall s (List.mem_cons_of_mem _ hm)
    · -- a title that is a directive is read as one, so that no subcircuit is opened
      refine iff_of_false (run_title_ne hs hd number offset _ _) fun hall => ?_
      have hf := hall s List.mem_cons_self
      rw [hd] at hf
      cases hf

/-- A text is read to what the reader makes of its lines. -/
lemma read_eq_ok_iff {d : Dialect} {text : String} {n : Netlist} :
    read d text = .ok n ↔ Reader.run { dialect := d } (Source.lines text) = .ok n := by
  refine ⟨run_of_read, fun h => ?_⟩
  simp only [read, h]

/-- Written records are read again, if and only if no title is a directive. -/
lemma read_render_iff {d : Dialect} {rs : List Record} (h : ∀ r ∈ rs, r.Writable d) :
    read d (render d rs) = .ok { records := onLines 1 rs, dialect := d } ↔
      ∀ s, .subcircuit s ∈ rs → d.isDirective (s.titleWords d) = false := by
  have hl : Source.lines (render d rs) = writtenLines 1 0 (rs.flatMap (Record.texts d)) := by
    refine lines_join fun text hm => ?_
    obtain ⟨r, hr, ht⟩ := List.mem_flatMap.1 hm
    exact (h r hr).isLineText text ht
  rw [read_eq_ok_iff, hl]
  exact run_writtenLines_iff h 1 0

/-- Records that both dialects can write are the same read from either of them iff no subcircuit among them is
called like an analysis. -/
theorem read_render_dialects {rs : List Record} (h : ∀ r ∈ rs, r.Portable) :
    read .spice (render .spice rs) = .ok { records := onLines 1 rs, dialect := .spice } ∧
      (read .spectre (render .spectre rs) = .ok { records := onLines 1 rs, dialect := .spectre } ↔
        ∀ s, .subcircuit s ∈ rs → s.name ∉ Dialect.analyses) := by
  refine ⟨(read_render_iff fun r hr => (h r hr).writable .spice).2 fun s _ =>
    Subcircuit.isDirective_titleWords_spice s, ?_⟩
  rw [read_render_iff fun r hr => (h r hr).writable .spectre]
  simp only [Bool.eq_false_iff, Ne, Subcircuit.isDirective_titleWords, true_and]

/-- A comment, an element, a subcircuit with an element in its body, and a call of it. -/
theorem read_render_divider :
    let l : ElementLine := { letter := 'R', name := "R1", nets := ["a", "b"], value := "1k", line := 2 }
    let s : Subcircuit :=
      { name := "DIV", ports := ["a", "b"], body := [.element l], line := 3, lastLine := 5 }
    let c : Call := { label := "X1", nets := ["in", "0"], subcircuit := "DIV", line := 6 }
    let rs : List Record :=
      [.item (.comment { text := "* divider", line := 1 }), .item (.element l), .subcircuit s, .call c]
    (∀ r ∈ rs, r.Portable) ∧
      read .spice (render .spice rs) = .ok { records := onLines 1 rs, dialect := .spice } ∧
      (read .spectre (render .spectre rs) = .ok { records := onLines 1 rs, dialect := .spectre } ↔
        ∀ s, .subcircuit s ∈ rs → s.name ∉ Dialect.analyses) := by
  intro l s c rs
  have hl : (Item.element l).Portable := .element
    ⟨by decide, by decide, by decide, by decide, 'R', ['1'], .resistor, by decide⟩
  have hc : (Item.comment { text := "* divider", line := 1 }).Portable :=
    .comment ⟨⟨_, rfl⟩, by decide⟩
  have hbody : ∀ i ∈ s.body, i.Portable := fun i hi => List.mem_singleton.1 hi ▸ hl
  have h : ∀ r ∈ rs, r.Portable := by
    simp only [rs, List.forall_mem_cons]
    refine ⟨.item hc, .item hl, .subcircuit ⟨⟨?_, ?_, ?_⟩, hbody⟩, .call ⟨?_, ?_, ?_⟩, nofun⟩ <;> decide
  exact ⟨h, read_render_dialects h⟩

/-- In Spectre the lines of a subcircuit that is called `dc` are a directive, an element that belongs
to no subcircuit, and another directive. -/
theorem read_render_analysis :
    let l : ElementLine := { letter := 'R', name := "R1", nets := ["a", "0"], value := "1", line := 2 }
    let s : Subcircuit :=
      { name := "dc", ports := ["a"], body := [.element l], line := 1, lastLine := 3 }
    let title : Directive :=
      { keyword := "subckt", args := ["dc", "(a)"], text := "subckt dc (a)", dialect := .spectre
        line := 1 }
    let closing : Directive :=
      { keyword := "ends", args := ["dc"], text := "ends dc", dialect := .spectre, line := 3 }
    (Record.subcircuit s).Portable ∧
      render .spectre [.subcircuit s] = "subckt dc (a)\nR1 a 0 1\nends dc\n" ∧
      read .spice (render .spice [.subcircuit s]) =
        .ok { records := [.subcircuit s], dialect := .spice } ∧
      read .spectre (render .spectre [.subcircuit s]) =
        .ok
          { records := [.item (.directive title), .item (.element l), .item (.directive closing)]
            dialect := .spectre } := by
  intro l s title closing
  have hl : (Item.element l).Portable := .element
    ⟨by decide, by decide, by decide, by decide, 'R', ['1'], .resistor, by decide⟩
  have hbody : ∀ i ∈ s.body, i.Portable := fun i hi => List.mem_singleton.1 hi ▸ hl
  have hspice : render .spice [.subcircuit s] = ".subckt dc a 1\nR1 a 0 1\n.ends\n" := by
    decide +kernel
  have hspectre : render .spectre [.subcircuit s] = "subckt dc (a)\nR1 a 0 1\nends dc\n" := by
    decide +kernel
  rw [hspice, hspectre]
  exact ⟨.subcircuit ⟨⟨by decide, by decide, by decide⟩, hbody⟩, rfl, by rfl, by rfl⟩

end Netlist

end Nodal
