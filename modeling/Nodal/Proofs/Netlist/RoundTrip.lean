import Nodal.Proofs.Netlist.Rendering
/-!
# Records written in Spice

Well-formed records, with directives and with elements of unknown kinds among them, are read again from
the text that writes them in Spice (`Netlist.read_render_spice`). Reading finds the numbers of the lines
by itself, so records that carry these numbers already come back as they are.
-/

namespace Nodal

open Source

namespace ElementLine

/-- Whether an element is one that Spice can write. A line of no kind may have any nets. -/
structure WellFormed (e : ElementLine) : Prop where
  isName : isNetName e.name = true
  noSwitch : e.name ≠ "simulator"
  letter : ∃ letter tail, e.name.toList = letter :: tail ∧ letter.isAlpha = true ∧ letter ≠ 'X' ∧
    letter ≠ 'x' ∧ e.letter = letter.toUpper
  nets_ne_nil : e.nets ≠ []
  areNets : ∀ net ∈ e.nets, isNetName net = true
  fits : e.Fits
  isWord : IsWord e.value

/-- Spice admits the nets of an element that fits its kind and whose name is free. -/
lemma admits_spice {e : ElementLine} {letter : Char} (hf : e.Fits) (hl : e.letter = letter.toUpper)
    (hr : Dialect.reservesName .spice e.name = false) (words : List String) :
    admits .spice letter e.nets (e.name :: words) = true := by
  have hk : Kind.ofLetter? e.letter = Kind.ofLetter? letter := by rw [hl, Kind.ofLetter?_toUpper]
  cases h : Kind.ofLetter? letter with
  | some k =>
    simp only [admits, h]
    exact beq_iff_eq.2 (hf k (hk.trans h))
  | none => simp [admits, h, Dialect.reserves, hr]

/-- An element that Spice can write is written by it. -/
lemma WellFormed.written {e : ElementLine} (h : e.WellFormed) : e.Written .spice := by
  obtain ⟨letter, tail, hn, ha, hX, hx, hu⟩ := h.letter
  have hr : Dialect.reservesName .spice e.name = false := by
    rw [Bool.eq_false_iff, Ne, Dialect.reservesName_spice_iff, hn]
    rintro ⟨cs, hc | hc⟩
    · exact hX (List.cons.inj hc).1
    · exact hx (List.cons.inj hc).1
  exact ⟨h.isName, h.noSwitch, hr, h.nets_ne_nil, h.areNets, h.isWord, letter, tail, hn, ha, hu,
    admits_spice h.fits hu hr _⟩

end ElementLine

namespace Directive

/-- Whether a directive is one of Spice: words behind a keyword with a dot in front that neither opens
nor closes a subcircuit. -/
structure WellFormed (d : Directive) : Prop where
  keyword : ∃ name, isIdentifier name = true ∧ d.keyword = "." ++ name
  noTitle : Dialect.lowercase d.keyword ≠ ".subckt".toList
  noClosing : Dialect.lowercase d.keyword ≠ ".ends".toList
  areWords : ∀ arg ∈ d.args, IsWord arg
  text : d.text = wordLine (d.keyword :: d.args)
  dialect : d.dialect = .spice

namespace WellFormed

variable {d : Directive}

/-- The keyword of a directive of Spice is a dot and an identifier. -/
lemma keyword_toList (h : d.WellFormed) :
    ∃ cs, d.keyword.toList = '.' :: cs ∧ isIdentifier (String.ofList cs) = true := by
  obtain ⟨name, hi, hk⟩ := h.keyword
  refine ⟨name.toList, by rw [hk, String.toList_append]; rfl, ?_⟩
  rwa [String.ofList_toList]

/-- The keyword and the arguments of a directive are words. -/
lemma isWord_of_mem (h : d.WellFormed) : ∀ word ∈ d.keyword :: d.args, IsWord word := by
  obtain ⟨name, hi, hk⟩ := h.keyword
  intro word hm
  rcases List.mem_cons.1 hm with rfl | hm
  · have hn : isNetName name = true := by
      simp only [isIdentifier, isNetName, Bool.and_eq_true] at hi ⊢
      exact ⟨hi.1, List.all_eq_true.2 fun c hc =>
        isNetChar_of_isIdentChar (List.all_eq_true.1 hi.2 c hc)⟩
    rw [hk]
    exact IsWord.append (by decide) (isWord_of_isNetName hn)
  · exact h.areWords word hm

/-- The keyword of a directive does not open a subcircuit. -/
lemma opens_eq_false (h : d.WellFormed) : Dialect.opens .spice d.keyword = false :=
  beq_eq_false_iff_ne.2 h.noTitle

/-- The keyword of a directive does not close a subcircuit. -/
lemma closesWord_eq_false (h : d.WellFormed) : Dialect.closesWord .spice d.keyword = false :=
  beq_eq_false_iff_ne.2 h.noClosing

/-- The words of a directive of Spice are read as one. -/
lemma isDirective (h : d.WellFormed) (rest : List String) :
    Dialect.isDirective .spice (d.keyword :: rest) = true := by
  obtain ⟨cs, hc, hi⟩ := h.keyword_toList
  have hd : Dialect.isDotted d.keyword = true := by simpa only [Dialect.isDotted, hc] using hi
  simp only [Dialect.isDirective, hd, h.opens_eq_false, h.closesWord_eq_false, Bool.not_false, Bool.and_self]

/-- The line that writes a directive is read as this directive. -/
lemma holds (h : d.WellFormed) (number offset : Nat) :
    (writtenLine number offset d.text).Holds .spice (.directive { d with line := number }) := by
  obtain ⟨cs, hc, -⟩ := h.keyword_toList
  have hl : IsLineText d.text := h.text ▸ isLineText_wordLine h.isWord_of_mem
  have hw : (writtenLine number offset d.text).words = d.keyword :: d.args := by
    rw [h.text]
    exact words_writtenLine number offset (List.cons_ne_nil _ _) h.isWord_of_mem
  have hf : d.keyword ≠ "simulator" := by
    intro hs
    rw [hs] at hc
    cases hc
  obtain ⟨hb, hs⟩ := Line.not_blank_or_switch hw hf
  refine ⟨hb, hs, fun name => ?_, ?_⟩
  · rw [hw]
    exact Dialect.closes_eq_false h.closesWord_eq_false name _
  · have he : ElementLine.ofWords? .spice number (d.keyword :: d.args) = none := by
      apply ElementLine.ofWords?_eq_none
      rw [hc]
      rfl
    -- a line that starts with no blank is written down as it stands
    have ht : (writtenLine number offset d.text).trimmed = d.text := by
      obtain ⟨later, ht⟩ : ∃ later, d.text.toList = '.' :: later := by
        by_cases hargs : d.args = []
        · exact ⟨cs, by rw [h.text, hargs, wordLine_singleton, hc]⟩
        · refine ⟨cs ++ " ".toList ++ (wordLine d.args).toList, ?_⟩
          rw [h.text, wordLine_cons d.keyword hargs, String.toList_append, String.toList_append, hc]
          rfl
      rw [Line.trimmed, text_writtenLine number offset hl, ht, List.dropWhile_cons_of_neg (by decide),
        ← ht, String.ofList_toList]
    have hd : Directive.ofLine .spice (writtenLine number offset d.text) = { d with line := number } := by
      simp only [Directive.ofLine, hw, ht, number_writtenLine, List.headD_cons, List.tail_cons, h.dialect]
    simp only [Item.ofLine?, hw, number_writtenLine, he, h.isDirective, if_true, hd]

end WellFormed

end Directive

namespace Item

/-- Whether an item is one that Spice can write. -/
inductive WellFormed : Item → Prop where
  | element {e} :
    e.WellFormed →
    WellFormed (.element e)
  | directive {d} :
    d.WellFormed →
    WellFormed (.directive d)
  | comment {c} :
    c.Portable →
    WellFormed (.comment c)

/-- A well-formed item can be written in Spice. -/
lemma WellFormed.writable {i : Item} (h : i.WellFormed) : i.Writable .spice := by
  cases h with
  | element he => exact writable_element he.written
  | @directive d hd =>
    have hl : IsLineText d.text := hd.text ▸ isLineText_wordLine hd.isWord_of_mem
    exact ⟨hl, hd.holds⟩
  | comment hc => exact writable_comment hc .spice

end Item

namespace Record

/-- Whether a record is one that Spice can write. -/
inductive WellFormed : Record → Prop where
  | item {i} :
    i.WellFormed →
    WellFormed (.item i)
  | subcircuit {s} :
    s.Titled →
    (∀ i ∈ s.body, i.WellFormed) →
    WellFormed (.subcircuit s)
  | call {c} :
    c.Portable →
    WellFormed (.call c)

/-- A well-formed record can be written in Spice. -/
lemma WellFormed.writable {r : Record} (h : r.WellFormed) : r.Writable .spice := by
  cases h with
  | item hi => exact .item hi.writable
  | subcircuit hs hbody => exact .subcircuit hs fun i hi => (hbody i hi).writable
  | call hc => exact .call hc

end Record

/-! ### Line numbers -/

namespace Item

/-- Items that are put on lines have their numbers in order. -/
lemma map_line_onLines (number : Nat) (is : List Item) :
    (onLines number is).map line = List.range' number is.length := by
  induction is generalizing number with
  | nil => rfl
  | cons i is ih =>
    rw [onLines, List.map_cons, ih, List.length_cons, List.range'_succ]
    cases i <;> rfl

/-- An item stays as it is on its own line. -/
lemma onLine_line (i : Item) : i.onLine i.line = i := by
  cases i <;> rfl

/-- Items that are numbered one after another keep their numbers. -/
lemma onLines_eq_self {number : Nat} {is : List Item}
    (h : is.map line = List.range' number is.length) : onLines number is = is := by
  induction is generalizing number with
  | nil => rfl
  | cons i is ih =>
    rw [List.map_cons, List.length_cons, List.range'_succ] at h
    obtain ⟨hi, his⟩ := List.cons.inj h
    rw [onLines, ih his, ← hi, onLine_line]

end Item

namespace Record

/-- A record that is put on lines has their numbers in order. -/
lemma lineNumbers_onLines (number : Nat) (r : Record) :
    (r.onLines number).lineNumbers = List.range' number r.lineNumbers.length := by
  cases r with
  | item i => cases i <;> rfl
  | call c => rfl
  | subcircuit s =>
    have hl : (lineNumbers (.subcircuit s)).length = s.body.length + 1 + 1 := by simp [lineNumbers]
    rw [hl, List.range'_succ, List.range'_concat, Nat.one_mul]
    change number :: (Item.onLines (number + 1) s.body).map Item.line ++ [number + 1 + s.body.length] = _
    rw [Item.map_line_onLines, List.cons_append]

/-- A record that is numbered line by line keeps its numbers. -/
lemma onLines_eq_self {number : Nat} {r : Record}
    (h : r.lineNumbers = List.range' number r.lineNumbers.length) : r.onLines number = r := by
  cases r with
  | item i =>
    obtain ⟨hi, -⟩ := List.cons.inj h
    rw [onLines, ← hi, Item.onLine_line]
  | call c =>
    obtain ⟨hc, -⟩ := List.cons.inj h
    rw [onLines, ← hc]
  | subcircuit s =>
    have hl : (lineNumbers (.subcircuit s)).length = s.body.length + 1 + 1 := by simp [lineNumbers]
    rw [hl, List.range'_succ, List.range'_concat, Nat.one_mul] at h
    obtain ⟨hline, hrest⟩ := List.cons.inj h
    obtain ⟨hbody, hlast⟩ := List.append_inj' hrest rfl
    obtain ⟨hlast, -⟩ := List.cons.inj hlast
    rw [onLines, Subcircuit.onLines, Item.onLines_eq_self hbody, ← hlast, ← hline]

end Record

namespace Netlist

/-- Whether records carry the numbers of the lines on which they are written one after another. -/
def Numbered (number : Nat) (rs : List Record) : Prop :=
  rs.flatMap Record.lineNumbers = List.range' number (rs.flatMap Record.lineNumbers).length

/-- Records have as many line numbers as they are written on lines. -/
lemma length_lineNumbers (d : Dialect) (rs : List Record) :
    (rs.flatMap Record.lineNumbers).length = (rs.flatMap (Record.texts d)).length := by
  simp only [List.length_flatMap, Record.length_texts]

/-- Records that are put on lines have their numbers in order. -/
lemma lineNumbers_onLines (number : Nat) (rs : List Record) :
    (onLines number rs).flatMap Record.lineNumbers =
      List.range' number (rs.flatMap Record.lineNumbers).length := by
  induction rs generalizing number with
  | nil => rfl
  | cons r rs ih =>
    rw [onLines, List.flatMap_cons, List.flatMap_cons, List.length_append, ih,
      Record.lineNumbers_onLines, List.range'_append_1]

/-- Records that carry their numbers stay as they are on these lines. -/
lemma onLines_eq_self {number : Nat} {rs : List Record} (h : Numbered number rs) :
    onLines number rs = rs := by
  induction rs generalizing number with
  | nil => rfl
  | cons r rs ih =>
    rw [Numbered, List.flatMap_cons, List.length_append, ← List.range'_append_1] at h
    obtain ⟨hr, hrs⟩ := List.append_inj h (by rw [List.length_range'])
    rw [onLines, Record.onLines_eq_self hr, ih hrs]

/-- Well-formed records are read again from the text that writes them in Spice, with the numbers of the lines
on which they stand there. -/
theorem read_render_spice {rs : List Record} (h : ∀ r ∈ rs, r.WellFormed) :
    read .spice (render .spice rs) = .ok { records := onLines 1 rs, dialect := .spice } ∧
      (onLines 1 rs).flatMap Record.lineNumbers =
        List.range' 1 (rs.flatMap (Record.texts .spice)).length ∧
      (Numbered 1 rs → read .spice (render .spice rs) = .ok { records := rs, dialect := .spice }) := by
  have hw : ∀ r ∈ rs, r.Writable .spice := fun r hr => (h r hr).writable
  have hread : read .spice (render .spice rs) = .ok { records := onLines 1 rs, dialect := .spice } :=
    (read_render_iff hw).2 fun s _ => Subcircuit.isDirective_titleWords_spice s
  refine ⟨hread, ?_, fun hn => ?_⟩
  · rw [← length_lineNumbers]
    exact lineNumbers_onLines 1 rs
  · rw [hread, onLines_eq_self hn]

/-- A comment, a directive, an element of an unknown kind, a subcircuit whose ports are numbers with a
directive in its body, and a call of it. -/
theorem read_render_numbers :
    let q : ElementLine := { letter := 'Q', name := "q1", nets := ["c", "b", "e"], value := "bc547", line := 3 }
    let r : ElementLine := { letter := 'R', name := "R1", nets := ["1", "2"], value := "1k", line := 5 }
    let options : Directive :=
      { keyword := ".OPTIONS", args := ["reltol=1e-3"], text := ".OPTIONS reltol=1e-3", dialect := .spice
        line := 2 }
    let param : Directive :=
      { keyword := ".param", args := ["x", "=", "2"], text := ".param x = 2", dialect := .spice, line := 6 }
    let s : Subcircuit :=
      { name := "2", ports := ["1", "2"], body := [.element r, .directive param], line := 4, lastLine := 7 }
    let c : Call := { label := "x1", nets := ["in", "0"], subcircuit := "2", line := 8 }
    let rs : List Record :=
      [.item (.comment { text := "*  numbers ", line := 1 }), .item (.directive options),
        .item (.element q), .subcircuit s, .call c]
    (∀ r ∈ rs, r.WellFormed) ∧ Numbered 1 rs ∧
      read .spice (render .spice rs) = .ok { records := rs, dialect := .spice } := by
  intro q r options param s c rs
  have hq : q.WellFormed :=
    ⟨by decide, by decide, ⟨'q', ['1'], by decide⟩, by decide, by decide, nofun, by decide⟩
  have hr : r.WellFormed :=
    ⟨by decide, by decide, ⟨'R', ['1'], by decide⟩, by decide, by decide,
      fun k hk => by cases hk; rfl, by decide⟩
  have ho : options.WellFormed :=
    ⟨⟨"OPTIONS", by decide⟩, by decide, by decide, by decide, by decide, rfl⟩
  have hp : param.WellFormed :=
    ⟨⟨"param", by decide⟩, by decide, by decide, by decide, by decide, rfl⟩
  have hbody : ∀ i ∈ s.body, i.WellFormed := by
    simp only [s, List.forall_mem_cons]
    exact ⟨.element hr, .directive hp, nofun⟩
  have h : ∀ r ∈ rs, r.WellFormed := by
    simp only [rs, List.forall_mem_cons]
    refine ⟨.item (.comment ⟨⟨_, rfl⟩, ?_⟩), .item (.directive ho), .item (.element hq),
      .subcircuit ⟨?_, ?_, ?_⟩ hbody, .call ⟨?_, ?_, ?_⟩, nofun⟩ <;> decide
  have hn : Numbered 1 rs := rfl
  exact ⟨h, hn, (read_render_spice h).2.2 hn⟩

end Netlist

end Nodal
