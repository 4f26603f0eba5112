import Mathlib.Data.List.Nodup
import Nodal.Proofs.Circuit.Copies
/-!
# Which lines of unknown kinds are warned about

A circuit warns of a line of an unknown kind where the line would have become an element: where it stands
outside of subcircuits, and in each copy of a body that holds it. `Netlist.Uses` singles out these lines,
and the warnings about unknown kinds are those about them (`Circuit.warnings_unknownKind`). A body that no
call refers to is never looked into, so the lines in it are not warned about
(`Circuit.not_warned_uncalled`).
-/

namespace Nodal

/-- Element lines stand on the lines of their items. -/
lemma Item.sublist_element? (is : List Item) :
    ((is.filterMap element?).map ElementLine.line).Sublist (is.map line) := by
  induction is with
  | nil => exact .slnil
  | cons i is ih =>
    cases i with
    | element l => exact ih.cons_cons l.line
    | directive d => exact ih.cons d.line
    | comment c => exact ih.cons c.line

namespace Record

/-- The items of a record stand on lines of it. -/
lemma sublist_items (r : Record) : (r.items.map Item.line).Sublist r.lineNumbers := by
  cases r with
  | item i => exact .refl _
  | subcircuit s => exact (List.sublist_append_left _ _).cons s.line
  | call c => exact List.nil_sublist _

variable {earlier : List Record} {r : Record} {x : Expansion}

/-- Whether a record behind others brings in an element line: as the line itself, or with a copy of the
body that holds it. -/
inductive Brings (earlier : List Record) (l : ElementLine) : Record → Prop where
  | line :
    Brings earlier l (.item (.element l))
  | call {c s} :
    Latest earlier c.subcircuit s →
    l ∈ s.elementLines →
    Brings earlier l (.call c)

/-- A record warns of each line of an unknown kind that it brings in. -/
lemma Yields.warns (h : r.Yields earlier x) {l : ElementLine} (hl : r.Brings earlier l)
    (hk : Kind.ofLetter? l.letter = none) : l.unknownKind ∈ x.warnings := by
  cases hl with
  | line =>
    cases h with
    | element hk' =>
      rw [hk] at hk'
      cases hk'
    | unknownKind => exact List.mem_singleton.2 rfl
  | call hs hl =>
    cases h with
    | call hs' _ _ hw =>
      rw [hs.unique hs'] at hl
      have hb : (!l.known) = true := by simp [ElementLine.known, hk]
      rw [hw]
      exact List.mem_map_of_mem (List.mem_filter.2 ⟨hl, hb⟩)

/-- A record warns of no other line. -/
lemma Yields.exists_brings (h : r.Yields earlier x) {letter : Char} {name : String} {line : Nat}
    (hw : .unknownKind letter name line ∈ x.warnings) :
    ∃ l : ElementLine, r.Brings earlier l ∧ Kind.ofLetter? l.letter = none ∧ l.letter = letter ∧
      l.name = name ∧ l.line = line := by
  cases h with
  | element _ | directive | comment | definition _ => cases hw
  | unknownKind hk =>
    cases List.mem_singleton.1 hw
    exact ⟨_, .line, hk, rfl, rfl, rfl⟩
  | redefinition _ => cases List.mem_singleton.1 hw
  | call hs _ _ hws =>
    rw [hws] at hw
    obtain ⟨l, hl, he⟩ := List.mem_map.1 hw
    obtain ⟨hl, hb⟩ := List.mem_filter.1 hl
    have hk : Kind.ofLetter? l.letter = none := by simpa [ElementLine.known] using hb
    cases he
    exact ⟨l, .call hs hl, hk, rfl, rfl, rfl⟩

end Record

namespace Netlist

variable {n : Netlist} {l l' : ElementLine}

/-- The element lines of a netlist, in and outside of subcircuits. -/
def elementLines (n : Netlist) : List ElementLine :=
  n.records.flatMap fun r => r.items.filterMap Item.element?

/-- Whether a circuit takes in an element line of its netlist: outside of subcircuits, or in the body of
one that a call refers to. -/
def Uses (n : Netlist) (l : ElementLine) : Prop :=
  .item (.element l) ∈ n.records ∨ ∃ c s, n.Calls c s ∧ l ∈ s.elementLines

/-- A line is used iff some record brings it in behind the records before it. -/
lemma uses_iff : n.Uses l ↔ ∃ front r back, n.records = front ++ r :: back ∧ r.Brings front l := by
  constructor
  · rintro (h | ⟨c, s, ⟨front, back, hr, hs⟩, hl⟩)
    · obtain ⟨front, back, hr⟩ := List.append_of_mem h
      exact ⟨front, _, back, hr, .line⟩
    · exact ⟨front, _, back, hr, .call hs hl⟩
  · rintro ⟨front, r, back, hr, hb⟩
    cases hb with
    | line =>
      left
      rw [hr]
      exact List.mem_append_right _ List.mem_cons_self
    | call hs hl => exact .inr ⟨_, _, ⟨front, back, hr, hs⟩, hl⟩

/-- A line that is used is one of the lines of the netlist. -/
lemma Uses.mem_elementLines (h : n.Uses l) : l ∈ n.elementLines := by
  rcases h with h | ⟨c, s, ⟨front, back, hr, front', back', hf, -⟩, hl⟩
  · exact List.mem_flatMap.2 ⟨_, h, List.mem_singleton.2 rfl⟩
  · refine List.mem_flatMap.2 ⟨.subcircuit s, ?_, hl⟩
    simp [hr, hf]

/-- Each element line is one of the lines that the records consist of. -/
lemma sublist_elementLines (rs : List Record) :
    ((rs.flatMap fun r => r.items.filterMap Item.element?).map ElementLine.line).Sublist
      (rs.flatMap Record.lineNumbers) := by
  induction rs with
  | nil => exact .slnil
  | cons r rs ih =>
    rw [List.flatMap_cons, List.map_append, List.flatMap_cons]
    exact ((Item.sublist_element? r.items).trans r.sublist_items).append ih

/-- The number of an element line tells it from all others. -/
lemma eq_of_line_eq {d : Dialect} {text : String} (h : read d text = .ok n) (hl : l ∈ n.elementLines)
    (hl' : l' ∈ n.elementLines) (hn : l.line = l'.line) : l = l' := by
  have hnodup : (n.elementLines.map ElementLine.line).Nodup :=
    ((lineNumbers_ascend h).sublist (sublist_elementLines n.records)).imp Nat.ne_of_lt
  exact List.inj_on_of_nodup_map hnodup hl hl' hn

end Netlist

namespace Circuit

/-- An element line is warned about iff its letter is that of no kind and it stands outside of subcircuits or
in a body that a call refers to. -/
theorem warnings_unknownKind {o : Options} {text : String} (h : (read o text).error? = none) :
    ∃ n, Netlist.read o.dialect text = .ok n ∧
      (∀ l ∈ n.elementLines,
        .unknownKind l.letter l.name l.line ∈ (read o text).circuit.warnings ↔
          Kind.ofLetter? l.letter = none ∧ n.Uses l) ∧
      ∀ letter name line, .unknownKind letter name line ∈ (read o text).circuit.warnings →
        ∃ l ∈ n.elementLines, l.letter = letter ∧ l.name = name ∧
          ∀ l' ∈ n.elementLines, l'.line = line ↔ l' = l := by
  obtain ⟨n, x, hn, hx, -, -, hw⟩ := read_eq_ok h
  obtain ⟨parts, hparts, hyields, -, hws⟩ := Library.exists_parts_of_flatten hx
  rw [hws] at hw
  have hwarned : ∀ {letter name line}, .unknownKind letter name line ∈ (read o text).circuit.warnings →
      ∃ l, n.Uses l ∧ Kind.ofLetter? l.letter = none ∧ l.letter = letter ∧ l.name = name ∧
        l.line = line := by
    intro letter name line hm
    rw [hw] at hm
    obtain ⟨p, hp, hm⟩ := List.mem_flatMap.1 hm
    obtain ⟨front, r, back, hr, hy⟩ := hyields p hp
    obtain ⟨l, hb, hl⟩ := hy.exists_brings hm
    exact ⟨l, Netlist.uses_iff.2 ⟨front, r, back, hr, hb⟩, hl⟩
  refine ⟨n, hn, fun l hl => ⟨fun hm => ?_, fun ⟨hk, hu⟩ => ?_⟩, fun letter name line hm => ?_⟩
  · obtain ⟨l', hu, hk, -, -, hline⟩ := hwarned hm
    cases Netlist.eq_of_line_eq hn hu.mem_elementLines hl hline
    exact ⟨hk, hu⟩
  · obtain ⟨front, r, back, hr, hb⟩ := Netlist.uses_iff.1 hu
    obtain ⟨p, hp, hy⟩ := hparts front r back hr
    rw [hw]
    exact List.mem_flatMap.2 ⟨p, hp, hy.warns hb hk⟩
  · obtain ⟨l, hu, -, hletter, hname, rfl⟩ := hwarned hm
    have hl := hu.mem_elementLines
    refine ⟨l, hl, hletter, hname, fun l' hl' => ⟨Netlist.eq_of_line_eq hn hl' hl, ?_⟩⟩
    rintro rfl
    rfl

/-- A body that is called twice, one that is called never, and a line outside of both. -/
theorem warnings_unknownKind_twice :
    let text := ".subckt S a\nQ1 a 0 1\n.ends\n.subckt T a\nQ2 a 0 1\n.ends\nX1 m S\nX2 n S\nU3 m n 1\n"
    (read {} text).error? = none ∧
      ∃ n, Netlist.read .spice text = .ok n ∧
        (∀ l ∈ n.elementLines,
          .unknownKind l.letter l.name l.line ∈ (read {} text).circuit.warnings ↔
            Kind.ofLetter? l.letter = none ∧ n.Uses l) ∧
        ∀ letter name line, .unknownKind letter name line ∈ (read {} text).circuit.warnings →
          ∃ l ∈ n.elementLines, l.letter = letter ∧ l.name = name ∧
            ∀ l' ∈ n.elementLines, l'.line = line ↔ l' = l := by
  intro text
  have h : (read {} text).error? = none := by decide +kernel
  exact ⟨h, warnings_unknownKind h⟩

/-- A line of an unknown kind in a body that no call refers to is not warned about. -/
theorem not_warned_uncalled :
    let text := ".subckt S a\nQ1 a 0 1\n.ends\n"
    let q : ElementLine := { letter := 'Q', name := "Q1", nets := ["a", "0"], value := "1", line := 2 }
    let n : Netlist :=
      { records :=
          [.subcircuit { name := "S", ports := ["a"], body := [.element q], line := 1, lastLine := 3 }]
        dialect := .spice }
    (read {} text).error? = none ∧ Netlist.read .spice text = .ok n ∧ q ∈ n.elementLines ∧
      Kind.ofLetter? q.letter = none ∧
      .unknownKind q.letter q.name q.line ∉ (read {} text).circuit.warnings := by
  decide +kernel

end Circuit

end Nodal
