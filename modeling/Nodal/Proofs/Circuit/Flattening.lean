import Nodal.Proofs.Circuit.Run
import Nodal.Proofs.Netlist.Records
import Nodal.Proofs.Subcircuit.Expansion
/-!
# A circuit is its netlist flattened

`Record.Yields` says what a record adds to a circuit in terms of the records before it alone: a call
looks for the last definition of its name among them. Reading keeps a library instead, which always
holds just these definitions (`Library.Tracks`). So the elements and the warnings of a circuit that was
read are those that its records yield, in the order of the lines (`Circuit.read_flattens`).
-/

namespace Nodal

namespace Record

/-- Whether `s` is the last subcircuit that records define under a name. -/
def Latest (rs : List Record) (name : String) (s : Subcircuit) : Prop :=
  ∃ front back, rs = front ++ .subcircuit s :: back ∧ s.name = name ∧
    ∀ s', .subcircuit s' ∈ back → s'.name ≠ name

/-- Whether records define no subcircuit under a name. -/
def Undefined (rs : List Record) (name : String) : Prop :=
  ∀ s, .subcircuit s ∈ rs → s.name ≠ name

/-- The elements and the warnings that a record behind other records comes to. -/
inductive Yields (earlier : List Record) : Record → Expansion → Prop where
  | element {l k} :
    Kind.ofLetter? l.letter = some k →
    Yields earlier (.item (.element l))
      { elements := [{ kind := k, name := l.name, nets := l.nets, value := Expr.ofToken l.value }]
        warnings := [] }
  /-- A line of an unknown kind is left out with a warning. -/
  | unknownKind {l} :
    Kind.ofLetter? l.letter = none →
    Yields earlier (.item (.element l)) { elements := [], warnings := [l.unknownKind] }
  | directive {d} :
    Yields earlier (.item (.directive d)) { elements := [], warnings := [] }
  | comment {c} :
    Yields earlier (.item (.comment c)) { elements := [], warnings := [] }
  | definition {s} :
    Undefined earlier s.name →
    Yields earlier (.subcircuit s) { elements := [], warnings := [] }
  /-- A further definition adds a warning with the line of the one that it replaces. -/
  | redefinition {s s'} :
    Latest earlier s.name s' →
    Yields earlier (.subcircuit s) { elements := [], warnings := [.redefined s.name s'.line] }
  /-- A call adds a copy of each line of a known kind in the body of the last definition of its name,
  and a warning for each other line. -/
  | call {c s x} :
    Latest earlier c.subcircuit s →
    s.ports.length = c.nets.length →
    List.Forall₂ (c.Copies s) (s.elementLines.filter (·.known)) x.elements →
    x.warnings = (s.elementLines.filter (!·.known)).map ElementLine.unknownKind →
    Yields earlier (.call c) x

/-- The elements that a record yields have no nodes yet. -/
lemma Yields.unresolved {rs : List Record} {r : Record} {x : Expansion} (h : r.Yields rs x) :
    ∀ e ∈ x.elements, e.unresolved = e := by
  cases h with
  | element _ =>
    intro e he
    rw [List.mem_singleton.1 he]
    rfl
  | unknownKind _ => nofun
  | directive => nofun
  | comment => nofun
  | definition _ => nofun
  | redefinition _ => nofun
  | call _ _ hc _ =>
    intro e he
    rw [Element.unresolved, Element.setNets, ← Call.nodes_of_copies hc e he]

/-- A subcircuit behind other records is the latest of its name. -/
lemma latest_concat_self (rs : List Record) (s : Subcircuit) :
    Latest (rs ++ [.subcircuit s]) s.name s :=
  ⟨rs, [], rfl, rfl, nofun⟩

/-- A definition stays the latest when no other one of its name follows. -/
lemma Latest.concat {rs : List Record} {name : String} {s : Subcircuit} (h : Latest rs name s)
    {r : Record} (hr : ∀ s', r = .subcircuit s' → s'.name ≠ name) : Latest (rs ++ [r]) name s := by
  obtain ⟨front, back, rfl, hs, hb⟩ := h
  refine ⟨front, back ++ [r], by simp, hs, fun s' hs' => ?_⟩
  rcases List.mem_append.1 hs' with hs' | hs'
  · exact hb s' hs'
  · exact hr s' (List.mem_singleton.1 hs').symm

/-- A name stays undefined when no definition of it follows. -/
lemma Undefined.concat {rs : List Record} {name : String} (h : Undefined rs name) {r : Record}
    (hr : ∀ s', r = .subcircuit s' → s'.name ≠ name) : Undefined (rs ++ [r]) name := by
  intro s' hs'
  rcases List.mem_append.1 hs' with hs' | hs'
  · exact h s' hs'
  · exact hr s' (List.mem_singleton.1 hs').symm

end Record

namespace Library

/-- Whether a library holds the last definition of each name among records. -/
structure Tracks (lib : Library) (rs : List Record) : Prop where
  /-- What is found is the last definition. -/
  latest : ∀ {name s}, lib.find? name = some s → Record.Latest rs name s
  /-- What is not found is not defined. -/
  undefined : ∀ {name}, lib.find? name = none → Record.Undefined rs name

/-- An empty library holds the definitions of no records. -/
lemma tracks_nil : Tracks {} [] :=
  ⟨nofun, fun _ => nofun⟩

/-- A record that defines nothing leaves the library with the last definitions. -/
lemma Tracks.concat {lib : Library} {rs : List Record} (h : lib.Tracks rs) {r : Record}
    (hr : ∀ s, r ≠ .subcircuit s) : lib.Tracks (rs ++ [r]) where
  latest hf := (h.latest hf).concat fun s' hs' => absurd hs' (hr s')
  undefined hf := (h.undefined hf).concat fun s' hs' => absurd hs' (hr s')

/-- Defining a subcircuit makes it the last of its name. -/
lemma Tracks.define {lib : Library} {rs : List Record} (h : lib.Tracks rs) (s : Subcircuit) :
    (lib.define s).Tracks (rs ++ [.subcircuit s]) := by
  constructor
  · intro name s' hf
    by_cases hn : s.name = name
    · subst hn
      rw [find?_define_self] at hf
      cases hf
      exact Record.latest_concat_self rs s
    · rw [find?_define_of_ne lib hn] at hf
      refine (h.latest hf).concat fun s'' hs => ?_
      cases hs
      exact hn
  · intro name hf
    -- the name of `s` is defined now, so `name` is another one
    have hn : s.name ≠ name := by
      rintro rfl
      rw [find?_define_self] at hf
      cases hf
    rw [find?_define_of_ne lib hn] at hf
    refine (h.undefined hf).concat fun s'' hs => ?_
    cases hs
    exact hn

/-- What a library holds after a record are the last definitions with this record among them. -/
lemma Tracks.after {lib : Library} {rs : List Record} (h : lib.Tracks rs) (r : Record) :
    (lib.after r).Tracks (rs ++ [r]) := by
  cases r with
  | item i => exact h.concat nofun
  | subcircuit s => exact h.define s
  | call c => exact h.concat nofun

/-- A library that holds the last definitions lets a record contribute what it comes to. -/
lemma Tracks.yields {lib : Library} {rs : List Record} (h : lib.Tracks rs) {r : Record}
    {x : Expansion} (hx : lib.contribution r = .ok x) : r.Yields rs x := by
  cases r with
  | item i =>
    cases i with
    | element l =>
      cases hk : Kind.ofLetter? l.letter with
      | some k =>
        simp only [contribution, Element.ofLine, hk] at hx
        cases hx
        exact .element hk
      | none =>
        simp only [contribution, Element.ofLine, hk] at hx
        cases hx
        exact .unknownKind hk
    | directive d =>
      cases hx
      exact .directive
    | comment c =>
      cases hx
      exact .comment
  | subcircuit s =>
    cases hf : lib.find? s.name with
    | some s' =>
      simp only [contribution, redefinition?, hf] at hx
      cases hx
      exact .redefinition (h.latest hf)
    | none =>
      simp only [contribution, redefinition?, hf] at hx
      cases hx
      exact .definition (h.undefined hf)
  | call c =>
    cases hf : lib.find? c.subcircuit with
    | some s =>
      simp only [contribution, expand, hf] at hx
      obtain ⟨hl, hc, hw⟩ := Subcircuit.expand_eq_ok hx
      exact .call (h.latest hf) hl hc hw
    | none =>
      simp only [contribution, expand, hf] at hx
      cases hx

/-- Records contribute, one after another, what each of them comes to. -/
lemma Tracks.flatten {lib : Library} {seen rs : List Record} (h : lib.Tracks seen) {x : Expansion}
    (hx : lib.flatten rs = .ok x) :
    ∃ parts : List Expansion, parts.length = rs.length ∧
      (∀ (i : Nat) r p, rs[i]? = some r → parts[i]? = some p → r.Yields (seen ++ rs.take i) p) ∧
      x.elements = parts.flatMap Expansion.elements ∧
      x.warnings = parts.flatMap Expansion.warnings := by
  induction rs generalizing lib seen x with
  | nil =>
    cases hx
    exact ⟨[], rfl, nofun, rfl, rfl⟩
  | cons r rs ih =>
    obtain ⟨y, z, hy, hz, he, hw⟩ := flatten_cons_eq_ok hx
    obtain ⟨parts, hl, hp, hes, hws⟩ := ih (h.after r) hz
    refine ⟨y :: parts, by simp [hl], fun i r' p hr' hp' => ?_, ?_, ?_⟩
    -- the records before the first one are those seen, before a later one also the first
    · cases i with
      | zero =>
        cases hr'
        cases hp'
        simpa using h.yields hy
      | succ i =>
        have hi := hp i r' p hr' hp'
        rwa [List.append_assoc] at hi
    · rw [he, hes, List.flatMap_cons]
    · rw [hw, hws, List.flatMap_cons]

/-- Records contribute what each of them comes to behind the records before it. -/
lemma exists_parts_of_flatten {rs : List Record} {x : Expansion} (hx : flatten {} rs = .ok x) :
    ∃ parts : List Expansion,
      (∀ front r back, rs = front ++ r :: back → ∃ p ∈ parts, r.Yields front p) ∧
      (∀ p ∈ parts, ∃ front r back, rs = front ++ r :: back ∧ r.Yields front p) ∧
      x.elements = parts.flatMap Expansion.elements ∧
      x.warnings = parts.flatMap Expansion.warnings := by
  obtain ⟨parts, hl, hp, hes, hws⟩ := tracks_nil.flatten hx
  refine ⟨parts, fun front r back hrs => ?_, fun p hm => ?_, hes, hws⟩
  · have hr : rs[front.length]? = some r := by simp [hrs]
    have hi : front.length < parts.length := hl ▸ (List.getElem?_eq_some_iff.1 hr).1
    have hy := hp front.length r _ hr (List.getElem?_eq_getElem hi)
    rw [hrs, List.take_left] at hy
    exact ⟨_, List.getElem_mem hi, hy⟩
  · obtain ⟨i, hi, rfl⟩ := List.mem_iff_getElem.1 hm
    have hi' : i < rs.length := hl ▸ hi
    refine ⟨rs.take i, rs[i], rs.drop (i + 1), ?_, ?_⟩
    · rw [← List.drop_eq_getElem_cons hi', List.take_append_drop]
    · exact hp i _ _ (List.getElem?_eq_getElem hi') (List.getElem?_eq_getElem hi)

/-- The nets of contributed elements are not numbered yet. -/
lemma map_unresolved_of_flatten {rs : List Record} {x : Expansion} (hx : flatten {} rs = .ok x) :
    x.elements.map Element.unresolved = x.elements := by
  obtain ⟨parts, -, hyields, hes, -⟩ := exists_parts_of_flatten hx
  refine (List.map_congr_left fun e he => ?_).trans (List.map_id _)
  rw [hes] at he
  obtain ⟨p, hp, he⟩ := List.mem_flatMap.1 he
  obtain ⟨front, r, back, -, hy⟩ := hyields p hp
  exact hy.unresolved e he

end Library

namespace Circuit

/-- The elements of a circuit that was read, and its warnings, are those that the records of its netlist come
to, in the order of the lines. -/
theorem read_flattens {o : Options} {text : String} (h : (read o text).error? = none) :
    ∃ (n : Netlist) (parts : List Expansion), Netlist.read o.dialect text = .ok n ∧
      (n.records.map Record.line).Pairwise (· < ·) ∧
      parts.length = n.records.length ∧
      (∀ (i : Nat) r p, n.records[i]? = some r → parts[i]? = some p →
        r.Yields (n.records.take i) p) ∧
      (read o text).circuit.elements.map Element.unresolved = parts.flatMap Expansion.elements ∧
      (read o text).circuit.warnings = parts.flatMap Expansion.warnings := by
  obtain ⟨n, x, hn, hx, he, -, hw⟩ := read_eq_ok h
  obtain ⟨parts, hl, hp, hes, hws⟩ := Library.tracks_nil.flatten hx
  refine ⟨n, parts, hn, Netlist.lines_ascend hn, hl, hp, ?_, hw.trans hws⟩
  have hu : ∀ e ∈ x.elements, e.unresolved = e := by
    intro e hm
    rw [hes] at hm
    obtain ⟨p, hpm, hep⟩ := List.mem_flatMap.1 hm
    obtain ⟨i, hi⟩ := List.mem_iff_getElem?.1 hpm
    have hil : i < n.records.length := hl ▸ (List.getElem?_eq_some_iff.1 hi).1
    exact (hp i _ p (List.getElem?_eq_getElem hil) hi).unresolved e hep
  calc
    (read o text).circuit.elements.map Element.unresolved
      = x.elements.map Element.unresolved := by rw [he, NodeTable.map_unresolved_resolveAll]
    _ = x.elements := (List.map_congr_left hu).trans (List.map_id _)
    _ = parts.flatMap Expansion.elements := hes

/-- A netlist that calls a subcircuit before and after it is defined anew, with a line of an unknown
kind in the first body. -/
theorem read_flattens_redefined :
    let text := ".subckt S a b\nR1 a m R\nQ1 m b x\n.ends\nX1 p q S\n" ++
      ".subckt S a a\nC1 a 0 C\n.ends\nX2 p q S\n"
    (read {} text).error? = none ∧
      ∃ (n : Netlist) (parts : List Expansion), Netlist.read .spice text = .ok n ∧
        (n.records.map Record.line).Pairwise (· < ·) ∧
        parts.length = n.records.length ∧
        (∀ (i : Nat) r p, n.records[i]? = some r → parts[i]? = some p →
          r.Yields (n.records.take i) p) ∧
        (read {} text).circuit.elements.map Element.unresolved = parts.flatMap Expansion.elements ∧
        (read {} text).circuit.warnings = parts.flatMap Expansion.warnings := by
  intro text
  have h : (read {} text).error? = none := by decide +kernel
  exact ⟨h, read_flattens h⟩

end Circuit

end Nodal
