import Mathlib.Data.List.Forall2
import Mathlib.Tactic.Lemma
import Nodal.Subcircuit.Expansion
/-!
# What a call puts into a circuit

`Call.Wires` says which net of the circuit a net of a subcircuit becomes, and `Call.Copies` says what
the copy of an element line looks like, both without reference to how copies are made. Expanding a
call gives a copy of each line of a known kind and a warning for each other line
(`Subcircuit.expand_eq_ok`).
-/

namespace Nodal

namespace Call

/-- The net of the circuit that a net of a subcircuit becomes. -/
inductive Wires (c : Call) (s : Subcircuit) (net : String) : String → Prop where
  /-- A port becomes the net at its last place. -/
  | port {i : Nat} {actual} :
    s.ports[i]? = some net →
    (∀ j, i < j → s.ports[j]? ≠ some net) →
    c.nets[i]? = some actual →
    Wires c s net actual
  /-- A marked net and ground keep their names. -/
  | shared :
    net ∉ s.ports →
    '!' ∈ net.toList ∨ net ∈ groundNames →
    Wires c s net net
  /-- Any other net belongs to the copy. -/
  | own :
    net ∉ s.ports →
    '!' ∉ net.toList →
    net ∉ groundNames →
    Wires c s net (c.label ++ ":" ++ net)

/-- The element that a line of the body becomes. -/
structure Copies (c : Call) (s : Subcircuit) (l : ElementLine) (e : Element Float) : Prop where
  kind : Kind.ofLetter? l.letter = some e.kind
  /-- The name has the label in front. -/
  name : e.name = c.label ++ "/" ++ l.name
  /-- The nets are rewired one by one. -/
  nets : List.Forall₂ (c.Wires s) l.nets e.nets
  value : e.value = Expr.ofToken l.value
  nodes : e.nodes = []

/-- Each copy is that of a line. -/
lemma exists_copied {c : Call} {s : Subcircuit} {ls : List ElementLine} {es : List (Element Float)}
    (h : List.Forall₂ (c.Copies s) ls es) : ∀ e ∈ es, ∃ l ∈ ls, c.Copies s l e := by
  intro e he
  obtain ⟨i, hi, rfl⟩ := List.mem_iff_getElem.1 he
  have hil : i < ls.length := h.length_eq ▸ hi
  exact ⟨_, List.getElem_mem hil, h.get hil hi⟩

/-- Copies have no nodes yet. -/
lemma nodes_of_copies {c : Call} {s : Subcircuit} {ls : List ElementLine} {es : List (Element Float)}
    (h : List.Forall₂ (c.Copies s) ls es) : ∀ e ∈ es, e.nodes = [] := by
  intro e he
  obtain ⟨l, -, hc⟩ := exists_copied h e he
  exact hc.nodes

end Call

/-- A port is connected to the net at its last place among the ports. -/
lemma actualNet?_eq_some {ports nets : List String} {net actual : String}
    (h : actualNet? ports nets net = some actual) (hl : ports.length = nets.length) :
    ∃ i : Nat, ports[i]? = some net ∧ (∀ j, i < j → ports[j]? ≠ some net) ∧ nets[i]? = some actual := by
  unfold actualNet? at h
  obtain ⟨later, earlier, he, hn⟩ := List.lookup_eq_some_iff.1 h
  -- read forwards, the pairs behind the last place of the port come after it
  have hz : ports.zip nets = earlier.reverse ++ (net, actual) :: later.reverse := by
    rw [← List.reverse_reverse (ports.zip nets), he]
    simp
  have hi : (ports.zip nets)[earlier.length]? = some (net, actual) := by simp [hz]
  obtain ⟨hp, ha⟩ := List.getElem?_zip_eq_some.1 hi
  refine ⟨earlier.length, hp, fun j hj hpj => ?_, ha⟩
  have hjl : j < nets.length := hl ▸ (List.getElem?_eq_some_iff.1 hpj).1
  have hzj : (ports.zip nets)[j]? = some (net, nets[j]) :=
    List.getElem?_zip_eq_some.2 ⟨hpj, List.getElem?_eq_getElem hjl⟩
  rw [hz, List.getElem?_append_right (by simpa using Nat.le_of_lt hj), List.length_reverse,
    List.getElem?_cons, if_neg (by omega)] at hzj
  have hm := List.mem_reverse.1 (List.mem_of_getElem? hzj)
  simpa using hn _ hm

/-- A net that is connected to nothing is no port. -/
lemma actualNet?_eq_none {ports nets : List String} {net : String}
    (h : actualNet? ports nets net = none) (hl : ports.length = nets.length) : net ∉ ports := by
  intro hm
  obtain ⟨i, hi⟩ := List.mem_iff_getElem?.1 hm
  have hil : i < nets.length := hl ▸ (List.getElem?_eq_some_iff.1 hi).1
  have hz : (net, nets[i]) ∈ ports.zip nets :=
    List.mem_of_getElem? (List.getElem?_zip_eq_some.2 ⟨hi, List.getElem?_eq_getElem hil⟩)
  have hn := List.lookup_eq_none_iff.1 h _ (List.mem_reverse.2 hz)
  simp at hn

/-- Renaming a net gives the net that it becomes. -/
lemma wires_renameNet {s : Subcircuit} {c : Call} (hl : s.ports.length = c.nets.length)
    (net : String) : c.Wires s net (renameNet s c net) := by
  unfold renameNet
  split
  · rename_i actual h
    obtain ⟨i, hp, hlast, ha⟩ := actualNet?_eq_some h hl
    exact .port hp hlast ha
  · rename_i h
    have hn := actualNet?_eq_none h hl
    split
    · rename_i hg
      refine .shared hn ?_
      simpa [isGlobalNet, isGroundName] using hg
    · rename_i hg
      simp only [isGlobalNet, isGroundName, Bool.or_eq_true, not_or, List.contains_iff_mem] at hg
      exact .own hn hg.1 hg.2

namespace ElementLine

/-- Whether the letter of a line is that of a kind. -/
def known (l : ElementLine) : Bool :=
  (Kind.ofLetter? l.letter).isSome

/-- The warning about a line of an unknown kind. -/
def unknownKind (l : ElementLine) : Warning :=
  .unknownKind l.letter l.name l.line

end ElementLine

namespace Element

/-- A line of a known kind makes an element, and any other one is passed over with a warning. -/
lemma ofLines_cons (l : ElementLine) (ls : List ElementLine) :
    (∃ k, Kind.ofLetter? l.letter = some k ∧
      ofLines (l :: ls) =
        { kind := k, name := l.name, nets := l.nets, value := Expr.ofToken l.value } :: ofLines ls ∧
      warnings (l :: ls) = warnings ls) ∨
    (Kind.ofLetter? l.letter = none ∧ ofLines (l :: ls) = ofLines ls ∧
      warnings (l :: ls) = l.unknownKind :: warnings ls) := by
  cases h : Kind.ofLetter? l.letter with
  | some k =>
    refine .inl ⟨k, rfl, ?_, ?_⟩
    · simp [ofLines, ofLine, h, Except.toOption]
    · simp [warnings, ofLine, h]
  | none =>
    refine .inr ⟨rfl, ?_, ?_⟩
    · simp [ofLines, ofLine, h, Except.toOption]
    · simp [warnings, ofLine, h, ElementLine.unknownKind]

end Element

namespace Subcircuit

/-- The copy of the element that a line describes is the element that the line becomes. -/
lemma copies_instantiate {s : Subcircuit} {c : Call} (hl : s.ports.length = c.nets.length)
    {l : ElementLine} {k : Kind} (hk : Kind.ofLetter? l.letter = some k) :
    c.Copies s l (s.instantiate c
      { kind := k, name := l.name, nets := l.nets, value := Expr.ofToken l.value }) where
  kind := hk
  name := by simp [instantiate, Element.prependName, Call.elementName, Element.setNets]
  nets := by
    refine List.forall₂_map_right_iff.2 (List.forall₂_same.2 fun net _ => ?_)
    exact wires_renameNet hl net
  value := rfl
  nodes := rfl

/-- Expanding a call gives a copy of each line of a known kind, and a warning for each other line. -/
theorem expand_eq_ok {s : Subcircuit} {c : Call} {x : Expansion} (h : s.expand c = .ok x) :
    s.ports.length = c.nets.length ∧
      List.Forall₂ (c.Copies s) (s.elementLines.filter (·.known)) x.elements ∧
      x.warnings = (s.elementLines.filter (!·.known)).map ElementLine.unknownKind := by
  unfold expand at h
  split at h
  · rename_i hl
    cases h
    refine ⟨hl, ?_⟩
    induction s.elementLines with
    | nil => exact ⟨.nil, rfl⟩
    | cons l ls ih =>
      rcases Element.ofLines_cons l ls with ⟨k, hk, he, hw⟩ | ⟨hk, he, hw⟩
      · have hb : l.known = true := by simp [ElementLine.known, hk]
        simp only [he, hw, List.filter_cons, hb, List.map_cons]
        exact ⟨.cons (copies_instantiate hl hk) ih.1, ih.2⟩
      · have hb : l.known = false := by simp [ElementLine.known, hk]
        simp only [he, hw, List.filter_cons, hb]
        exact ⟨ih.1, congrArg (l.unknownKind :: ·) ih.2⟩
  · cases h

end Subcircuit

end Nodal
