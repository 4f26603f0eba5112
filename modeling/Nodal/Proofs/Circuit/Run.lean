import Nodal.Circuit.Reading
import Nodal.Proofs.Node.Numbering
/-!
# Runs over records

What a record adds to a circuit depends on the library alone (`Library.contribution`), and a run over
records adds what they contribute one after another (`Library.flatten`). `Draft.run_eq_none` relates
the two: after a run without error the new elements are the contributed ones with their nets numbered
in order, and the new warnings are the contributed ones.
-/

namespace Nodal

namespace Library

/-- The elements and warnings that a record adds to a circuit. -/
def contribution (lib : Library) : Record → Except Error Expansion
  | .item (.element l) =>
    match Element.ofLine l with
    | .ok e => .ok { elements := [e], warnings := [] }
    | .error w => .ok { elements := [], warnings := [w] }
  | .item _ => .ok { elements := [], warnings := [] }
  | .subcircuit s => .ok { elements := [], warnings := (lib.redefinition? s).toList }
  | .call c => lib.expand c

/-- The library behind a record. -/
def after (lib : Library) : Record → Library
  | .subcircuit s => lib.define s
  | _ => lib

/-- The elements and warnings that records add to a circuit, one record after another. -/
def flatten (lib : Library) : List Record → Except Error Expansion
  | [] => .ok { elements := [], warnings := [] }
  | r :: rs =>
    match lib.contribution r with
    | .error e => .error e
    | .ok x =>
      match (lib.after r).flatten rs with
      | .error e => .error e
      | .ok y =>
        .ok { elements := x.elements ++ y.elements, warnings := x.warnings ++ y.warnings }

/-- What records come to is what the first one contributes, and behind it what the others come to. -/
lemma flatten_cons_eq_ok {lib : Library} {r : Record} {rs : List Record} {z : Expansion}
    (h : lib.flatten (r :: rs) = .ok z) :
    ∃ x y, lib.contribution r = .ok x ∧ (lib.after r).flatten rs = .ok y ∧
      z.elements = x.elements ++ y.elements ∧ z.warnings = x.warnings ++ y.warnings := by
  simp only [flatten] at h
  split at h
  · cases h
  · rename_i x hx
    split at h
    · cases h
    · rename_i y hy
      cases h
      exact ⟨x, y, hx, hy, rfl, rfl⟩

end Library

namespace Circuit

/-- Adding elements numbers their nets behind those of the circuit, and changes nothing else. -/
lemma addElements_eq (c : Circuit) (es : List (Element Float)) :
    c.addElements es =
      { c with
        elements := c.elements ++ (c.nodes.resolveAll es).1
        nodes := (c.nodes.resolveAll es).2 } := by
  induction es generalizing c with
  | nil => simp [addElements, NodeTable.resolveAll]
  | cons e es ih =>
    have h := ih (c.addElement e)
    simp only [addElements, List.foldl_cons] at h ⊢
    rw [h]
    simp [addElement, NodeTable.resolveAll]

/-- What two circuits have in common when only the texts and counts of lines were noted between
them. -/
structure SameNetwork (c c' : Circuit) : Prop where
  elements : c'.elements = c.elements
  nodes : c'.nodes = c.nodes
  warnings : c'.warnings = c.warnings
  valid : c'.valid = c.valid

/-- A circuit has its own network. -/
lemma SameNetwork.refl (c : Circuit) : c.SameNetwork c :=
  ⟨rfl, rfl, rfl, rfl⟩

/-- To have the same network is transitive. -/
lemma SameNetwork.trans {c c' c'' : Circuit} (h : c.SameNetwork c') (h' : c'.SameNetwork c'') :
    c.SameNetwork c'' :=
  ⟨h'.elements.trans h.elements, h'.nodes.trans h.nodes, h'.warnings.trans h.warnings,
    h'.valid.trans h.valid⟩

/-- Keeping a text leaves the network alone. -/
lemma sameNetwork_keepText (c : Circuit) (o : Options) (text : String) :
    c.SameNetwork (c.keepText o text) := by
  unfold keepText
  split <;> exact ⟨rfl, rfl, rfl, rfl⟩

/-- Adding a comment leaves the network alone. -/
lemma sameNetwork_addComment (c : Circuit) (o : Options) (comment : Comment) :
    c.SameNetwork (c.addComment o comment) :=
  (sameNetwork_keepText c o comment.text).trans ⟨rfl, rfl, rfl, rfl⟩

/-- Noting an item leaves the network alone. -/
lemma sameNetwork_noteItem (c : Circuit) (o : Options) (i : Item) :
    c.SameNetwork (c.noteItem o i) := by
  cases i with
  | element l => exact SameNetwork.refl c
  | directive d => exact sameNetwork_keepText c o d.text
  | comment comment => exact sameNetwork_addComment c o comment

/-- Noting the items of a body leaves the network alone. -/
lemma sameNetwork_noteItems (c : Circuit) (o : Options) (body : List Item) :
    c.SameNetwork (body.foldl (fun c i => c.noteItem o i) c) := by
  induction body generalizing c with
  | nil => exact SameNetwork.refl c
  | cons i body ih => exact (sameNetwork_noteItem c o i).trans (ih _)

end Circuit

namespace Draft

/-- What a record that contributes `x` makes of a draft. -/
structure Absorbs (d : Draft) (x : Expansion) (d' : Draft) : Prop where
  /-- The contributed elements come behind the others, their nets numbered behind the others. -/
  elements : d'.circuit.elements =
    d.circuit.elements ++ (d.circuit.nodes.resolveAll x.elements).1
  nodes : d'.circuit.nodes = (d.circuit.nodes.resolveAll x.elements).2
  warnings : d'.circuit.warnings = d.circuit.warnings ++ x.warnings
  valid : d'.circuit.valid = d.circuit.valid

/-- A record that leaves the network alone contributes nothing. -/
lemma absorbs_nothing {d d' : Draft} (h : d.circuit.SameNetwork d'.circuit) :
    d.Absorbs { elements := [], warnings := [] } d' := by
  refine ⟨?_, h.nodes, ?_, h.valid⟩
  · simpa [NodeTable.resolveAll] using h.elements
  · simpa using h.warnings

/-- Warnings that come last are absorbed last. -/
lemma Absorbs.warn {d d' : Draft} {x : Expansion} (h : d.Absorbs x d') (lib : Library)
    (ws : List Warning) :
    d.Absorbs { x with warnings := x.warnings ++ ws }
      { circuit := d'.circuit.warn ws, library := lib } := by
  refine ⟨h.elements, h.nodes, ?_, h.valid⟩
  simp only [Circuit.warn, h.warnings, List.append_assoc]

/-- Adding elements and warnings to a circuit absorbs them. -/
lemma absorbs_add (d : Draft) (lib : Library) (x : Expansion) :
    d.Absorbs x { circuit := (d.circuit.warn x.warnings).addElements x.elements, library := lib } := by
  rw [Circuit.addElements_eq]
  exact ⟨rfl, rfl, rfl, rfl⟩

/-- A step takes in what the record contributes, or fails as the contribution does. -/
lemma step_spec (o : Options) (d : Draft) (r : Record) :
    match d.library.contribution r with
    | .error e => d.step o r = .error e
    | .ok x => ∃ d', d.step o r = .ok d' ∧ d'.library = d.library.after r ∧ d.Absorbs x d' := by
  cases r with
  | item i =>
    cases i with
    | element l =>
      cases h : Element.ofLine l with
      | ok e =>
        simp only [Library.contribution, h, step, Circuit.addItem]
        refine ⟨_, rfl, rfl, ?_⟩
        have ha := absorbs_add d d.library { elements := [e], warnings := [] }
        simpa [Circuit.addElements, Circuit.warn] using ha
      | error w =>
        simp only [Library.contribution, h, step, Circuit.addItem]
        exact ⟨_, rfl, rfl, (absorbs_nothing (.refl d.circuit)).warn d.library [w]⟩
    | directive v =>
      refine ⟨_, rfl, rfl, absorbs_nothing ?_⟩
      exact (Circuit.sameNetwork_keepText d.circuit o v.text).trans ⟨rfl, rfl, rfl, rfl⟩
    | comment v =>
      refine ⟨_, rfl, rfl, absorbs_nothing ?_⟩
      exact Circuit.sameNetwork_addComment d.circuit o v
  | subcircuit s =>
    -- the body is noted first, and only then is the circuit warned and the library changed
    have hs := Circuit.sameNetwork_noteItems d.circuit o s.body
    refine ⟨_, rfl, rfl, ?_⟩
    exact (@absorbs_nothing d ⟨_, d.library⟩ hs).warn (d.library.define s) _
  | call c =>
    cases h : d.library.expand c with
    | error e => simp only [Library.contribution, h, step]
    | ok x =>
      simp only [Library.contribution, h, step]
      exact ⟨_, rfl, rfl, absorbs_add d d.library x⟩

/-- A successful step absorbs what the record contributes. -/
lemma step_eq_ok {o : Options} {d d' : Draft} {r : Record} (h : d.step o r = .ok d') :
    ∃ x, d.library.contribution r = .ok x ∧ d'.library = d.library.after r ∧ d.Absorbs x d' := by
  have hs := step_spec o d r
  split at hs
  · rw [hs] at h
    cases h
  · rename_i x hx
    obtain ⟨d'', hd, hl, ha⟩ := hs
    rw [hd] at h
    cases h
    exact ⟨x, hx, hl, ha⟩

/-- A run without error takes in what the records contribute. -/
lemma run_eq_none {o : Options} {d d' : Draft} {rs : List Record}
    (h : d.run o rs = (d', none)) :
    ∃ x, d.library.flatten rs = .ok x ∧ d.Absorbs x d' := by
  induction rs generalizing d with
  | nil =>
    cases h
    exact ⟨_, rfl, absorbs_nothing (.refl _)⟩
  | cons r rs ih =>
    simp only [run] at h
    split at h
    · cases h
    · rename_i d₁ hd
      obtain ⟨x, hx, hl, ha⟩ := step_eq_ok hd
      obtain ⟨y, hy, hb⟩ := ih h
      -- the library behind the step is the one that the other records are flattened with
      rw [hl] at hy
      refine ⟨⟨x.elements ++ y.elements, x.warnings ++ y.warnings⟩, ?_, ?_, ?_, ?_, ?_⟩
      · simp only [Library.flatten, hx, hy]
      · rw [hb.elements, ha.elements, ha.nodes, NodeTable.resolveAll_append, List.append_assoc]
      · rw [hb.nodes, ha.nodes, NodeTable.resolveAll_append]
      · rw [hb.warnings, ha.warnings, List.append_assoc]
      · exact hb.valid.trans ha.valid

/-- A run leaves a circuit as valid as it was, whether or not it meets an error. -/
lemma valid_run (o : Options) (d : Draft) (rs : List Record) :
    (d.run o rs).1.circuit.valid = d.circuit.valid := by
  induction rs generalizing d with
  | nil => rfl
  | cons r rs ih =>
    simp only [run]
    split
    · rfl
    · rename_i d₁ hd
      obtain ⟨x, -, -, ha⟩ := step_eq_ok hd
      exact (ih d₁).trans ha.valid

/-- A run from the start does not make a circuit valid. -/
lemma not_valid_of_run {o : Options} {d : Draft} {rs : List Record} {e? : Option Error}
    (h : run o {} rs = (d, e?)) : d.circuit.valid = false := by
  have hv := valid_run o {} rs
  rwa [h] at hv

end Draft

namespace Circuit

section Read

variable {o : Options} {text : String} {n : Netlist} {d : Draft}

/-- A text that is no netlist leaves an empty circuit and the fault. -/
lemma read_of_malformed {e : SyntaxError} (h : Netlist.read o.dialect text = .error e) :
    read o text = { circuit := .empty, error? := some (.malformed e) } := by
  simp only [read, h, empty]

/-- A netlist whose records run through leaves their circuit, and it is valid. -/
lemma read_of_run_none (hn : Netlist.read o.dialect text = .ok n)
    (h : Draft.run o {} n.records = (d, none)) :
    read o text = { circuit := { d.circuit with valid := true } } := by
  simp only [read, hn, h]

/-- A netlist whose run stops leaves what was built so far and the error. -/
lemma read_of_run_some {e : Error} (hn : Netlist.read o.dialect text = .ok n)
    (h : Draft.run o {} n.records = (d, some e)) :
    read o text = { circuit := d.circuit, error? := some e } := by
  simp only [read, hn, h]

/-- A reading that succeeds is a run over the records of a netlist that succeeds. -/
lemma exists_run_of_read (h : (read o text).error? = none) :
    ∃ n d, Netlist.read o.dialect text = .ok n ∧ Draft.run o {} n.records = (d, none) ∧
      (read o text).circuit = { d.circuit with valid := true } := by
  cases hn : Netlist.read o.dialect text with
  | error e =>
    rw [read_of_malformed hn] at h
    cases h
  | ok n =>
    obtain ⟨d, e?, hd⟩ : ∃ d e?, Draft.run o {} n.records = (d, e?) := ⟨_, _, rfl⟩
    cases e? with
    | some e =>
      rw [read_of_run_some hn hd] at h
      cases h
    | none =>
      refine ⟨n, d, rfl, hd, ?_⟩
      rw [read_of_run_none hn hd]

/-- A reading that succeeds takes in what the records of the netlist contribute. -/
lemma read_eq_ok (h : (read o text).error? = none) :
    ∃ n x, Netlist.read o.dialect text = .ok n ∧ Library.flatten {} n.records = .ok x ∧
      (read o text).circuit.elements = (NodeTable.empty.resolveAll x.elements).1 ∧
      (read o text).circuit.nodes = (NodeTable.empty.resolveAll x.elements).2 ∧
      (read o text).circuit.warnings = x.warnings := by
  obtain ⟨n, d, hn, hd, hc⟩ := exists_run_of_read h
  obtain ⟨x, hx, ha⟩ := Draft.run_eq_none hd
  rw [hc]
  exact ⟨n, x, hn, hx, ha.elements, ha.nodes, ha.warnings⟩

end Read

/-- What reading a text leaves is valid iff the reading succeeded. -/
lemma valid_read (o : Options) (text : String) :
    (read o text).circuit.valid = true ↔ (read o text).error? = none := by
  unfold read
  split
  · simp
  · rename_i n hn
    split
    · rename_i d e hd
      simp [Draft.not_valid_of_run hd]
    · simp

/-- What reading a file leaves is valid iff the reading succeeded. -/
lemma valid_ofFile (o : Options) (path : String) (contents : Except FileFault String) :
    (ofFile o path contents).circuit.valid = true ↔ (ofFile o path contents).error? = none := by
  cases contents with
  | error fault => simp [ofFile]
  | ok text => exact valid_read o text

/-- What reading into a circuit leaves is valid iff the reading succeeded. -/
lemma valid_reread (c : Circuit) (o : Options) (origin : Origin) :
    (c.reread o origin).circuit.valid = true ↔ (c.reread o origin).error? = none := by
  cases origin with
  | text text => exact valid_read o text
  | file path contents => exact valid_ofFile o path contents

end Circuit

end Nodal
