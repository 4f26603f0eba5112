import Nodal.Proofs.Circuit.Run
import Nodal.Proofs.Netlist.Spacing
/-!
# Circuits of texts with the same words

The texts of directives and comments go into no element, so records that differ in them alone build the same
network (`Draft.sameNetwork_run`). With what reading does to texts with the same words this makes their
circuits agree in elements, nodes and system, also where reading fails; in particular, it does not matter
how line ends are written (`Circuit.read_ignores_layout`).
-/

namespace Nodal

namespace Subcircuit

/-- The elements of a subcircuit do not depend on texts. -/
@[simp] lemma elementLines_textless (s : Subcircuit) :
    (s.relabel .textless).elementLines = s.elementLines := by
  have h : Item.element? ∘ Item.relabel .textless = Item.element? := by
    funext i
    cases i <;> rfl
  rw [elementLines, relabel, List.filterMap_map, h, elementLines]

/-- A call is expanded without a look at texts. -/
lemma expand_textless (s : Subcircuit) (c : Call) : (s.relabel .textless).expand c = s.expand c := by
  simp only [expand, elementLines_textless]
  rfl

end Subcircuit

namespace Library

/-- The library without the texts of lines. -/
def textless (lib : Library) : Library where
  definitions := lib.definitions.map (Subcircuit.relabel .textless)

/-- Without texts a name finds the same subcircuit, without texts. -/
lemma find?_textless (lib : Library) (name : String) :
    lib.textless.find? name = (lib.find? name).map (Subcircuit.relabel .textless) :=
  List.find?_map

/-- To define a subcircuit and to leave out texts can be exchanged. -/
lemma define_textless (lib : Library) (s : Subcircuit) :
    (lib.define s).textless = lib.textless.define (s.relabel .textless) := by
  simp only [define, textless, List.map_cons, List.filter_map]
  rfl

/-- What a record contributes does not depend on texts. -/
lemma contribution_textless (lib : Library) (r : Record) :
    lib.textless.contribution (r.relabel .textless) = lib.contribution r := by
  cases r with
  | item i => cases i <;> rfl
  | subcircuit s =>
    have hr : lib.textless.redefinition? (s.relabel .textless) = lib.redefinition? s := by
      rw [redefinition?, find?_textless, Option.map_map]
      rfl
    simp only [Record.relabel, contribution, hr]
  | call c =>
    simp only [Record.relabel, contribution, expand, find?_textless]
    cases lib.find? c.subcircuit with
    | none => rfl
    | some s => exact s.expand_textless c

/-- What a record leaves in the library does not depend on texts. -/
lemma after_textless (lib : Library) (r : Record) :
    (lib.after r).textless = lib.textless.after (r.relabel .textless) := by
  cases r with
  | item i => rfl
  | subcircuit s => exact lib.define_textless s
  | call c => rfl

end Library

namespace Draft

/-- Drafts of the same network absorb the same into the same network. -/
lemma Absorbs.sameNetwork {d d' d₁ d₁' : Draft} {x : Expansion} (h : d.Absorbs x d₁)
    (h' : d'.Absorbs x d₁') (hc : d.circuit.SameNetwork d'.circuit) :
    d₁.circuit.SameNetwork d₁'.circuit where
  elements := by rw [h'.elements, h.elements, hc.elements, hc.nodes]
  nodes := by rw [h'.nodes, h.nodes, hc.nodes]
  warnings := by rw [h'.warnings, h.warnings, hc.warnings]
  valid := by rw [h'.valid, h.valid, hc.valid]

/-- Records that differ in texts alone build the same network, or stop at the same error with the same
network. -/
lemma sameNetwork_run {o : Options} {d d' : Draft} {rs rs' : List Record}
    (hc : d.circuit.SameNetwork d'.circuit) (hl : d.library.textless = d'.library.textless)
    (hrs : rs.map (Record.relabel .textless) = rs'.map (Record.relabel .textless)) :
    (d.run o rs).1.circuit.SameNetwork (d'.run o rs').1.circuit ∧ (d.run o rs).2 = (d'.run o rs').2 := by
  induction rs generalizing d d' rs' with
  | nil =>
    cases rs' with
    | nil => exact ⟨hc, rfl⟩
    | cons r' rs' => cases hrs
  | cons r rs ih =>
    cases rs' with
    | nil => cases hrs
    | cons r' rs' =>
      obtain ⟨hr, hrs⟩ := List.cons.inj hrs
      -- both records contribute the same
      have hx : d.library.contribution r = d'.library.contribution r' := by
        rw [← d.library.contribution_textless, hl, hr, d'.library.contribution_textless]
      have hs := step_spec o d r
      have hs' := step_spec o d' r'
      rw [← hx] at hs'
      cases hcon : d.library.contribution r with
      | error e =>
        rw [hcon] at hs hs'
        simp only [run, hs, hs']
        exact ⟨hc, trivial⟩
      | ok x =>
        rw [hcon] at hs hs'
        obtain ⟨d₁, hd, hl₁, ha⟩ := hs
        obtain ⟨d₁', hd', hl₁', ha'⟩ := hs'
        simp only [run, hd, hd']
        refine ih (ha.sameNetwork ha' hc) ?_ hrs
        rw [hl₁, hl₁', Library.after_textless, Library.after_textless, hl, hr]

end Draft

namespace Circuit

/-- Circuits of the same network have the same system. -/
lemma SameNetwork.assemble_eq {c c' : Circuit} (h : c.SameNetwork c') : c'.assemble = c.assemble := by
  rw [assemble, h.valid, h.elements, h.nodes, assemble]

/-- Texts with the same words are read to the same network, whether reading succeeds or fails. -/
lemma sameNetwork_read {text text' : String} (h : SameWords text text') (o : Options) :
    (read o text).circuit.SameNetwork (read o text').circuit := by
  have hn := Netlist.read_sameWords h o.dialect
  unfold read
  cases hr : Netlist.read o.dialect text with
  | error e =>
    cases hr' : Netlist.read o.dialect text' with
    | error e' => exact SameNetwork.refl {}
    | ok n' => simp [hr, hr'] at hn
  | ok n =>
    cases hr' : Netlist.read o.dialect text' with
    | error e' => simp [hr, hr'] at hn
    | ok n' =>
      simp only [hr, hr'] at hn
      have hrun := @Draft.sameNetwork_run o {} {} _ _ (SameNetwork.refl _) rfl hn.1
      simp only
      generalize Draft.run o {} n.records = p at hrun ⊢
      generalize Draft.run o {} n'.records = p' at hrun ⊢
      obtain ⟨d, e?⟩ := p
      obtain ⟨d', e?'⟩ := p'
      obtain ⟨hc, he⟩ : d.circuit.SameNetwork d'.circuit ∧ e? = e?' := hrun
      subst he
      cases e? with
      | none => exact ⟨hc.elements, hc.nodes, hc.warnings, rfl⟩
      | some e => exact hc

/-- Texts with the same words on each line are read to the same circuit, or refused at the same line,
however blanks, line ends and the texts of comments stand in them. -/
theorem read_ignores_layout :
    (∀ (d : Dialect) (text text' : String), SameWords text text' →
      match Netlist.read d text, Netlist.read d text' with
      | .ok n, .ok n' =>
        n.records.map (Record.relabel .textless) = n'.records.map (Record.relabel .textless) ∧
          n.dialect = n'.dialect
      | .error e, .error e' => e.line = e'.line
      | _, _ => False) ∧
    (∀ (o : Options) (text text' : String), SameWords text text' →
      let c := (read o text).circuit
      let c' := (read o text').circuit
      c'.elements = c.elements ∧ c'.nodes = c.nodes ∧ c'.assemble = c.assemble) ∧
    (∀ (o : Options) (text : String), '\r' ∉ text.toList →
      let c := (read o text).circuit
      let c' := (read o (Source.withReturns text)).circuit
      c'.elements = c.elements ∧ c'.nodes = c.nodes ∧ c'.assemble = c.assemble) ∧
    -- what decides on comments is how the line itself starts, behind blanks
    ∀ (d : Dialect) (text : String), ∀ l ∈ Source.lines text,
      d.isComment l.words = d.startsComment l.trimmed.toList := by
  have hsame : ∀ (o : Options) (text text' : String), SameWords text text' →
      let c := (read o text).circuit
      let c' := (read o text').circuit
      c'.elements = c.elements ∧ c'.nodes = c.nodes ∧ c'.assemble = c.assemble := by
    intro o text text' h
    have hc := sameNetwork_read h o
    exact ⟨hc.elements, hc.nodes, hc.assemble_eq⟩
  refine ⟨fun d text text' h => Netlist.read_sameWords h d, hsame, fun o text h => ?_,
    fun d text l hl => Dialect.isComment_words hl d⟩
  exact hsame o text _ (Source.sameWords_withReturns h)

/-- A subcircuit with a comment in it, written closely, and with other blanks and line ends. -/
theorem read_ignores_layout_returns :
    let text := ".subckt S p\n* note\nR1 p m R\n.ends\nX1 a S\n"
    let text' := " .subckt\tS  p\r\n* note \r\n\tR1 p m R\n.ends \nX1 a S"
    SameWords text text' ∧ '\r' ∉ text.toList ∧ text' ≠ text ∧
      (match Netlist.read .spice text, Netlist.read .spice text' with
      | .ok n, .ok n' =>
        n.records.map (Record.relabel .textless) = n'.records.map (Record.relabel .textless) ∧
          n.dialect = n'.dialect
      | .error e, .error e' => e.line = e'.line
      | _, _ => False) ∧
      (read {} text').circuit.assemble = (read {} text).circuit.assemble ∧
      (read {} (Source.withReturns text)).circuit.assemble = (read {} text).circuit.assemble ∧
      ∀ l ∈ Source.lines text', Dialect.isComment .spice l.words = Dialect.startsComment .spice l.trimmed.toList := by
  intro text text'
  have h : SameWords text text' := by decide +kernel
  have hr : '\r' ∉ text.toList := by decide +kernel
  obtain ⟨hread, hsame, hreturns, hcomment⟩ := read_ignores_layout
  exact ⟨h, hr, by decide, hread .spice text text' h, (hsame {} text text' h).2.2,
    (hreturns {} text hr).2.2, hcomment .spice text'⟩

end Circuit

end Nodal
