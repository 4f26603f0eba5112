import Nodal.Proofs.Circuit.Assembly
import Nodal.Proofs.Circuit.Flattening
import Nodal.Proofs.Decimal.Positional
import Nodal.Proofs.Expr.Exact
import Nodal.Proofs.Netlist.Accounting
import Nodal.Proofs.Netlist.RoundTrip
/-!
# Reading what a circuit is written as

A circuit is written as the lines of its elements. These lines are read again in Spice, with the same values
at their ends (`Circuit.read_text`), whenever the circuit was read from a netlist without calls and its
constants are finite (`Circuit.read_reprints`).
-/

namespace Nodal

namespace Expr

/-- The text of a value that was read is a word which is read as the same value, if its constant is finite. -/
lemma ofToken_text {token : String} (hw : IsWord token)
    (hfin : (ofToken token).All fun x => x.isFinite = true) :
    IsWord (ofToken token).text ∧ ofToken (ofToken token).text = ofToken token := by
  cases hv : Decimal.value? token with
  | none =>
    have ht : ofToken token = .sym token := by rw [ofToken, hv]
    rw [ht, text]
    exact ⟨hw, ht⟩
  | some x =>
    have ht : ofToken token = .num x := by rw [ofToken, hv]
    rw [ht, All] at hfin
    have hx := Decimal.value?_text hfin
    rw [ht, text]
    refine ⟨isWord_of_forall ?_ (fun c hc => Decimal.isTextChar_of_mem hfin hc) (by decide), ?_⟩
    · intro hnil
      rw [String.toList_eq_nil_iff.1 hnil] at hx
      cases hx
    · rw [ofToken, hx]

end Expr

namespace Kind

/-- The letter of a kind is the upper case of the letters that designate it. -/
lemma toUpper_of_ofLetter? {c : Char} {k : Kind} (h : ofLetter? c = some k) : c.toUpper = k.letter := by
  unfold ofLetter? at h
  split at h
  all_goals
    cases h
  all_goals
    rename_i hc
    exact hc

end Kind

namespace Element

/-- The line that writes an element. -/
def toLine (e : Element Float) : ElementLine where
  letter := e.kind.letter
  name := e.name
  nets := e.nets
  value := e.value.text
  line := 0

/-- Whether the line that writes an element is one of a known kind in Spice, with the value at its end. -/
structure Printable (e : Element Float) : Prop where
  isName : isNetName e.name = true
  letter : ∃ letter tail, e.name.toList = letter :: tail ∧ Kind.ofLetter? letter = some e.kind
  areNets : ∀ net ∈ e.nets, isNetName net = true
  fits : e.nets.length = e.kind.terminalCount
  isWord : IsWord e.value.text
  ofToken_text : Expr.ofToken e.value.text = e.value

variable {e : Element Float}

/-- The line of an element that can be printed is one that Spice can write. -/
lemma Printable.wellFormed (h : e.Printable) : e.toLine.WellFormed := by
  obtain ⟨letter, tail, hn, hk⟩ := h.letter
  constructor
  · exact h.isName
  · -- no kind has the letter `s`
    intro hs
    change e.name = _ at hs
    rw [hs] at hn
    cases hn
    cases hk
  · refine ⟨letter, tail, hn, Kind.isAlpha_of_ofLetter? hk, ?_, ?_, (Kind.toUpper_of_ofLetter? hk).symm⟩
    · rintro rfl
      cases hk
    · rintro rfl
      cases hk
  · exact ElementLine.nets_ne_nil_of_kind h.fits
  · exact h.areNets
  · intro k hl
    change Kind.ofLetter? e.kind.letter = some k at hl
    rw [Kind.ofLetter?_letter] at hl
    cases hl
    exact h.fits
  · exact h.isWord

/-- Being printable does not depend on the numbers of the nets. -/
lemma Printable.of_unresolved (h : e.unresolved.Printable) : e.Printable :=
  ⟨h.isName, h.letter, h.areNets, h.fits, h.isWord, h.ofToken_text⟩

/-- The line that writes an element describes this element, its nets not numbered. -/
lemma Printable.ofLine (h : e.Printable) (number : Nat) :
    ofLine { e.toLine with line := number } = .ok e.unresolved := by
  simp only [Element.ofLine, toLine, Kind.ofLetter?_letter, h.ofToken_text]
  rfl

end Element

/-- The element that a line describes is printable, if its words can stand anywhere. -/
lemma ElementLine.OfWords.printable {d : Dialect} {words : List String} {l : ElementLine} {k : Kind}
    (h : l.OfWords d words) (hk : Kind.ofLetter? l.letter = some k) (hw : ∀ word ∈ words, IsWord word)
    (hfin : (Expr.ofToken l.value).All fun x => x.isFinite = true) :
    Element.Printable { kind := k, name := l.name, nets := l.nets, value := Expr.ofToken l.value } := by
  obtain ⟨letter, tail, hname, -, hl, -⟩ := h.letter
  have hfits := h.fits k hk
  have hvalue : l.value ∈ words := by
    rw [h.words_eq]
    exact List.mem_append_right _ (List.mem_singleton.2 rfl)
  obtain ⟨hword, hof⟩ := Expr.ofToken_text (hw _ hvalue) hfin
  rw [hl, Kind.ofLetter?_toUpper] at hk
  exact ⟨h.isName, ⟨letter, tail, hname, hk⟩, h.areNets, hfits, hword, hof⟩

namespace Draft

/-- Records that are elements are put at the end of the circuit. -/
lemma run_elements (o : Options) (d : Draft) {rs : List Record} {es : List (Element Float)}
    (h : List.Forall₂ (fun r e => ∃ l, r = .item (.element l) ∧ Element.ofLine l = .ok e) rs es) :
    d.run o rs = ({ d with circuit := d.circuit.addElements es }, none) := by
  induction h generalizing d with
  | nil => rfl
  | cons hr _ ih =>
    obtain ⟨l, rfl, hl⟩ := hr
    simp only [run, step, Circuit.addItem, hl]
    exact ih _

end Draft

namespace Circuit

/-- The records that write elements. -/
def records (es : List (Element Float)) : List Record :=
  es.map fun e => .item (.element e.toLine)

/-- The text of a circuit is the rendering of its elements as records. -/
lemma text_eq_render (c : Circuit) : c.text = Netlist.render .spice (records c.elements) := by
  have ht : (records c.elements).flatMap (Record.texts .spice) = c.elements.map Element.text := by
    rw [records, List.flatMap_map, List.map_eq_flatMap]
    rfl
  rw [Netlist.render, ht, text, List.map_map]
  rfl

/-- The lines of a listing, read back, make the elements that they list. -/
lemma forall₂_onLines {es : List (Element Float)} (h : ∀ e ∈ es, e.Printable) (number : Nat) :
    List.Forall₂ (fun r e => ∃ l, r = .item (.element l) ∧ Element.ofLine l = .ok e)
      (Netlist.onLines number (records es)) (es.map Element.unresolved) := by
  induction es generalizing number with
  | nil => exact .nil
  | cons e es ih =>
    obtain ⟨he, hes⟩ := List.forall_mem_cons.1 h
    exact .cons ⟨_, rfl, he.ofLine number⟩ (ih hes _)

/-- A circuit of printable elements is written as a netlist of just these elements. -/
lemma read_text {c : Circuit} (h : ∀ e ∈ c.elements, e.Printable) {o : Options} (ho : o.dialect = .spice) :
    read o c.text =
      { circuit :=
          { elements := (NodeTable.empty.resolveAll (c.elements.map Element.unresolved)).1
            nodes := (NodeTable.empty.resolveAll (c.elements.map Element.unresolved)).2
            valid := true } } := by
  have hw : ∀ r ∈ records c.elements, r.Writable .spice := by
    intro r hr
    obtain ⟨e, he, rfl⟩ := List.mem_map.1 hr
    exact .item (Item.writable_element (h e he).wellFormed.written)
  have hread : Netlist.read .spice c.text =
      .ok { records := Netlist.onLines 1 (records c.elements), dialect := .spice } := by
    rw [text_eq_render]
    exact (Netlist.read_render_iff hw).2 fun s _ => Subcircuit.isDirective_titleWords_spice s
  have hrun := Draft.run_elements o {} (forall₂_onLines h 1)
  rw [addElements_eq] at hrun
  rw [← ho] at hread
  exact read_of_run_none hread hrun

section Flat

variable {o : Options} {text : String}

/-- The elements of a netlist without calls are printable, if their constants are finite. -/
lemma printable_of_flatten {n : Netlist} {x : Expansion} (hreturns : ReturnsBeforeFeeds text)
    (hn : Netlist.read o.dialect text = .ok n) (hflat : ∀ c, .call c ∉ n.records)
    (hx : Library.flatten {} n.records = .ok x)
    (hfin : ∀ e ∈ x.elements, e.value.All fun x => x.isFinite = true) :
    ∀ e ∈ x.elements, e.Printable := by
  obtain ⟨parts, -, hyields, hes, -⟩ := Library.exists_parts_of_flatten hx
  intro e he
  have hfin := hfin e he
  rw [hes] at he
  obtain ⟨p, hp, he⟩ := List.mem_flatMap.1 he
  obtain ⟨front, r, back, hrs, hy⟩ := hyields p hp
  have hr : r ∈ n.records := by
    rw [hrs]
    exact List.mem_append_right _ List.mem_cons_self
  cases hy with
  | @element l k hk =>
    cases List.mem_singleton.1 he
    cases Netlist.readFrom_of_read hn _ hr with
    | item hl hread =>
      cases hread with
      | item _ hi =>
        exact (Item.ofWords_of_ofLine? hi).printable hk (fun _ => Source.isWord_of_mem hreturns hl) hfin
  | unknownKind | directive | comment | definition | redefinition => cases he
  | call => exact absurd hr (hflat _)

end Flat

/-- A circuit that was read from a netlist without calls is read again, with the same elements, nets and
system, from the text that writes it. -/
theorem read_reprints {o o' : Options} {text : String} {n : Netlist} (h : (read o text).error? = none)
    (hreturns : ReturnsBeforeFeeds text) (hn : Netlist.read o.dialect text = .ok n)
    (hflat : ∀ c, .call c ∉ n.records)
    (hfin : ∀ e ∈ (read o text).circuit.elements, e.value.All fun x => x.isFinite = true)
    (ho : o'.dialect = .spice) :
    let c := (read o text).circuit
    read o' c.text = { circuit := { elements := c.elements, nodes := c.nodes, valid := true } } ∧
      ∃ s, c.assemble = .ok s ∧ (read o' c.text).circuit.assemble = .ok s := by
  intro c
  obtain ⟨n', x, hn', hx, he, hnodes, -⟩ := read_eq_ok h
  rw [hn] at hn'
  cases hn'
  have hu : c.elements.map Element.unresolved = x.elements := by
    rw [he, NodeTable.map_unresolved_resolveAll, Library.map_unresolved_of_flatten hx]
  have hprint : ∀ e ∈ c.elements, e.Printable := by
    have hfin' : ∀ e ∈ x.elements, e.value.All fun x => x.isFinite = true := by
      rw [← hu]
      intro e hm
      obtain ⟨e', hm', rfl⟩ := List.mem_map.1 hm
      exact hfin e' hm'
    intro e hm
    apply Element.Printable.of_unresolved
    exact printable_of_flatten hreturns hn hflat hx hfin' _ (hu ▸ List.mem_map_of_mem hm)
  -- the listing comes to the same elements without nodes, and these are numbered anew in the same order
  have hread : read o' c.text = { circuit := { elements := c.elements, nodes := c.nodes, valid := true } } := by
    rw [read_text hprint ho, hu, ← he, ← hnodes]
  obtain ⟨s, hs, -⟩ := assemble_of_read h
  refine ⟨hread, s, hs, ?_⟩
  rw [assemble, if_pos ((valid_read o text).2 h)] at hs
  rw [hread, assemble, if_pos rfl, hs]

/-- A switch, a line of an unknown kind, a symbol and two numbers, which are written without a suffix and
without an exponent. -/
theorem read_reprints_switch :
    let text := "r1 a b 4.7k\r\nQ1 a b 2\nsimulator lang=spectre\nC1 b 0 Cx\nV1 a 0 -1e-7"
    let switch : Directive :=
      { keyword := "simulator", args := ["lang=spectre"], text := "simulator lang=spectre"
        dialect := .spectre, line := 3 }
    let r : ElementLine := { letter := 'R', name := "r1", nets := ["a", "b"], value := "4.7k", line := 1 }
    let q : ElementLine := { letter := 'Q', name := "Q1", nets := ["a", "b"], value := "2", line := 2 }
    let c : ElementLine := { letter := 'C', name := "C1", nets := ["b", "0"], value := "Cx", line := 4 }
    let v : ElementLine := { letter := 'V', name := "V1", nets := ["a", "0"], value := "-1e-7", line := 5 }
    let n : Netlist :=
      { records :=
          [.item (.element r), .item (.element q), .item (.directive switch), .item (.element c),
            .item (.element v)]
        dialect := .spectre }
    let printed := "r1 a b 4700\nC1 b 0 Cx\nV1 a 0 -0.0000001\n"
    (read {} text).error? = none ∧ ReturnsBeforeFeeds text ∧ Netlist.read .spice text = .ok n ∧
      (∀ c, .call c ∉ n.records) ∧
      (∀ e ∈ (read {} text).circuit.elements, e.value.All fun x => x.isFinite = true) ∧
      (read {} text).circuit.text = printed ∧
      read {} printed =
        { circuit :=
            { elements := (read {} text).circuit.elements, nodes := (read {} text).circuit.nodes
              valid := true } } ∧
      ∃ s, (read {} text).circuit.assemble = .ok s ∧ (read {} printed).circuit.assemble = .ok s := by
  intro text switch r q c v n printed
  have h : (read {} text).error? = none := by decide +kernel
  have hreturns : ReturnsBeforeFeeds text := by decide +kernel
  have hn : Netlist.read .spice text = .ok n := by decide +kernel
  have hflat : ∀ c, .call c ∉ n.records := by
    intro c hc
    simp [n] at hc
  have hfin : ∀ e ∈ (read {} text).circuit.elements, e.value.All fun x => x.isFinite = true := by
    decide +kernel
  have ht : (read {} text).circuit.text = printed := by decide +kernel
  obtain ⟨hread, hsystem⟩ : read {} (read {} text).circuit.text = _ ∧
      ∃ s, (read {} text).circuit.assemble = .ok s ∧
        (read {} (read {} text).circuit.text).circuit.assemble = .ok s :=
    read_reprints h hreturns hn hflat hfin rfl
  rw [ht] at hread hsystem
  exact ⟨h, hreturns, hn, hflat, hfin, ht, hread, hsystem⟩

end Circuit

end Nodal
