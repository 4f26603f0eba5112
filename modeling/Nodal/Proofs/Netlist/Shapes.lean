import Mathlib.Control.Monad.Basic
import Nodal.Proofs.Dialect.Rules
import Nodal.Proofs.Netlist.Accounting
import Nodal.Proofs.Source.Words
/-!
# What the records of a netlist look like

The parts of a record are what its place in the netlist needs: names, nets, ports and labels consist of
net characters, an element line fits its kind, and neither a name nor a label is one that the dialect of
the line keeps for something else (`Netlist.read_shaped`). All of this is decided line by line, so it
follows from the rule by which each line was read.
-/

namespace Nodal

/-- The upper-case letters are those from `A` to `Z`. -/
lemma isUpper_iff {c : Char} : c.isUpper = true ↔ 65 ≤ c.val.toNat ∧ c.val.toNat ≤ 90 := by
  have h : c.isUpper = decide ('A'.val ≤ c.val ∧ c.val ≤ 'Z'.val) := rfl
  rw [h, decide_eq_true_iff, UInt32.le_iff_toNat_le, UInt32.le_iff_toNat_le]
  exact Iff.rfl

/-- The upper case of a letter is an upper case letter. -/
lemma isUpper_toUpper {c : Char} (h : c.isAlpha = true) : c.toUpper.isUpper = true := by
  by_cases hc : 'a'.val ≤ c.val ∧ c.val ≤ 'z'.val
  · have hl : 97 ≤ c.val.toNat := UInt32.le_iff_toNat_le.1 hc.1
    have hu : c.val.toNat ≤ 122 := UInt32.le_iff_toNat_le.1 hc.2
    have hn : c.toUpper.val.toNat = c.val.toNat - 32 := by
      have hd : ('A'.val - 'a'.val).toNat = 4294967264 := rfl
      have hv : c.toUpper.val = c.val + ('A'.val - 'a'.val) := by
        unfold Char.toUpper
        split
        · rfl
        · contradiction
      rw [hv, UInt32.toNat_add, hd]
      omega
    rw [isUpper_iff, hn]
    omega
  · have hu : c.toUpper = c := dif_neg hc
    rw [hu]
    rcases (Bool.or_eq_true _ _).mp h with hu | hl
    · exact hu
    · obtain ⟨ha, hz⟩ := (Bool.and_eq_true _ _).mp hl
      exact absurd ⟨of_decide_eq_true ha, of_decide_eq_true hz⟩ hc

/-- Whether an element line, read in dialect `d`, is built as an element needs it. -/
structure ElementLine.Shaped (d : Dialect) (e : ElementLine) : Prop where
  letter : ∃ c cs, e.name.toList = c :: cs ∧ e.letter = c.toUpper
  isUpper : e.letter.isUpper = true
  isName : isNetName e.name = true
  areNets : ∀ net ∈ e.nets, isNetName net = true
  fits : e.Fits
  nets_ne_nil : e.nets ≠ []
  value : IsToken e.value
  /-- In Spice the name is no label. -/
  spice : d = .spice → ∀ c cs, e.name.toList = c :: cs → c ≠ 'X' ∧ c ≠ 'x'
  /-- In Spectre the name is no keyword. -/
  spectre : d = .spectre → e.name ≠ "subckt" ∧ e.name ≠ "ends" ∧ e.name ∉ Dialect.keywords

/-- Whether a call, read in dialect `d`, is built as an expansion needs it. -/
structure Call.Shaped (d : Dialect) (c : Call) : Prop where
  isLabel : isNetName c.label = true
  areNets : ∀ net ∈ c.nets, isNetName net = true
  isSubcircuit : isNetName c.subcircuit = true
  /-- In Spice something stands behind the `X` of the label. -/
  spice : d = .spice → ∃ a cs, c.label.toList = a :: cs ∧ (a = 'X' ∨ a = 'x') ∧ cs ≠ []

/-- Whether an item, if it is an element line, has its shape in the dialect in effect on the line. -/
def Item.Shaped (inEffect : Nat → Dialect) (i : Item) : Prop :=
  ∀ e, i = .element e → e.Shaped (inEffect e.line)

/-- Whether a record and the items in its body have their shapes. -/
inductive Record.Shaped (inEffect : Nat → Dialect) : Record → Prop where
  | item {i : Item} :
    i.Shaped inEffect →
    Shaped inEffect (.item i)
  | subcircuit {s : Subcircuit} :
    isNetName s.name = true →
    (∀ port ∈ s.ports, isNetName port = true) →
    (∀ i ∈ s.body, i.Shaped inEffect) →
    Shaped inEffect (.subcircuit s)
  | call {c : Call} :
    c.Shaped (inEffect c.line) →
    Shaped inEffect (.call c)

/-- The words of an element give it its shape. -/
lemma ElementLine.OfWords.shaped {d : Dialect} {words : List String} {e : ElementLine}
    (h : e.OfWords d words) (hw : ∀ word ∈ words, IsToken word) : e.Shaped d := by
  obtain ⟨letter, tail, hn, ha, hu, -⟩ := h.letter
  constructor
  · exact ⟨letter, tail, hn, hu⟩
  · rw [hu]
    exact isUpper_toUpper ha
  · exact h.isName
  · exact h.areNets
  · exact h.fits
  · exact h.nets_ne_nil
  · apply hw
    rw [h.words_eq]
    exact List.mem_append_right _ (List.mem_singleton.2 rfl)
  · rintro rfl c cs hc
    have hf := h.free
    rw [Bool.eq_false_iff, Ne, Dialect.reservesName_spice_iff] at hf
    exact ⟨fun hX => hf ⟨cs, .inl (hX ▸ hc)⟩, fun hx => hf ⟨cs, .inr (hx ▸ hc)⟩⟩
  · rintro rfl
    simpa [Dialect.reservesName, Dialect.opens, Dialect.closesWord, and_assoc] using h.free

/-- An item that a line is read as has the shape that its dialect asks for. -/
lemma Line.ReadAs.shaped {text : String} {inEffect : Nat → Dialect} {l : Line} {i : Item}
    (h : l.ReadAs (inEffect l.number) i) (hl : l ∈ Source.lines text) : i.Shaped inEffect := by
  rintro e rfl
  rw [← h.line] at h
  cases h with
  | item _ hi => exact (Item.ofWords_of_ofLine? hi).shaped fun _ => Source.isToken_of_mem hl

namespace Record

variable {text : String} {inEffect : Nat → Dialect}

/-- A record has its shape if it was read from lines of a text. -/
lemma ReadFrom.shaped {r : Record} (h : r.ReadFrom (Source.lines text) inEffect) : r.Shaped inEffect := by
  cases h with
  | item hl hi => exact .item (hi.shaped hl)
  | subcircuit hb =>
    obtain ⟨hname, hports⟩ := Dialect.areNames_of_title? hb.opens.title
    refine .subcircuit hname hports fun i hi => ?_
    obtain ⟨l, hl, hread, -⟩ := hb.body i hi
    exact hread.shaped hl
  | call _ _ _ _ hc =>
    obtain ⟨hlabel, hnets, hname⟩ := Dialect.areNames_of_call? hc
    refine .call ⟨Dialect.isNetName_of_isLabel hlabel, hnets, hname, fun hd => ?_⟩
    change inEffect _ = _ at hd
    rw [hd] at hlabel
    exact (Dialect.isLabel_spice_iff.1 hlabel).2

end Record

namespace Netlist

variable {d : Dialect} {text : String} {n : Netlist}

/-- Every record of a netlist that was read has its shape, in the dialect in effect on each line. -/
theorem read_shaped (h : read d text = .ok n) :
    ∀ record ∈ n.records, record.Shaped (d.onLine (Source.lines text)) :=
  fun record hm => (readFrom_of_read h record hm).shaped

/-- A name that would be a label in Spice is one of an element behind a switch to Spectre. -/
theorem read_shaped_label :
    let text := "X1 a S\n.subckt S p\nQ1 p 0 1\n.ends\nsimulator lang=spectre\nX2 a 0 1"
    let q : ElementLine := { letter := 'Q', name := "Q1", nets := ["p", "0"], value := "1", line := 3 }
    let x : ElementLine := { letter := 'X', name := "X2", nets := ["a", "0"], value := "1", line := 6 }
    let switch : Directive :=
      { keyword := "simulator", args := ["lang=spectre"], text := "simulator lang=spectre"
        dialect := .spectre, line := 5 }
    let n : Netlist :=
      { records :=
          [.call { label := "X1", nets := ["a"], subcircuit := "S", line := 1 },
            .subcircuit { name := "S", ports := ["p"], body := [.element q], line := 2, lastLine := 4 },
            .item (.directive switch),
            .item (.element x)]
        dialect := .spectre }
    read .spice text = .ok n ∧
      ∀ record ∈ n.records, record.Shaped (Dialect.onLine .spice (Source.lines text)) := by
  intro text q x switch n
  have hn : read .spice text = .ok n := by decide +kernel
  exact ⟨hn, read_shaped hn⟩

end Netlist

end Nodal
