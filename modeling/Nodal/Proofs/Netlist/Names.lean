import Nodal.Proofs.Netlist.Shapes
import Nodal.Proofs.Subcircuit.Expansion
/-!
# Names in a netlist

Elements, calls and nets of a netlist that was read have names of net characters (`Netlist.named_of_read`),
which neither the slash nor the dot belongs to. `Record.Gives` says which names the elements can have that
a record comes to: the name of a line, or one with a label and a slash in front. In a netlist of distinct
names no two records give the same name (`Netlist.DistinctNames.pairwise_gives`).
-/

namespace Nodal

/-- Whether the name and the nets of an element line consist of net characters. -/
structure ElementLine.Named (l : ElementLine) : Prop where
  isName : isNetName l.name = true
  areNets : ∀ net ∈ l.nets, isNetName net = true

/-- Whether an item, if it is an element line, has names of net characters. -/
def Item.Named (i : Item) : Prop :=
  ∀ l, i = .element l → l.Named

/-- Whether the label and the nets of a call consist of net characters. -/
structure Call.Named (c : Call) : Prop where
  isName : isNetName c.label = true
  areNets : ∀ net ∈ c.nets, isNetName net = true

/-- Whether the elements, the calls and the nets of a record have names of net characters. -/
inductive Record.Named : Record → Prop where
  | item {i : Item} :
    i.Named →
    Named (.item i)
  | subcircuit {s : Subcircuit} :
    (∀ i ∈ s.body, i.Named) →
    Named (.subcircuit s)
  | call {c : Call} :
    c.Named →
    Named (.call c)

/-- An item of the right shape has names of net characters. -/
lemma Item.Shaped.named {inEffect : Nat → Dialect} {i : Item} (h : i.Shaped inEffect) : i.Named :=
  fun e he => ⟨(h e he).isName, (h e he).areNets⟩

/-- A record of the right shape has names of net characters. -/
lemma Record.Shaped.named {inEffect : Nat → Dialect} {r : Record} (h : r.Shaped inEffect) : r.Named := by
  cases h with
  | item hi => exact .item hi.named
  | subcircuit _ _ hb => exact .subcircuit fun i hi => (hb i hi).named
  | call hc => exact .call ⟨hc.isLabel, hc.areNets⟩

/-- The records of a netlist that was read are named. -/
lemma Netlist.named_of_read {d : Dialect} {text : String} {n : Netlist} (h : read d text = .ok n) :
    ∀ record ∈ n.records, record.Named :=
  fun record hm => (readFrom_of_read h record hm).shaped.named

namespace Record

def elementLine? : Record → Option ElementLine
  | .item i => i.element?
  | _ => none

def call? : Record → Option Call
  | .call c => some c
  | _ => none

/-- Whether an element that a record comes to can have a name. -/
inductive Gives : Record → String → Prop where
  | element {l} :
    l.known = true →
    Gives (.item (.element l)) l.name
  | copy {c name} :
    isNetName name = true →
    Gives (.call c) (c.label ++ "/" ++ name)

/-- The name of a copy is the label, a slash and the name that is copied. -/
lemma toList_copy (label name : String) :
    (label ++ "/" ++ name).toList = label.toList ++ '/' :: name.toList := by
  simp

/-- There is no dot in the name of an element. -/
lemma Gives.dot_notMem {r : Record} {name : String} (h : r.Gives name) (hr : r.Named) :
    '.' ∉ name.toList := by
  cases h with
  | @element l _ =>
    obtain ⟨hi⟩ := hr
    exact notMem_of_isNetName (hi l rfl).isName (by decide)
  | @copy c name hname =>
    obtain _ | _ | hc := hr
    have hlabel := notMem_of_isNetName hc.isName (show isNetChar '.' = false by decide)
    have hname' := notMem_of_isNetName hname (show isNetChar '.' = false by decide)
    rw [toList_copy]
    simp [hlabel, hname']

/-- A copy has the label of its call before the only slash in its name. -/
lemma Gives.eq_label {c c' : Call} {name : String} (h : Gives (.call c) name)
    (h' : Gives (.call c') name) (hc : c.Named) : c.label = c'.label := by
  generalize he : name = name' at h'
  cases h with
  | copy hname =>
    cases h' with
    | copy _ =>
      have hslash : isNetChar '/' = false := by decide
      have hl := congrArg String.toList he
      rw [toList_copy, toList_copy, List.append_cons_inj_of_notMem
        (notMem_of_isNetName hc.isName hslash) (notMem_of_isNetName hname hslash)] at hl
      exact String.toList_inj.1 hl.1

/-- There is no slash in the name of a line. -/
lemma not_gives_call {l : ElementLine} {c : Call} (hl : l.Named) : ¬ Gives (.call c) l.name := by
  generalize he : l.name = name
  intro h
  cases h with
  | copy _ =>
    apply notMem_of_isNetName hl.isName (show isNetChar '/' = false by decide)
    rw [he, toList_copy]
    exact List.mem_append_right _ List.mem_cons_self

end Record

namespace Netlist

/-- Whether the lines of known kinds outside of subcircuits have distinct names, and so have those in
each subcircuit; and whether the calls have distinct labels. -/
structure DistinctNames (n : Netlist) : Prop where
  elements :
    (((n.records.filterMap Record.elementLine?).filter (·.known)).map ElementLine.name).Nodup
  labels : ((n.records.filterMap Record.call?).map Call.label).Nodup
  bodies : ∀ s, .subcircuit s ∈ n.records →
    ((s.elementLines.filter (·.known)).map ElementLine.name).Nodup

/-- No two records give elements the same name. -/
lemma DistinctNames.pairwise_gives {n : Netlist} (h : n.DistinctNames)
    (hn : ∀ record ∈ n.records, record.Named) :
    n.records.Pairwise fun r r' => ∀ name, r.Gives name → ¬ r'.Gives name := by
  have he := h.elements
  rw [List.nodup_iff_pairwise_ne, List.pairwise_map, List.pairwise_filter, List.pairwise_filterMap] at he
  have hc := h.labels
  rw [List.nodup_iff_pairwise_ne, List.pairwise_map, List.pairwise_filterMap] at hc
  -- two lines differ in their names, two calls in their labels, and a line has no slash in its name
  refine (he.and hc).imp_of_mem ?_
  rintro r r' hr hr' ⟨hel, hcl⟩ name hg hg'
  have hnr := hn r hr
  have hnr' := hn r' hr'
  cases r with
  | subcircuit s => cases hg
  | item i =>
    cases hg with
    | @element l hl =>
      obtain ⟨hi⟩ := hnr
      cases r' with
      | subcircuit s => cases hg'
      | item i' =>
        generalize hname : l.name = name at hg'
        cases hg' with
        | @element l' hl' => exact hel l rfl l' rfl hl hl' hname
      | call c => exact Record.not_gives_call (hi l rfl) hg'
  | call c =>
    obtain _ | _ | hc := hnr
    cases r' with
    | subcircuit s => cases hg'
    | item i =>
      cases hg' with
      | @element l hl =>
        obtain ⟨hi⟩ := hnr'
        exact Record.not_gives_call (hi l rfl) hg
    | call c' => exact hcl c rfl c' rfl (hg.eq_label hg' hc)

end Netlist

end Nodal
