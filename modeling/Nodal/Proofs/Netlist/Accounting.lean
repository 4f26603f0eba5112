import Mathlib.Control.Monad.Basic
import Nodal.Proofs.Netlist.Records
import Nodal.Proofs.Netlist.Stops
import Nodal.Proofs.Source.Cuts
/-!
# Which lines a netlist was read from

`Record.ReadFrom` says from which lines a record was read, and by which rules: a record outside of
subcircuits from one line, a subcircuit from the title, the lines of its body and the closing line. Each
of these lines is read in the dialect in effect on it, `Dialect.onLine`, which is that of the last switch
up to the line, wherever the switch stands (`Dialect.chosen_after`). Every step keeps this
(`Reader.Step.readFrom`), so it holds of all records of a netlist, and these use up the lines of the text
(`Netlist.read_accounts`).
-/

namespace Nodal

namespace Dialect

/-- The dialect in effect on the line with a number: that of the last switch up to this line, which may be
the line itself. -/
def onLine (d : Dialect) (ls : List Line) (number : Nat) : Dialect :=
  d.after (ls.take number)

/-- Whether `d'` is what the last switch among lines chooses, or `d` where there is no switch. -/
def Chosen (d : Dialect) (ls : List Line) (d' : Dialect) : Prop :=
  (∃ front l back, ls = front ++ l :: back ∧ switch? l.words = some d' ∧
    ∀ l' ∈ back, switch? l'.words = none) ∨
  (∀ l ∈ ls, switch? l.words = none) ∧ d' = d

/-- The dialect behind lines is what the last switch among them chooses. -/
lemma chosen_after (d : Dialect) (ls : List Line) : d.Chosen ls (d.after ls) := by
  induction ls generalizing d with
  | nil => exact .inr ⟨nofun, rfl⟩
  | cons l ls ih =>
    rcases ih ((switch? l.words).getD d) with ⟨front, l', back, rfl, hs, hb⟩ | ⟨hn, hd⟩
    · exact .inl ⟨l :: front, l', back, rfl, hs, hb⟩
    · change d.after (l :: ls) = _ at hd
      cases hl : switch? l.words with
      | none =>
        rw [hl] at hd
        exact .inr ⟨List.forall_mem_cons.2 ⟨hl, hn⟩, hd⟩
      | some d' =>
        rw [hl] at hd
        exact .inl ⟨[], l, ls, rfl, hl.trans (congrArg some hd.symm), hn⟩

end Dialect

/-- What a line is read as in a dialect, in or outside of a subcircuit. -/
inductive Line.ReadAs (d : Dialect) (l : Line) : Item → Prop where
  /-- A switch is a directive of the dialect that it chooses. -/
  | switch :
    Dialect.switch? l.words = some d →
    ReadAs d l (.directive (Directive.ofLine d l))
  | item {i} :
    Dialect.switch? l.words = none →
    Item.ofLine? d l = some i →
    ReadAs d l i

/-- An item has the number of the line it is read as. -/
lemma Line.ReadAs.line {d : Dialect} {l : Line} {i : Item} (h : l.ReadAs d i) : i.line = l.number := by
  cases h with
  | switch => rfl
  | item _ hi => exact Item.line_of_ofLine? hi

/-- A directive is one of the dialect that its line is read in. -/
lemma Line.ReadAs.dialect_eq {d : Dialect} {l : Line} {v : Directive} (h : l.ReadAs d (.directive v)) :
    v.dialect = d := by
  cases h with
  | switch => rfl
  | item _ hi =>
    unfold Item.ofLine? at hi
    split at hi
    · cases hi
    · split at hi
      · cases hi
        rfl
      · split at hi <;> cases hi

section ReadFrom

-- the lines of the text, and the dialect in effect on the line with each number
variable (ls : List Line) (inEffect : Nat → Dialect)

/-- Whether an item was read from a line of the body of the subcircuit `name`. No such line closes it. -/
def Item.InBody (name : String) (i : Item) : Prop :=
  ∃ l ∈ ls, l.ReadAs (inEffect l.number) i ∧
    (Dialect.switch? l.words = none → (inEffect l.number).closes name l.words = false)

/-- Whether an open block was read from lines, the first of which is the title. -/
structure OpenBlock.ReadFrom (b : OpenBlock) : Prop where
  opening_mem : b.opening ∈ ls
  opens : Opens (inEffect b.opening.number) b.opening b.title
  body : ∀ i ∈ b.body, i.InBody ls inEffect b.title.name

/-- Whether a record was read from lines, each in the dialect in effect on it. -/
inductive Record.ReadFrom : Record → Prop where
  | item {l i} :
    l ∈ ls →
    l.ReadAs (inEffect l.number) i →
    ReadFrom (.item i)
  | subcircuit {b : OpenBlock} {last} :
    b.ReadFrom ls inEffect →
    last ∈ ls →
    Dialect.switch? last.words = none →
    (inEffect last.number).closes b.title.name last.words = true →
    ReadFrom (.subcircuit (b.close last.number))
  | call {l c} :
    l ∈ ls →
    Dialect.switch? l.words = none →
    Item.ofLine? (inEffect l.number) l = none →
    (inEffect l.number).title? l.words = none →
    (inEffect l.number).call? l.words = some c →
    ReadFrom (.call { label := c.label, nets := c.nets, subcircuit := c.subcircuit, line := l.number })

end ReadFrom

namespace Reader

section ReadFrom

variable {ls : List Line} {inEffect : Nat → Dialect}

/-- An item that is taken leaves behind a block, or a record, that was read from lines. -/
lemma readFrom_of_take {r r' : Reader} {l : Line} {i : Item} {out : Option Record}
    (h : r.take i = (r', out)) (hl : l ∈ ls) (hi : l.ReadAs (inEffect l.number) i)
    (hc : ∀ b, r.block = some b → Dialect.switch? l.words = none →
      (inEffect l.number).closes b.title.name l.words = false)
    (hr : ∀ b, r.block = some b → b.ReadFrom ls inEffect) :
    (∀ b, r'.block = some b → b.ReadFrom ls inEffect) ∧
      ∀ record ∈ out, record.ReadFrom ls inEffect := by
  unfold take at h
  split at h
  · cases h
    refine ⟨hr, ?_⟩
    rintro record ⟨⟩
    exact .item hl hi
  · rename_i b hb
    cases h
    refine ⟨?_, nofun⟩
    rintro _ ⟨⟩
    refine ⟨(hr b hb).opening_mem, (hr b hb).opens, fun j hj => ?_⟩
    rcases List.mem_append.1 hj with hj | hj
    · exact (hr b hb).body j hj
    · rw [List.mem_singleton.1 hj]
      exact ⟨l, hl, hi, hc b hb⟩

/-- A step reads a line in the dialect in effect on it. -/
lemma Step.readFrom {r r' : Reader} {l : Line} {out : Option Record} (h : r.Step l r' out) (hl : l ∈ ls)
    (hd : inEffect l.number = (Dialect.switch? l.words).getD r.dialect)
    (hr : ∀ b, r.block = some b → b.ReadFrom ls inEffect) :
    (∀ b, r'.block = some b → b.ReadFrom ls inEffect) ∧
      ∀ record ∈ out, record.ReadFrom ls inEffect := by
  cases h with
  | blank => exact ⟨hr, nofun⟩
  | switch _ hs ht =>
    rw [hs, Option.getD_some] at hd
    refine readFrom_of_take ht hl ?_ (fun _ _ hs' => ?_) hr
    · rw [hd]
      exact .switch hs
    · rw [hs] at hs'
      cases hs'
  | item _ hs hc hi ht =>
    rw [hs, Option.getD_none] at hd
    rw [← hd] at hc hi
    exact readFrom_of_take ht hl (.item hs hi) (fun b hb _ => hc b hb) hr
  | title hb hs _ hi ht =>
    rw [hs, Option.getD_none] at hd
    rw [← hd] at hi ht
    refine ⟨?_, nofun⟩
    rintro _ ⟨⟩
    exact ⟨hl, ⟨hb, hs, hi, ht⟩, nofun⟩
  | call _ hs _ hi ht hc =>
    rw [hs, Option.getD_none] at hd
    rw [← hd] at hi ht hc
    refine ⟨hr, ?_⟩
    rintro record ⟨⟩
    exact .call hl hs hi ht hc
  | close _ hs hb hc =>
    rw [hs, Option.getD_none] at hd
    rw [← hd] at hc
    refine ⟨nofun, ?_⟩
    rintro record ⟨⟩
    exact .subcircuit (hr _ hb) hl hs hc

/-- Several steps read each line in the dialect in effect on it: that behind the lines up to it. -/
lemma Steps.readFrom {r r' : Reader} {ls' : List Line} {records : List Record} (h : r.Steps ls' r' records)
    (hls : ∀ l ∈ ls', l ∈ ls)
    (hd : ∀ front l back, ls' = front ++ l :: back → inEffect l.number = r.dialect.after (front ++ [l]))
    (hr : ∀ b, r.block = some b → b.ReadFrom ls inEffect) :
    ∀ record ∈ records, record.ReadFrom ls inEffect := by
  induction h with
  | nil => nofun
  | @cons r r₁ r' l ls' out records hs _ ih =>
    obtain ⟨hr₁, hout⟩ := hs.readFrom (hls l List.mem_cons_self) (hd [] l ls' rfl) hr
    have hd₁ : ∀ front l' back, ls' = front ++ l' :: back →
        inEffect l'.number = r₁.dialect.after (front ++ [l']) := by
      intro front l' back he
      rw [hd (l :: front) l' back (congrArg (l :: ·) he), hs.dialect]
      rfl
    intro record hm
    rcases List.mem_append.1 hm with hm | hm
    · exact hout record (Option.mem_toList.1 hm)
    · exact ih (fun l' hl' => hls l' (List.mem_cons_of_mem _ hl')) hd₁ hr₁ record hm

end ReadFrom

end Reader

namespace Source

/-- The lines up to a line are as many as its number says. -/
lemma take_number {text : String} {front back : List Line} {l : Line}
    (h : lines text = front ++ l :: back) : (lines text).take l.number = front ++ [l] := by
  obtain ⟨p, hp, hc⟩ := exists_cut h
  have hn : l.number = (front ++ [l]).length := by
    rw [hc.number_eq, List.length_append, ← hp, length_lines hc.whole]
    rfl
  rw [h, List.append_cons, hn, List.take_left]

end Source

namespace Netlist

variable {d : Dialect} {text : String} {n : Netlist}

/-- The records of a netlist were read from the lines of the text, each in the dialect in effect on it. -/
lemma readFrom_of_read (h : read d text = .ok n) : ∀ record ∈ n.records,
    record.ReadFrom (Source.lines text) (d.onLine (Source.lines text)) := by
  obtain ⟨r', hs, -⟩ := Reader.run_eq_ok_iff.1 (run_of_read h)
  refine hs.readFrom (fun _ => id) (fun front l back he => ?_) nofun
  rw [Dialect.onLine, Source.take_number he]

/-- A directive is one of the dialect in effect on its line. -/
lemma dialect_of_directive (h : read d text = .ok n) {v : Directive}
    (hv : .directive v ∈ n.records.flatMap Record.items) :
    v.dialect = d.onLine (Source.lines text) v.line := by
  obtain ⟨record, hm, hi⟩ := List.mem_flatMap.1 hv
  have hread : ∃ l : Line, l.ReadAs (d.onLine (Source.lines text) l.number) (.directive v) := by
    cases readFrom_of_read h record hm with
    | item _ hl =>
      rw [List.mem_singleton.1 hi]
      exact ⟨_, hl⟩
    | subcircuit hb =>
      obtain ⟨l, -, hl, -⟩ := hb.body _ hi
      exact ⟨l, hl⟩
    | call => cases hi
  obtain ⟨l, hl⟩ := hread
  rw [hl.dialect_eq, ← hl.line]
  rfl

/-- Each line that is not blank belongs to just one record, which was read from its lines in the dialect that
the last switch up to each of them has chosen. -/
theorem read_accounts (h : read d text = .ok n) :
    n.records.flatMap Record.lineNumbers =
        ((Source.lines text).filter (!·.isBlank)).map Line.number ∧
      (n.records.flatMap Record.lineNumbers).Pairwise (· < ·) ∧
      (∀ record ∈ n.records, record.ReadFrom (Source.lines text) (d.onLine (Source.lines text))) ∧
      ∀ v, .directive v ∈ n.records.flatMap Record.items →
        v.dialect = d.onLine (Source.lines text) v.line ∧
          d.Chosen ((Source.lines text).take v.line) v.dialect := by
  refine ⟨lineNumbers_of_read h, lineNumbers_ascend h, readFrom_of_read h, fun v hv => ?_⟩
  have hd := dialect_of_directive h hv
  refine ⟨hd, ?_⟩
  rw [hd]
  exact Dialect.chosen_after d _

/-- A switch in a body is in effect up to the end of the text. -/
theorem read_accounts_switch :
    let text := "R1 a 0 1\n\n.subckt S p\nsimulator lang=spectre\nC1 p 0 2\nends S\nsave a"
    let switch : Directive :=
      { keyword := "simulator", args := ["lang=spectre"], text := "simulator lang=spectre"
        dialect := .spectre, line := 4 }
    let c : ElementLine := { letter := 'C', name := "C1", nets := ["p", "0"], value := "2", line := 5 }
    let n : Netlist :=
      { records :=
          [.item (.element { letter := 'R', name := "R1", nets := ["a", "0"], value := "1", line := 1 }),
            .subcircuit
              { name := "S", ports := ["p"], body := [.directive switch, .element c], line := 3
                lastLine := 6 },
            .item (.directive
              { keyword := "save", args := ["a"], text := "save a", dialect := .spectre, line := 7 })]
        dialect := .spectre }
    read .spice text = .ok n ∧
      [1, 3, 4, 5, 6, 7] = ((Source.lines text).filter (!·.isBlank)).map Line.number ∧
      [1, 3, 4, 5, 6, 7].Pairwise (· < ·) ∧
      (∀ record ∈ n.records,
        record.ReadFrom (Source.lines text) (Dialect.onLine .spice (Source.lines text))) ∧
      ∀ v, .directive v ∈ n.records.flatMap Record.items →
        v.dialect = Dialect.onLine .spice (Source.lines text) v.line ∧
          Dialect.Chosen .spice ((Source.lines text).take v.line) v.dialect := by
  intro text switch c n
  have hn : read .spice text = .ok n := by decide +kernel
  exact ⟨hn, read_accounts hn⟩

end Netlist

end Nodal
