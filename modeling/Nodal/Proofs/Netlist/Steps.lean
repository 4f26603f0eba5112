import Mathlib.Tactic.Lemma
import Nodal.Netlist.Reader
/-!
# Steps of the reader

`Reader.Step` lists everything that reading a line can do, with the rules that were asked before.
`Reader.step_eq_ok_iff` shows that it is what `Reader.step` computes, so that an invariant of reading
needs one short case for each kind of line. `Reader.Steps` strings such steps together: a run over
lines that succeeds passes through a state between any two of them (`Reader.run_append_eq_ok`).
-/

namespace Nodal

/-- The dialect in effect behind lines: that of the last switch among them. -/
def Dialect.after (d : Dialect) (ls : List Line) : Dialect :=
  ls.foldl (fun d l => (switch? l.words).getD d) d

namespace Reader

/-- What a line can do to a reader, and the record that it completes. -/
inductive Step (r : Reader) (l : Line) : Reader → Option Record → Prop where
  /-- A blank line does nothing. -/
  | blank :
    l.isBlank = true →
    Step r l r none
  /-- A switch changes the dialect and is taken as a directive of the new one. -/
  | switch {d r' out} :
    l.isBlank = false →
    Dialect.switch? l.words = some d →
    { r with dialect := d }.take (.directive (Directive.ofLine d l)) = (r', out) →
    Step r l r' out
  /-- An item that closes no block is taken. -/
  | item {i r' out} :
    l.isBlank = false →
    Dialect.switch? l.words = none →
    (∀ b, r.block = some b → r.dialect.closes b.title.name l.words = false) →
    Item.ofLine? r.dialect l = some i →
    r.take i = (r', out) →
    Step r l r' out
  /-- A title outside of blocks opens a block. -/
  | title {t} :
    l.isBlank = false →
    Dialect.switch? l.words = none →
    r.block = none →
    Item.ofLine? r.dialect l = none →
    r.dialect.title? l.words = some t →
    Step r l { r with block := some { title := t, opening := l } } none
  /-- A call outside of blocks is a record. -/
  | call {c} :
    l.isBlank = false →
    Dialect.switch? l.words = none →
    r.block = none →
    Item.ofLine? r.dialect l = none →
    r.dialect.title? l.words = none →
    r.dialect.call? l.words = some c →
    Step r l r (some (.call
      { label := c.label, nets := c.nets, subcircuit := c.subcircuit, line := l.number }))
  /-- A closing line completes the open block. -/
  | close {b} :
    l.isBlank = false →
    Dialect.switch? l.words = none →
    r.block = some b →
    r.dialect.closes b.title.name l.words = true →
    Step r l { r with block := none } (some (.subcircuit (b.close l.number)))

/-- What is read of a line outside of subcircuits is a step. -/
lemma Step.of_stepOutside {r r' : Reader} {l : Line} {out : Option Record}
    (hb : l.isBlank = false) (hs : Dialect.switch? l.words = none) (hr : r.block = none)
    (h : r.stepOutside l = .ok (r', out)) : r.Step l r' out := by
  unfold stepOutside at h
  cases hi : Item.ofLine? r.dialect l with
  | some i =>
    rw [hi] at h
    exact .item hb hs (fun b h' => by rw [hr] at h'; cases h') hi (Except.ok.inj h)
  | none =>
    rw [hi] at h
    cases ht : r.dialect.title? l.words with
    | some t =>
      simp only [ht] at h
      cases h
      exact .title hb hs hr hi ht
    | none =>
      cases hc : r.dialect.call? l.words with
      | some c =>
        simp only [ht, hc] at h
        cases h
        exact .call hb hs hr hi ht hc
      | none =>
        simp only [ht, hc] at h
        cases h

/-- What is read of a line inside a subcircuit is a step. -/
lemma Step.of_stepInside {r r' : Reader} {b : OpenBlock} {l : Line} {out : Option Record}
    (hb : l.isBlank = false) (hs : Dialect.switch? l.words = none) (hr : r.block = some b)
    (h : r.stepInside b l = .ok (r', out)) : r.Step l r' out := by
  unfold stepInside at h
  cases hc : r.dialect.closes b.title.name l.words with
  | true =>
    simp only [hc, if_true] at h
    cases h
    exact .close hb hs hr hc
  | false =>
    simp only [hc, Bool.false_eq_true, if_false] at h
    cases hi : Item.ofLine? r.dialect l with
    | some i =>
      rw [hi] at h
      refine .item hb hs (fun b' h' => ?_) hi (Except.ok.inj h)
      rw [hr] at h'
      cases h'
      exact hc
    | none =>
      rw [hi] at h
      cases h

/-- The steps are what reading a line computes. -/
theorem step_eq_ok_iff {r r' : Reader} {l : Line} {out : Option Record} :
    r.step l = .ok (r', out) ↔ r.Step l r' out := by
  constructor
  · intro h
    unfold step at h
    cases hb : l.isBlank with
    | true =>
      simp only [hb, if_true] at h
      cases h
      exact .blank hb
    | false =>
      simp only [hb, Bool.false_eq_true, if_false] at h
      cases hs : Dialect.switch? l.words with
      | some d =>
        simp only [hs] at h
        exact .switch hb hs (Except.ok.inj h)
      | none =>
        cases hr : r.block with
        | none =>
          simp only [hs, hr] at h
          exact .of_stepOutside hb hs hr h
        | some b =>
          simp only [hs, hr] at h
          exact .of_stepInside hb hs hr h
  · intro h
    cases h with
    | blank hb => simp [step, hb]
    | switch hb hs ht => simp [step, hb, hs, ht]
    | item hb hs hc hi ht =>
      cases hr : r.block with
      | none => simp [step, stepOutside, hb, hs, hr, hi, ht]
      | some b => simp [step, stepInside, hb, hs, hr, hc b hr, hi, ht]
    | title hb hs hr hi ht => simp [step, stepOutside, hb, hs, hr, hi, ht]
    | call hb hs hr hi ht hc => simp [step, stepOutside, hb, hs, hr, hi, ht, hc]
    | close hb hs hr hc => simp [step, stepInside, hb, hs, hr, hc]

/-- A successful run makes a step with its first line and goes on behind it. -/
lemma run_cons_eq_ok {r : Reader} {l : Line} {ls : List Line} {n : Netlist}
    (h : r.run (l :: ls) = .ok n) :
    ∃ r' out m, r.Step l r' out ∧ r'.run ls = .ok m ∧ n.records = out.toList ++ m.records ∧
      n.dialect = m.dialect := by
  simp only [run] at h
  split at h
  · cases h
  · rename_i r' out hs
    split at h
    · cases h
    · rename_i m hm
      cases h
      exact ⟨r', out, m, step_eq_ok_iff.1 hs, hm, rfl, rfl⟩

/-- A run can end only outside of subcircuits. -/
lemma run_nil_eq_ok {r : Reader} {n : Netlist} (h : r.run [] = .ok n) :
    r.block = none ∧ n.records = [] ∧ n.dialect = r.dialect := by
  simp only [run] at h
  split at h
  · cases h
    exact ⟨‹_›, rfl, rfl⟩
  · cases h

/-- What several lines do to a reader, and the records that they complete. -/
inductive Steps : Reader → List Line → Reader → List Record → Prop where
  | nil {r} :
    Steps r [] r []
  | cons {r r' r'' l ls out records} :
    r.Step l r' out →
    Steps r' ls r'' records →
    Steps r (l :: ls) r'' (out.toList ++ records)

/-- A step is a run of one line. -/
lemma Steps.single {r r' : Reader} {l : Line} {out : Option Record} (h : r.Step l r' out) :
    r.Steps [l] r' out.toList := by
  have hs := Steps.cons h .nil
  rwa [List.append_nil] at hs

/-- Steps and steps from where these lead are steps. -/
lemma Steps.append {r r' r'' : Reader} {ls ls' : List Line} {records records' : List Record}
    (h : r.Steps ls r' records) (h' : r'.Steps ls' r'' records') :
    r.Steps (ls ++ ls') r'' (records ++ records') := by
  induction h with
  | nil => exact h'
  | cons hs _ ih =>
    rw [List.append_assoc]
    exact .cons hs (ih h')

/-- Reading goes on from where the steps have led. -/
lemma Steps.run_append {r r' : Reader} {ls : List Line} {records : List Record}
    (h : r.Steps ls r' records) (ls' : List Line) :
    r.run (ls ++ ls') = (r'.run ls').map fun n => { n with records := records ++ n.records } := by
  induction h with
  | @nil r =>
    simp only [List.nil_append]
    cases r.run ls' <;> rfl
  | cons hs _ ih =>
    simp only [List.cons_append, run, step_eq_ok_iff.2 hs, ih]
    cases run _ ls' with
    | error stop => rfl
    | ok n => simp [Except.map]

/-- A run over lines that succeeds passes through a state between any two of them. -/
lemma run_append_eq_ok {r : Reader} {ls ls' : List Line} {n : Netlist}
    (h : r.run (ls ++ ls') = .ok n) :
    ∃ r' records m, r.Steps ls r' records ∧ r'.run ls' = .ok m ∧
      n.records = records ++ m.records ∧ n.dialect = m.dialect := by
  induction ls generalizing r n with
  | nil => exact ⟨r, [], n, .nil, h, rfl, rfl⟩
  | cons l ls ih =>
    obtain ⟨r', out, m, hs, hm, hn, hd⟩ := run_cons_eq_ok h
    obtain ⟨r'', records, m', hs', hm', hn', hd'⟩ := ih hm
    refine ⟨r'', out.toList ++ records, m', .cons hs hs', hm', ?_, hd.trans hd'⟩
    rw [hn, hn', List.append_assoc]

/-- Of records that steps complete, each is completed by one of the lines, and those before it by the
lines before that one. -/
lemma Steps.exists_step {r r' : Reader} {ls : List Line} {records front back : List Record}
    {x : Record} (h : r.Steps ls r' records) (hx : records = front ++ x :: back) :
    ∃ ls₁ l ls₂ r₁ r₂, ls = ls₁ ++ l :: ls₂ ∧ r.Steps ls₁ r₁ front ∧ r₁.Step l r₂ (some x) := by
  induction h generalizing front with
  | nil => simp at hx
  | @cons r r₁ _ l ls out records hs _ ih =>
    cases out with
    | none =>
      obtain ⟨ls₁, l', ls₂, r₂, r₃, rfl, hf, hs'⟩ := ih hx
      exact ⟨l :: ls₁, l', ls₂, r₂, r₃, rfl, .cons hs hf, hs'⟩
    | some y =>
      rw [Option.toList_some, List.singleton_append] at hx
      cases front with
      | nil =>
        cases hx
        exact ⟨[], l, ls, r, r₁, rfl, .nil, hs⟩
      | cons y' front =>
        obtain ⟨rfl, hrest⟩ := List.cons.inj hx
        obtain ⟨ls₁, l', ls₂, r₂, r₃, rfl, hf, hs'⟩ := ih hrest
        exact ⟨l :: ls₁, l', ls₂, r₂, r₃, rfl, .cons hs hf, hs'⟩

/-- A call is completed outside of blocks, by the line that it stands on. -/
lemma Step.of_call {r r' : Reader} {l : Line} {c : Call} (h : r.Step l r' (some (.call c))) :
    r.block = none ∧ c.line = l.number ∧
      r.dialect.call? l.words =
        some { label := c.label, nets := c.nets, subcircuit := c.subcircuit } := by
  have htake : ∀ {r₁ i}, take r₁ i ≠ (r', some (.call c)) := by
    intro r₁ i ht
    unfold take at ht
    split at ht <;> cases ht
  cases h with
  | switch _ _ ht => exact absurd ht htake
  | item _ _ _ _ ht => exact absurd ht htake
  | call _ _ hr _ _ hc => exact ⟨hr, rfl, hc⟩

/-- Taking an item leaves the dialect alone. -/
lemma dialect_of_take {r r' : Reader} {i : Item} {out : Option Record}
    (h : r.take i = (r', out)) : r'.dialect = r.dialect := by
  unfold take at h
  split at h <;> cases h <;> rfl

/-- Only a switch changes the dialect. -/
lemma Step.dialect {r r' : Reader} {l : Line} {out : Option Record} (h : r.Step l r' out) :
    r'.dialect = (Dialect.switch? l.words).getD r.dialect := by
  cases h with
  | blank hb =>
    have hw : l.words = [] := by simpa [Line.isBlank, Line.words] using hb
    rw [hw]
    rfl
  | switch _ hs ht =>
    rw [hs]
    exact dialect_of_take ht
  | item _ hs _ _ ht =>
    rw [hs]
    exact dialect_of_take ht
  | title _ hs =>
    rw [hs]
    rfl
  | call _ hs =>
    rw [hs]
    rfl
  | close _ hs =>
    rw [hs]
    rfl

/-- The dialect after steps is the one that their switches choose. -/
lemma Steps.dialect {r r' : Reader} {ls : List Line} {records : List Record}
    (h : r.Steps ls r' records) : r'.dialect = r.dialect.after ls := by
  induction h with
  | nil => rfl
  | cons hs _ ih =>
    rw [ih, hs.dialect]
    rfl

end Reader

end Nodal
