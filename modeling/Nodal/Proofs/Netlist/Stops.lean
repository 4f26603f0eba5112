import Nodal.Proofs.Netlist.Steps
/-!
# Where reading stops

`Reader.Refuses` lists the lines that stop a reader, as `Reader.Step` lists those that it reads
(`Reader.step_eq_error_iff`). A run that fails has read some lines and refuses the next one, or has read
all of them and is left with an open block, whose title it then reports (`Reader.run_eq_error`). Any
block that is open was opened by a title among the lines, and the lines behind the title are its body
(`Reader.Steps.opened`).
-/

namespace Nodal

/-- Whether a line outside of blocks opens one. -/
structure Opens (d : Dialect) (l : Line) (t : Title) : Prop where
  noBlank : l.isBlank = false
  noSwitch : Dialect.switch? l.words = none
  noItem : Item.ofLine? d l = none
  title : d.title? l.words = some t

/-- Whether lines are taken into an open block of the subcircuit `name`, one after another, and which
dialect is in effect behind them. None of them closes the block. -/
inductive BodyLines (name : String) : Dialect → List Line → Dialect → Prop where
  | nil {d} :
    BodyLines name d [] d
  | blank {d d' l ls} :
    l.isBlank = true →
    BodyLines name d ls d' →
    BodyLines name d (l :: ls) d'
  | switch {d d' d'' l ls} :
    Dialect.switch? l.words = some d' →
    BodyLines name d' ls d'' →
    BodyLines name d (l :: ls) d''
  | item {d d' l ls i} :
    Dialect.switch? l.words = none →
    d.closes name l.words = false →
    Item.ofLine? d l = some i →
    BodyLines name d ls d' →
    BodyLines name d (l :: ls) d'

namespace Reader

/-- The lines that a reader cannot read. -/
inductive Refuses (r : Reader) (l : Line) : Prop where
  /-- Outside of blocks: a line that is nothing of what may stand there. -/
  | outside :
    l.isBlank = false →
    Dialect.switch? l.words = none →
    r.block = none →
    Item.ofLine? r.dialect l = none →
    r.dialect.title? l.words = none →
    r.dialect.call? l.words = none →
    Refuses r l
  /-- Inside a block: a line that neither closes it nor may stand in it. -/
  | inside {b} :
    l.isBlank = false →
    Dialect.switch? l.words = none →
    r.block = some b →
    r.dialect.closes b.title.name l.words = false →
    Item.ofLine? r.dialect l = none →
    Refuses r l

/-- A line that is refused is not blank. -/
lemma Refuses.noBlank {r : Reader} {l : Line} (h : r.Refuses l) : l.isBlank = false := by
  cases h with
  | outside hb => exact hb
  | inside hb => exact hb

/-- The refused lines are those at which reading a line fails. -/
lemma step_eq_error_iff {r : Reader} {l bad : Line} :
    r.step l = .error bad ↔ bad = l ∧ r.Refuses l := by
  constructor
  · -- the rules are gone through in the order in which the step asks them
    intro h
    unfold step at h
    cases hb : l.isBlank with
    | true =>
      simp only [hb, if_true] at h
      cases h
    | false =>
      simp only [hb, Bool.false_eq_true, if_false] at h
      cases hs : Dialect.switch? l.words with
      | some d =>
        simp only [hs] at h
        cases h
      | none =>
        cases hr : r.block with
        | none =>
          simp only [hs, hr, stepOutside] at h
          split at h
          · cases h
          · split at h
            · cases h
            · split at h <;> cases h
              exact ⟨rfl, .outside hb hs hr ‹_› ‹_› ‹_›⟩
        | some b =>
          simp only [hs, hr, stepInside] at h
          split at h
          · cases h
          · rename_i hc
            split at h <;> cases h
            exact ⟨rfl, .inside hb hs hr (Bool.eq_false_iff.2 hc) ‹_›⟩
  · rintro ⟨rfl, h⟩
    cases h with
    | outside hb hs hr hi ht hc => simp [step, stepOutside, hb, hs, hr, hi, ht, hc]
    | inside hb hs hr hc hi => simp [step, stepInside, hb, hs, hr, hc, hi]

/-- A run succeeds iff its steps lead out of all blocks. -/
lemma run_eq_ok_iff {r : Reader} {ls : List Line} {n : Netlist} :
    r.run ls = .ok n ↔ ∃ r', r.Steps ls r' n.records ∧ r'.block = none ∧ n.dialect = r'.dialect := by
  constructor
  · intro h
    rw [← List.append_nil ls] at h
    obtain ⟨r', records, m, hs, hm, hn, hd⟩ := run_append_eq_ok h
    obtain ⟨hb, hr, hd'⟩ := run_nil_eq_ok hm
    rw [hr, List.append_nil] at hn
    exact ⟨r', hn ▸ hs, hb, hd.trans hd'⟩
  · rintro ⟨r', hs, hb, hd⟩
    have h := hs.run_append []
    rw [List.append_nil] at h
    simp [h, run, hb, ← hd, Except.map]

/-- A run that fails refuses a line behind those it has read, or has read all lines and is left in a
block. -/
lemma run_eq_error {r : Reader} {ls : List Line} {s : Stop} (h : r.run ls = .error s) :
    (∃ front l back r' records, ls = front ++ l :: back ∧ r.Steps front r' records ∧ r'.Refuses l ∧
      s = { line := l, dialect := r'.dialect }) ∨
    ∃ r' records b, r.Steps ls r' records ∧ r'.block = some b ∧
      s = { line := b.opening, dialect := r'.dialect } := by
  induction ls generalizing r with
  | nil =>
    simp only [run] at h
    split at h <;> cases h
    exact .inr ⟨r, [], _, .nil, ‹_›, rfl⟩
  | cons l ls ih =>
    simp only [run] at h
    split at h
    · rename_i bad hbad
      cases h
      obtain ⟨rfl, hr⟩ := step_eq_error_iff.1 hbad
      exact .inl ⟨[], _, ls, r, [], rfl, .nil, hr, rfl⟩
    · rename_i r₁ out hs
      have hs := step_eq_ok_iff.1 hs
      split at h <;> cases h
      rename_i hrun
      -- the line at fault, or the open block, is that of the rest of the run
      rcases ih hrun with ⟨front, l', back, r', records, rfl, hst, hr, he⟩ |
        ⟨r', records, b, hst, hb, he⟩
      · exact .inl ⟨l :: front, l', back, r', _, rfl, .cons hs hst, hr, he⟩
      · exact .inr ⟨r', _, b, .cons hs hst, hb, he⟩

/-- Taking an item leaves the title of the open block as it is. -/
lemma title_of_take {r r' : Reader} {i : Item} {out : Option Record} (h : r.take i = (r', out))
    {b : OpenBlock} (hb : r'.block = some b) :
    ∃ b', r.block = some b' ∧ b'.title = b.title ∧ b'.opening = b.opening := by
  unfold take at h
  split at h
  · rename_i hr
    cases h
    rw [hr] at hb
    cases hb
  · rename_i b' hr
    cases h
    cases hb
    exact ⟨b', hr, rfl, rfl⟩

/-- A block that is open behind lines was open before them, and the lines belong to its body, or it was
opened by one of them, and those behind this one belong to its body. -/
lemma Steps.opened {r r' : Reader} {ls : List Line} {records : List Record}
    (h : r.Steps ls r' records) {b : OpenBlock} (hb : r'.block = some b) :
    (∃ b', r.block = some b' ∧ b'.title = b.title ∧ b'.opening = b.opening ∧
      BodyLines b.title.name r.dialect ls r'.dialect) ∨
    ∃ front body r₀ records', ls = front ++ b.opening :: body ∧ r.Steps front r₀ records' ∧
      r₀.block = none ∧ Opens r₀.dialect b.opening b.title ∧
      BodyLines b.title.name r₀.dialect body r'.dialect := by
  induction h with
  | nil => exact .inl ⟨b, hb, rfl, rfl, .nil⟩
  | @cons r r₁ r' l ls out records hs hst ih =>
    rcases ih hb with ⟨b₁, hb₁, ht, ho, hbody⟩ | ⟨front, body, r₀, records', rfl, hf, h₀, hop, hbody⟩
    · -- the block is open behind the first line: either this line is its title or belongs to its body
      cases hs with
      | blank hblank => exact .inl ⟨b₁, hb₁, ht, ho, .blank hblank hbody⟩
      | @switch d _ _ _ hsw htake =>
        obtain ⟨b', hb', ht', ho'⟩ := title_of_take htake hb₁
        rw [dialect_of_take htake] at hbody
        exact .inl ⟨b', hb', ht'.trans ht, ho'.trans ho, .switch hsw hbody⟩
      | item _ hsw hc hi htake =>
        obtain ⟨b', hb', ht', ho'⟩ := title_of_take htake hb₁
        have hname := hc b' hb'
        rw [dialect_of_take htake] at hbody
        rw [ht'.trans ht] at hname
        exact .inl ⟨b', hb', ht'.trans ht, ho'.trans ho, .item hsw hname hi hbody⟩
      | title hblank hsw hr hi htitle =>
        cases hb₁
        subst ho
        have hop : Opens r.dialect b.opening b.title :=
          ⟨hblank, hsw, hi, htitle.trans (congrArg some ht)⟩
        exact .inr ⟨[], ls, r, [], rfl, .nil, hr, hop, hbody⟩
      | call _ _ hr =>
        rw [hr] at hb₁
        cases hb₁
      | close => cases hb₁
    · exact .inr ⟨l :: front, body, r₀, _, rfl, .cons hs hf, h₀, hop, hbody⟩

/-- The line at which a run from outside of blocks stops is one of its lines. -/
lemma line_mem_of_run {d : Dialect} {ls : List Line} {s : Stop}
    (h : run { dialect := d } ls = .error s) : s.line ∈ ls := by
  rcases run_eq_error h with ⟨front, l, back, r', records, rfl, -, -, rfl⟩ |
    ⟨r', records, b, hs, hb, rfl⟩
  · exact List.mem_append_right _ List.mem_cons_self
  · rcases hs.opened hb with ⟨b', hb', -⟩ | ⟨front, body, r₀, records', rfl, -⟩
    · cases hb'
    · exact List.mem_append_right _ List.mem_cons_self

end Reader

end Nodal
