import Nodal.Proofs.Netlist.Accounting
import Nodal.Proofs.Source.Runs
/-!
# Lines that switch the dialect

`Dialect.SpellsSwitch` is how a switch of the dialect is meant to be written: `simulator lang=name`, with blanks
around the equals sign or none. `Dialect.ReadsSwitch` is how one can be written, namely with blanks anywhere behind
`simulator`, also inside of `lang` and of the name. The lines that are taken for switches are the latter
(`Dialect.switch?_words_iff`), and they are the former just where the equals sign and the blanks part the line
into three (`Dialect.spellsSwitch_iff`). No other line changes the dialect (`Netlist.read_switches`).
-/

namespace Nodal

namespace Text

def AreBlanks (cs : List Char) : Prop :=
  ∀ c ∈ cs, isSeparator c = true

/-- The characters that part what a switch says: blanks and the equals sign. -/
def isBreak (c : Char) : Bool :=
  isSeparator c || c == '='

end Text

namespace Dialect

open Text (AreBlanks isSeparator isBreak)
open Source (runs)

/-- Whether characters are the name of a dialect in any case. -/
def IsNamed (d : Dialect) (name : List Char) : Prop :=
  name.map Char.toLower = d.name.toList

/-- Whether a line reads `simulator lang=name` for the dialect of this name. Blanks have to stand behind
`simulator`, and may stand in front, around the equals sign and at the end. -/
inductive SpellsSwitch (d : Dialect) : List Char → Prop where
  | intro {front gap before behind name back} :
    AreBlanks front →
    AreBlanks gap →
    gap ≠ [] →
    AreBlanks before →
    AreBlanks behind →
    d.IsNamed name →
    AreBlanks back →
    SpellsSwitch d (front ++ "simulator".toList ++ gap ++ "lang".toList ++ before ++ '=' :: behind ++ name ++ back)

/-- Whether a line reads `simulator lang=name`, with blanks behind `simulator` and then anywhere. -/
inductive ReadsSwitch (d : Dialect) : List Char → Prop where
  | intro {front gap rest name} :
    AreBlanks front →
    AreBlanks gap →
    gap ≠ [] →
    rest.filter (!isSeparator ·) = "lang=".toList ++ name →
    d.IsNamed name →
    ReadsSwitch d (front ++ "simulator".toList ++ gap ++ rest)

/-- What is left behind a beginning is what stands behind it. -/
lemma isPrefixOf?_eq_some_iff {front cs back : List Char} :
    front.isPrefixOf? cs = some back ↔ cs = front ++ back := by
  induction front generalizing cs with
  | nil => exact ⟨Option.some.inj, congrArg some⟩
  | cons a front ih =>
    cases cs with
    | nil =>
      show none = some back ↔ [] = a :: (front ++ back)
      exact iff_of_false (Option.some_ne_none back).symm (List.cons_ne_nil _ _).symm
    | cons c cs =>
      show (if a == c then front.isPrefixOf? cs else none) = some back ↔ c :: cs = a :: (front ++ back)
      by_cases hc : a = c
      · rw [if_pos (beq_iff_eq.2 hc), ih, hc, List.cons_inj_right]
      · rw [if_neg (by simpa using hc)]
        exact iff_of_false (Option.some_ne_none back).symm fun h => hc (List.cons.inj h).1.symm

variable {d : Dialect} {cs name : List Char}

/-- A word means a dialect iff it is its name, in any case. -/
lemma ofName?_eq_some_iff : ofName? (String.ofList name) = some d ↔ d.IsNamed name := by
  simp only [ofName?, lowercase, String.toList_ofList, IsNamed]
  by_cases hspice : name.map Char.toLower = "spice".toList
  · cases d with
    | spice => simp [hspice, Dialect.name]
    | spectre => simp [hspice, Dialect.name]
  · by_cases hspectre : name.map Char.toLower = "spectre".toList
    · cases d with
      | spice => simp [hspectre, Dialect.name]
      | spectre => simp [hspectre, Dialect.name]
    · rw [if_neg hspice, if_neg hspectre]
      refine iff_of_false (Option.some_ne_none d).symm ?_
      cases d with
      | spice => exact hspice
      | spectre => exact hspectre

/-- A switch is `simulator`, and behind it words that read `lang=name` together. -/
lemma switch?_eq_some_iff {words : List String} :
    switch? words = some d ↔ ∃ rest name, words = "simulator" :: rest ∧
      rest.flatMap String.toList = "lang=".toList ++ name ∧ d.IsNamed name := by
  cases words with
  | nil => simp [switch?]
  | cons first rest =>
    by_cases hf : first = "simulator"
    · simp only [switch?, if_pos hf, Option.bind_eq_some_iff, isPrefixOf?_eq_some_iff, ofName?_eq_some_iff]
      constructor
      · rintro ⟨name, hrest, hname⟩
        exact ⟨rest, name, by rw [hf], hrest, hname⟩
      · rintro ⟨rest', name, hw, hrest, hname⟩
        obtain ⟨-, rfl⟩ := List.cons.inj hw
        exact ⟨name, hrest, hname⟩
    · simp [switch?, hf]

/-- The name of a dialect is not empty. -/
lemma IsNamed.ne_nil (h : d.IsNamed name) : name ≠ [] := by
  rintro rfl
  cases d <;> cases h

/-- Neither a blank nor an equals sign stands in the name of a dialect. -/
lemma IsNamed.isBreak_eq_false (h : d.IsNamed name) : ∀ c ∈ name, isBreak c = false := by
  intro c hc
  have hlower : c.toLower ∈ d.name.toList := h ▸ List.mem_map_of_mem hc
  rw [Bool.eq_false_iff]
  intro hb
  simp only [isBreak, isSeparator, Bool.or_eq_true, beq_iff_eq] at hb
  rcases hb with (rfl | rfl) | rfl <;> revert hlower <;> cases d <;> decide

/-- What does not part a switch is no blank. -/
lemma isSeparator_eq_false {c : Char} (h : isBreak c = false) : isSeparator c = false :=
  (Bool.or_eq_false_iff.1 h).1

/-- The words of a line are a switch iff the line reads as one. -/
lemma switch?_runs_iff :
    switch? ((runs isSeparator cs).map String.ofList) = some d ↔ ReadsSwitch d cs := by
  rw [switch?_eq_some_iff]
  constructor
  · rintro ⟨rest, name, hw, hrest, hname⟩
    obtain ⟨run, later, hruns, hrun, rfl⟩ := List.map_eq_cons_iff.1 hw
    obtain ⟨front, back, rfl, hfront, hhead, rfl⟩ := Source.exists_of_runs_eq_cons hruns
    have hback : back.filter (!isSeparator ·) = "lang=".toList ++ name := by
      rw [← hrest, ← Source.flatten_runs, List.flatMap_map]
      simp [List.flatMap]
    obtain rfl : run = "simulator".toList := by rw [← hrun, String.toList_ofList]
    cases back with
    | nil => cases hback
    | cons c back =>
      have hc := hhead c rfl
      rw [List.filter_cons_of_neg (by simp [hc])] at hback
      have h := ReadsSwitch.intro hfront (List.forall_mem_singleton.2 hc) (List.cons_ne_nil _ _) hback hname
      rwa [List.append_assoc, List.singleton_append] at h
  · intro h
    cases h with
    | @intro front gap rest name hfront hgap hne hrest hname =>
      refine ⟨(runs isSeparator rest).map String.ofList, name, ?_, ?_, hname⟩
      · have hfree : ∀ c ∈ "simulator".toList, isSeparator c = false := by simp [isSeparator]
        rw [Source.runs_word hfront (by decide) hfree hgap (absurd · hne), List.map_cons,
          String.ofList_toList]
      · rw [← hrest, ← Source.flatten_runs, List.flatMap_map]
        simp [List.flatMap]

/-! ### Blanks where they are meant to stand -/

/-- Blanks part a switch. -/
lemma isBreak_of_areBlanks (h : AreBlanks cs) : ∀ c ∈ cs, isBreak c = true := by
  intro c hc
  rw [isBreak, h c hc, Bool.true_or]

/-- The word `simulator` holds together. -/
lemma isBreak_simulator : ∀ c ∈ "simulator".toList, isBreak c = false := by
  simp [isBreak, isSeparator]

/-- The word `lang` holds together. -/
lemma isBreak_lang : ∀ c ∈ "lang".toList, isBreak c = false := by
  simp [isBreak, isSeparator]

/-- Nothing is left of blanks. -/
lemma filter_areBlanks (h : AreBlanks cs) : cs.filter (!isSeparator ·) = [] := by
  rw [List.filter_eq_nil_iff]
  intro c hc
  simp [h c hc]

/-- A word that holds together stays when equals signs are left out with the blanks. -/
lemma filter_isBreak {word : List Char} (h : cs.filter (!isSeparator ·) = word)
    (hfree : ∀ c ∈ word, isBreak c = false) : cs.filter (!isBreak ·) = word := by
  calc
    cs.filter (!isBreak ·) = (cs.filter (!isSeparator ·)).filter (!isBreak ·) := by
      rw [List.filter_filter]
      refine List.filter_congr fun c _ => ?_
      cases hc : isSeparator c <;> simp [isBreak, hc]
    _ = word.filter (!isBreak ·) := by rw [h]
    _ = word := List.filter_eq_self.2 fun c hc => by simp [hfree c hc]

/-- A text that holds a word has a run. -/
lemma length_runs_pos {word : List Char} (h : cs.filter (!isSeparator ·) = word)
    (hfree : ∀ c ∈ word, isBreak c = false) (hne : word ≠ []) : 0 < (runs isBreak cs).length := by
  rw [List.length_pos_iff]
  intro hnone
  apply hne
  rw [← filter_isBreak h hfree, ← Source.flatten_runs, hnone, List.flatten_nil]

/-- A word with blanks in it has several runs, and one with blanks around it is one run. -/
lemma exists_blanks {word : List Char} (h : cs.filter (!isSeparator ·) = word)
    (hfree : ∀ c ∈ word, isBreak c = false) (hone : (runs isBreak cs).length = 1) :
    ∃ before behind, AreBlanks before ∧ AreBlanks behind ∧ cs = before ++ word ++ behind := by
  have hblank : ∀ c ∈ cs, isBreak c = true → isSeparator c = true := by
    intro c hc hb
    by_contra hs
    have hm : c ∈ word := h ▸ List.mem_filter.2 ⟨hc, by simpa using hs⟩
    rw [hfree c hm] at hb
    cases hb
  obtain ⟨run, hrun⟩ := List.length_eq_one_iff.1 hone
  obtain rfl : run = word := by
    rw [← filter_isBreak h hfree, ← Source.flatten_runs, hrun, List.flatten_singleton]
  obtain ⟨before, behind, rfl, hbefore, -, hnone⟩ := Source.exists_of_runs_eq_cons hrun
  refine ⟨before, behind, fun c hc => ?_, fun c hc => ?_, rfl⟩
  · exact hblank c (by simp [hc]) (hbefore c hc)
  · exact hblank c (by simp [hc]) (Source.of_runs_eq_nil hnone c hc)

/-- A switch that is spelled as it is meant is read. -/
lemma SpellsSwitch.reads (h : SpellsSwitch d cs) : ReadsSwitch d cs := by
  cases h with
  | @intro front gap before behind name back hfront hgap hne hbefore hbehind hname hback =>
    have hfilter : name.filter (!isSeparator ·) = name := by
      rw [List.filter_eq_self]
      intro c hc
      simp [isSeparator_eq_false (hname.isBreak_eq_false c hc)]
    have hrest : ("lang".toList ++ (before ++ '=' :: (behind ++ (name ++ back)))).filter (!isSeparator ·) =
        "lang=".toList ++ name := by
      rw [List.filter_append, List.filter_append, List.filter_cons_of_pos (by decide), List.filter_append,
        List.filter_append, filter_areBlanks hbefore, filter_areBlanks hbehind, filter_areBlanks hback,
        hfilter, List.append_nil]
      rfl
    have h := ReadsSwitch.intro hfront hgap hne hrest hname
    simpa only [List.append_assoc, List.cons_append] using h

/-- A switch that is spelled as it is meant falls into three runs. -/
lemma SpellsSwitch.length_runs (h : SpellsSwitch d cs) : (runs isBreak cs).length = 3 := by
  cases h with
  | @intro front gap before behind name back hfront hgap hne hbefore hbehind hname hback =>
    have hequals : ∀ c ∈ '=' :: behind, isBreak c = true :=
      List.forall_mem_cons.2 ⟨rfl, isBreak_of_areBlanks hbehind⟩
    have hthird : runs isBreak ('=' :: behind ++ name ++ back ++ []) = [name] := by
      rw [Source.runs_word hequals hname.ne_nil hname.isBreak_eq_false (isBreak_of_areBlanks hback),
        Source.runs_nil]
      rintro - c ⟨⟩
    have hsecond : runs isBreak ([] ++ "lang".toList ++ before ++ ('=' :: behind ++ name ++ back ++ [])) =
        ["lang".toList, name] := by
      rw [Source.runs_word (List.forall_mem_nil _) (by decide) isBreak_lang (isBreak_of_areBlanks hbefore),
        hthird]
      rintro - c ⟨⟩
      rfl
    have hcut : front ++ "simulator".toList ++ gap ++ "lang".toList ++ before ++ '=' :: behind ++ name ++ back =
        front ++ "simulator".toList ++ gap ++
          ([] ++ "lang".toList ++ before ++ ('=' :: behind ++ name ++ back ++ [])) := by
      simp only [List.append_assoc, List.nil_append, List.append_nil]
    rw [hcut, Source.runs_word (isBreak_of_areBlanks hfront) (by decide) isBreak_simulator
      (isBreak_of_areBlanks hgap) (absurd · hne), hsecond]
    rfl

/-- A line that reads as a switch is spelled as one is meant to be iff blanks and the equals sign part it into
three: then no blank stands inside of `lang` or of the name. -/
lemma spellsSwitch_iff : SpellsSwitch d cs ↔ ReadsSwitch d cs ∧ (runs isBreak cs).length = 3 := by
  refine ⟨fun h => ⟨h.reads, h.length_runs⟩, fun ⟨h, hthree⟩ => ?_⟩
  cases h with
  | @intro front gap rest name hfront hgap hne hrest hname =>
    -- the equals sign parts what stands behind the keyword into `lang` and the name
    obtain ⟨start, later, rfl, hstart, hlater⟩ := List.filter_eq_append_iff.1
      (show rest.filter (!isSeparator ·) = "lang".toList ++ '=' :: name from hrest)
    obtain ⟨blanks, right, rfl, hblanks, -, hright⟩ := List.filter_eq_cons_iff.1 hlater
    have hleft : (start ++ blanks).filter (!isSeparator ·) = "lang".toList := by
      rw [List.filter_append, hstart, List.filter_eq_nil_iff.2 hblanks, List.append_nil]
    have hparts : runs isBreak (front ++ "simulator".toList ++ gap ++ (start ++ (blanks ++ '=' :: right))) =
        "simulator".toList :: (runs isBreak (start ++ blanks) ++ runs isBreak right) := by
      rw [Source.runs_word (isBreak_of_areBlanks hfront) (by decide) isBreak_simulator
        (isBreak_of_areBlanks hgap) (absurd · hne), ← List.append_assoc, Source.runs_append_cons (by decide)]
    have hl := length_runs_pos hleft isBreak_lang (by decide)
    have hr := length_runs_pos hright hname.isBreak_eq_false hname.ne_nil
    rw [hparts, List.length_cons, List.length_append] at hthree
    obtain ⟨before, behind, hbefore, hbehind, hcut⟩ := exists_blanks hleft isBreak_lang (by omega)
    obtain ⟨before', behind', hbefore', hbehind', rfl⟩ := exists_blanks hright hname.isBreak_eq_false (by omega)
    have h := SpellsSwitch.intro hfront (List.forall_mem_append.2 ⟨hgap, hbefore⟩)
      (List.append_ne_nil_of_left_ne_nil hne before) hbehind hbefore' hname hbehind'
    rw [← List.append_assoc start, hcut]
    simpa only [List.append_assoc, List.cons_append] using h

/-- The lines of a text that are taken for switches are those that read as one. -/
lemma switch?_words_iff {text : String} {l : Line} (h : l ∈ Source.lines text) :
    switch? l.words = some d ↔ ReadsSwitch d l.text.toList := by
  rw [Source.words_eq_runs h, switch?_runs_iff]

/-- A line is no switch iff its text reads as none. -/
lemma switch?_words_eq_none_iff {text : String} {l : Line} (h : l ∈ Source.lines text) :
    switch? l.words = none ↔ ∀ d, ¬ ReadsSwitch d l.text.toList := by
  rw [Option.eq_none_iff_forall_ne_some]
  exact forall_congr' fun d => not_congr (switch?_words_iff h)

end Dialect

namespace Netlist

open Dialect (ReadsSwitch SpellsSwitch switch?)

/-- A line switches the dialect iff it reads as a switch, which leaves blanks in more places than it is meant
to, and the last switch decides on the dialect behind it. -/
theorem read_switches (text : String) :
    (∀ l ∈ Source.lines text, ∀ d,
      (switch? l.words = some d ↔ ReadsSwitch d l.text.toList) ∧
        (SpellsSwitch d l.text.toList ↔
          switch? l.words = some d ∧ (Source.runs Text.isBreak l.text.toList).length = 3)) ∧
      ∀ r ls r' records, (∀ l ∈ ls, l ∈ Source.lines text) → Reader.Steps r ls r' records →
        (∃ front l back, ls = front ++ l :: back ∧ ReadsSwitch r'.dialect l.text.toList ∧
          ∀ l' ∈ back, ∀ d, ¬ ReadsSwitch d l'.text.toList) ∨
        (∀ l ∈ ls, ∀ d, ¬ ReadsSwitch d l.text.toList) ∧ r'.dialect = r.dialect := by
  refine ⟨fun l hl d => ?_, fun r ls r' records hls hs => ?_⟩
  · rw [Dialect.switch?_words_iff hl]
    exact ⟨Iff.rfl, Dialect.spellsSwitch_iff⟩
  · rw [hs.dialect]
    rcases Dialect.chosen_after r.dialect ls with ⟨front, l, back, he, hsome, hnone⟩ | ⟨hnone, hd⟩
    · refine .inl ⟨front, l, back, he, ?_, fun l' hl' => ?_⟩
      · exact (Dialect.switch?_words_iff (hls l (by simp [he]))).1 hsome
      · exact (Dialect.switch?_words_eq_none_iff (hls l' (by simp [he, hl']))).1 (hnone l' hl')
    · exact .inr ⟨fun l hl => (Dialect.switch?_words_eq_none_iff (hls l hl)).1 (hnone l hl), hd⟩

/-- A switch with blanks on both sides of the equals sign and a name in mixed case, and a line behind it. -/
theorem read_switches_spaced :
    let text := " simulator\tlang = SpecTre \nR1 a 0 1\n"
    let l := Source.lineOf 1 0 " simulator\tlang = SpecTre \n".toList
    let l' := Source.lineOf 2 27 "R1 a 0 1\n".toList
    let r : Reader := { dialect := .spice }
    let r' : Reader := { dialect := .spectre }
    let switch : Directive :=
      { keyword := "simulator", args := ["lang", "=", "SpecTre"], text := "simulator\tlang = SpecTre "
        dialect := .spectre, line := 1 }
    let e : ElementLine := { letter := 'R', name := "R1", nets := ["a", "0"], value := "1", line := 2 }
    l ∈ Source.lines text ∧ switch? l.words = some .spectre ∧ ReadsSwitch .spectre l.text.toList ∧
      (Source.runs Text.isBreak l.text.toList).length = 3 ∧ SpellsSwitch .spectre l.text.toList ∧
      (∀ l₁ ∈ [l, l'], l₁ ∈ Source.lines text) ∧
      r.Steps [l, l'] r' [.item (.directive switch), .item (.element e)] ∧
      ((∃ front l₁ back, [l, l'] = front ++ l₁ :: back ∧ ReadsSwitch .spectre l₁.text.toList ∧
          ∀ l₂ ∈ back, ∀ d, ¬ ReadsSwitch d l₂.text.toList) ∨
        (∀ l₁ ∈ [l, l'], ∀ d, ¬ ReadsSwitch d l₁.text.toList) ∧ r'.dialect = r.dialect) := by
  intro text l l' r r' switch e
  have hlines : Source.lines text = [l, l'] := by decide +kernel
  have hls : ∀ l₁ ∈ [l, l'], l₁ ∈ Source.lines text := fun l₁ hm => hlines ▸ hm
  have hl : l ∈ Source.lines text := hls l List.mem_cons_self
  have hs : switch? l.words = some .spectre := by decide +kernel
  have hthree : (Source.runs Text.isBreak l.text.toList).length = 3 := by decide +kernel
  have hfirst : r.step l = .ok (r', some (.item (.directive switch))) := by decide +kernel
  have hsecond : r'.step l' = .ok (r', some (.item (.element e))) := by decide +kernel
  have hsteps : r.Steps [l, l'] r' [.item (.directive switch), .item (.element e)] :=
    .cons (Reader.step_eq_ok_iff.1 hfirst) (.cons (Reader.step_eq_ok_iff.1 hsecond) .nil)
  have hline := (read_switches text).1 l hl .spectre
  exact ⟨hl, hs, hline.1.1 hs, hthree, hline.2.2 ⟨hs, hthree⟩, hls, hsteps,
    (read_switches text).2 r [l, l'] r' _ hls hsteps⟩

/-- A line with a blank inside of `lang`, which is not how a switch is spelled and could be read as an element,
is taken for a switch. -/
theorem read_broken_switch :
    let text := "simulator la ng=spectre\n"
    let l := Source.lineOf 1 0 text.toList
    let e : ElementLine :=
      { letter := 'S', name := "simulator", nets := ["la"], value := "ng=spectre", line := 1 }
    let switch : Directive :=
      { keyword := "simulator", args := ["la", "ng=spectre"], text := "simulator la ng=spectre"
        dialect := .spectre, line := 1 }
    Source.lines text = [l] ∧ (∀ d, ¬ SpellsSwitch d l.text.toList) ∧
      Item.ofLine? .spice l = some (.element e) ∧
      read .spice text = .ok { records := [.item (.directive switch)], dialect := .spectre } := by
  intro text l e switch
  have hparts : (Source.runs Text.isBreak l.text.toList).length = 4 := by decide +kernel
  refine ⟨by decide +kernel, fun d h => ?_, by decide +kernel, by decide +kernel⟩
  have hthree := h.length_runs
  rw [hparts] at hthree
  cases hthree

end Netlist

end Nodal
