import Nodal.Proofs.Dialect.Rules
import Nodal.Proofs.Netlist.Records
/-!
# Element lines with a wrong number of nets

A line that looks like an element of a known kind but lists too few or too many nets is taken by none
of the rules that are asked after the rule for elements, with one exception: in Spectre a line whose
second word names an analysis is a directive, whatever its first letter. So reading refuses a text
with such a line, or keeps the line as a directive (`Netlist.read_miscounted`).
-/

namespace Nodal

namespace ElementLine

/-- Whether a name of a known kind, which the dialect does not reserve, is followed by net names whose
number is not the number of terminals of the kind. -/
structure Miscounted (d : Dialect) (name : String) (nets : List String) : Prop where
  isName : isNetName name = true
  free : d.reservesName name = false
  nonempty : nets ≠ []
  areNets : ∀ net ∈ nets, isNetName net = true
  count : ∃ letter tail k, name.toList = letter :: tail ∧ Kind.ofLetter? letter = some k ∧
    nets.length ≠ k.terminalCount

namespace Miscounted

variable {d : Dialect} {name value : String} {nets : List String}

/-- A line with the wrong number of nets is no element. -/
lemma ofWords?_eq_none (h : Miscounted d name nets) (n : Nat) :
    ofWords? d n (name :: nets ++ [value]) = none := by
  obtain ⟨letter, tail, k, hn, hk, hc⟩ := h.count
  rw [ofWords?_eq d n hn h.nonempty]
  have ha : admits d letter nets (name :: nets ++ [value]) = false := by
    simpa [admits, hk] using hc
  simp only [ha, Bool.and_false, Bool.false_and, Bool.false_eq_true, if_false]

/-- A line with the wrong number of nets is no switch. -/
lemma switch?_eq_none (h : Miscounted d name nets) :
    Dialect.switch? (name :: nets ++ [value]) = none := by
  apply Dialect.switch?_eq_none
  rintro rfl
  obtain ⟨letter, tail, k, hn, hk, -⟩ := h.count
  -- no kind has the letter `s`
  cases hn
  cases hk

/-- A line with the wrong number of nets closes no subcircuit. -/
lemma closes_eq_false (h : Miscounted d name nets) (subcircuit : String) :
    d.closes subcircuit (name :: nets ++ [value]) = false := by
  obtain ⟨net, rest, rfl⟩ := List.exists_cons_of_ne_nil h.nonempty
  cases rest <;> rfl

/-- A line with the wrong number of nets is no comment. -/
lemma isComment_eq_false (h : Miscounted d name nets) :
    d.isComment (name :: nets ++ [value]) = false :=
  Dialect.isComment_of_isNetName h.isName _

/-- A line with the wrong number of nets is no title. -/
lemma title?_eq_none (h : Miscounted d name nets) :
    d.title? (name :: nets ++ [value]) = none :=
  Dialect.title?_eq_none (Dialect.opens_of_isNetName h.isName h.free) _

/-- In Spice the name would have to start with `X`, in Spectre the nets with a parenthesis. -/
lemma call?_eq_none (h : Miscounted d name nets) :
    d.call? (name :: nets ++ [value]) = none := by
  rw [Dialect.call?_eq]
  cases d with
  | spice => simp [Dialect.isLabel_of_free h.free]
  | spectre =>
    obtain ⟨net, rest, rfl⟩ := List.exists_cons_of_ne_nil h.nonempty
    have hu := NetList.unwrap?_of_isNetName (h.areNets net List.mem_cons_self) true rest
    simp [Dialect.callNets?, hu]

/-- Only Spectre can take the line as a directive, for the analysis that its second word names. -/
lemma isDirective_iff (h : Miscounted d name nets) :
    d.isDirective (name :: nets ++ [value]) = true ↔
      d = .spectre ∧ isIdentifier name = true ∧ ∃ net ∈ nets.head?, net ∈ Dialect.analyses := by
  obtain ⟨net, rest, hr⟩ := List.exists_cons_of_ne_nil h.nonempty
  cases d with
  | spice => simp [Dialect.isDirective, Dialect.isDotted_of_isNetName h.isName]
  | spectre =>
    have hf := h.free
    simp only [Dialect.reservesName, Bool.or_eq_false_iff] at hf
    have hk : name ∉ Dialect.keywords := by simpa using hf.2
    simp [Dialect.isDirective, hk, hr]

end Miscounted

end ElementLine

namespace Reader

/-- Reading can take a line with a wrong number of nets as nothing but a directive. -/
lemma Step.of_miscounted {r r' : Reader} {l : Line} {out : Option Record} {name value : String}
    {nets : List String} (h : r.Step l r' out) (hw : l.words = name :: nets ++ [value])
    (hm : ElementLine.Miscounted r.dialect name nets) :
    r.dialect.isDirective l.words = true ∧
      r.take (.directive (Directive.ofLine r.dialect l)) = (r', out) := by
  cases h with
  | blank hb =>
    have hn : l.words = [] := by simpa [Line.isBlank, Line.words] using hb
    rw [hn] at hw
    cases hw
  | switch _ hs =>
    rw [hw, hm.switch?_eq_none] at hs
    cases hs
  | item _ _ _ hi ht =>
    unfold Item.ofLine? at hi
    rw [hw, hm.ofWords?_eq_none, hm.isComment_eq_false] at hi
    rw [hw]
    cases hd : r.dialect.isDirective (name :: nets ++ [value]) with
    | true =>
      simp only [hd, if_true] at hi
      cases hi
      exact ⟨rfl, ht⟩
    | false =>
      simp only [hd, Bool.false_eq_true, if_false] at hi
      cases hi
  | title _ _ _ _ ht =>
    rw [hw, hm.title?_eq_none] at ht
    cases ht
  | call _ _ _ _ _ hc =>
    rw [hw, hm.call?_eq_none] at hc
    cases hc
  | close _ _ _ hc =>
    rw [hw, hm.closes_eq_false] at hc
    cases hc

end Reader

namespace Netlist

/-- A line of a known kind with a wrong number of nets is refused, unless its second word names an analysis in
Spectre, where it may be kept as a directive. -/
theorem read_miscounted {d : Dialect} {text : String} {before after : List Line} {l : Line}
    {name value : String} {nets : List String} (hl : Source.lines text = before ++ l :: after)
    (hw : l.words = name :: nets ++ [value])
    (hm : ElementLine.Miscounted (d.after before) name nets) :
    (∃ e, read d text = .error e) ∨
      (d.after before = .spectre ∧ isIdentifier name = true ∧
        (∃ net ∈ nets.head?, net ∈ Dialect.analyses) ∧
        ∃ n, read d text = .ok n ∧
          ∃ record ∈ n.records, .directive (Directive.ofLine .spectre l) ∈ record.items) := by
  cases hr : read d text with
  | error e => exact .inl ⟨e, rfl⟩
  | ok n =>
    have hrun := run_of_read hr
    rw [hl] at hrun
    obtain ⟨r, records, m, hs, hrun', hn, -⟩ := Reader.run_append_eq_ok hrun
    obtain ⟨r', out, m', hstep, hrun'', hm', -⟩ := Reader.run_cons_eq_ok hrun'
    -- the state that the line meets reads in the dialect of the last switch before it
    have hd : r.dialect = d.after before := hs.dialect
    rw [← hd] at hm ⊢
    obtain ⟨hdir, ht⟩ := hstep.of_miscounted hw hm
    rw [hw] at hdir
    obtain ⟨hspectre, hname, hnet⟩ := hm.isDirective_iff.1 hdir
    refine .inr ⟨hspectre, hname, hnet, n, rfl, ?_⟩
    rw [hspectre] at ht
    rw [hn, hm']
    rcases Reader.mem_items_of_take ht with hi | ⟨record, hrec, hi⟩
    · obtain ⟨record, hrec, hi'⟩ := Reader.mem_items_of_run hrun'' hi
      exact ⟨record, List.mem_append_right _ (List.mem_append_right _ hrec), hi'⟩
    · refine ⟨record, List.mem_append_right _ (List.mem_append_left _ ?_), hi⟩
      exact Option.mem_toList.2 hrec

/-- A resistor with three nets in the body of a subcircuit, behind a switch to Spectre. -/
theorem read_miscounted_body :
    let text := "simulator lang=spectre\nsubckt S (a)\nR1 a b c 1\nends S\n"
    let before := (Source.lines text).take 2
    let l := Source.lineOf 3 36 "R1 a b c 1\n".toList
    Source.lines text = before ++ l :: (Source.lines text).drop 3 ∧
      l.words = "R1" :: ["a", "b", "c"] ++ ["1"] ∧
      ElementLine.Miscounted (Dialect.spice.after before) "R1" ["a", "b", "c"] ∧
      ((∃ e, read .spice text = .error e) ∨
        (Dialect.spice.after before = .spectre ∧ isIdentifier "R1" = true ∧
          (∃ net ∈ ["a", "b", "c"].head?, net ∈ Dialect.analyses) ∧
          ∃ n, read .spice text = .ok n ∧
            ∃ record ∈ n.records, .directive (Directive.ofLine .spectre l) ∈ record.items)) := by
  intro text before l
  have hl : Source.lines text = before ++ l :: (Source.lines text).drop 3 := by decide +kernel
  have hw : l.words = "R1" :: ["a", "b", "c"] ++ ["1"] := by decide +kernel
  have hd : Dialect.spice.after before = .spectre := by decide +kernel
  have hm : ElementLine.Miscounted (Dialect.spice.after before) "R1" ["a", "b", "c"] := by
    rw [hd]
    exact ⟨by decide, by decide, by decide, by decide, 'R', ['1'], .resistor, by decide⟩
  exact ⟨hl, hw, hm, read_miscounted hl hw hm⟩

/-- In Spectre a resistor with three nets, the first of them called like an analysis, is not refused. -/
theorem read_miscounted_analysis :
    let text := "R1 ac b c 1\n"
    let l := Source.lineOf 1 0 text.toList
    Source.lines text = [l] ∧ l.words = "R1" :: ["ac", "b", "c"] ++ ["1"] ∧
      ElementLine.Miscounted .spectre "R1" ["ac", "b", "c"] ∧
      read .spectre text =
        .ok { records := [.item (.directive (Directive.ofLine .spectre l))], dialect := .spectre } := by
  refine ⟨by decide +kernel, by decide +kernel, ?_, by rfl⟩
  exact ⟨by decide, by decide, by decide, by decide, 'R', ['1'], .resistor, by decide⟩

end Netlist

end Nodal
