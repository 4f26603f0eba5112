import Nodal.Proofs.Netlist.Relabelling
import Nodal.Proofs.Source.Spacing
/-!
# Blanks and line ends

Reading sees of a line only its words, so texts with the same words are read alike: to the same records, but
for the texts of directives and comments, or up to the same line (`Netlist.read_sameWords`). That a line is
a comment could as well be seen from the line itself (`Dialect.isComment_words`).
-/

namespace Nodal

/-- Leaves out the texts of lines. -/
def Relabelling.textless : Relabelling where
  line := Line.bare
  number := id
  text := fun _ => ""
  words_line := Line.words_bare
  number_line _ := rfl
  trimmed_line _ := rfl

namespace Netlist

/-- Texts with the same words are read to the same records, but for the texts of directives and comments,
and the same dialect, or they are both refused at the same line. -/
lemma read_sameWords {text text' : String} (h : SameWords text text') (d : Dialect) :
    match read d text, read d text' with
    | .ok n, .ok n' =>
      n.records.map (Record.relabel .textless) = n'.records.map (Record.relabel .textless) ∧
        n.dialect = n'.dialect
    | .error e, .error e' => e.line = e'.line
    | _, _ => False := by
  -- both runs come to the run over the bare lines
  have hrun := Reader.run_relabel .textless { dialect := d } (Source.lines text)
  have hrun' := Reader.run_relabel .textless { dialect := d } (Source.lines text')
  have hlines : (Source.lines text).map Relabelling.textless.line =
      (Source.lines text').map Relabelling.textless.line := Source.map_bare_lines h
  rw [hlines, hrun'] at hrun
  simp only [read]
  cases hr : Reader.run { dialect := d } (Source.lines text) with
  | ok n =>
    cases hr' : Reader.run { dialect := d } (Source.lines text') with
    | ok n' =>
      rw [hr, hr'] at hrun
      have hn : n'.relabel .textless = n.relabel .textless := Except.ok.inj hrun
      have hd := congrArg Netlist.dialect hn.symm
      exact ⟨congrArg Netlist.records hn.symm, hd⟩
    | error s' =>
      rw [hr, hr'] at hrun
      cases hrun
  | error s =>
    cases hr' : Reader.run { dialect := d } (Source.lines text') with
    | ok n' =>
      rw [hr, hr'] at hrun
      cases hrun
    | error s' =>
      rw [hr, hr'] at hrun
      have hs : s'.relabel .textless = s.relabel .textless := Except.error.inj hrun
      have hl := congrArg (fun s : Stop => s.line.number) hs.symm
      exact hl

end Netlist

namespace Source

/-- A mark without separators stands at the start of a text iff it stands at the start of its first run. -/
lemma isPrefixOf_head_splitOnP {p : Char → Bool} {mark : List Char} (hm : ∀ c ∈ mark, p c = false)
    (cs : List Char) : mark.isPrefixOf ((cs.splitOnP p).headD []) = mark.isPrefixOf cs := by
  induction mark generalizing cs with
  | nil => simp [List.isPrefixOf]
  | cons a mark ih =>
    have ha := hm a List.mem_cons_self
    cases cs with
    | nil => rfl
    | cons c cs =>
      rw [List.splitOnP_cons_eq_if_modifyHead]
      cases hc : p c with
      | true =>
        have hac : (a == c) = false := by
          rw [beq_eq_false_iff_ne]
          rintro rfl
          rw [ha] at hc
          cases hc
        simp [List.isPrefixOf, hac]
      | false =>
        have hs := ih (fun b hb => hm b (List.mem_cons_of_mem a hb)) cs
        obtain ⟨run, runs, hr⟩ := List.exists_cons_of_ne_nil (List.splitOnP_ne_nil p cs)
        rw [hr] at hs ⊢
        simpa [List.isPrefixOf] using congrArg (a == c && ·) hs

/-- Separators in front of a text leave its pieces as they are, but for empty ones. -/
lemma filter_splitOnP_dropWhile (p : Char → Bool) (cs : List Char) :
    ((cs.dropWhile p).splitOnP p).filter (· ≠ []) = (cs.splitOnP p).filter (· ≠ []) := by
  induction cs with
  | nil => rfl
  | cons c cs ih =>
    cases hc : p c with
    | true => simpa [List.dropWhile_cons, List.splitOnP_cons_eq_if_modifyHead, hc] using ih
    | false => simp [hc]

/-- A mark stands at the start of a line, behind blanks, iff its first word starts with it. -/
lemma isPrefixOf_trimmed {text : String} {l : Line} (hl : l ∈ lines text) (mark : List Char)
    (hne : mark ≠ []) (hm : mark.any Text.isSeparator = false) :
    mark.isPrefixOf l.trimmed.toList =
      match l.words with
      | [] => false
      | first :: _ => mark.isPrefixOf first.toList := by
  obtain ⟨number, offset, raw, -, rfl⟩ := exists_eq_lineOf hl
  have htrim : (lineOf number offset raw).trimmed.toList =
      (splitEnd raw).1.dropWhile Text.isSeparator := by
    simp [Line.trimmed, lineOf]
  have hfree : ∀ c ∈ mark, Text.isSeparator c = false := fun c hc =>
    Bool.eq_false_iff.2 (List.any_eq_false.1 hm c hc)
  rw [words_lineOf, htrim, ← filter_splitOnP_dropWhile, ← isPrefixOf_head_splitOnP hfree]
  cases hcs : (splitEnd raw).1.dropWhile Text.isSeparator with
  | nil =>
    cases mark with
    | nil => exact absurd rfl hne
    | cons a mark => simp
  | cons c cs =>
    have hc : Text.isSeparator c = false := by
      have hh := List.head_dropWhile_not Text.isSeparator (l := (splitEnd raw).1) (by simp [hcs])
      simpa [hcs] using hh
    obtain ⟨run, runs, hr⟩ := List.exists_cons_of_ne_nil (List.splitOnP_ne_nil Text.isSeparator cs)
    simp [List.splitOnP_cons_eq_if_modifyHead, hc, hr]

end Source

/-- Whether some characters start with a comment mark of the dialect. -/
def Dialect.startsComment (d : Dialect) (cs : List Char) : Bool :=
  match d with
  | .spice => "*".toList.isPrefixOf cs
  | .spectre => "//".toList.isPrefixOf cs || "*".toList.isPrefixOf cs

/-- A line is a comment iff it starts, behind blanks, with a comment mark of the dialect. -/
lemma Dialect.isComment_words {text : String} {l : Line} (hl : l ∈ Source.lines text) (d : Dialect) :
    d.isComment l.words = d.startsComment l.trimmed.toList := by
  have hstar := Source.isPrefixOf_trimmed hl "*".toList (by decide) (by decide)
  have hslash := Source.isPrefixOf_trimmed hl "//".toList (by decide) (by decide)
  unfold startsComment
  rw [hstar, hslash]
  cases d <;> cases l.words <;> rfl

end Nodal
