import Nodal.Proofs.Source.Lines
/-!
# Cutting a text between lines

A text of whole lines keeps its lines when another text follows it, and the lines of that text come
behind them, further down (`Source.lines_append`). Conversely a text can be cut in front of each of its
lines, and what stands before the cut has just the lines before it (`Source.exists_cut`).
-/

namespace Nodal

/-- Whether a text consists of whole lines: it is empty, or a line feed closes its last line. -/
def WholeLines (text : String) : Prop :=
  text = "" ∨ text.toList.getLast? = some '\n'

/-- The characters of whole lines are none or end with a line feed. -/
lemma WholeLines.toList {text : String} (h : WholeLines text) :
    text.toList = [] ∨ text.toList.getLast? = some '\n' :=
  h.imp_left fun he => by rw [he]; rfl

/-- The number of line feeds in a text. -/
def feedCount (text : String) : Nat :=
  text.toList.count '\n'

namespace Token

/-- The word when `j` more bytes stand before it. -/
def shift (j : Nat) (t : Token) : Token :=
  { t with offset := j + t.offset }

end Token

namespace Line

/-- The line when `k` more lines, of `j` bytes, stand before it. -/
def shift (k j : Nat) (l : Line) : Line :=
  { l with number := k + l.number, offset := j + l.offset, tokens := l.tokens.map (Token.shift j) }

section Shift

variable (k j : Nat) (l : Line)

/-- Lines in front raise the number of a line. -/
@[simp] lemma number_shift : (l.shift k j).number = k + l.number := rfl

/-- Lines in front leave the words of a line alone. -/
@[simp] lemma words_shift : (l.shift k j).words = l.words := by
  simp only [words, shift, List.map_map]
  rfl

/-- Lines in front leave the text from the first word on alone. -/
@[simp] lemma trimmed_shift : (l.shift k j).trimmed = l.trimmed := rfl

/-- Lines in front leave the column of the first word alone. -/
@[simp] lemma firstColumn_shift : (l.shift k j).firstColumn = l.firstColumn := by
  unfold firstColumn shift
  cases l.tokens with
  | nil => rfl
  | cons t ts => rfl

end Shift

/-- Lines in front leave the joined text alone. -/
@[simp] lemma join_map_shift (k j : Nat) (ls : List Line) : join (ls.map (shift k j)) = join ls := by
  rw [join, List.flatMap_map]
  rfl

end Line

namespace Source

section Shift

variable (j : Nat)

/-- Bytes in front shift the word that is placed. -/
lemma place_shift (column offset : Nat) (word : List Char) (later : List Token) :
    place column (j + offset) word (later.map (Token.shift j)) =
      (place column offset word later).map (Token.shift j) := by
  unfold place
  split <;> rfl

/-- Bytes in front shift the words of a scan. -/
lemma scan_shift (column offset : Nat) (cs : List Char) :
    scan column (j + offset) cs =
      ((scan column offset cs).1, (scan column offset cs).2.map (Token.shift j)) := by
  induction cs generalizing column offset with
  | nil => rfl
  | cons c cs ih =>
    simp only [scan, Nat.add_assoc, ih]
    split
    · rw [place_shift]
    · rfl

/-- Bytes in front shift the words of a line. -/
lemma tokens_shift (offset : Nat) (cs : List Char) :
    tokens (j + offset) cs = (tokens offset cs).map (Token.shift j) := by
  simp only [tokens, scan_shift, place_shift]

/-- Lines in front shift the lines of a text. -/
lemma numbered_shift (k number offset : Nat) (raws : List (List Char)) :
    numbered (k + number) (j + offset) raws = (numbered number offset raws).map (Line.shift k j) := by
  induction raws generalizing number offset with
  | nil => rfl
  | cons raw raws ih =>
    simp only [numbered, List.map_cons, Nat.add_assoc, ih]
    simp only [lineOf, tokens_shift, Line.shift]

end Shift

/-- Whole lines are texts without line feeds, each closed by one. -/
lemma exists_bodies {cs : List Char} (h : cs = [] ∨ cs.getLast? = some '\n') :
    ∃ css : List (List Char), (∀ body ∈ css, '\n' ∉ body) ∧ cs = css.flatMap (· ++ ['\n']) := by
  induction cs with
  | nil => exact ⟨[], nofun, rfl⟩
  | cons c cs ih =>
    have hcs : cs = [] ∨ cs.getLast? = some '\n' := by
      cases cs with
      | nil => exact .inl rfl
      | cons c' cs => exact .inr (by simpa using h)
    obtain ⟨css, hn, he⟩ := ih hcs
    by_cases hc : c = '\n'
    · refine ⟨[] :: css, ?_, by simp [hc, he]⟩
      simpa using hn
    · -- the character comes at the start of the first line, which is there as `c` closes none
      cases css with
      | nil =>
        subst he
        simp [hc] at h
      | cons body css =>
        refine ⟨(c :: body) :: css, ?_, by simp [he]⟩
        have hb := hn body List.mem_cons_self
        have hr := fun b hm => hn b (List.mem_cons_of_mem _ hm)
        simpa [hb, Ne.symm hc] using hr

/-- Lines that are each closed by a line feed are whole lines. -/
lemma wholeLines_flatMap (css : List (List Char)) :
    WholeLines (String.ofList (css.flatMap (· ++ ['\n']))) := by
  rcases List.eq_nil_or_concat css with rfl | ⟨css, body, rfl⟩
  · exact .inl rfl
  · exact .inr (by simp)

/-- Lines that are each closed by a line feed have as many line feeds. -/
lemma count_feed_flatMap {css : List (List Char)} (h : ∀ body ∈ css, '\n' ∉ body) :
    (css.flatMap (· ++ ['\n'])).count '\n' = css.length := by
  induction css with
  | nil => rfl
  | cons body css ih =>
    have hb := List.count_eq_zero.2 (h body List.mem_cons_self)
    have hcss := ih fun b hm => h b (List.mem_cons_of_mem _ hm)
    rw [List.flatMap_cons, List.count_append, List.count_append, hb, hcss]
    simp [Nat.add_comm]

section Whole

variable {cs : List Char} (h : cs = [] ∨ cs.getLast? = some '\n')
include h

/-- The lines of a text behind whole lines come behind these. -/
lemma rawLines_append (rest : List Char) : rawLines (cs ++ rest) = rawLines cs ++ rawLines rest := by
  obtain ⟨css, hn, rfl⟩ := exists_bodies h
  rw [rawLines_flatMap_append hn, rawLines_flatMap hn]

/-- Whole lines are as many as their line feeds. -/
lemma length_rawLines : (rawLines cs).length = cs.count '\n' := by
  obtain ⟨css, hn, rfl⟩ := exists_bodies h
  rw [rawLines_flatMap hn, List.length_map, count_feed_flatMap hn]

end Whole

/-- The lines of a text behind whole lines come behind these. -/
lemma lines_append {a : String} (h : WholeLines a) (b : String) :
    lines (a ++ b) =
      lines a ++ (lines b).map (Line.shift (feedCount a) (byteLength a.toList)) := by
  simp only [lines, String.toList_append, rawLines_append h.toList, numbered_append,
    length_rawLines h.toList, flatten_rawLines, ← numbered_shift, feedCount, Nat.add_comm]

/-- Numbering leaves the number of lines alone. -/
lemma length_numbered (number offset : Nat) (raws : List (List Char)) :
    (numbered number offset raws).length = raws.length := by
  induction raws generalizing number offset with
  | nil => rfl
  | cons raw raws ih => rw [numbered, List.length_cons, ih, List.length_cons]

/-- A text of whole lines has as many lines as line feeds. -/
lemma length_lines {a : String} (h : WholeLines a) : (lines a).length = feedCount a := by
  rw [lines, length_numbered, length_rawLines h.toList, feedCount]

/-- A line has the characters that it was made of. -/
lemma source_lineOf (number offset : Nat) (raw : List Char) :
    (lineOf number offset raw).source = raw := by
  simp only [Line.source, lineOf, String.toList_ofList]
  exact splitEnd_append raw

/-- Joined, numbered lines have the characters they were made of. -/
lemma join_numbered (number offset : Nat) (raws : List (List Char)) :
    Line.join (numbered number offset raws) = String.ofList raws.flatten := by
  have h : (numbered number offset raws).flatMap Line.source = raws.flatten := by
    induction raws generalizing number offset with
    | nil => rfl
    | cons raw raws ih => rw [numbered, List.flatMap_cons, source_lineOf, ih, List.flatten_cons]
  rw [Line.join, h]

/-- A text without line feeds is one line at most. -/
lemma length_rawLines_le_one {cs : List Char} (h : '\n' ∉ cs) : (rawLines cs).length ≤ 1 := by
  induction cs with
  | nil => simp [rawLines]
  | cons c cs ih =>
    have hc : c ≠ '\n' := fun hc => h (hc ▸ List.mem_cons_self)
    have hcs := ih fun hm => h (List.mem_cons_of_mem _ hm)
    rw [rawLines, if_neg hc]
    cases hr : rawLines cs with
    | nil => simp
    | cons l ls => simpa [hr] using hcs

/-- Lines in front of others are closed by line feeds. -/
lemma exists_bodies_of_rawLines {cs : List Char} {front back : List (List Char)}
    (h : rawLines cs = front ++ back) (hne : back ≠ []) :
    ∃ css : List (List Char), (∀ body ∈ css, '\n' ∉ body) ∧ front = css.map (· ++ ['\n']) := by
  induction front generalizing cs with
  | nil => exact ⟨[], nofun, rfl⟩
  | cons raw front ih =>
    by_cases hm : '\n' ∈ cs
    · obtain ⟨body, rest, rfl, hb⟩ := List.eq_append_cons_of_mem hm
      rw [rawLines_append_feed hb, List.cons_append] at h
      obtain ⟨rfl, hr⟩ := List.cons.inj h
      obtain ⟨css, hn, rfl⟩ := ih hr
      exact ⟨body :: css, List.forall_mem_cons.2 ⟨hb, hn⟩, rfl⟩
    · -- a text without line feeds is a single line
      have hl := length_rawLines_le_one hm
      have hpos := List.length_pos_iff.2 hne
      rw [h, List.length_append, List.length_cons] at hl
      omega

/-- A part of numbered lines comes from a part of the characters, numbered from its own place on. -/
lemma numbered_eq_append {number offset : Nat} {raws : List (List Char)} {front back : List Line}
    (h : numbered number offset raws = front ++ back) :
    ∃ raws₁ raws₂, raws = raws₁ ++ raws₂ ∧ numbered number offset raws₁ = front ∧
      numbered (number + raws₁.length) (offset + byteLength raws₁.flatten) raws₂ = back := by
  induction front generalizing number offset raws with
  | nil => exact ⟨[], raws, rfl, rfl, h⟩
  | cons l front ih =>
    cases raws with
    | nil => cases h
    | cons raw raws =>
      obtain ⟨rfl, hr⟩ := List.cons.inj h
      obtain ⟨raws₁, raws₂, rfl, hf, hb⟩ := ih hr
      refine ⟨raw :: raws₁, raws₂, rfl, by rw [numbered, hf], ?_⟩
      rw [← hb, List.length_cons, List.flatten_cons, byteLength_append, Nat.add_comm raws₁.length,
        ← Nat.add_assoc, ← Nat.add_assoc]

/-- The bytes of a text are those of its characters. -/
lemma utf8ByteSize_ofList (cs : List Char) : (String.ofList cs).utf8ByteSize = byteLength cs := by
  induction cs with
  | nil => rfl
  | cons c cs ih =>
    rw [← List.singleton_append, String.ofList_append, String.utf8ByteSize_append, ih, byteLength_append]
    simp [byteLength]

/-- Whether a text is cut in front of a line `l`, with `p` before the cut and the lines `back` behind
the line. -/
structure Cut (text p : String) (l : Line) (back : List Line) : Prop where
  whole : WholeLines p
  eq_append : text = p ++ Line.join (l :: back)
  lines_eq : lines text = lines p ++ l :: back
  number_eq : l.number = feedCount p + 1
  offset_eq : l.offset = p.utf8ByteSize

/-- A text can be cut in front of any of its lines. -/
lemma exists_cut {text : String} {front back : List Line} {l : Line}
    (h : lines text = front ++ l :: back) : ∃ p, lines p = front ∧ Cut text p l back := by
  obtain ⟨raws₁, raws₂, hraws, hf, hb⟩ := numbered_eq_append h
  have hne : raws₂ ≠ [] := by
    rintro rfl
    cases hb
  obtain ⟨css, hn, rfl⟩ := exists_bodies_of_rawLines hraws hne
  have hlines : lines (String.ofList (css.flatMap (· ++ ['\n']))) = front := by
    rw [lines, String.toList_ofList, rawLines_flatMap hn, hf]
  obtain ⟨raw, raws, rfl⟩ := List.exists_cons_of_ne_nil hne
  obtain ⟨hl, -⟩ := List.cons.inj hb
  refine ⟨_, hlines, wholeLines_flatMap css, ?_, by rw [hlines, h], ?_, ?_⟩
  · rw [← hb, join_numbered, ← String.ofList_append, ← String.toList_inj, String.toList_ofList,
      ← flatten_rawLines text.toList, hraws, List.flatten_append, List.flatMap_def]
  · subst hl
    change 1 + (css.map (· ++ ['\n'])).length = _
    rw [List.length_map, feedCount, String.toList_ofList, count_feed_flatMap hn, Nat.add_comm]
  · subst hl
    change 0 + byteLength (css.map (· ++ ['\n'])).flatten = _
    rw [Nat.zero_add, utf8ByteSize_ofList, List.flatMap_def]

/-- A line in front of which a text is cut is one of its lines. -/
lemma Cut.mem {text p : String} {l : Line} {back : List Line} (h : Cut text p l back) :
    l ∈ lines text := by
  rw [h.lines_eq]
  exact List.mem_append_right _ List.mem_cons_self

/-- Lines are numbered from one. -/
lemma number_pos {text : String} {l : Line} (h : l ∈ lines text) : 0 < l.number := by
  obtain ⟨front, back, hl⟩ := List.append_of_mem h
  obtain ⟨p, -, hc⟩ := exists_cut hl
  rw [hc.number_eq]
  exact Nat.succ_pos _

end Source

end Nodal
