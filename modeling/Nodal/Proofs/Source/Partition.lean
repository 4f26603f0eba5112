import Mathlib.Data.List.TakeWhile
import Nodal.Proofs.Source.Cuts
import Nodal.Proofs.Source.Words
/-!
# Where lines and words stand

Lines, each joined with its end, are the text, and every line stands as many bytes into it as the lines before
it have (`Source.isPartition_lines`). The words of a line are just the runs between its separators
(`Source.mem_tokens_iff`), in the order of their columns, and every word stands as many bytes into the text as
its place says.
-/

namespace Nodal

/-- Whether `run` stands between `before` and `behind` as one of the runs between the separators of `cs`. -/
structure IsRun (cs before run behind : List Char) : Prop where
  eq_append : cs = before ++ run ++ behind
  nonempty : run ≠ []
  noSeparator : ∀ c ∈ run, Text.isSeparator c = false
  before_separator : ∀ c ∈ before.getLast?, Text.isSeparator c = true
  behind_separator : ∀ c ∈ behind.head?, Text.isSeparator c = true

/-- Whether lines are those of a text: in order and with nothing between them, and the words of each are the
runs between its separators. -/
structure IsPartition (text : String) (ls : List Line) : Prop where
  join_eq : Line.join ls = text
  numbers : ls.map Line.number = List.range' 1 ls.length
  /-- A line stands behind the bytes of the lines before it. -/
  offset_eq : ∀ front l back, ls = front ++ l :: back → l.offset = (Line.join front).utf8ByteSize
  /-- Only the last line may lack a line feed. -/
  closed : ∀ front l back, ls = front ++ l :: back → back ≠ [] → l.ending = .lf ∨ l.ending = .crlf
  noFeed : ∀ l ∈ ls, '\n' ∉ l.text.toList
  /-- A carriage return at the end of a line is the one of its end, or stands in front of that. -/
  return_of_last : ∀ l ∈ ls, l.text.toList.getLast? = some '\r' → l.ending = .crlf ∨ l.ending = .cr
  nonempty : ∀ l ∈ ls, l.source ≠ []
  mem_tokens_iff : ∀ l ∈ ls, ∀ t, t ∈ l.tokens ↔ ∃ before behind,
    IsRun l.text.toList before t.text.toList behind ∧ t.column = before.length + 1 ∧
      t.offset = l.offset + (String.ofList before).utf8ByteSize
  sorted : ∀ l ∈ ls, l.tokens.Pairwise fun t t' => t.column < t'.column
  /-- A word stands in the text at its offset. -/
  slice : ∀ l ∈ ls, ∀ t ∈ l.tokens, ∃ before behind, text = before ++ t.text ++ behind ∧
    t.offset = before.utf8ByteSize

namespace Source

/-! ### Runs -/

section Run

variable {c : Char} {cs before run behind : List Char}

/-- A run behind the first character is one of the rest, and starts there only behind a separator. -/
lemma isRun_cons : IsRun (c :: cs) (c :: before) run behind ↔
    IsRun cs before run behind ∧ (before = [] → Text.isSeparator c = true) := by
  constructor
  · intro h
    refine ⟨⟨(List.cons.inj h.eq_append).2, h.nonempty, h.noSeparator, ?_, h.behind_separator⟩, ?_⟩
    · intro d hd
      apply h.before_separator d
      rw [Option.mem_def] at hd ⊢
      rw [List.getLast?_cons, hd, Option.getD_some]
    · rintro rfl
      exact h.before_separator c rfl
  · rintro ⟨h, hc⟩
    refine ⟨congrArg (c :: ·) h.eq_append, h.nonempty, h.noSeparator, ?_, h.behind_separator⟩
    intro d hd
    rw [Option.mem_def, List.getLast?_cons, Option.some_inj] at hd
    cases hb : before.getLast? with
    | none =>
      rw [hb] at hd
      cases hd
      exact hc (List.getLast?_eq_none_iff.1 hb)
    | some e =>
      rw [hb] at hd
      cases hd
      exact h.before_separator e hb

/-- The run that a line starts with goes up to the first separator. -/
lemma isRun_nil_iff : IsRun cs [] run behind ↔
    run ≠ [] ∧ run = cs.takeWhile (!Text.isSeparator ·) ∧ behind = cs.dropWhile (!Text.isSeparator ·) := by
  constructor
  · intro h
    have hrun : ∀ c ∈ run, (!Text.isSeparator c) = true := by
      intro c hc
      rw [h.noSeparator c hc]
      rfl
    refine ⟨h.nonempty, ?_⟩
    rw [h.eq_append, List.nil_append, List.takeWhile_append_of_pos hrun, List.dropWhile_append_of_pos hrun]
    cases behind with
    | nil => exact ⟨(List.append_nil run).symm, rfl⟩
    | cons c behind =>
      have hc := h.behind_separator c rfl
      rw [List.takeWhile_cons_of_neg (by simp [hc]), List.dropWhile_cons_of_neg (by simp [hc])]
      exact ⟨(List.append_nil run).symm, rfl⟩
  · rintro ⟨hne, rfl, rfl⟩
    refine ⟨List.takeWhile_append_dropWhile.symm, hne, fun c hc => ?_, nofun, fun c hc => ?_⟩
    · simpa using List.mem_takeWhile_imp hc
    · have h := List.head?_dropWhile_not (!Text.isSeparator ·) cs
      rw [hc] at h
      simpa using h

end Run

/-! ### Words of a line -/

/-- Whether a word is at its place among characters that start at a place. -/
def IsWordAt (column offset : Nat) (cs : List Char) (t : Token) (before : List Char) : Prop :=
  (∃ behind, IsRun cs before t.text.toList behind) ∧ t.column = column + before.length ∧
    t.offset = offset + byteLength before

/-- What a scan reads first goes up to the first separator. -/
lemma scan_fst (column offset : Nat) (cs : List Char) :
    (scan column offset cs).1 = cs.takeWhile (!Text.isSeparator ·) := by
  induction cs generalizing column offset with
  | nil => rfl
  | cons c cs ih =>
    rw [scan, List.takeWhile_cons]
    cases hc : Text.isSeparator c with
    | true => rfl
    | false => exact congrArg (c :: ·) (ih _ _)

/-- A word behind the first character is one of the rest, and starts there only behind a separator. -/
lemma isWordAt_cons {column offset : Nat} {c : Char} {cs before : List Char} {t : Token} :
    IsWordAt column offset (c :: cs) t (c :: before) ↔
      IsWordAt (column + 1) (offset + c.utf8Size) cs t before ∧ (before = [] → Text.isSeparator c = true) := by
  simp only [IsWordAt, isRun_cons, exists_and_right, List.length_cons, byteLength, List.foldr_cons]
  rw [Nat.add_assoc column 1, Nat.add_comm 1, Nat.add_assoc offset]
  exact and_right_comm

/-- The word at the start of a text is what a scan reads first. -/
lemma isWordAt_nil {column offset : Nat} {cs : List Char} {t : Token} :
    IsWordAt column offset cs t [] ↔ (scan column offset cs).1 ≠ [] ∧
      t = ⟨String.ofList (scan column offset cs).1, column, offset⟩ := by
  simp only [IsWordAt, isRun_nil_iff, scan_fst]
  constructor
  · rintro ⟨⟨_, hne, hrun, -⟩, hc, ho⟩
    rw [hrun] at hne
    refine ⟨hne, ?_⟩
    cases t
    simp only [Token.mk.injEq]
    exact ⟨by rw [← hrun, String.ofList_toList], hc, ho⟩
  · rintro ⟨hne, rfl⟩
    rw [String.toList_ofList]
    exact ⟨⟨_, hne, rfl, rfl⟩, rfl, rfl⟩

/-- The word at the head of a text is the run that it starts with. -/
lemma mem_place_scan {column offset : Nat} {cs : List Char} {t : Token} :
    t ∈ place column offset (scan column offset cs).1 (scan column offset cs).2 ↔
      IsWordAt column offset cs t [] ∨ t ∈ (scan column offset cs).2 := by
  rw [isWordAt_nil, place]
  split
  · rename_i h
    simp [h]
  · rename_i h
    simp [h]

/-- The words behind the head of a text are the runs that a separator stands in front of. -/
lemma mem_scan {column offset : Nat} {cs : List Char} {t : Token} :
    t ∈ (scan column offset cs).2 ↔ ∃ before, before ≠ [] ∧ IsWordAt column offset cs t before := by
  induction cs generalizing column offset with
  | nil =>
    constructor
    · nofun
    · rintro ⟨before, hne, ⟨behind, h⟩, -⟩
      exact absurd (List.append_eq_nil_iff.1 (List.append_eq_nil_iff.1 h.eq_append.symm).1).1 hne
  | cons c cs ih =>
    -- a word behind the head starts right behind it, or is one behind the head of the rest
    have hcons : (∃ before, before ≠ [] ∧ IsWordAt column offset (c :: cs) t before) ↔
        (Text.isSeparator c = true ∧ IsWordAt (column + 1) (offset + c.utf8Size) cs t []) ∨
          t ∈ (scan (column + 1) (offset + c.utf8Size) cs).2 := by
      rw [ih]
      constructor
      · rintro ⟨before, hne, h⟩
        obtain ⟨d, before, rfl⟩ := List.exists_cons_of_ne_nil hne
        obtain rfl : d = c := by
          obtain ⟨⟨behind, h⟩, -⟩ := h
          exact (List.cons.inj h.eq_append).1.symm
        obtain ⟨h, hs⟩ := isWordAt_cons.1 h
        by_cases hb : before = []
        · exact .inl ⟨hs hb, hb ▸ h⟩
        · exact .inr ⟨before, hb, h⟩
      · rintro (⟨hs, h⟩ | ⟨before, hb, h⟩)
        · exact ⟨[c], List.cons_ne_nil c [], isWordAt_cons.2 ⟨h, fun _ => hs⟩⟩
        · exact ⟨c :: before, List.cons_ne_nil c before, isWordAt_cons.2 ⟨h, fun he => absurd he hb⟩⟩
    rw [hcons]
    cases hc : Text.isSeparator c with
    | true => simp [scan, hc, mem_place_scan]
    | false => simp [scan, hc]

/-- The words of a line are just the runs between its separators. -/
lemma mem_tokens_iff {offset : Nat} {cs : List Char} {t : Token} :
    t ∈ tokens offset cs ↔ ∃ before, IsWordAt 1 offset cs t before := by
  rw [tokens, mem_place_scan, mem_scan]
  constructor
  · rintro (h | ⟨before, -, h⟩)
    · exact ⟨[], h⟩
    · exact ⟨before, h⟩
  · rintro ⟨before, h⟩
    by_cases hb : before = []
    · exact .inl (hb ▸ h)
    · exact .inr ⟨before, hb, h⟩

/-- A word that is placed stands before those behind it. -/
lemma pairwise_place {column offset : Nat} {cs : List Char}
    (h : (scan column offset cs).2.Pairwise fun t t' => t.column < t'.column) :
    (place column offset (scan column offset cs).1 (scan column offset cs).2).Pairwise
      fun t t' => t.column < t'.column := by
  unfold place
  split
  · exact h
  · refine List.pairwise_cons.2 ⟨fun t ht => ?_, h⟩
    obtain ⟨before, hb, -, hc, -⟩ := mem_scan.1 ht
    rw [hc]
    exact Nat.lt_add_of_pos_right (List.length_pos_iff.2 hb)

/-- The words of a scan are in the order of their columns. -/
lemma pairwise_scan (column offset : Nat) (cs : List Char) :
    (scan column offset cs).2.Pairwise fun t t' => t.column < t'.column := by
  induction cs generalizing column offset with
  | nil => exact List.Pairwise.nil
  | cons c cs ih =>
    have h := ih (column + 1) (offset + c.utf8Size)
    cases hc : Text.isSeparator c with
    | true => simpa [scan, hc] using pairwise_place h
    | false => simpa [scan, hc] using h

/-- The words of a line are in the order of their columns. -/
lemma pairwise_tokens (offset : Nat) (cs : List Char) :
    (tokens offset cs).Pairwise fun t t' => t.column < t'.column :=
  pairwise_place (pairwise_scan 1 offset cs)

/-! ### Lines of a text -/

/-- No line is empty. -/
lemma ne_nil_of_mem_rawLines {cs raw : List Char} (h : raw ∈ rawLines cs) : raw ≠ [] := by
  induction cs generalizing raw with
  | nil => cases h
  | cons c cs ih =>
    unfold rawLines at h
    split at h
    · rcases List.mem_cons.1 h with rfl | h
      · exact List.cons_ne_nil _ _
      · exact ih h
    · split at h
      · exact List.mem_singleton.1 h ▸ List.cons_ne_nil _ _
      · rename_i l ls hl
        rcases List.mem_cons.1 h with rfl | h
        · exact List.cons_ne_nil _ _
        · exact ih (hl ▸ List.mem_cons_of_mem l h)

/-- Lines are numbered one after another. -/
lemma map_number_numbered (number offset : Nat) (raws : List (List Char)) :
    (numbered number offset raws).map Line.number = List.range' number (numbered number offset raws).length := by
  induction raws generalizing number offset with
  | nil => rfl
  | cons raw raws ih =>
    rw [numbered, List.map_cons, ih, List.length_cons, List.range'_succ]
    rfl

/-- A line that a line feed closes has its end. -/
lemma closed_splitEnd (body : List Char) :
    (splitEnd (body ++ ['\n'])).2 = .lf ∨ (splitEnd (body ++ ['\n'])).2 = .crlf := by
  by_cases hr : body.getLast? = some '\r'
  · obtain ⟨front, rfl⟩ := List.getLast?_eq_some_iff.1 hr
    rw [List.append_assoc, List.singleton_append, splitEnd_append_return]
    exact .inr rfl
  · rw [splitEnd_append_feed hr]
    exact .inl rfl

/-- A line of a text comes from the characters behind those of the lines before it. -/
lemma exists_raws {text : String} {front back : List Line} {l : Line} (h : lines text = front ++ l :: back) :
    ∃ raws raw raws' number number' offset, rawLines text.toList = raws ++ raw :: raws' ∧
      numbered 1 0 raws = front ∧ l = lineOf number (byteLength raws.flatten) raw ∧
      numbered number' offset raws' = back := by
  obtain ⟨raws, raws', hraws, hf, hb⟩ := numbered_eq_append h
  cases raws' with
  | nil => cases hb
  | cons raw raws' =>
    obtain ⟨hl, hb⟩ := List.cons.inj hb
    rw [Nat.zero_add] at hl
    exact ⟨raws, raw, raws', _, _, _, hraws, hf, hl.symm, hb⟩

/-- A word stands in the text behind as many bytes as its offset says. -/
lemma exists_slice {text : String} {l : Line} (hl : l ∈ lines text) {t : Token} (ht : t ∈ l.tokens) :
    ∃ before behind, text = before ++ t.text ++ behind ∧ t.offset = before.utf8ByteSize := by
  obtain ⟨front, back, h⟩ := List.append_of_mem hl
  obtain ⟨raws, raw, raws', _, _, _, hraws, -, rfl, -⟩ := exists_raws h
  obtain ⟨before, ⟨behind, hrun⟩, -, hoffset⟩ := mem_tokens_iff.1 ht
  have hraw : raw = before ++ t.text.toList ++ behind ++ (splitEnd raw).2.chars := by
    rw [← hrun.eq_append, splitEnd_append]
  have htext : text.toList =
      raws.flatten ++ before ++ t.text.toList ++ (behind ++ (splitEnd raw).2.chars ++ raws'.flatten) := by
    calc
      text.toList = raws.flatten ++ (raw ++ raws'.flatten) := by
        rw [← flatten_rawLines text.toList, hraws, List.flatten_append, List.flatten_cons]
      _ = raws.flatten ++ (before ++ t.text.toList ++ behind ++ (splitEnd raw).2.chars ++ raws'.flatten) := by
        rw [← hraw]
      _ = _ := by simp only [List.append_assoc]
  refine ⟨String.ofList (raws.flatten ++ before),
    String.ofList (behind ++ (splitEnd raw).2.chars ++ raws'.flatten), ?_, ?_⟩
  · rw [← String.toList_inj, htext]
    simp
  · rw [utf8ByteSize_ofList, byteLength_append, hoffset]

/-- The lines of a text are those that it consists of, and their words are the runs between separators. -/
theorem isPartition_lines (text : String) : IsPartition text (lines text) where
  join_eq := by rw [lines, join_numbered, flatten_rawLines, String.ofList_toList]
  numbers := map_number_numbered 1 0 _
  offset_eq front l back h := by
    obtain ⟨raws, raw, raws', _, _, _, -, rfl, rfl, -⟩ := exists_raws h
    rw [join_numbered, utf8ByteSize_ofList]
    rfl
  closed front l back h hne := by
    obtain ⟨raws, raw, raws', _, _, _, hraws, -, rfl, rfl⟩ := exists_raws h
    have hne : raws' ≠ [] := by
      rintro rfl
      exact hne rfl
    rw [List.append_cons] at hraws
    obtain ⟨css, -, hcss⟩ := exists_bodies_of_rawLines hraws hne
    obtain ⟨body, -, rfl⟩ := List.mem_map.1 (hcss ▸ List.mem_append_right raws (List.mem_singleton.2 rfl))
    exact closed_splitEnd body
  noFeed l hl := by
    obtain ⟨_, _, raw, hraw, rfl⟩ := exists_eq_lineOf hl
    have h := feed_notMem_splitEnd hraw
    simpa [lineOf] using h
  return_of_last l hl := by
    obtain ⟨_, _, raw, -, rfl⟩ := exists_eq_lineOf hl
    intro hr
    have hr : (splitEnd raw).1.getLast? = some '\r' := by simpa [lineOf] using hr
    obtain ⟨cs, hcs⟩ := chars_of_return hr
    change (splitEnd raw).2 = .crlf ∨ (splitEnd raw).2 = .cr
    cases he : (splitEnd raw).2 with
    | crlf => exact .inl rfl
    | cr => exact .inr rfl
    | lf | bare =>
      rw [he] at hcs
      cases hcs
  nonempty l hl := by
    obtain ⟨_, _, raw, hraw, rfl⟩ := exists_eq_lineOf hl
    rw [source_lineOf]
    exact ne_nil_of_mem_rawLines hraw
  mem_tokens_iff l hl t := by
    obtain ⟨_, offset, raw, -, rfl⟩ := exists_eq_lineOf hl
    rw [lineOf, String.toList_ofList, mem_tokens_iff]
    simp only [IsWordAt, exists_and_right, utf8ByteSize_ofList, Nat.add_comm 1]
  sorted l hl := by
    obtain ⟨_, _, raw, -, rfl⟩ := exists_eq_lineOf hl
    exact pairwise_tokens _ _
  slice _ hl _ ht := exists_slice hl ht

end Source

end Nodal
