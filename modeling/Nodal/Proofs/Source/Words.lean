import Nodal.Netlist.Printer
import Nodal.Proofs.Source.Lines
/-!
# Words of a written line

The words of a line are the nonempty runs between its separators (`Source.map_text_tokens`), and the
first of them stands right behind the separators that the line starts with (`Source.firstColumn_of_mem`).
So a line that is written from words with single spaces between them has just these words
(`Source.words_writtenLine`).
-/

namespace Nodal

/-- Whether a text can be a word of a line: there are no separators and no line feed in it. -/
structure IsToken (word : String) : Prop where
  nonempty : word ≠ ""
  noSeparator : ∀ c ∈ word.toList, Text.isSeparator c = false
  noFeed : '\n' ∉ word.toList

/-- Whether a text can be a word anywhere on a line. -/
structure IsWord (word : String) : Prop where
  nonempty : word ≠ ""
  noSeparator : ∀ c ∈ word.toList, Text.isSeparator c = false
  isLineText : IsLineText word

/-- A word is a text that fits on a line, is not empty and has no separators. -/
lemma isWord_iff {word : String} :
    IsWord word ↔
      word ≠ "" ∧ word.toList.any Text.isSeparator = false ∧ IsLineText word := by
  simp only [List.any_eq_false, Bool.not_eq_true]
  exact ⟨fun h => ⟨h.nonempty, h.noSeparator, h.isLineText⟩, fun h => ⟨h.1, h.2.1, h.2.2⟩⟩

instance (word : String) : Decidable (IsWord word) :=
  decidable_of_iff' _ isWord_iff

/-- A text of characters of a class without blanks and line ends can be a word. -/
lemma isWord_of_forall {word : String} {p : Char → Bool} (hne : word.toList ≠ [])
    (h : ∀ c ∈ word.toList, p c = true) (hp : [' ', '\t', '\n', '\r'].any p = false) :
    IsWord word := by
  have hplain : ∀ c ∈ [' ', '\t', '\n', '\r'], c ∉ word.toList := by
    intro c hc hm
    exact List.any_eq_false.1 hp c hc (h c hm)
  refine ⟨fun he => hne (by rw [he]; rfl), fun c hm => ?_, hplain '\n' (by simp), fun hr => ?_⟩
  · rw [Bool.eq_false_iff]
    intro hs
    simp only [Text.isSeparator, Bool.or_eq_true, beq_iff_eq] at hs
    rcases hs with rfl | rfl
    · exact hplain ' ' (by simp) hm
    · exact hplain '\t' (by simp) hm
  · exact hplain '\r' (by simp) (List.mem_of_getLast? hr)

/-- Words put together are a word. -/
lemma IsWord.append {word word' : String} (h : IsWord word) (h' : IsWord word') :
    IsWord (word ++ word') where
  nonempty := fun he => h.nonempty (String.append_eq_empty_iff.1 he).1
  noSeparator := by
    intro c hm
    rw [String.toList_append] at hm
    rcases List.mem_append.1 hm with hm | hm
    · exact h.noSeparator c hm
    · exact h'.noSeparator c hm
  isLineText := h.isLineText.append h'.isLineText

namespace Source

/-- Scanning parts a line at its separators. The run that the line starts with is kept even if it is
empty, the later ones are not. -/
lemma splitOnP_scan (column offset : Nat) (cs : List Char) :
    ∃ later, cs.splitOnP Text.isSeparator = (scan column offset cs).1 :: later ∧
      (scan column offset cs).2.map Token.text =
        (later.filter (· ≠ [])).map String.ofList := by
  induction cs generalizing column offset with
  | nil => exact ⟨[], List.splitOnP_nil, rfl⟩
  | cons c cs ih =>
    obtain ⟨later, hs, ht⟩ := ih (column + 1) (offset + c.utf8Size)
    rw [List.splitOnP_cons_eq_if_modifyHead, hs]
    cases hc : Text.isSeparator c with
    | true =>
      refine ⟨(scan (column + 1) (offset + c.utf8Size) cs).1 :: later, by simp [scan, hc], ?_⟩
      by_cases hw : (scan (column + 1) (offset + c.utf8Size) cs).1 = []
      · simp [scan, hc, place, hw, ht]
      · simp [scan, hc, place, hw, ht]
    | false => exact ⟨later, by simp [scan, hc], by simpa [scan, hc] using ht⟩

/-- The words of a line are the nonempty runs between its separators. -/
lemma map_text_tokens (offset : Nat) (cs : List Char) :
    (tokens offset cs).map Token.text =
      ((cs.splitOnP Text.isSeparator).filter (· ≠ [])).map String.ofList := by
  obtain ⟨later, hs, ht⟩ := splitOnP_scan 1 offset cs
  rw [hs]
  by_cases hw : (scan 1 offset cs).1 = []
  · simp [tokens, place, hw, ht]
  · simp [tokens, place, hw, ht]

/-- The words of a line are those of its characters, wherever it stands. -/
lemma words_lineOf (number offset : Nat) (raw : List Char) :
    (lineOf number offset raw).words =
      (((splitEnd raw).1.splitOnP Text.isSeparator).filter (· ≠ [])).map String.ofList :=
  map_text_tokens offset (splitEnd raw).1

/-- A piece has the characters of the text, without separators. -/
lemma mem_of_mem_splitOnP {p : Char → Bool} {cs piece : List Char} (h : piece ∈ cs.splitOnP p) :
    ∀ c ∈ piece, c ∈ cs ∧ p c = false := by
  induction cs generalizing piece with
  | nil =>
    rw [List.splitOnP_nil, List.mem_singleton] at h
    rw [h]
    nofun
  | cons a cs ih =>
    have hlater : ∀ {piece}, piece ∈ cs.splitOnP p → ∀ c ∈ piece, c ∈ a :: cs ∧ p c = false :=
      fun hm c hc => ⟨List.mem_cons_of_mem a (ih hm c hc).1, (ih hm c hc).2⟩
    rw [List.splitOnP_cons_eq_if_modifyHead] at h
    cases ha : p a with
    | true =>
      rw [if_pos ha] at h
      rcases List.mem_cons.1 h with rfl | h
      · nofun
      · exact hlater h
    | false =>
      obtain ⟨run, runs, hr⟩ := List.exists_cons_of_ne_nil (List.splitOnP_ne_nil p cs)
      rw [if_neg (by simp [ha]), hr, List.modifyHead_cons] at h
      rcases List.mem_cons.1 h with rfl | h
      · intro c hc
        rcases List.mem_cons.1 hc with rfl | hc
        · exact ⟨List.mem_cons_self, ha⟩
        · exact hlater (hr ▸ List.mem_cons_self) c hc
      · exact hlater (hr ▸ List.mem_cons_of_mem run h)

/-- A word of a line is a run of characters of the line, none of which is a separator. -/
lemma mem_words_lineOf {number offset : Nat} {raw : List Char} {word : String}
    (h : word ∈ (lineOf number offset raw).words) :
    word ≠ "" ∧ ∀ c ∈ word.toList, c ∈ (splitEnd raw).1 ∧ Text.isSeparator c = false := by
  rw [words_lineOf] at h
  obtain ⟨piece, hp, rfl⟩ := List.mem_map.1 h
  obtain ⟨hm, hne⟩ := List.mem_filter.1 hp
  constructor
  · simpa using hne
  · rw [String.toList_ofList]
    exact mem_of_mem_splitOnP hm

/-- The first word behind separators stands right behind them. -/
lemma column_of_place_scan {column offset : Nat} {cs : List Char} {t : Token} {ts : List Token}
    (h : place column offset (scan column offset cs).1 (scan column offset cs).2 = t :: ts) :
    t.column = column + (cs.takeWhile Text.isSeparator).length := by
  induction cs generalizing column offset with
  | nil => simp [scan, place] at h
  | cons c cs ih =>
    cases hc : Text.isSeparator c with
    | true =>
      have h' : place (column + 1) (offset + c.utf8Size) (scan (column + 1) (offset + c.utf8Size) cs).1
          (scan (column + 1) (offset + c.utf8Size) cs).2 = t :: ts := by
        simpa [scan, hc, place] using h
      rw [ih h', List.takeWhile_cons_of_pos hc, List.length_cons]
      omega
    | false =>
      simp only [scan, hc, place, Bool.false_eq_true, if_false, reduceCtorEq] at h
      obtain ⟨rfl, -⟩ := List.cons.inj h
      simp [hc]

/-- A numbered line is made of the characters of one of the lines. -/
lemma exists_eq_lineOf {number offset : Nat} {raws : List (List Char)} {l : Line}
    (h : l ∈ numbered number offset raws) :
    ∃ number offset, ∃ raw ∈ raws, l = lineOf number offset raw := by
  induction raws generalizing number offset with
  | nil => cases h
  | cons raw raws ih =>
    rcases List.mem_cons.1 h with rfl | h
    · exact ⟨number, offset, raw, List.mem_cons_self, rfl⟩
    · obtain ⟨number, offset, raw', hm, hl⟩ := ih h
      exact ⟨number, offset, raw', List.mem_cons_of_mem raw hm, hl⟩

/-- The words of a text are tokens. -/
lemma isToken_of_mem {text : String} {l : Line} (hl : l ∈ lines text) {word : String}
    (h : word ∈ l.words) : IsToken word := by
  obtain ⟨number, offset, raw, hraw, rfl⟩ := exists_eq_lineOf hl
  obtain ⟨hne, hc⟩ := mem_words_lineOf h
  exact ⟨hne, fun c hm => (hc c hm).2, fun hm => feed_notMem_splitEnd hraw (hc _ hm).1⟩

/-- The words of a text whose carriage returns are part of line ends can be words anywhere. -/
lemma isWord_of_mem {text : String} (h : ReturnsBeforeFeeds text) {l : Line} (hl : l ∈ lines text)
    {word : String} (hw : word ∈ l.words) : IsWord word := by
  obtain ⟨hne, hsep, hfeed⟩ := isToken_of_mem hl hw
  refine ⟨hne, hsep, hfeed, fun hlast => ?_⟩
  obtain ⟨number, offset, raw, hraw, rfl⟩ := exists_eq_lineOf hl
  have hc := (mem_words_lineOf hw).2 '\r' (List.mem_of_getLast? hlast)
  exact return_notMem_splitEnd h hraw hc.1

/-- The first word of a line stands right behind the separators that the line starts with. -/
lemma firstColumn_of_mem {text : String} {l : Line} (h : l ∈ lines text) (hb : l.isBlank = false) :
    l.firstColumn = (l.text.toList.takeWhile Text.isSeparator).length + 1 := by
  obtain ⟨number, offset, raw, -, rfl⟩ := exists_eq_lineOf h
  cases ht : tokens offset (splitEnd raw).1 with
  | nil => simp [Line.isBlank, lineOf, ht] at hb
  | cons t ts =>
    simp [Line.firstColumn, lineOf, ht, column_of_place_scan ht, Nat.add_comm]

end Source

section WordLine

variable {words : List String}

/-- One word makes a line of this word. -/
@[simp] lemma wordLine_singleton (word : String) : wordLine [word] = word := by
  simp [wordLine]

/-- A word in front of others is followed by a space. -/
lemma wordLine_cons (word : String) (hne : words ≠ []) :
    wordLine (word :: words) = word ++ " " ++ wordLine words := by
  cases words with
  | nil => exact absurd rfl hne
  | cons word' words => simp [wordLine, String.intercalate_cons_cons]

/-- Words one behind the other have a space between them. -/
lemma wordLine_append {words' : List String} (hne : words ≠ []) (hne' : words' ≠ []) :
    wordLine (words ++ words') = wordLine words ++ " " ++ wordLine words' := by
  induction words with
  | nil => exact absurd rfl hne
  | cons word words ih =>
    cases words with
    | nil => exact wordLine_cons word hne'
    | cons word' words =>
      calc
        wordLine (word :: (word' :: words ++ words'))
          = word ++ " " ++ wordLine (word' :: words ++ words') := wordLine_cons word (by simp)
        _ = word ++ " " ++ (wordLine (word' :: words) ++ " " ++ wordLine words') := by
          rw [ih (List.cons_ne_nil _ _)]
        _ = word ++ " " ++ wordLine (word' :: words) ++ " " ++ wordLine words' := by
          simp only [String.append_assoc]
        _ = wordLine (word :: word' :: words) ++ " " ++ wordLine words' := by
          rw [wordLine_cons word (List.cons_ne_nil _ _)]

/-- The pieces of a line of words are the words. -/
lemma splitOnP_wordLine (hne : words ≠ []) (h : ∀ word ∈ words, IsWord word) :
    (wordLine words).toList.splitOnP Text.isSeparator = words.map String.toList := by
  induction words with
  | nil => exact absurd rfl hne
  | cons word words ih =>
    have hw := List.splitOnP_eq_singleton (h word List.mem_cons_self).noSeparator
    cases words with
    | nil => simpa using hw
    | cons word' words =>
      have hws := ih (List.cons_ne_nil _ _) fun w hm => h w (List.mem_cons_of_mem _ hm)
      have hl : (wordLine (word :: word' :: words)).toList =
          word.toList ++ ' ' :: (wordLine (word' :: words)).toList := by
        simp [wordLine_cons word]
      rw [hl, List.splitOnP_append_cons _ _ (by decide), hw, hws]
      rfl

/-- A line of words fits on a line. -/
lemma isLineText_wordLine (h : ∀ word ∈ words, IsWord word) : IsLineText (wordLine words) := by
  induction words with
  | nil => decide
  | cons word words ih =>
    have hw := (h word List.mem_cons_self).isLineText
    have hws := ih fun w hm => h w (List.mem_cons_of_mem _ hm)
    by_cases hne : words = []
    · rw [hne, wordLine_singleton]
      exact hw
    · rw [wordLine_cons word hne]
      exact (hw.append (by decide)).append hws

namespace Source

/-- A line that is written from words has these words. -/
lemma words_writtenLine (number offset : Nat) (hne : words ≠ []) (h : ∀ word ∈ words, IsWord word) :
    (writtenLine number offset (wordLine words)).words = words := by
  have hkept : (words.map String.toList).filter (· ≠ []) = words.map String.toList := by
    refine List.filter_eq_self.2 fun cs hm => ?_
    obtain ⟨word, hw, rfl⟩ := List.mem_map.1 hm
    simpa using (h word hw).nonempty
  rw [Line.words, tokens_writtenLine number offset (isLineText_wordLine h), map_text_tokens,
    splitOnP_wordLine hne h, hkept, List.map_map]
  refine (List.map_congr_left fun word _ => ?_).trans (List.map_id words)
  exact String.ofList_toList

/-- A line that starts with no separator starts with its first word. -/
lemma exists_words_eq_cons (number offset : Nat) {text : String} {c : Char} {cs : List Char}
    (ht : text.toList = c :: cs) (hc : Text.isSeparator c = false) (h : IsLineText text) :
    ∃ word cs' rest, (writtenLine number offset text).words = word :: rest ∧
      word.toList = c :: cs' := by
  obtain ⟨run, runs, hr⟩ := List.exists_cons_of_ne_nil (List.splitOnP_ne_nil Text.isSeparator cs)
  refine ⟨String.ofList (c :: run), run, (runs.filter (· ≠ [])).map String.ofList, ?_, by simp⟩
  rw [Line.words, tokens_writtenLine number offset h, map_text_tokens, ht,
    List.splitOnP_cons_eq_if_modifyHead, if_neg (by simp [hc]), hr]
  simp

end Source

end WordLine

end Nodal
