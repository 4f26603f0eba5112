import Mathlib.Tactic.Lemma
import Nodal.Source.Line
/-!
# Lines of a written text

A text that is written line by line, each line closed by a line feed, falls into the lines it was
written from (`Source.lines_join`), as long as each of them fits on a line. Where carriage returns stand
in front of line feeds only, there is none in a line (`Source.return_notMem_splitEnd`).
-/

namespace Nodal

/-- Whether a text fits on a line: there is no line feed in it, and no carriage return at its end,
where it would count to the end of the line. -/
structure IsLineText (text : String) : Prop where
  noFeed : '\n' ∉ text.toList
  noReturn : text.toList.getLast? ≠ some '\r'

instance (text : String) : Decidable (IsLineText text) :=
  decidable_of_iff ('\n' ∉ text.toList ∧ text.toList.getLast? ≠ some '\r')
    ⟨fun h => ⟨h.1, h.2⟩, fun h => ⟨h.noFeed, h.noReturn⟩⟩

/-- Texts that fit on a line fit on it together. -/
lemma IsLineText.append {text text' : String} (h : IsLineText text) (h' : IsLineText text') :
    IsLineText (text ++ text') := by
  constructor
  · simp [h.noFeed, h'.noFeed]
  · rw [String.toList_append, List.getLast?_append]
    intro hr
    rcases Option.or_eq_some_iff.1 hr with hr | ⟨-, hr⟩
    · exact h'.noReturn hr
    · exact h.noReturn hr

/-- Whether every carriage return stands right before a line feed. -/
def ReturnsBeforeFeeds (text : String) : Prop :=
  ∀ i < text.toList.length, text.toList[i]? = some '\r' → text.toList[i + 1]? = some '\n'

instance (text : String) : Decidable (ReturnsBeforeFeeds text) :=
  inferInstanceAs (Decidable (∀ i < text.toList.length, _))

/-- A carriage return is followed by a line feed where returns stand before feeds only. -/
lemma ReturnsBeforeFeeds.head?_eq {text : String} (h : ReturnsBeforeFeeds text) {front back : List Char}
    (ht : text.toList = front ++ '\r' :: back) : back.head? = some '\n' := by
  have hi := h front.length (by simp [ht]) (by simp [ht])
  rwa [ht, List.getElem?_append_right (Nat.le_succ _), Nat.succ_sub (Nat.le_refl _), Nat.sub_self,
    List.getElem?_cons_succ, ← List.head?_eq_getElem?] at hi

namespace Source

/-- A line ends with its first line feed. -/
lemma rawLines_append_feed {cs : List Char} (h : '\n' ∉ cs) (rest : List Char) :
    rawLines (cs ++ '\n' :: rest) = (cs ++ ['\n']) :: rawLines rest := by
  induction cs with
  | nil => rfl
  | cons c cs ih =>
    have hc : c ≠ '\n' := fun hc => h (hc ▸ List.mem_cons_self)
    have hcs : '\n' ∉ cs := fun hm => h (List.mem_cons_of_mem _ hm)
    simp only [List.cons_append, rawLines, if_neg hc, ih hcs]

/-- Lines that are each closed by a line feed are read one by one, whatever follows. -/
lemma rawLines_flatMap_append {css : List (List Char)} (h : ∀ cs ∈ css, '\n' ∉ cs)
    (rest : List Char) :
    rawLines (css.flatMap (· ++ ['\n']) ++ rest) = css.map (· ++ ['\n']) ++ rawLines rest := by
  induction css with
  | nil => rfl
  | cons cs css ih =>
    have hcs := h cs List.mem_cons_self
    have hcss := ih fun cs hm => h cs (List.mem_cons_of_mem _ hm)
    rw [List.flatMap_cons, List.append_assoc, List.append_assoc, List.singleton_append,
      rawLines_append_feed hcs, hcss, List.map_cons, List.cons_append]

/-- Lines that are each closed by a line feed are read one by one. -/
lemma rawLines_flatMap {css : List (List Char)} (h : ∀ cs ∈ css, '\n' ∉ cs) :
    rawLines (css.flatMap (· ++ ['\n'])) = css.map (· ++ ['\n']) := by
  have hr := rawLines_flatMap_append h []
  rwa [List.append_nil, rawLines, List.append_nil] at hr

/-- Without a return before it, a line feed alone is the end of a line. -/
lemma splitEnd_append_feed {cs : List Char} (h : cs.getLast? ≠ some '\r') :
    splitEnd (cs ++ ['\n']) = (cs, .lf) := by
  induction cs with
  | nil => rfl
  | cons c cs ih =>
    cases cs with
    | nil =>
      have hc : c ≠ '\r' := fun hc => h (congrArg some hc)
      simp [splitEnd, hc]
    | cons c' cs =>
      have hs := ih (by rwa [List.getLast?_cons_cons] at h)
      simp only [List.cons_append] at hs ⊢
      simp [splitEnd, hs]

/-- A return and a line feed are the end of a line together. -/
lemma splitEnd_append_return (cs : List Char) : splitEnd (cs ++ ['\r', '\n']) = (cs, .crlf) := by
  induction cs with
  | nil => rfl
  | cons c cs ih =>
    cases cs with
    | nil => simp [splitEnd]
    | cons c' cs =>
      simp only [List.cons_append] at ih ⊢
      simp [splitEnd, ih]

/-- A line has no line feed, unless it is closed by it. -/
lemma exists_body {cs raw : List Char} (h : raw ∈ rawLines cs) :
    ∃ body, '\n' ∉ body ∧ (raw = body ∨ raw = body ++ ['\n']) := by
  induction cs generalizing raw with
  | nil => cases h
  | cons c cs ih =>
    by_cases hc : c = '\n'
    · rw [rawLines, if_pos hc] at h
      rcases List.mem_cons.1 h with rfl | h
      · exact ⟨[], List.not_mem_nil, .inr (by rw [hc]; rfl)⟩
      · exact ih h
    · have hcons : ∀ {body : List Char}, '\n' ∉ body → '\n' ∉ c :: body := fun hb hm =>
        (List.mem_cons.1 hm).elim (fun he => hc he.symm) hb
      rw [rawLines, if_neg hc] at h
      cases hr : rawLines cs with
      | nil =>
        rw [hr] at h
        exact ⟨[c], hcons List.not_mem_nil, .inl (List.mem_singleton.1 h)⟩
      | cons l ls =>
        rw [hr] at h ih
        rcases List.mem_cons.1 h with rfl | h
        · obtain ⟨body, hb, rfl | rfl⟩ := ih List.mem_cons_self
          · exact ⟨c :: l, hcons hb, .inl rfl⟩
          · exact ⟨c :: body, hcons hb, .inr rfl⟩
        · exact ih (List.mem_cons_of_mem l h)

/-- Without its end a line has no line feed. -/
lemma feed_notMem_splitEnd {cs raw : List Char} (h : raw ∈ rawLines cs) : '\n' ∉ (splitEnd raw).1 := by
  obtain ⟨body, hb, rfl | rfl⟩ := exists_body h
  · intro hm
    rw [← splitEnd_append raw] at hb
    exact hb (List.mem_append_left _ hm)
  · by_cases hr : body.getLast? = some '\r'
    · obtain ⟨front, rfl⟩ := List.getLast?_eq_some_iff.1 hr
      rw [List.append_assoc, List.singleton_append, splitEnd_append_return]
      exact fun hm => hb (List.mem_append_left _ hm)
    · rwa [splitEnd_append_feed hr]

/-- A return at the very end is the end of a line. -/
lemma splitEnd_append_last (cs : List Char) : splitEnd (cs ++ ['\r']) = (cs, .cr) := by
  induction cs with
  | nil => rfl
  | cons c cs ih =>
    cases cs with
    | nil => simp [splitEnd]
    | cons c' cs =>
      simp only [List.cons_append] at ih ⊢
      simp [splitEnd, ih]

/-- A carriage return in front of the end of a line belongs to the end. -/
lemma chars_of_return {raw : List Char} (h : (splitEnd raw).1.getLast? = some '\r') :
    ∃ cs, (splitEnd raw).2.chars = '\r' :: cs := by
  obtain ⟨cs, hcs⟩ := List.getLast?_eq_some_iff.1 h
  have hraw := splitEnd_append raw
  have hne : cs ++ ['\r'] ≠ cs := by simp
  cases he : (splitEnd raw).2 with
  | lf =>
    rw [hcs, he, List.append_assoc] at hraw
    rw [← hraw] at hcs
    exact absurd (hcs.symm.trans (congrArg Prod.fst (splitEnd_append_return cs))) hne
  | crlf | cr => exact ⟨_, rfl⟩
  | bare =>
    rw [hcs, he, LineEnd.chars, List.append_nil] at hraw
    rw [← hraw] at hcs
    exact absurd (hcs.symm.trans (congrArg Prod.fst (splitEnd_append_last cs))) hne

/-- Without its end a line has no carriage return. -/
lemma return_notMem_splitEnd {text : String} (h : ReturnsBeforeFeeds text) {raw : List Char}
    (hr : raw ∈ rawLines text.toList) : '\r' ∉ (splitEnd raw).1 := by
  intro hm
  obtain ⟨before, behind, hsplit⟩ := List.append_of_mem hm
  obtain ⟨raws, raws', hraws⟩ := List.append_of_mem hr
  obtain ⟨ending, hending⟩ : ∃ ending, ending = (splitEnd raw).2.chars := ⟨_, rfl⟩
  have hraw := splitEnd_append raw
  rw [hsplit, ← hending] at hraw
  have ht : text.toList = (raws.flatten ++ before) ++ '\r' :: (behind ++ (ending ++ raws'.flatten)) := by
    rw [← flatten_rawLines text.toList, hraws, List.flatten_append, List.flatten_cons, ← hraw]
    simp only [List.append_assoc, List.cons_append]
  have hfeed := h.head?_eq ht
  cases behind with
  | nil =>
    have hlast : (splitEnd raw).1.getLast? = some '\r' := by
      rw [hsplit]
      exact List.getLast?_concat
    obtain ⟨cs, hcs⟩ := chars_of_return hlast
    rw [hending, hcs] at hfeed
    cases hfeed
  | cons c behind =>
    cases hfeed
    apply feed_notMem_splitEnd hr
    rw [hsplit]
    simp

/-- The bytes of two texts add up. -/
lemma byteLength_append (cs cs' : List Char) :
    byteLength (cs ++ cs') = byteLength cs + byteLength cs' := by
  induction cs with
  | nil => simp [byteLength]
  | cons c cs ih =>
    calc
      byteLength (c :: cs ++ cs') = c.utf8Size + byteLength (cs ++ cs') := rfl
      _ = c.utf8Size + (byteLength cs + byteLength cs') := by rw [ih]
      _ = byteLength (c :: cs) + byteLength cs' := (Nat.add_assoc _ _ _).symm

/-- Lines behind others are numbered from where these end. -/
lemma numbered_append (number offset : Nat) (raws raws' : List (List Char)) :
    numbered number offset (raws ++ raws') =
      numbered number offset raws ++
        numbered (number + raws.length) (offset + byteLength raws.flatten) raws' := by
  induction raws generalizing number offset with
  | nil => rfl
  | cons raw raws ih =>
    have hn : number + (raw :: raws).length = number + 1 + raws.length := by
      rw [List.length_cons, Nat.add_assoc, Nat.add_comm 1]
    rw [List.cons_append, numbered, ih, hn, List.flatten_cons, byteLength_append, ← Nat.add_assoc]
    rfl

/-- The line that a text becomes when a line feed closes it. -/
def writtenLine (number offset : Nat) (text : String) : Line :=
  lineOf number offset (text.toList ++ ['\n'])

/-- The lines that texts become, one after another. -/
def writtenLines (number offset : Nat) (texts : List String) : List Line :=
  numbered number offset (texts.map fun text => text.toList ++ ['\n'])

/-- Lines that are written one behind the other are numbered through. -/
lemma writtenLines_append (number offset : Nat) (texts texts' : List String) :
    ∃ offset', writtenLines number offset (texts ++ texts') =
      writtenLines number offset texts ++ writtenLines (number + texts.length) offset' texts' := by
  have h := numbered_append number offset (texts.map fun text => text.toList ++ ['\n'])
    (texts'.map fun text => text.toList ++ ['\n'])
  rw [← List.map_append, List.length_map] at h
  exact ⟨_, h⟩

/-- A text that is written line by line falls into these lines. -/
lemma lines_join {texts : List String} (h : ∀ text ∈ texts, IsLineText text) :
    lines (String.join (texts.map (· ++ "\n"))) = writtenLines 1 0 texts := by
  have hcs : ∀ cs ∈ texts.map String.toList, '\n' ∉ cs := by
    intro cs hm
    obtain ⟨text, ht, rfl⟩ := List.mem_map.1 hm
    exact (h text ht).noFeed
  have hj : (String.join (texts.map (· ++ "\n"))).toList =
      (texts.map String.toList).flatMap (· ++ ['\n']) := by
    simp [String.toList_join, List.flatMap_map]
  rw [lines, hj, rawLines_flatMap hcs, List.map_map]
  rfl

section WrittenLine

variable {text : String} (number offset : Nat)

/-- A written line has its number. -/
@[simp] lemma number_writtenLine : (writtenLine number offset text).number = number := rfl

/-- A text that fits on a line is written there as it is. -/
lemma text_writtenLine (h : IsLineText text) : (writtenLine number offset text).text = text := by
  simp [writtenLine, lineOf, splitEnd_append_feed h.noReturn]

/-- A written line has the words of its text. -/
lemma tokens_writtenLine (h : IsLineText text) :
    (writtenLine number offset text).tokens = tokens offset text.toList := by
  simp [writtenLine, lineOf, splitEnd_append_feed h.noReturn]

end WrittenLine

end Source

end Nodal
