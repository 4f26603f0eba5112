import Nodal.Proofs.Dialect.Rules
import Nodal.Proofs.Source.Words
/-!
# Words in parentheses

Words that are written with parentheses around them (`NetList.wrap`) are the words that come out again
when the parentheses are taken off (`NetList.unwrap?_wrap`). A parenthesis that stands apart (`NetList.Lists`)
touches an empty word, and such words are left out, so all spellings list the same nets and no others list any
(`NetList.unwrap?_spellings`).
-/

namespace Nodal

/-- A word that can name a net can stand anywhere on a line. -/
lemma isWord_of_isNetName {word : String} (h : isNetName word = true) : IsWord word := by
  obtain ⟨hne, hall⟩ := isNetName_iff.1 h
  exact isWord_of_forall hne hall (by decide)

namespace NetList

/-- Words with an opening parenthesis in front of the first one. -/
def openFirst : List String → List String
  | [] => []
  | word :: words => ("(" ++ word) :: words

/-- Words with a closing parenthesis behind the last one, or that parenthesis alone. -/
def closeLast : List String → List String
  | [] => [")"]
  | [word] => [word ++ ")"]
  | word :: words => word :: closeLast words

/-- The words that words in parentheses consist of. -/
def wrap (words : List String) : List String :=
  openFirst (closeLast words)

variable {words : List String}

/-- The last of several words is not the first one. -/
lemma closeLast_cons (word : String) (hne : words ≠ []) :
    closeLast (word :: words) = word :: closeLast words := by
  cases words with
  | nil => exact absurd rfl hne
  | cons => rfl

/-- There is always a word that closes. -/
lemma closeLast_ne_nil (words : List String) : closeLast words ≠ [] := by
  cases words with
  | nil => exact List.cons_ne_nil _ _
  | cons word words => cases words <;> exact List.cons_ne_nil _ _

/-- Joined by blanks, opened words stand behind an opening parenthesis. -/
lemma wordLine_openFirst (hne : words ≠ []) :
    wordLine (openFirst words) = "(" ++ wordLine words := by
  cases words with
  | nil => exact absurd rfl hne
  | cons word words =>
    by_cases hw : words = []
    · simp [openFirst, hw]
    · simp [openFirst, wordLine_cons _ hw, String.append_assoc]

/-- Joined by blanks, closed words stand in front of a closing parenthesis. -/
lemma wordLine_closeLast (words : List String) :
    wordLine (closeLast words) = wordLine words ++ ")" := by
  induction words with
  | nil => decide
  | cons word words ih =>
    by_cases hw : words = []
    · simp [closeLast, hw]
    · rw [closeLast_cons word hw, wordLine_cons word (closeLast_ne_nil words), ih,
        wordLine_cons word hw]
      simp only [String.append_assoc]

/-- Joined by blanks, wrapped words are the words in parentheses. -/
lemma wordLine_wrap (words : List String) : wordLine (wrap words) = parenthesized words := by
  rw [wrap, wordLine_openFirst (closeLast_ne_nil words), wordLine_closeLast, parenthesized,
    String.append_assoc]

/-- Wrapped words start with an opening parenthesis. -/
lemma exists_wrap_eq_cons (words : List String) :
    ∃ word later cs, wrap words = word :: later ∧ word.toList = '(' :: cs := by
  obtain ⟨word, later, hw⟩ := List.exists_cons_of_ne_nil (closeLast_ne_nil words)
  refine ⟨"(" ++ word, later, word.toList, ?_, ?_⟩
  · rw [wrap, hw]
    rfl
  · rw [String.toList_append]
    rfl

/-- Wrapped words are not empty. -/
lemma wrap_ne_nil (words : List String) : wrap words ≠ [] := by
  obtain ⟨word, later, _, hw, -⟩ := exists_wrap_eq_cons words
  rw [hw]
  exact List.cons_ne_nil _ _

/-- Words stay words when the last one is closed. -/
lemma isWord_closeLast (h : ∀ word ∈ words, IsWord word) : ∀ word ∈ closeLast words, IsWord word := by
  induction words with
  | nil =>
    intro word hm
    rw [List.mem_singleton.1 hm]
    decide
  | cons word words ih =>
    have hw := h word List.mem_cons_self
    by_cases hne : words = []
    · subst hne
      intro word' hm
      rw [List.mem_singleton.1 hm]
      exact hw.append (by decide)
    · rw [closeLast_cons word hne]
      intro word' hm
      rcases List.mem_cons.1 hm with rfl | hm
      · exact hw
      · exact ih (fun w hw => h w (List.mem_cons_of_mem _ hw)) word' hm

/-- The words that words in parentheses consist of can stand on a line. -/
lemma isWord_wrap (h : ∀ word ∈ words, IsWord word) : ∀ word ∈ wrap words, IsWord word := by
  obtain ⟨word, later, hw⟩ := List.exists_cons_of_ne_nil (closeLast_ne_nil words)
  have hc := isWord_closeLast h
  rw [hw] at hc
  rw [wrap, hw]
  intro word' hm
  rcases List.mem_cons.1 hm with rfl | hm
  · exact IsWord.append (by decide) (hc word List.mem_cons_self)
  · exact hc word' (List.mem_cons_of_mem _ hm)

/-- Closed words are read back. -/
lemma closed?_closeLast (word : String) (words : List String) :
    closed? (closeLast (word :: words)) = some (word :: words) := by
  induction words generalizing word with
  | nil => simp [closeLast, closed?, dropClose?]
  | cons word' words ih =>
    obtain ⟨last, later, hw⟩ := List.exists_cons_of_ne_nil (closeLast_ne_nil (word' :: words))
    have hc := ih word'
    rw [closeLast_cons word (List.cons_ne_nil _ _)]
    rw [hw] at hc ⊢
    rw [closed?, hc]
    · rfl
    · exact List.cons_ne_nil _ _

/-- Only a closing parenthesis at the end of the last word is taken off. -/
lemma eq_closeLast_of_closed? {kept : List String} (h : closed? words = some kept) :
    kept ≠ [] ∧ words = closeLast kept := by
  fun_induction closed? words generalizing kept with
  | case1 => cases h
  | case2 word =>
    obtain ⟨kept, hd, rfl⟩ := Option.map_eq_some_iff.1 h
    refine ⟨List.cons_ne_nil _ _, ?_⟩
    unfold dropClose? at hd
    split at hd
    · rename_i hlast
      obtain ⟨cs, hcs⟩ := List.getLast?_eq_some_iff.1 hlast
      cases hd
      apply congrArg (fun word => [word])
      rw [hcs, List.dropLast_concat, ← String.toList_inj, hcs, String.toList_append, String.toList_ofList]
      rfl
    · cases hd
  | case3 word rest _ ih =>
    obtain ⟨kept, hk, rfl⟩ := Option.map_eq_some_iff.1 h
    obtain ⟨hne, hrest⟩ := ih hk
    refine ⟨List.cons_ne_nil _ _, ?_⟩
    rw [closeLast_cons word hne, ← hrest]

/-- Of words that are not empty none is filtered out. -/
lemma filter_ne_empty (h : ∀ word ∈ words, word ≠ "") : words.filter (· ≠ "") = words := by
  rw [List.filter_eq_self]
  intro word hm
  simpa using h word hm

/-- Of words in parentheses, those that are not empty are left when the parentheses are taken off. -/
lemma unwrap?_wrap_filter (required : Bool) (words : List String) :
    unwrap? required (wrap words) = some (words.filter (· ≠ "")) := by
  have hclosed :
      (closed? (closeLast words)).map (·.filter (· ≠ "")) = some (words.filter (· ≠ "")) := by
    cases words with
    | nil => decide
    | cons word words => rw [closed?_closeLast, Option.map_some]
  obtain ⟨word, later, hw⟩ := List.exists_cons_of_ne_nil (closeLast_ne_nil words)
  rw [hw] at hclosed
  rw [wrap, hw]
  simpa [openFirst, unwrap?] using hclosed

/-- Words in parentheses are the words themselves when the parentheses are taken off. -/
lemma unwrap?_wrap (h : ∀ word ∈ words, word ≠ "") (required : Bool) :
    unwrap? required (wrap words) = some words := by
  rw [unwrap?_wrap_filter, filter_ne_empty h]

/-! ### Parentheses that stand apart -/

/-- Whether words list nets in parentheses, each of which touches the net beside it or stands apart. Around no
nets at all the parentheses touch each other or stand apart. -/
inductive Lists (nets : List String) : List String → Prop where
  /-- As `(a b)`. -/
  | touching :
    Lists nets (openFirst (closeLast nets))
  /-- As `( a b )`. -/
  | apart :
    Lists nets ("(" :: (nets ++ [")"]))
  /-- As `(a b )`. -/
  | openTouching :
    Lists nets (openFirst (nets ++ [")"]))
  /-- As `( a b)`. -/
  | closeTouching :
    Lists nets ("(" :: closeLast nets)

/-- The last word is closed at its end. -/
lemma closeLast_concat (words : List String) (last : String) :
    closeLast (words ++ [last]) = words ++ [last ++ ")"] := by
  induction words with
  | nil => rfl
  | cons word words ih =>
    have hne : words ++ [last] ≠ [] := List.append_ne_nil_of_right_ne_nil words (List.cons_ne_nil _ _)
    rw [List.cons_append, closeLast_cons word hne, ih, List.cons_append]

/-- A closing parenthesis that stands apart touches an empty word. -/
lemma closeLast_concat_empty (words : List String) : closeLast (words ++ [""]) = words ++ [")"] := by
  rw [closeLast_concat, String.empty_append]

/-- An opening parenthesis that stands apart touches an empty word. -/
lemma wrap_cons_empty (hne : words ≠ []) : wrap ("" :: words) = "(" :: closeLast words := by
  rw [wrap, closeLast_cons "" hne, openFirst, String.append_empty]

/-- Parentheses that stand apart touch empty words, which are left out. -/
lemma Lists.exists_wrap {nets : List String} (h : Lists nets words) (hne : ∀ net ∈ nets, net ≠ "") :
    ∃ padded, words = wrap padded ∧ padded.filter (· ≠ "") = nets := by
  have hkept := filter_ne_empty hne
  cases h with
  | touching => exact ⟨nets, rfl, hkept⟩
  | apart =>
    refine ⟨"" :: (nets ++ [""]), ?_, ?_⟩
    · rw [wrap_cons_empty (List.append_ne_nil_of_right_ne_nil nets (List.cons_ne_nil _ _)),
        closeLast_concat_empty]
    · simpa using hkept
  | openTouching =>
    refine ⟨nets ++ [""], ?_, ?_⟩
    · rw [wrap, closeLast_concat_empty]
    · simpa using hkept
  | closeTouching =>
    cases nets with
    | nil => exact ⟨["", ""], rfl, rfl⟩
    | cons net nets =>
      refine ⟨"" :: net :: nets, (wrap_cons_empty (List.cons_ne_nil _ _)).symm, ?_⟩
      simpa using hkept

/-- What is left when parentheses are taken off is the words inside that are not empty. -/
lemma exists_of_unwrap? {required : Bool} {nets : List String} (ho : IsOpened words)
    (h : unwrap? required words = some nets) :
    ∃ padded, words = wrap padded ∧ padded.filter (· ≠ "") = nets := by
  obtain ⟨word, rest, cs, rfl, hw⟩ := ho
  simp only [unwrap?, hw] at h
  obtain ⟨padded, hc, hf⟩ := Option.map_eq_some_iff.1 h
  refine ⟨padded, ?_, hf⟩
  have hword : word = "(" ++ String.ofList cs := by
    rw [← String.toList_inj, hw]
    simp
  rw [wrap, ← (eq_closeLast_of_closed? hc).2, openFirst, ← hword]

/-- Between the first word and the last one stand nets, and each of these two is a net or the empty word that a
parenthesis touches. -/
lemma lists_wrap_of_middle {nets : List String} (h : ∀ net ∈ nets, ¬ net = "") (first last : String) :
    Lists ((first :: (nets ++ [last])).filter (· ≠ "")) (wrap (first :: (nets ++ [last]))) := by
  have hne : nets ++ [last] ≠ [] := List.append_ne_nil_of_right_ne_nil nets (List.cons_ne_nil _ _)
  by_cases hfirst : first = ""
  · by_cases hlast : last = ""
    · have hkept : (first :: (nets ++ [last])).filter (· ≠ "") = nets := by
        simpa [hfirst, hlast] using h
      rw [hkept, hfirst, wrap_cons_empty hne, hlast, closeLast_concat_empty]
      exact .apart
    · have hkept : (first :: (nets ++ [last])).filter (· ≠ "") = nets ++ [last] := by
        simpa [hfirst, hlast] using h
      rw [hkept, hfirst, wrap_cons_empty hne]
      exact .closeTouching
  · by_cases hlast : last = ""
    · have hkept : (first :: (nets ++ [last])).filter (· ≠ "") = first :: nets := by
        simpa [hfirst, hlast] using h
      rw [hkept, hlast, wrap, ← List.cons_append, closeLast_concat_empty]
      exact .openTouching
    · have hkept : (first :: (nets ++ [last])).filter (· ≠ "") = first :: (nets ++ [last]) := by
        simpa [hfirst, hlast] using h
      rw [hkept]
      exact .touching

/-- Where no word is empty, only the parentheses can touch empty words. -/
lemma lists_wrap (h : ∀ word ∈ wrap words, word ≠ "") : Lists (words.filter (· ≠ "")) (wrap words) := by
  cases words with
  | nil => exact .touching
  | cons first rest =>
    rcases List.eq_nil_or_concat rest with rfl | ⟨nets, last, rfl⟩
    · by_cases hfirst : first = ""
      · rw [hfirst]
        exact .touching
      · rw [filter_ne_empty (List.forall_mem_singleton.2 hfirst)]
        exact .touching
    · rw [List.concat_eq_append] at h ⊢
      apply lists_wrap_of_middle
      intro net hm
      apply h
      rw [wrap, ← List.cons_append, closeLast_concat, List.cons_append, openFirst]
      exact List.mem_cons_of_mem _ (List.mem_append_left _ hm)

/-- Joined, opened words stand behind an opening parenthesis. -/
lemma join_openFirst (hne : words ≠ []) : String.join (openFirst words) = "(" ++ String.join words := by
  cases words with
  | nil => exact absurd rfl hne
  | cons word words => rw [openFirst, String.join_cons, String.join_cons, String.append_assoc]

/-- Joined, closed words stand in front of a closing parenthesis. -/
lemma join_closeLast (words : List String) : String.join (closeLast words) = String.join words ++ ")" := by
  induction words with
  | nil => decide
  | cons word words ih =>
    by_cases hw : words = []
    · simp [closeLast, hw]
    · rw [closeLast_cons word hw, String.join_cons, ih, String.join_cons, String.append_assoc]

/-- Empty words add nothing when words are joined. -/
lemma join_filter (words : List String) : String.join (words.filter (· ≠ "")) = String.join words := by
  induction words with
  | nil => rfl
  | cons word words ih =>
    by_cases hw : word = ""
    · simpa [hw] using ih
    · simpa [hw] using ih

/-- Joined, words in parentheses are the words that are left when these are taken off, with a parenthesis on
each side. -/
lemma join_wrap (words : List String) :
    String.join (wrap words) = "(" ++ String.join (words.filter (· ≠ "")) ++ ")" := by
  rw [wrap, join_openFirst (closeLast_ne_nil words), join_closeLast, join_filter, String.append_assoc]

/-- However parentheses are attached, the nets in them are listed, and of words with an opening parenthesis no
net is lost or altered. -/
theorem unwrap?_spellings (required : Bool) (words nets : List String) :
    ((∀ net ∈ nets, isNetName net = true) →
        (Lists nets words → unwrap? required words = some nets) ∧
          unwrap? required nets = if required then none else some nets) ∧
      (¬ IsOpened words → unwrap? required words = if required then none else some words) ∧
      (IsOpened words → unwrap? required words = some nets →
        String.join words = "(" ++ String.join nets ++ ")" ∧
          ((∀ word ∈ words, word ≠ "") → Lists nets words)) := by
  refine ⟨fun hnets => ⟨fun h => ?_, ?_⟩, unwrap?_of_not_isOpened required, fun ho h => ?_⟩
  · have hne : ∀ net ∈ nets, net ≠ "" := fun net hm => (isWord_of_isNetName (hnets net hm)).nonempty
    obtain ⟨padded, rfl, rfl⟩ := h.exists_wrap hne
    exact unwrap?_wrap_filter required padded
  · cases nets with
    | nil => rfl
    | cons net nets => exact unwrap?_of_isNetName (hnets net List.mem_cons_self) required nets
  · obtain ⟨padded, rfl, rfl⟩ := exists_of_unwrap? ho h
    exact ⟨join_wrap padded, lists_wrap⟩

/-- The opening parenthesis stands apart and the closing one touches, and there are none where none are
required. -/
theorem unwrap?_spellings_two :
    let words := ["(", "a", "b)"]
    let nets := ["a", "b"]
    (∀ net ∈ nets, isNetName net = true) ∧ Lists nets words ∧ unwrap? true words = some nets ∧
      ¬ IsOpened nets ∧ unwrap? false nets = some nets ∧
      IsOpened words ∧ String.join words = "(" ++ String.join nets ++ ")" ∧
      (∀ word ∈ words, word ≠ "") ∧ Lists nets words := by
  intro words nets
  have hnets : ∀ net ∈ nets, isNetName net = true := by decide
  have hlists : Lists nets words := .closeTouching
  have hbare : ¬ IsOpened nets := not_isOpened_of_isNetName (hnets "a" List.mem_cons_self) ["b"]
  have ho : IsOpened words := ⟨"(", ["a", "b)"], [], rfl, rfl⟩
  have hne : ∀ word ∈ words, word ≠ "" := by decide
  have h : unwrap? true words = some nets := ((unwrap?_spellings true words nets).1 hnets).1 hlists
  obtain ⟨hjoin, hspelled⟩ := (unwrap?_spellings true words nets).2.2 ho h
  exact ⟨hnets, hlists, h, hbare, (unwrap?_spellings false nets nets).2.1 hbare, ho, hjoin, hne, hspelled hne⟩

end NetList

end Nodal
