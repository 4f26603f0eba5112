import Nodal.Proofs.Source.Words
/-!
# Texts with the same words

Texts can differ in blanks and line ends and still have the same words on each line (`SameWords`). The lines
of such texts are the same once the place of each word and the text of the line are left out
(`Source.map_bare_lines`). One such difference is the carriage return before each line feed
(`Source.sameWords_withReturns`).
-/

namespace Nodal

/-- Whether texts have as many lines as each other, and the same words on each. -/
def SameWords (text text' : String) : Prop :=
  (Source.lines text).map Line.words = (Source.lines text').map Line.words

instance (text text' : String) : Decidable (SameWords text text') :=
  inferInstanceAs (Decidable (_ = _))

namespace Line

/-- The line with nothing but its number and its words. -/
def bare (l : Line) : Line where
  number := l.number
  offset := 0
  text := ""
  ending := .bare
  tokens := l.words.map fun word => { text := word, column := 0, offset := 0 }

/-- A bare line has its words. -/
lemma words_bare (l : Line) : l.bare.words = l.words := by
  simp only [words, bare, List.map_map]
  rfl

/-- Lines of the same number and words are the same when they are bare. -/
lemma bare_congr {l l' : Line} (hn : l.number = l'.number) (hw : l.words = l'.words) :
    l.bare = l'.bare := by
  rw [bare, bare, hn, hw]

end Line

namespace Source

/-- The words of lines do not depend on numbers and offsets. -/
lemma map_words_numbered (number offset : Nat) (raws : List (List Char)) :
    (numbered number offset raws).map Line.words = raws.map fun raw => (lineOf 1 0 raw).words := by
  induction raws generalizing number offset with
  | nil => rfl
  | cons raw raws ih => rw [numbered, List.map_cons, ih, List.map_cons, words_lineOf, words_lineOf]

/-- Lines of the same words are the same when they are bare. -/
lemma map_bare_numbered {number offset offset' : Nat} {raws raws' : List (List Char)}
    (h : (numbered number offset raws).map Line.words =
      (numbered number offset' raws').map Line.words) :
    (numbered number offset raws).map Line.bare = (numbered number offset' raws').map Line.bare := by
  induction raws generalizing number offset offset' raws' with
  | nil =>
    cases raws' with
    | nil => rfl
    | cons raw' raws' => cases h
  | cons raw raws ih =>
    cases raws' with
    | nil => cases h
    | cons raw' raws' =>
      obtain ⟨hw, hws⟩ := List.cons.inj h
      have hb : (lineOf number offset raw).bare = (lineOf number offset' raw').bare :=
        Line.bare_congr rfl hw
      rw [numbered, List.map_cons, hb, ih hws, numbered, List.map_cons]

/-- Texts with the same words have the same lines, but for the texts of the lines and the places of the
words. -/
lemma map_bare_lines {text text' : String} (h : SameWords text text') :
    (lines text).map Line.bare = (lines text').map Line.bare :=
  map_bare_numbered h

section Returns

/-- What stands for a character where line feeds have a carriage return before them. -/
def returned (c : Char) : List Char :=
  if c = '\n' then ['\r', '\n'] else [c]

/-- The text with a carriage return before each line feed. -/
def withReturns (text : String) : String :=
  String.ofList (text.toList.flatMap returned)

/-- Returns are put in line by line. -/
lemma rawLines_returned (cs : List Char) :
    rawLines (cs.flatMap returned) = (rawLines cs).map (·.flatMap returned) := by
  induction cs with
  | nil => rfl
  | cons c cs ih =>
    by_cases hc : c = '\n'
    · subst hc
      simp [returned, rawLines, ih]
    · have hr : returned c = [c] := if_neg hc
      rw [List.flatMap_cons, hr, List.singleton_append, rawLines, if_neg hc, ih, rawLines, if_neg hc]
      cases rawLines cs with
      | nil => simp [hr]
      | cons l ls => simp [hr]

/-- Without a line feed no return is put in. -/
lemma flatMap_returned {cs : List Char} (h : '\n' ∉ cs) : cs.flatMap returned = cs := by
  induction cs with
  | nil => rfl
  | cons c cs ih =>
    have hc : c ≠ '\n' := fun hc => h (hc ▸ List.mem_cons_self)
    rw [List.flatMap_cons, ih fun hm => h (List.mem_cons_of_mem c hm), returned, if_neg hc]
    rfl

/-- The carriage return before a line feed counts to the end of the line. -/
lemma splitEnd_returned {raw body : List Char} (hb : '\n' ∉ body) (hr : '\r' ∉ raw)
    (h : raw = body ∨ raw = body ++ ['\n']) :
    (splitEnd (raw.flatMap returned)).1 = (splitEnd raw).1 := by
  rcases h with rfl | rfl
  · rw [flatMap_returned hb]
  · have hlast : body.getLast? ≠ some '\r' := fun hl =>
      hr (List.mem_append_left _ (List.mem_of_getLast? hl))
    have hend : ['\n'].flatMap returned = ['\r', '\n'] := rfl
    rw [List.flatMap_append, flatMap_returned hb, hend, splitEnd_append_return,
      splitEnd_append_feed hlast]

/-- Carriage returns before the line feeds change no word. -/
lemma sameWords_withReturns {text : String} (h : '\r' ∉ text.toList) :
    SameWords text (withReturns text) := by
  rw [SameWords, lines, lines, map_words_numbered, map_words_numbered, withReturns,
    String.toList_ofList, rawLines_returned, List.map_map]
  apply List.map_congr_left
  intro raw hraw
  obtain ⟨body, hb, he⟩ := exists_body hraw
  have hr : '\r' ∉ raw := by
    intro hr
    rw [← flatten_rawLines text.toList] at h
    exact h (List.mem_flatten.2 ⟨raw, hraw, hr⟩)
  simp only [Function.comp, words_lineOf, splitEnd_returned hb hr he]

end Returns

end Source

end Nodal
