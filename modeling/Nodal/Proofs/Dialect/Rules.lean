import Mathlib.Tactic.Lemma
import Nodal.Netlist.Reader
/-!
# Which rules a line can meet

The rules of a dialect tell lines apart by their first words: a word that can name a net starts with
none of the marks of directives, comments and Spice titles, and a word with a star in front is met by
the rule for comments only. Beside that, the rules that look at all words of a line are written out
here for a line of a first word, words in the middle, and a last word.
-/

namespace Nodal

/-- A net name is a word of net characters, with one of them at least. -/
lemma isNetName_iff {word : String} :
    isNetName word = true ↔ word.toList ≠ [] ∧ ∀ c ∈ word.toList, isNetChar c = true := by
  simp [isNetName]

/-- A word that can name a net starts with a net character. -/
lemma head_of_isNetName {word : String} (h : isNetName word = true) :
    ∃ c cs, word.toList = c :: cs ∧ isNetChar c = true := by
  obtain ⟨hne, hall⟩ := isNetName_iff.1 h
  obtain ⟨c, cs, hc⟩ := List.exists_cons_of_ne_nil hne
  refine ⟨c, cs, hc, ?_⟩
  apply hall
  rw [hc]
  exact List.mem_cons_self

/-- A word that can name a net starts with no other character. -/
lemma toList_ne_of_isNetName {word : String} (h : isNetName word = true) {c : Char}
    (hc : isNetChar c = false) (cs : List Char) : word.toList ≠ c :: cs := by
  intro hw
  obtain ⟨c', cs', hw', hc'⟩ := head_of_isNetName h
  rw [hw] at hw'
  cases hw'
  rw [hc] at hc'
  cases hc'

/-- A word that starts with another character is no net name. -/
lemma isNetName_eq_false {word : String} {c : Char} {cs : List Char} (hw : word.toList = c :: cs)
    (hc : isNetChar c = false) : isNetName word = false := by
  rw [Bool.eq_false_iff]
  intro h
  exact toList_ne_of_isNetName h hc cs hw

/-- A word that can name a net holds no other character. -/
lemma notMem_of_isNetName {word : String} (h : isNetName word = true) {c : Char}
    (hc : isNetChar c = false) : c ∉ word.toList := by
  intro hm
  have hall := (isNetName_iff.1 h).2 c hm
  rw [hc] at hall
  cases hall

/-- Net characters behind a net name make a net name. -/
lemma isNetName_append {word word' : String} (h : isNetName word = true)
    (h' : ∀ c ∈ word'.toList, isNetChar c = true) : isNetName (word ++ word') = true := by
  obtain ⟨hne, hall⟩ := isNetName_iff.1 h
  rw [isNetName_iff, String.toList_append]
  refine ⟨List.append_ne_nil_of_left_ne_nil hne _, fun c hc => ?_⟩
  exact (List.mem_append.1 hc).elim (hall c) (h' c)

namespace NetList

/-- Whether an opening parenthesis stands in front of words. -/
def IsOpened (words : List String) : Prop :=
  ∃ word rest cs, words = word :: rest ∧ word.toList = '(' :: cs

/-- Words without a parenthesis in front are the nets themselves, where that is allowed. -/
lemma unwrap?_of_not_isOpened {words : List String} (required : Bool) (h : ¬ IsOpened words) :
    unwrap? required words = if required then none else some words := by
  cases words with
  | nil => rfl
  | cons word rest =>
    simp only [unwrap?]
    split
    · rename_i cs hw
      exact absurd ⟨word, rest, cs, rfl, hw⟩ h
    · rfl

/-- A net name opens no list of nets in parentheses. -/
lemma not_isOpened_of_isNetName {net : String} (h : isNetName net = true) (rest : List String) :
    ¬ IsOpened (net :: rest) := by
  rintro ⟨word, rest, cs, hw, hc⟩
  cases hw
  exact toList_ne_of_isNetName h (by decide) cs hc

/-- Nets without parentheses are refused where these are required, and taken as they are elsewhere. -/
lemma unwrap?_of_isNetName {net : String} (h : isNetName net = true) (required : Bool)
    (rest : List String) :
    unwrap? required (net :: rest) = if required then none else some (net :: rest) :=
  unwrap?_of_not_isOpened required (not_isOpened_of_isNetName h rest)

end NetList

section Count

/-- A number is written by its decimal digits. -/
lemma toList_toString (n : Nat) : (toString n).toList = Nat.toDigits 10 n := by
  rw [Nat.toString_eq_ofList_toDigits, String.toList_ofList]

/-- Each character that writes a number is a digit. -/
lemma isDigit_of_mem_toString {n : Nat} {c : Char} (h : c ∈ (toString n).toList) :
    c.isDigit = true := by
  rw [toList_toString] at h
  exact Nat.isDigit_of_mem_toDigits (by decide) (by decide) h

/-- The decimal text of a number is the count that it writes. -/
lemma readCount?_toString (n : Nat) : readCount? (toString n) = some n := by
  obtain ⟨c, cs, hc⟩ := List.exists_cons_of_ne_nil (Nat.toDigits_ne_nil (n := n) (b := 10))
  have ht : (toString n).toList = c :: cs := (toList_toString n).trans hc
  have hdigit : ∀ a ∈ c :: cs, a.isDigit = true := fun a ha =>
    isDigit_of_mem_toString (ht ▸ ha)
  have hvalue : Decimal.ofDigits (c :: cs) = n := by
    rw [← hc]
    exact Nat.ofDigitChars_toDigits (by decide) (by decide)
  have hplus : c ≠ '+' := by
    rintro rfl
    exact absurd (hdigit '+' List.mem_cons_self) (by decide)
  simp only [readCount?, ht]
  split
  · rename_i heq
    exact absurd (List.cons.inj heq).1 hplus
  · simp [List.all_eq_true.2 hdigit, hvalue]

/-- A count of the words before it is left out. -/
lemma dropArity_concat {words : List String} (hne : words ≠ []) :
    dropArity (words ++ [toString words.length]) = words := by
  have hl : (words ++ [toString words.length]).length - 1 = words.length := by simp
  have hpos : words.length ≠ 0 := by simpa using hne
  simp only [dropArity, List.getLast?_concat, hl]
  rw [if_pos ⟨hpos, readCount?_toString words.length⟩, List.dropLast_concat]

end Count

namespace Dialect

variable {d : Dialect} {first : String}

/-- Only the word `simulator` starts a switch. -/
lemma switch?_eq_none (h : first ≠ "simulator") (rest : List String) :
    switch? (first :: rest) = none := by
  simp [switch?, h]

/-- A line that starts with no closing word closes nothing. -/
lemma closes_eq_false (h : d.closesWord first = false) (name : String) (rest : List String) :
    d.closes name (first :: rest) = false := by
  cases rest with
  | nil => exact h
  | cons second rest =>
    cases rest with
    | nil => simp [closes, h]
    | cons => rfl

/-- A line that starts with no opening word is no title. -/
lemma title?_eq_none (h : d.opens first = false) (rest : List String) :
    d.title? (first :: rest) = none := by
  cases rest with
  | nil => rfl
  | cons name rest => simp [title?, h]

/-- No comment starts with a word that can name a net. -/
lemma isComment_of_isNetName (h : isNetName first = true) (rest : List String) :
    d.isComment (first :: rest) = false := by
  obtain ⟨c, cs, hw, -⟩ := head_of_isNetName h
  have hstar : '*' ≠ c := by
    rintro rfl
    exact toList_ne_of_isNetName h (by decide) cs hw
  have hslash : '/' ≠ c := by
    rintro rfl
    exact toList_ne_of_isNetName h (by decide) cs hw
  cases d <;> simp [isComment, hw, List.isPrefixOf, hstar, hslash]

/-- The point is the lower case of itself only. -/
lemma eq_dot_of_toLower {c : Char} (h : c.toLower = '.') : c = '.' := by
  unfold Char.toLower at h
  split at h
  · -- a letter becomes a letter, whose code is too large
    rename_i hc
    have hl : 65 ≤ c.val.toNat := UInt32.le_iff_toNat_le.1 hc.1
    have hu : c.val.toNat ≤ 90 := UInt32.le_iff_toNat_le.1 hc.2
    have hn : (c.val + 32).toNat = 46 := congrArg Char.toNat h
    simp only [UInt32.toNat_add, UInt32.reduceToNat] at hn
    omega
  · exact h

/-- No word with a dot in front can name a net. -/
lemma lowercase_ne_of_isNetName (h : isNetName first = true) (cs : List Char) :
    lowercase first ≠ '.' :: cs := by
  obtain ⟨c, cs', hw, -⟩ := head_of_isNetName h
  intro he
  simp only [lowercase, hw, List.map_cons, List.cons.injEq] at he
  rw [eq_dot_of_toLower he.1] at hw
  exact toList_ne_of_isNetName h (by decide) cs' hw

/-- A net name does not start with a dot. -/
lemma isDotted_of_isNetName (h : isNetName first = true) : isDotted first = false := by
  unfold isDotted
  split
  · rename_i cs hw
    exact absurd hw (toList_ne_of_isNetName h (by decide) cs)
  · rfl

/-- A word that can name a net opens no subcircuit, unless the dialect reserves it. -/
lemma opens_of_isNetName (h : isNetName first = true) (hf : d.reservesName first = false) :
    d.opens first = false := by
  cases d with
  | spice => simpa [opens] using lowercase_ne_of_isNetName h _
  | spectre =>
    simp only [reservesName, Bool.or_eq_false_iff] at hf
    exact hf.1.1

/-- A word that can name a net closes no subcircuit, unless the dialect reserves it. -/
lemma closesWord_of_isNetName (h : isNetName first = true) (hf : d.reservesName first = false) :
    d.closesWord first = false := by
  cases d with
  | spice => simpa [closesWord] using lowercase_ne_of_isNetName h _
  | spectre =>
    simp only [reservesName, Bool.or_eq_false_iff] at hf
    exact hf.1.2

/-- Spice reserves the words with an `X` in front. -/
lemma reservesName_spice_iff :
    reservesName .spice first = true ↔ ∃ cs, first.toList = 'X' :: cs ∨ first.toList = 'x' :: cs := by
  simp only [reservesName]
  split
  · rename_i cs hX
    exact iff_of_true rfl ⟨cs, .inl hX⟩
  · rename_i cs hx
    exact iff_of_true rfl ⟨cs, .inr hx⟩
  · rename_i hX hx
    refine iff_of_false Bool.false_ne_true ?_
    rintro ⟨cs, h | h⟩
    · exact hX cs h
    · exact hx cs h

section Star

variable {cs : List Char}

/-- A word with a star in front closes nothing. -/
lemma closesWord_of_star (h : first.toList = '*' :: cs) (d : Dialect) :
    d.closesWord first = false := by
  cases d with
  | spice =>
    have hl : lowercase first = '*' :: cs.map Char.toLower := by
      rw [lowercase, h]
      rfl
    simp [closesWord, hl]
  | spectre =>
    have hne : first ≠ "ends" := by
      rintro rfl
      cases h
    simpa [closesWord] using hne

/-- A word with a star in front starts no directive. -/
lemma isDirective_of_star (h : first.toList = '*' :: cs) (d : Dialect) (rest : List String) :
    d.isDirective (first :: rest) = false := by
  cases d with
  | spice => simp [isDirective, isDotted, h]
  | spectre =>
    have hk : ∀ word ∈ keywords, word.toList.head? ≠ some '*' := by decide
    have hf : first ∉ keywords := fun hm => hk first hm (by rw [h]; rfl)
    have hi : isIdentifier first = false := by
      have hc : isIdentChar '*' = false := by decide
      simp [isIdentifier, h, hc]
    simp [isDirective, hf, hi]

/-- A line with a star in front is a comment in both dialects. -/
lemma isComment_of_star (h : first.toList = '*' :: cs) (d : Dialect) (rest : List String) :
    d.isComment (first :: rest) = true := by
  cases d <;> simp [isComment, h, List.isPrefixOf]

end Star

/-- In Spice a word that may name an element labels no call. -/
lemma isLabel_of_free (h : reservesName .spice first = false) : isLabel .spice first = false := by
  unfold reservesName at h
  unfold isLabel
  cases hw : first.toList with
  | nil => simp
  | cons c cs =>
    by_cases hX : c = 'X'
    · simp [hw, hX] at h
    · by_cases hx : c = 'x'
      · simp [hw, hx] at h
      · simp [hX, hx]

/-- A call is told from its label, the nets that the words in the middle list, and its last word. -/
lemma call?_eq (d : Dialect) (label subcircuit : String) (words : List String) :
    d.call? (label :: words ++ [subcircuit]) =
      if d.isLabel label && isNetName subcircuit then
        (d.callNets? words).bind fun nets =>
          if nets.all isNetName then some { label, nets, subcircuit } else none
      else none := by
  simp [call?]

/-- The words of a call are a label, nets and the name of a subcircuit. -/
lemma areNames_of_call? {words : List String} {c : CallParts} (h : d.call? words = some c) :
    d.isLabel c.label = true ∧ (∀ net ∈ c.nets, isNetName net = true) ∧
      isNetName c.subcircuit = true := by
  cases words with
  | nil => cases h
  | cons label rest =>
    simp only [call?] at h
    split at h
    · cases h
    · rename_i subcircuit _
      split at h
      · rename_i hn
        obtain ⟨hlabel, hname⟩ := Bool.and_eq_true_iff.1 hn
        obtain ⟨nets, -, hc⟩ := Option.bind_eq_some_iff.1 h
        split at hc
        · rename_i hall
          cases hc
          exact ⟨hlabel, List.all_eq_true.1 hall, hname⟩
        · cases hc
      · cases h

/-- A label is a net name. -/
lemma isNetName_of_isLabel {label : String} (h : d.isLabel label = true) : isNetName label = true :=
  (Bool.and_eq_true_iff.1 h).1

/-- In Spice a label starts with an `X` and goes on behind it. -/
lemma isLabel_spice_iff {label : String} :
    isLabel .spice label = true ↔ isNetName label = true ∧
      ∃ c cs, label.toList = c :: cs ∧ (c = 'X' ∨ c = 'x') ∧ cs ≠ [] := by
  simp only [isLabel, Bool.and_eq_true]
  refine and_congr_right fun _ => ?_
  split
  · rename_i c cs hX
    exact iff_of_true rfl ⟨'X', c :: cs, hX, .inl rfl, List.cons_ne_nil _ _⟩
  · rename_i c cs hx
    exact iff_of_true rfl ⟨'x', c :: cs, hx, .inr rfl, List.cons_ne_nil _ _⟩
  · rename_i hX hx
    refine iff_of_false Bool.false_ne_true ?_
    rintro ⟨c, cs, hl, hc, hne⟩
    obtain ⟨c', cs', rfl⟩ := List.exists_cons_of_ne_nil hne
    rcases hc with rfl | rfl
    · exact hX c' cs' hl
    · exact hx c' cs' hl

/-- The words of a title name a subcircuit and its ports. -/
lemma areNames_of_title? {words : List String} {t : Title} (h : d.title? words = some t) :
    isNetName t.name = true ∧ ∀ port ∈ t.ports, isNetName port = true := by
  unfold title? at h
  split at h
  · split at h
    · rename_i hn
      obtain ⟨ports, -, ht⟩ := Option.bind_eq_some_iff.1 h
      split at ht
      · rename_i hall
        cases ht
        exact ⟨(Bool.and_eq_true_iff.1 hn).2, List.all_eq_true.1 hall⟩
      · cases ht
    · cases h
  · cases h

end Dialect

namespace ElementLine

/-- No element starts with a word that starts with no letter or that the dialect reserves. -/
lemma ofWords?_eq_none {d : Dialect} {first : String}
    (h : (first.toList.head?.any Char.isAlpha && !d.reservesName first) = false)
    (n : Nat) (rest : List String) : ofWords? d n (first :: rest) = none := by
  cases rest with
  | nil => rfl
  | cons net rest =>
    simp only [ofWords?]
    split
    · rename_i letter tail _ hw
      simp only [hw, List.head?_cons, Option.any_some] at h
      rw [if_neg]
      intro hc
      simp only [Bool.and_eq_true] at hc
      rw [hc.1.1.1.1, hc.1.1.2] at h
      cases h
    · rfl

/-- An element is told from its name, the nets in the middle, and its last word. -/
lemma ofWords?_eq (d : Dialect) (n : Nat) {name value : String} {nets : List String} {letter : Char}
    {tail : List Char} (hn : name.toList = letter :: tail) (hne : nets ≠ []) :
    ofWords? d n (name :: nets ++ [value]) =
      if letter.isAlpha && isNetName name && !d.reservesName name &&
          admits d letter nets (name :: nets ++ [value]) && nets.all isNetName then
        some { letter := letter.toUpper, name, nets, value, line := n }
      else none := by
  obtain ⟨net, rest, rfl⟩ := List.exists_cons_of_ne_nil hne
  simp [ofWords?, hn]

end ElementLine

end Nodal
