import Nodal.Proofs.Dialect.NetList
import Nodal.Proofs.Netlist.Records
/-!
# Lines that both dialects write

Comments with a star, elements of known kinds, subcircuits and calls can be written in either dialect
(`Record.Portable`). For each line that writes such a record it is shown here what the rules of both
dialects say about it. They agree but for one thing: in Spectre the title of a subcircuit that is
called like an analysis is a directive (`Subcircuit.isDirective_titleWords`).
-/

namespace Nodal

open Source

/-- Whether a line is read as an item, wherever it stands. -/
structure Line.Holds (d : Dialect) (l : Line) (i : Item) : Prop where
  notBlank : l.isBlank = false
  noSwitch : Dialect.switch? l.words = none
  notClosing : ∀ name, d.closes name l.words = false
  item : Item.ofLine? d l = some i

/-- A line that starts with another word than switches do is neither blank nor a switch. -/
lemma Line.not_blank_or_switch {l : Line} {first : String} {rest : List String}
    (h : l.words = first :: rest) (hf : first ≠ "simulator") :
    l.isBlank = false ∧ Dialect.switch? l.words = none := by
  constructor
  · cases ht : l.tokens with
    | nil =>
      rw [words, ht] at h
      cases h
    | cons => simp [isBlank, ht]
  · rw [h]
    exact Dialect.switch?_eq_none hf rest

namespace ElementLine

/-- Whether a dialect can write an element: its words can stand on a line, no rule that is asked before
the rule for elements claims its name, and the dialect admits its nets. -/
structure Written (d : Dialect) (e : ElementLine) : Prop where
  isName : isNetName e.name = true
  noSwitch : e.name ≠ "simulator"
  free : d.reservesName e.name = false
  nets_ne_nil : e.nets ≠ []
  areNets : ∀ net ∈ e.nets, isNetName net = true
  isWord : IsWord e.value
  letter : ∃ letter tail, e.name.toList = letter :: tail ∧ letter.isAlpha = true ∧
    e.letter = letter.toUpper ∧ admits d letter e.nets (e.name :: e.nets ++ [e.value]) = true

namespace Written

variable {d : Dialect} {e : ElementLine}

/-- The words of an element that can be written are words. -/
lemma isWord_of_mem (h : e.Written d) : ∀ word ∈ e.name :: e.nets ++ [e.value], IsWord word := by
  intro word hm
  rcases List.mem_append.1 hm with hm | hm
  · rcases List.mem_cons.1 hm with rfl | hm
    · exact isWord_of_isNetName h.isName
    · exact isWord_of_isNetName (h.areNets word hm)
  · rw [List.mem_singleton.1 hm]
    exact h.isWord

/-- The words of an element that can be written are read as the element. -/
lemma ofWords?_eq (h : e.Written d) (n : Nat) :
    ofWords? d n (e.name :: e.nets ++ [e.value]) = some { e with line := n } := by
  obtain ⟨letter, tail, hn, ha, hu, hadmits⟩ := h.letter
  rw [ElementLine.ofWords?_eq d n hn h.nets_ne_nil, if_pos]
  · rw [← hu]
  · simp only [ha, h.isName, h.free, hadmits, List.all_eq_true.2 h.areNets, Bool.not_false,
      Bool.and_self]

/-- The line that writes an element is read as this element. -/
lemma holds (h : e.Written d) (number offset : Nat) :
    (writtenLine number offset e.text).Holds d (.element { e with line := number }) := by
  have hw : (writtenLine number offset e.text).words = e.name :: e.nets ++ [e.value] :=
    words_writtenLine number offset (List.cons_ne_nil _ _) h.isWord_of_mem
  obtain ⟨hb, hs⟩ := Line.not_blank_or_switch hw h.noSwitch
  refine ⟨hb, hs, fun name => ?_, ?_⟩
  · rw [hw]
    exact Dialect.closes_eq_false (Dialect.closesWord_of_isNetName h.isName h.free) name _
  · rw [Item.ofLine?, hw, number_writtenLine, h.ofWords?_eq number]

end Written

/-- Whether both dialects can write an element: it is of a known kind with the right number of nets,
and Spectre does not reserve its name. -/
structure Portable (e : ElementLine) : Prop where
  isName : isNetName e.name = true
  free : Dialect.reservesName .spectre e.name = false
  areNets : ∀ net ∈ e.nets, isNetName net = true
  isWord : IsWord e.value
  kind : ∃ letter tail k, e.name.toList = letter :: tail ∧ e.letter = letter.toUpper ∧
    Kind.ofLetter? letter = some k ∧ e.nets.length = k.terminalCount

/-- An element of a known kind has nets. -/
lemma nets_ne_nil_of_kind {e : ElementLine} {k : Kind} (h : e.nets.length = k.terminalCount) :
    e.nets ≠ [] := by
  intro he
  rw [he] at h
  cases k <;> cases h

/-- Neither dialect reserves the name. -/
lemma Portable.reservesName {e : ElementLine} (h : e.Portable) (d : Dialect) :
    d.reservesName e.name = false := by
  cases d with
  | spectre => exact h.free
  | spice =>
    obtain ⟨letter, tail, k, hn, -, hk, -⟩ := h.kind
    rw [Bool.eq_false_iff]
    intro hr
    -- no kind has the letter `X`
    obtain ⟨cs, hX | hx⟩ := Dialect.reservesName_spice_iff.1 hr
    · rw [hn] at hX
      cases hX
      cases hk
    · rw [hn] at hx
      cases hx
      cases hk

/-- Each dialect can write an element that both can. -/
lemma Portable.written {e : ElementLine} (h : e.Portable) (d : Dialect) : e.Written d := by
  obtain ⟨letter, tail, k, hn, hu, hk, hl⟩ := h.kind
  refine ⟨h.isName, ?_, h.reservesName d, nets_ne_nil_of_kind hl, h.areNets, h.isWord, letter, tail,
    hn, Kind.isAlpha_of_ofLetter? hk, hu, by simp [admits, hk, hl]⟩
  -- no kind has the letter `s`
  intro hs
  rw [hs] at hn
  cases hn
  cases hk

end ElementLine

namespace Comment

/-- Whether both dialects can write a comment: it starts with a star and fits on a line. -/
structure Portable (c : Comment) : Prop where
  star : ∃ cs, c.text.toList = '*' :: cs
  isLineText : IsLineText c.text

/-- The line that writes a comment is read as this comment. -/
lemma Portable.holds {c : Comment} (h : c.Portable) (d : Dialect) (number offset : Nat) :
    (writtenLine number offset c.text).Holds d (.comment { c with line := number }) := by
  obtain ⟨cs, hc⟩ := h.star
  obtain ⟨word, cs', rest, hw, hs⟩ :=
    exists_words_eq_cons number offset hc (by decide) h.isLineText
  have hf : word ≠ "simulator" := by
    rintro rfl
    cases hs
  obtain ⟨hb, hn⟩ := Line.not_blank_or_switch hw hf
  refine ⟨hb, hn, fun name => ?_, ?_⟩
  · rw [hw]
    exact Dialect.closes_eq_false (Dialect.closesWord_of_star hs d) name rest
  · have he : ElementLine.ofWords? d number (word :: rest) = none := by
      apply ElementLine.ofWords?_eq_none
      rw [hs]
      rfl
    have ht : (writtenLine number offset c.text).trimmed = c.text := by
      rw [Line.trimmed, text_writtenLine number offset h.isLineText, hc,
        List.dropWhile_cons_of_neg (by decide), ← hc, String.ofList_toList]
    simp only [Item.ofLine?, hw, number_writtenLine, he, Dialect.isDirective_of_star hs,
      Dialect.isComment_of_star hs, Bool.false_eq_true, if_true, if_false, ht]

end Comment

namespace Item

/-- Whether both dialects can write an item. Each dialect has directives of its own. -/
inductive Portable : Item → Prop where
  | element {e} :
    e.Portable →
    Portable (.element e)
  | comment {c} :
    c.Portable →
    Portable (.comment c)

/-- An item as it is read from a line with a given number. -/
def onLine (number : Nat) : Item → Item
  | .element e => .element { e with line := number }
  | .directive d => .directive { d with line := number }
  | .comment c => .comment { c with line := number }

/-- Whether the line that writes an item is read as this item. -/
structure Writable (d : Dialect) (i : Item) : Prop where
  isLineText : IsLineText i.text
  holds : ∀ number offset, (writtenLine number offset i.text).Holds d (i.onLine number)

/-- The line of an element that can be written is read as the element. -/
lemma writable_element {d : Dialect} {e : ElementLine} (h : e.Written d) :
    (element e).Writable d :=
  ⟨isLineText_wordLine h.isWord_of_mem, h.holds⟩

/-- The line of a comment that both dialects can write is read as the comment. -/
lemma writable_comment {c : Comment} (h : c.Portable) (d : Dialect) : (comment c).Writable d :=
  ⟨h.isLineText, h.holds d⟩

/-- Each dialect can write an item that both can. -/
lemma Portable.writable {i : Item} (h : i.Portable) (d : Dialect) : i.Writable d := by
  cases h with
  | element he => exact writable_element (he.written d)
  | comment hc => exact writable_comment hc d

end Item

namespace Subcircuit

/-- Whether the title of a subcircuit can be written. -/
structure Titled (s : Subcircuit) : Prop where
  isName : isNetName s.name = true
  ports_ne_nil : s.ports ≠ []
  arePorts : ∀ port ∈ s.ports, isNetName port = true

/-- Whether both dialects can write a subcircuit. -/
structure Portable (s : Subcircuit) : Prop extends s.Titled where
  body : ∀ i ∈ s.body, i.Portable

/-- The words of the title line. -/
def titleWords (d : Dialect) (s : Subcircuit) : List String :=
  match d with
  | .spice => ".subckt" :: s.name :: s.ports ++ [toString s.ports.length]
  | .spectre => "subckt" :: s.name :: NetList.wrap s.ports

/-- The words of the closing line. -/
def closingWords (d : Dialect) (s : Subcircuit) : List String :=
  match d with
  | .spice => [".ends"]
  | .spectre => ["ends", s.name]

/-- The text of a title consists of its words. -/
lemma titleText_eq (d : Dialect) (s : Subcircuit) : s.titleText d = wordLine (s.titleWords d) := by
  cases d with
  | spice => rfl
  | spectre =>
    have hne : NetList.wrap s.ports ≠ [] := NetList.wrap_ne_nil s.ports
    rw [titleText, titleWords, wordLine_cons "subckt" (List.cons_ne_nil _ _),
      wordLine_cons s.name (List.cons_ne_nil _ _), wordLine_singleton,
      wordLine_cons "subckt" (List.cons_ne_nil _ _), wordLine_cons s.name hne,
      NetList.wordLine_wrap]

/-- The text of a closing line consists of its words. -/
lemma closingText_eq (d : Dialect) (s : Subcircuit) :
    s.closingText d = wordLine (s.closingWords d) := by
  cases d with
  | spice => exact (wordLine_singleton _).symm
  | spectre => rfl

namespace Titled

variable {s : Subcircuit}

/-- The words of a title are words. -/
lemma isWord_titleWords (h : s.Titled) (d : Dialect) : ∀ word ∈ s.titleWords d, IsWord word := by
  have hname := isWord_of_isNetName h.isName
  have hports : ∀ port ∈ s.ports, IsWord port := fun port hp => isWord_of_isNetName (h.arePorts port hp)
  cases d with
  | spice =>
    have hcount : IsWord (toString s.ports.length) := by
      refine isWord_of_forall ?_ (fun c => isDigit_of_mem_toString) (by decide)
      rw [toList_toString]
      exact Nat.toDigits_ne_nil
    intro word hm
    rcases List.mem_append.1 hm with hm | hm
    · rcases List.mem_cons.1 hm with rfl | hm
      · decide
      · rcases List.mem_cons.1 hm with rfl | hm
        · exact hname
        · exact hports word hm
    · rw [List.mem_singleton.1 hm]
      exact hcount
  | spectre =>
    intro word hm
    rcases List.mem_cons.1 hm with rfl | hm
    · decide
    · rcases List.mem_cons.1 hm with rfl | hm
      · exact hname
      · exact NetList.isWord_wrap hports word hm

/-- The words of a closing line are words. -/
lemma isWord_closingWords (h : s.Titled) (d : Dialect) :
    ∀ word ∈ s.closingWords d, IsWord word := by
  intro word hm
  cases d with
  | spice =>
    rw [List.mem_singleton.1 hm]
    decide
  | spectre =>
    rcases List.mem_cons.1 hm with rfl | hm
    · decide
    · rw [List.mem_singleton.1 hm]
      exact isWord_of_isNetName h.isName

/-- The line of a title has its words. -/
lemma words_title (h : s.Titled) (d : Dialect) (number offset : Nat) :
    (writtenLine number offset (s.titleText d)).words = s.titleWords d := by
  rw [titleText_eq]
  refine words_writtenLine number offset ?_ (h.isWord_titleWords d)
  cases d <;> exact List.cons_ne_nil _ _

/-- A closing line has its words. -/
lemma words_closing (h : s.Titled) (d : Dialect) (number offset : Nat) :
    (writtenLine number offset (s.closingText d)).words = s.closingWords d := by
  rw [closingText_eq]
  refine words_writtenLine number offset ?_ (h.isWord_closingWords d)
  cases d <;> exact List.cons_ne_nil _ _

/-- Both dialects find the name and the ports in the title. -/
lemma title?_titleWords (h : s.Titled) (d : Dialect) :
    d.title? (s.titleWords d) = some { name := s.name, ports := s.ports } := by
  have hall : s.ports.all isNetName = true := List.all_eq_true.2 h.arePorts
  cases d with
  | spice =>
    have hp : Dialect.ports? .spice (s.ports ++ [toString s.ports.length]) = some s.ports :=
      congrArg some (dropArity_concat h.ports_ne_nil)
    have ho : Dialect.opens .spice ".subckt" = true := by decide
    simp only [titleWords, List.cons_append, Dialect.title?, ho, h.isName, Bool.and_self, if_true, hp,
      Option.bind_some, hall]
  | spectre =>
    have hp : Dialect.ports? .spectre (NetList.wrap s.ports) = some s.ports :=
      NetList.unwrap?_wrap (fun port hm => (isWord_of_isNetName (h.arePorts port hm)).nonempty) false
    have ho : Dialect.opens .spectre "subckt" = true := by decide
    simp only [titleWords, Dialect.title?, ho, h.isName, Bool.and_self, if_true, hp, Option.bind_some,
      hall]

end Titled

/-- The words that close a subcircuit are read as closing it. -/
lemma closes_closingWords (d : Dialect) (s : Subcircuit) :
    d.closes s.name (s.closingWords d) = true := by
  cases d with
  | spice => rfl
  | spectre => simp [closingWords, Dialect.closes, Dialect.closesWord]

/-- Only Spectre can take a title for a directive, which the name of the subcircuit decides. -/
lemma isDirective_titleWords (d : Dialect) (s : Subcircuit) :
    d.isDirective (s.titleWords d) = true ↔ d = .spectre ∧ s.name ∈ Dialect.analyses := by
  cases d with
  | spice =>
    have ho : Dialect.opens .spice ".subckt" = true := by decide
    simp [titleWords, Dialect.isDirective, ho]
  | spectre =>
    have hk : "subckt" ∉ Dialect.keywords := by decide
    have hi : isIdentifier "subckt" = true := by decide
    simp [titleWords, Dialect.isDirective, hk, hi]

/-- In Spice no title is a directive. -/
lemma isDirective_titleWords_spice (s : Subcircuit) :
    Dialect.isDirective .spice (s.titleWords .spice) = false := by
  rw [Bool.eq_false_iff, Ne, isDirective_titleWords]
  rintro ⟨⟨⟩, -⟩

/-- What a title is taken for by the rules that are asked before the rule for titles. -/
lemma ofLine?_title (d : Dialect) (s : Subcircuit) {l : Line} (hw : l.words = s.titleWords d) :
    Item.ofLine? d l =
      if d.isDirective (s.titleWords d) then some (.directive (Directive.ofLine d l)) else none := by
  have he : ElementLine.ofWords? d l.number (s.titleWords d) = none := by
    cases d with
    | spice => exact ElementLine.ofWords?_eq_none (by decide) l.number _
    | spectre => exact ElementLine.ofWords?_eq_none (by decide) l.number _
  have hc : d.isComment (s.titleWords d) = false := by
    cases d with
    | spice => rfl
    | spectre => rfl
  simp only [Item.ofLine?, hw, he, hc, Bool.false_eq_true, if_false]

end Subcircuit

namespace Call

/-- Whether both dialects can write a call: it has a label of Spice. -/
structure Portable (c : Call) : Prop where
  isLabel : Dialect.isLabel .spice c.label = true
  areNets : ∀ net ∈ c.nets, isNetName net = true
  isName : isNetName c.subcircuit = true

/-- The words of the line of a call. -/
def words (d : Dialect) (c : Call) : List String :=
  match d with
  | .spice => c.label :: c.nets ++ [c.subcircuit]
  | .spectre => c.label :: NetList.wrap c.nets ++ [c.subcircuit]

/-- The text of a call consists of its words. -/
lemma text_eq (d : Dialect) (c : Call) : c.text d = wordLine (c.words d) := by
  cases d with
  | spice => rfl
  | spectre =>
    have hne : NetList.wrap c.nets ≠ [] := NetList.wrap_ne_nil c.nets
    rw [text, words, List.cons_append, wordLine_cons c.label (List.cons_ne_nil _ _),
      wordLine_cons _ (List.cons_ne_nil _ _), wordLine_singleton,
      wordLine_cons c.label (List.append_ne_nil_of_left_ne_nil hne _),
      wordLine_append hne (List.cons_ne_nil _ _), wordLine_singleton, NetList.wordLine_wrap]

namespace Portable

variable {c : Call}

/-- The label of a call is a net name. -/
lemma isNetName_label (h : c.Portable) : isNetName c.label = true := by
  have hl := h.isLabel
  rw [Dialect.isLabel, Bool.and_eq_true] at hl
  exact hl.1

/-- Spice reserves the label for calls. -/
lemma reservesName (h : c.Portable) : Dialect.reservesName .spice c.label = true := by
  cases hr : Dialect.reservesName .spice c.label with
  | true => rfl
  | false =>
    have hl := h.isLabel
    rw [Dialect.isLabel_of_free hr] at hl
    cases hl

/-- The label is no word of the first letter `X`. -/
lemma label_notMem (h : c.Portable) {words : List String}
    (hw : ∀ word ∈ words, word.toList.head? ≠ some 'X' ∧ word.toList.head? ≠ some 'x') :
    c.label ∉ words := by
  intro hm
  obtain ⟨cs, hX | hx⟩ := Dialect.reservesName_spice_iff.1 h.reservesName
  · exact (hw c.label hm).1 (by rw [hX]; rfl)
  · exact (hw c.label hm).2 (by rw [hx]; rfl)

/-- The words of a call are words. -/
lemma isWord_words (h : c.Portable) (d : Dialect) : ∀ word ∈ c.words d, IsWord word := by
  have hlabel := isWord_of_isNetName h.isNetName_label
  have hnets : ∀ net ∈ c.nets, IsWord net := fun net hn => isWord_of_isNetName (h.areNets net hn)
  have hends : ∀ nets : List String, (∀ net ∈ nets, IsWord net) →
      ∀ word ∈ c.label :: nets ++ [c.subcircuit], IsWord word := by
    intro nets hn word hm
    rcases List.mem_append.1 hm with hm | hm
    · rcases List.mem_cons.1 hm with rfl | hm
      · exact hlabel
      · exact hn word hm
    · rw [List.mem_singleton.1 hm]
      exact isWord_of_isNetName h.isName
  cases d with
  | spice => exact hends _ hnets
  | spectre => exact hends _ (NetList.isWord_wrap hnets)

/-- The line of a call has its words. -/
lemma words_line (h : c.Portable) (d : Dialect) (number offset : Nat) :
    (writtenLine number offset (c.text d)).words = c.words d := by
  rw [text_eq]
  refine words_writtenLine number offset ?_ (h.isWord_words d)
  cases d <;> exact List.cons_ne_nil _ _

/-- The rules that are asked before the rules for titles and calls take no call. -/
lemma ofLine?_eq_none (h : c.Portable) (d : Dialect) {l : Line} (hw : l.words = c.words d) :
    Item.ofLine? d l = none := by
  have hc : d.isComment (c.words d) = false := by
    cases d with
    | spice => exact Dialect.isComment_of_isNetName h.isNetName_label _
    | spectre => exact Dialect.isComment_of_isNetName h.isNetName_label _
  have hboth : ElementLine.ofWords? d l.number (c.words d) = none ∧ d.isDirective (c.words d) = false := by
    cases d with
    | spice =>
      constructor
      · exact ElementLine.ofWords?_eq_none (by simp [h.reservesName]) l.number _
      · simp [words, Dialect.isDirective, Dialect.isDotted_of_isNetName h.isNetName_label]
    | spectre =>
      -- behind the label stands a parenthesis
      obtain ⟨word, later, cs, hr, hp⟩ := NetList.exists_wrap_eq_cons c.nets
      have hnet : isNetName word = false := isNetName_eq_false hp (by decide)
      have hanalysis : word ∉ Dialect.analyses := by
        have ha : ∀ name ∈ Dialect.analyses, isNetName name = true := by decide
        intro hm
        rw [ha word hm] at hnet
        cases hnet
      have hkeyword : c.label ∉ Dialect.keywords := h.label_notMem (by decide)
      obtain ⟨letter, tail, hl, -⟩ := head_of_isNetName h.isNetName_label
      constructor
      · rw [words, ElementLine.ofWords?_eq .spectre l.number hl (NetList.wrap_ne_nil c.nets), hr]
        simp [hnet]
      · simp [words, hr, Dialect.isDirective, hkeyword, hanalysis]
  simp only [Item.ofLine?, hw, hboth.1, hboth.2, hc, Bool.false_eq_true, if_false]

/-- The words of a call are no title. -/
lemma title?_eq_none (h : c.Portable) (d : Dialect) : d.title? (c.words d) = none := by
  cases d with
  | spice =>
    refine Dialect.title?_eq_none ?_ _
    simpa [Dialect.opens] using Dialect.lowercase_ne_of_isNetName h.isNetName_label _
  | spectre =>
    refine Dialect.title?_eq_none ?_ _
    have hne : c.label ∉ ["subckt"] := h.label_notMem (by decide)
    simpa [Dialect.opens] using hne

/-- Both dialects find the parts of the call. -/
lemma call?_words (h : c.Portable) (d : Dialect) :
    d.call? (c.words d) =
      some { label := c.label, nets := c.nets, subcircuit := c.subcircuit } := by
  have hall : c.nets.all isNetName = true := List.all_eq_true.2 h.areNets
  cases d with
  | spice =>
    rw [words, Dialect.call?_eq, if_pos (by simp [h.isLabel, h.isName])]
    simp only [Dialect.callNets?, Option.bind_some, hall, if_true]
  | spectre =>
    have hl : Dialect.isLabel .spectre c.label = true := by simp [Dialect.isLabel, h.isNetName_label]
    have hu : NetList.unwrap? true (NetList.wrap c.nets) = some c.nets :=
      NetList.unwrap?_wrap (fun net hn => (isWord_of_isNetName (h.areNets net hn)).nonempty) true
    rw [words, Dialect.call?_eq, if_pos (by simp [hl, h.isName])]
    simp only [Dialect.callNets?, hu, Option.bind_some, hall, if_true]

end Portable

end Call

/-- Whether both dialects can write a record. -/
inductive Record.Portable : Record → Prop where
  | item {i} :
    i.Portable →
    Portable (.item i)
  | subcircuit {s} :
    s.Portable →
    Portable (.subcircuit s)
  | call {c} :
    c.Portable →
    Portable (.call c)

end Nodal
