import Nodal.Decimal.Numeral
import Nodal.Dialect.Basic
import Nodal.Dialect.NetList
import Nodal.Source.Word
/-!
# What a line is in each dialect

The rules that tell directives, comments, subcircuit titles, closing lines and subcircuit calls from
the words of a line. Each rule is asked on its own; which of them is asked first is decided where
records are read.
-/

namespace Nodal

structure Title where
  name : String
  /-- The nets by which the subcircuit is connected, in order. -/
  ports : List String
deriving DecidableEq, Repr

structure CallParts where
  label : String
  /-- The nets put in place of the ports, in order. -/
  nets : List String
  subcircuit : String
deriving DecidableEq, Repr

/-- The count that a word writes: ASCII digits behind an optional plus sign. -/
def readCount? (word : String) : Option Nat :=
  let digits := match word.toList with
    | '+' :: cs => cs
    | cs => cs
  if !digits.isEmpty && digits.all Char.isDigit then some (Decimal.ofDigits digits) else none

/-- Leaves out a last word that states how many words stand before it, if any do. -/
def dropArity (words : List String) : List String :=
  match words.getLast? with
  | none => []
  | some last =>
    let count := words.length - 1
    if count ≠ 0 ∧ readCount? last = some count then words.dropLast else words

namespace Dialect

/-- The words that start a directive in Spectre. -/
def keywords : List String :=
  ["global", "include", "ahdl_include", "parameters", "options", "save", "model", "real",
    "statistics", "library", "endlibrary", "section", "endsection"]

/-- The second words that make a line an analysis directive in Spectre. -/
def analyses : List String :=
  ["dc", "ac", "tran", "noise", "info", "options"]

/-- Recognises `simulator lang=…`, with or without blanks around the equals sign. Both dialects
write it alike. -/
def switch? : List String → Option Dialect
  | [] => none
  | first :: rest =>
    if first = "simulator" then
      ("lang=".toList.isPrefixOf? (rest.flatMap String.toList)).bind fun name =>
        ofName? (String.ofList name)
    else none

def isComment (d : Dialect) : List String → Bool
  | [] => false
  | first :: _ =>
    match d with
    | .spice => "*".toList.isPrefixOf first.toList
    | .spectre => "//".toList.isPrefixOf first.toList || "*".toList.isPrefixOf first.toList

def opens (d : Dialect) (word : String) : Bool :=
  match d with
  | .spice => lowercase word == ".subckt".toList
  | .spectre => word == "subckt"

def closesWord (d : Dialect) (word : String) : Bool :=
  match d with
  | .spice => lowercase word == ".ends".toList
  | .spectre => word == "ends"

def isDotted (word : String) : Bool :=
  match word.toList with
  | '.' :: cs => isIdentifier (String.ofList cs)
  | _ => false

/-- Whether a line is a directive: one that says nothing about elements and nets. -/
def isDirective (d : Dialect) : List String → Bool
  | [] => false
  | first :: rest =>
    match d with
    | .spice => isDotted first && !d.opens first && !d.closesWord first
    | .spectre =>
      keywords.contains first ||
        (isIdentifier first &&
          match rest with
          | [] => false
          | second :: _ => analyses.contains second)

/-- Whether a word can never name an element. -/
def reservesName (d : Dialect) (word : String) : Bool :=
  match d with
  | .spice =>
    match word.toList with
    | 'X' :: _ => true
    | 'x' :: _ => true
    | _ => false
  | .spectre => d.opens word || d.closesWord word || keywords.contains word

/-- Whether a line is claimed by the dialect, so that it is no element of an unknown kind. -/
def reserves (d : Dialect) (words : List String) : Bool :=
  match words with
  | [] => false
  | first :: _ => d.reservesName first || (d == .spectre && d.isDirective words)

/-- The ports that the words behind a subcircuit's name list. Spice admits a count of the
ports at the end, Spectre parentheses around them. -/
def ports? (d : Dialect) (words : List String) : Option (List String) :=
  match d with
  | .spice => some (dropArity words)
  | .spectre => NetList.unwrap? false words

def title? (d : Dialect) : List String → Option Title
  | first :: name :: rest =>
    if d.opens first && isNetName name then
      (d.ports? rest).bind fun ports =>
        if ports.all isNetName then some { name, ports } else none
    else none
  | _ => none

/-- Whether a line closes the subcircuit called `name`; it may repeat the name. -/
def closes (d : Dialect) (name : String) : List String → Bool
  | [first] => d.closesWord first
  | [first, second] => d.closesWord first && second == name
  | _ => false

/-- Whether a word may label a subcircuit call. -/
def isLabel (d : Dialect) (word : String) : Bool :=
  isNetName word &&
    match d with
    | .spice =>
      match word.toList with
      | 'X' :: _ :: _ => true
      | 'x' :: _ :: _ => true
      | _ => false
    | .spectre => true

/-- The nets that the words between label and subcircuit list; Spectre requires
parentheses around them. -/
def callNets? (d : Dialect) (words : List String) : Option (List String) :=
  match d with
  | .spice => some words
  | .spectre => NetList.unwrap? true words

/-- Recognises a subcircuit call: a label, nets, and the name of the subcircuit. -/
def call? (d : Dialect) : List String → Option CallParts
  | [] => none
  | label :: rest =>
    match rest.getLast? with
    | none => none
    | some subcircuit =>
      if d.isLabel label && isNetName subcircuit then
        (d.callNets? rest.dropLast).bind fun nets =>
          if nets.all isNetName then some { label, nets, subcircuit } else none
      else none

end Dialect

end Nodal
