import Nodal.Text.Blank
/-!
# Lines and their words

A text falls into lines, each with the line end that closes it; joined again they are the text.
A line falls into words, the maximal runs of characters other than space and tab. Lines and columns
count from one, columns in characters; offsets count from zero, in bytes of the whole text.
-/

namespace Nodal

/-- A word of a line, with its place. -/
structure Token where
  text : String
  /-- One more than the number of characters of the line before the word. -/
  column : Nat
  /-- The number of bytes of the whole text before the word. -/
  offset : Nat
deriving DecidableEq, Repr

/-- What closes a line. Only the last line of a text may lack a line feed. -/
inductive LineEnd where
  | lf
  | crlf
  /-- A carriage return at the end of the text. -/
  | cr
  | bare
deriving DecidableEq, Repr

def LineEnd.chars : LineEnd → List Char
  | .lf => ['\n']
  | .crlf => ['\r', '\n']
  | .cr => ['\r']
  | .bare => []

/-- A line of a text, with its place and its words. -/
structure Line where
  /-- The position among the lines of the text, from one. -/
  number : Nat
  /-- The number of bytes of the text before the line. -/
  offset : Nat
  /-- The characters of the line without its end. -/
  text : String
  ending : LineEnd
  tokens : List Token
deriving DecidableEq, Repr

namespace Source

/-- The number of bytes that characters take in UTF-8. -/
def byteLength (cs : List Char) : Nat :=
  cs.foldr (fun c n => c.utf8Size + n) 0

/-- The lines of a text, each with its line feed. -/
def rawLines : List Char → List (List Char)
  | [] => []
  | c :: cs =>
    if c = '\n' then [c] :: rawLines cs
    else
      match rawLines cs with
      | [] => [[c]]
      | l :: ls => (c :: l) :: ls

/-- Joined again, the lines are the text. -/
theorem flatten_rawLines (cs : List Char) : (rawLines cs).flatten = cs := by
  induction cs with
  | nil => rfl
  | cons c cs ih =>
    unfold rawLines
    split
    · simp [ih]
    · split <;> simp_all

/-- Parts a line from its end; of several carriage returns only the last belongs to the end. -/
def splitEnd : List Char → List Char × LineEnd
  | [] => ([], .bare)
  | ['\n'] => ([], .lf)
  | ['\r', '\n'] => ([], .crlf)
  | ['\r'] => ([], .cr)
  | c :: cs => let (text, ending) := splitEnd cs; (c :: text, ending)

/-- Nothing is lost when a line is parted from its end. -/
theorem splitEnd_append (raw : List Char) :
    (splitEnd raw).1 ++ (splitEnd raw).2.chars = raw := by
  fun_induction splitEnd raw <;> simp_all [LineEnd.chars]

/-- Puts a word in front of the words behind it, unless it is empty. -/
def place (column offset : Nat) (word : List Char) (later : List Token) : List Token :=
  if word = [] then later else ⟨String.ofList word, column, offset⟩ :: later

/-- The word that starts at the head of a text, empty where a separator stands there, and the words
behind it. -/
def scan (column offset : Nat) : List Char → List Char × List Token
  | [] => ([], [])
  | c :: cs =>
    let (word, later) := scan (column + 1) (offset + c.utf8Size) cs
    if Text.isSeparator c then ([], place (column + 1) (offset + c.utf8Size) word later)
    else (c :: word, later)

/-- The words of a line that starts `offset` bytes into the text. -/
def tokens (offset : Nat) (cs : List Char) : List Token :=
  let (word, later) := scan 1 offset cs
  place 1 offset word later

/-- The line with a given place and characters. -/
def lineOf (number offset : Nat) (raw : List Char) : Line :=
  let (text, ending) := splitEnd raw
  { number, offset, text := String.ofList text, ending, tokens := tokens offset text }

/-- Numbers the lines of a text and finds their offsets. -/
def numbered (number offset : Nat) : List (List Char) → List Line
  | [] => []
  | raw :: rest => lineOf number offset raw :: numbered (number + 1) (offset + byteLength raw) rest

def lines (text : String) : List Line :=
  numbered 1 0 (rawLines text.toList)

end Source

namespace Line

/-- The characters of a line together with its end. -/
def source (l : Line) : List Char :=
  l.text.toList ++ l.ending.chars

def join (ls : List Line) : String :=
  String.ofList (ls.flatMap source)

def words (l : Line) : List String :=
  l.tokens.map Token.text

def isBlank (l : Line) : Bool :=
  l.tokens.isEmpty

/-- The line from its first word on; blanks at its end stay. -/
def trimmed (l : Line) : String :=
  String.ofList (l.text.toList.dropWhile Text.isSeparator)

/-- The column of the first word, one for a blank line. -/
def firstColumn (l : Line) : Nat :=
  match l.tokens with
  | [] => 1
  | t :: _ => t.column

end Line

end Nodal
