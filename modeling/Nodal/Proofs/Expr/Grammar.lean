import Nodal.Decimal.Numeral
import Nodal.Expr.Basic
import Nodal.Source.Word
/-!
# The grammar of expressions

The text of an expression falls into words, which write numbers and symbols, and marks, which are single
characters. `Derives` is the grammar: a sum has products with `+` and `-` between them, a product has operands
with `*` between them, and an operand is a number, a symbol, a sum in parentheses, or an operand with `-` in
front of it. What is read is the tree as it is written, nothing is simplified. `read?` goes through a text
once, from left to right, and keeps what is still to be completed on a stack.
-/

namespace Nodal.Expr

/-! ### Pieces of a text -/

/-- A piece of the text of an expression. -/
inductive Piece where
  /-- A number or a symbol. -/
  | word (text : String)
  /-- Any other character. -/
  | mark (c : Char)
deriving DecidableEq, Repr

/-- The characters of numbers and symbols. -/
def isWordChar (c : Char) : Bool :=
  isIdentChar c || c == '.'

/-- Puts a word in front of the pieces behind it, unless it is empty. -/
def putWord (word : List Char) (later : List Piece) : List Piece :=
  if word = [] then later else .word (String.ofList word) :: later

/-- The word that starts at the head of a text, empty if there is none, and the pieces behind it. -/
def scan : List Char → List Char × List Piece
  | [] => ([], [])
  | c :: cs =>
    let (word, later) := scan cs
    if isWordChar c then (c :: word, later)
    else if c = ' ' then ([], putWord word later)
    else ([], .mark c :: putWord word later)

/-- The words of a text and the marks between them. Spaces are left out. -/
def pieces (cs : List Char) : List Piece :=
  let (word, later) := scan cs
  putWord word later

/-- Whether a word is a symbol: identifier characters, the first of which is no digit. -/
def isSymbol (word : String) : Bool :=
  isIdentifier word && word.toList.head?.any (!·.isDigit)

/-- What a word writes: a symbol or a number. -/
def ofWord? (word : String) : Option (Expr Float) :=
  if isSymbol word then some (.sym word) else (Decimal.value? word).map .num

/-! ### The grammar -/

/-- The parts of an expression, by how closely they hold together. -/
inductive Level where
  | operand
  | product
  | sum
deriving DecidableEq, Repr

/-- Whether pieces are read as a part of an expression. -/
inductive Derives : Level → List Piece → Expr Float → Prop where
  | word {w a} :
    ofWord? w = some a →
    Derives .operand [.word w] a
  | minus {ps a} :
    Derives .operand ps a →
    Derives .operand (.mark '-' :: ps) (.neg a)
  | paren {ps a} :
    Derives .sum ps a →
    Derives .operand (.mark '(' :: ps ++ [.mark ')']) a
  | operand {ps a} :
    Derives .operand ps a →
    Derives .product ps a
  | times {ps qs a b} :
    Derives .product ps a →
    Derives .operand qs b →
    Derives .product (ps ++ .mark '*' :: qs) (.prod [a, b])
  | product {ps a} :
    Derives .product ps a →
    Derives .sum ps a
  | plus {ps qs a b} :
    Derives .sum ps a →
    Derives .product qs b →
    Derives .sum (ps ++ .mark '+' :: qs) (.sum [a, b])
  | less {ps qs a b} :
    Derives .sum ps a →
    Derives .product qs b →
    Derives .sum (ps ++ .mark '-' :: qs) (.sum [a, .neg b])

/-- Whether a text is read as an expression. -/
def IsReading (text : String) (a : Expr Float) : Prop :=
  Derives .sum (pieces text.toList) a

/-! ### The reader -/

/-- What waits for the operand or the product behind it. -/
inductive Frame where
  | minus
  | times (a : Expr Float)
  | plus (a : Expr Float)
  | less (a : Expr Float)
  | paren

/-- Completes what waits for an operand. -/
def closeProduct : Expr Float → List Frame → Expr Float × List Frame
  | a, .minus :: fs => closeProduct (.neg a) fs
  | a, .times b :: fs => closeProduct (.prod [b, a]) fs
  | a, fs => (a, fs)

/-- Completes what waits for a product. -/
def closeSum : Expr Float → List Frame → Expr Float × List Frame
  | a, .plus b :: fs => (.sum [b, a], fs)
  | a, .less b :: fs => (.sum [b, .neg a], fs)
  | a, fs => (a, fs)

mutual

/-- Reads on where an operand is to come. -/
def readOperand? (fs : List Frame) : List Piece → Option (Expr Float)
  | .word w :: ps =>
    match ofWord? w with
    | some a =>
      let (a, fs) := closeProduct a fs
      readOperator? a fs ps
    | none => none
  | .mark '-' :: ps => readOperand? (.minus :: fs) ps
  | .mark '(' :: ps => readOperand? (.paren :: fs) ps
  | _ => none

/-- Reads on behind the product `a`. -/
def readOperator? (a : Expr Float) (fs : List Frame) : List Piece → Option (Expr Float)
  | .mark '*' :: ps => readOperand? (.times a :: fs) ps
  | .mark '+' :: ps =>
    let (a, fs) := closeSum a fs
    readOperand? (.plus a :: fs) ps
  | .mark '-' :: ps =>
    let (a, fs) := closeSum a fs
    readOperand? (.less a :: fs) ps
  | .mark ')' :: ps =>
    match closeSum a fs with
    | (a, .paren :: fs) =>
      let (a, fs) := closeProduct a fs
      readOperator? a fs ps
    | _ => none
  | [] =>
    match closeSum a fs with
    | (a, []) => some a
    | _ => none
  | _ => none

end

/-- The expression that a text writes. -/
def read? (text : String) : Option (Expr Float) :=
  readOperand? [] (pieces text.toList)

end Nodal.Expr
