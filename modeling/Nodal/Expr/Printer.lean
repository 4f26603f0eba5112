import Nodal.Expr.Basic
import Nodal.Decimal.Positional
/-!
# Text of a symbolic scalar

Sums are written with ` + ` and ` - `, products with `*`, negation with a leading `-`. A sum under a
negation stands in parentheses; so do sums and negations among the factors of a product, and behind
` - ` in a sum. A negative constant behind the first term is subtracted.
-/

namespace Nodal.Expr

variable {K : Type}

/-- Whether an expression stands in parentheses where it is an operand. -/
def isCompound : Expr K → Bool
  | .sum _ => true
  | .neg _ => true
  | _ => false

/-- A text in parentheses if `needed`. -/
def enclose (needed : Bool) (s : String) : String :=
  if needed then "(" ++ s ++ ")" else s

def isSum : Expr K → Bool
  | .sum _ => true
  | _ => false

mutual

def text : Expr Float → String
  | .num x => Decimal.text x
  | .sym s => s
  | .neg a => "-" ++ enclose a.isSum (text a)
  | .sum as => sumText as
  | .prod as => prodText as

/-- The text of a sum: its first term, then each further term with its sign. -/
def sumText : List (Expr Float) → String
  | [] => ""
  | a :: as => text a ++ tailText as

/-- The text of the terms behind the first one. -/
def tailText : List (Expr Float) → String
  | [] => ""
  | a :: as => signedText a ++ tailText as

/-- The text of a term behind the first one, with its sign in front. -/
def signedText : Expr Float → String
  | .neg a => " - " ++ enclose a.isCompound (text a)
  | .num x => if x < 0.0 then " - " ++ Decimal.text (-x) else " + " ++ Decimal.text x
  | .sym s => " + " ++ s
  | .sum as => " + " ++ sumText as
  | .prod as => " + " ++ prodText as

/-- The text of a product: its factors with `*` between them. -/
def prodText : List (Expr Float) → String
  | [] => ""
  | a :: as => enclose a.isCompound (text a) ++ factorsText as

/-- The text of the factors behind the first one. -/
def factorsText : List (Expr Float) → String
  | [] => ""
  | a :: as => "*" ++ (enclose a.isCompound (text a) ++ factorsText as)

end

instance : ToString (Expr Float) where
  toString := text

end Nodal.Expr
