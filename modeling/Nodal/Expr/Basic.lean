/-!
# Symbolic scalars

An `Expr` is built from constants and named symbols by sums, products and negation. The operators
fold constants, drop neutral elements and cancel a term against its exact negation, so that `0 + R`
and `1 * R` are `R` and `R + -R` is `0`; they simplify no further.

The constants range over any type with `0`, `1`, `+`, `*`, `-` and a Boolean equality: doubles when
netlists are read, exact numbers when the meaning of a system is studied.
-/

namespace Nodal

/-- A symbolic scalar with constants in `K`. -/
inductive Expr (K : Type) where
  | num (value : K)
  | sym (name : String)
  | neg (inner : Expr K)
  | sum (terms : List (Expr K))
  | prod (factors : List (Expr K))

namespace Expr

variable {K L : Type}

/-! ### Equality -/

section Equality

variable [BEq K]

mutual

/-- Equality of shape, with constants compared by their own equality. -/
def same : Expr K → Expr K → Bool
  | .num x, .num y => x == y
  | .sym s, .sym t => s == t
  | .neg a, .neg b => same a b
  | .sum as, .sum bs => sameAll as bs
  | .prod as, .prod bs => sameAll as bs
  | _, _ => false

/-- Equality of lists of expressions, element by element. -/
def sameAll : List (Expr K) → List (Expr K) → Bool
  | [], [] => true
  | a :: as, b :: bs => same a b && sameAll as bs
  | _, _ => false

end

instance : BEq (Expr K) where
  beq := same

end Equality

/-! ### Constants and parts -/

def zero [Zero K] : Expr K := .num 0

def one [One K] : Expr K := .num 1

instance [Zero K] : Inhabited (Expr K) where
  default := zero

def number? : Expr K → Option K
  | .num x => some x
  | _ => none

/-- Whether the expression is a constant equal to `x`. -/
def isNum [BEq K] (x : K) : Expr K → Bool
  | .num y => y == x
  | _ => false

def isZero [BEq K] [Zero K] (a : Expr K) : Bool := a.isNum 0

def isOne [BEq K] [One K] (a : Expr K) : Bool := a.isNum 1

/-- The terms of a sum, or the expression alone. -/
def terms : Expr K → List (Expr K)
  | .sum as => as
  | a => [a]

/-- The factors of a product, or the expression alone. -/
def factors : Expr K → List (Expr K)
  | .prod as => as
  | a => [a]

/-- The sum of a list of terms: zero if there are none, and a single term as it is. -/
def ofTerms [Zero K] : List (Expr K) → Expr K
  | [] => zero
  | [a] => a
  | as => .sum as

/-! ### Operators -/

section Operators

variable [BEq K] [Zero K] [One K] [Add K] [Mul K] [Neg K]

/-- Negation: folded into constants, and removed from a negation. -/
def negate : Expr K → Expr K
  | .num x => .num (-x)
  | .neg a => a
  | a => .neg a

instance : Neg (Expr K) where
  neg := negate

/-- Adds a term to a list of terms: removes the first term that is its negation, or else appends the
term. -/
def cancel (as : List (Expr K)) (a : Expr K) : List (Expr K) :=
  if as.any (· == -a) then as.eraseP (· == -a) else as ++ [a]

/-- Addition: of constants by their own addition, otherwise by cancelling the terms on the right one
after another against those on the left. -/
def plus : Expr K → Expr K → Expr K
  | .num x, .num y => .num (x + y)
  | a, b =>
    if a.isZero then b
    else if b.isZero then a
    else ofTerms (b.terms.foldl cancel a.terms)

instance : Add (Expr K) where
  add := plus

instance : Sub (Expr K) where
  sub a b := a + -b

/-- A product that needs no new node: of two constants, or with a factor `0`, `1` or `-1`. -/
def shortcut? : Expr K → Expr K → Option (Expr K)
  | .num x, .num y => some (.num (x * y))
  | a, b =>
    if a.isZero || b.isZero then some zero
    else if a.isOne then some b
    else if b.isOne then some a
    else if a.isNum (-1) then some (-b)
    else if b.isNum (-1) then some (-a)
    else none

/-- Multiplication by a left factor that is no negation: negations on the right move outward, and
what remains joins the lists of factors. -/
def timesRight (a : Expr K) : Expr K → Expr K
  | .neg b => (shortcut? a (.neg b)).getD (-timesRight a b)
  | b => (shortcut? a b).getD (.prod (a.factors ++ b.factors))

/-- Multiplication: negations on the left move outward first, then those on the right. -/
def times : Expr K → Expr K → Expr K
  | .neg a, b => (shortcut? (.neg a) b).getD (-times a b)
  | a, b => timesRight a b

instance : Mul (Expr K) where
  mul := times

end Operators

/-! ### Change of constants -/

mutual

/-- Replaces every constant by its image under `f`. -/
def map (f : K → L) : Expr K → Expr L
  | .num x => .num (f x)
  | .sym s => .sym s
  | .neg a => .neg (map f a)
  | .sum as => .sum (mapAll f as)
  | .prod as => .prod (mapAll f as)

/-- Replaces every constant in a list of expressions. -/
def mapAll (f : K → L) : List (Expr K) → List (Expr L)
  | [] => []
  | a :: as => map f a :: mapAll f as

end

/-! ### Meaning -/

section Meaning

variable [Zero K] [One K] [Add K] [Mul K] [Neg K]

mutual

/-- The value of an expression when symbol `s` stands for `env s`. -/
def eval (env : String → K) : Expr K → K
  | .num x => x
  | .sym s => env s
  | .neg a => -eval env a
  | .sum as => evalSum env as
  | .prod as => evalProd env as

def evalSum (env : String → K) : List (Expr K) → K
  | [] => 0
  | a :: as => eval env a + evalSum env as

def evalProd (env : String → K) : List (Expr K) → K
  | [] => 1
  | a :: as => eval env a * evalProd env as

end

end Meaning

end Expr

end Nodal
