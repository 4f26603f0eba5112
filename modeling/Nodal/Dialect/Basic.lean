/-!
# Dialects

The two ways of writing a netlist. Both describe the same circuits; they differ in how comments,
directives, subcircuits and subcircuit calls are spelled.
-/

namespace Nodal

/-- A way of writing netlists. -/
inductive Dialect where
  /-- Directives start with a dot, comments with `*`, and subcircuit calls with `X`. -/
  | spice
  /-- Directives are keywords, comments also start with `//`, and nets stand in parentheses. -/
  | spectre
deriving DecidableEq, Repr

namespace Dialect

instance : Inhabited Dialect := ⟨.spice⟩

def name : Dialect → String
  | .spice => "spice"
  | .spectre => "spectre"

instance : ToString Dialect where
  toString := name

/-- A word in lower case; only ASCII letters have cases here. -/
def lowercase (word : String) : List Char :=
  word.toList.map Char.toLower

/-- The dialect that a name of any case means. -/
def ofName? (word : String) : Option Dialect :=
  if lowercase word = "spice".toList then some .spice
  else if lowercase word = "spectre".toList then some .spectre
  else none

end Dialect

end Nodal
