/-!
# Nets in parentheses

A list of nets may stand in parentheses, which may touch the first and the last net or stand apart:
`(a b)`, `( a b )`, `(a b )` and `( a b)` all list `a` and `b`.
-/

namespace Nodal.NetList

/-- A word without the closing parenthesis at its end, if it has one. -/
def dropClose? (word : String) : Option String :=
  if word.toList.getLast? = some ')' then some (String.ofList word.toList.dropLast) else none

/-- Words without the closing parenthesis at the end of the last one, if it is there. -/
def closed? : List String → Option (List String)
  | [] => none
  | [word] => (dropClose? word).map ([·])
  | word :: rest => (closed? rest).map (word :: ·)

/-- The nets that words list. Without an opening parenthesis at the start the words are the nets,
but only where parentheses are not required. -/
def unwrap? (required : Bool) (words : List String) : Option (List String) :=
  let bare := if required then none else some words
  match words with
  | [] => bare
  | word :: rest =>
    match word.toList with
    | '(' :: cs => (closed? (String.ofList cs :: rest)).map (·.filter (· ≠ ""))
    | _ => bare

end Nodal.NetList
