import Dualbank.Settings.Toml.Scalar
import Dualbank.Settings.Toml.Table

namespace Dualbank.Settings.Toml

def skipBlank : Nat → List Char → List Char
  | 0, cs => cs
  | n + 1, cs =>
    let cs := skipLines cs
    if cs.head? == some '#' then skipBlank n (cs.dropWhile isPrintable) else cs

mutual

def value? : Nat → Nat → List Char → Option (Value × List Char)
  | 0, _, _ => none
  | n + 1, depth, cs =>
    match cs with
    | '[' :: cs =>
      if depth + 1 < levels then (values? n (depth + 1) cs).map fun r => (.list r.1, r.2) else none
    | '\x7b' :: cs =>
      if depth + 1 < levels then
        match skipSpace cs with
        | '\x7d' :: cs => some (.table [], cs)
        | cs => (pairs? n (depth + 1) [] cs).map fun r => (.table (entries r.1), r.2)
      else none
    | '"' :: _ | '\'' :: _ => (string? cs).map fun r => (.text r.1, r.2)
    | cs => scalar? cs

/-- The values of a list up to its bracket; a comma may stand behind the last one. -/
def values? : Nat → Nat → List Char → Option (List Value × List Char)
  | 0, _, _ => none
  | n + 1, depth, cs =>
    match skipBlank n cs with
    | ']' :: cs => some ([], cs)
    | cs => do
      let (v, cs) ← value? n depth cs
      match skipBlank n cs with
      | ',' :: cs =>
        let (vs, cs) ← values? n depth cs
        return (v :: vs, cs)
      | ']' :: cs => return ([v], cs)
      | _ => none

def pairs? : Nat → Nat → Items → List Char → Option (Items × List Char)
  | 0, _, _, _ => none
  | n + 1, depth, items, cs => do
    let (path, v, cs) ← pair? n depth cs
    let (_, items) ← addValue path v .defined items
    match skipSpace cs with
    | ',' :: cs => pairs? n depth items cs
    | '\x7d' :: cs => return (items, cs)
    | _ => none

def pair? : Nat → Nat → List Char → Option (List String × Value × List Char)
  | 0, _, _ => none
  | n + 1, depth, cs => do
    let (path, cs) ← key? cs
    let cs ← skipChar? '=' (skipSpace cs)
    let (v, cs) ← value? n depth (skipSpace cs)
    return (path, v, cs)

end

def header? (closing : List Char) (cs : List Char) : Option (List String × List Char) := do
  let (path, cs) ← key? cs
  let cs := skipSpace cs
  if closing.isPrefixOf cs then
    let cs ← endLine? (cs.drop closing.length)
    return (path, cs)
  else none

def lines? : Nat → List String → Items → List Char → Option Items
  | 0, _, _, _ => none
  | n + 1, table, items, cs =>
    match skipSpace cs with
    | [] => some items
    | '[' :: '[' :: cs => do
      let (path, cs) ← header? [']', ']'] cs
      lines? n path (← defineNext path items) cs
    | '[' :: cs => do
      let (path, cs) ← header? [']'] cs
      lines? n path (← define path items) cs
    | cs =>
      match endLine? cs with
      | some cs => lines? n table items cs
      | none => do
        let (path, v, cs) ← pair? (2 * n + 2) 0 cs
        let (_, items) ← change .implied (addValue path v) table .defined items
        lines? n table items (← endLine? cs)

def read? (s : String) : Option Value :=
  let cs := s.toList
  let cs := if cs.head? == some '\ufeff' then cs.drop 1 else cs
  (lines? (cs.length + 2) [] [] cs).map fun items => .table (entries items)

end Dualbank.Settings.Toml
