namespace Dualbank.Settings

inductive Value
  | text (s : String)
  | bool (b : Bool)
  | int (n : Int)
  /-- A number with a point or an exponent. No setting takes one, so which it is does not matter. -/
  | float
  | list (vs : List Value)
  | table (entries : List (String × Value))
  deriving Repr

abbrev Entries := List (String × Value)

namespace Value

/-- Sets an entry in its place, or adds it at the end. -/
def put {α : Type} (k : String) (a : α) : List (String × α) → List (String × α)
  | [] => [(k, a)]
  | e :: es => if e.1 = k then (k, a) :: es else e :: put k a es

mutual

def merge (old : Value) : Value → Value
  | table es =>
    match old with
    | table os => table (mergeEntries os es)
    | _ => table es
  | v => v

def mergeEntries (os : Entries) : Entries → Entries
  | [] => os
  | (k, v) :: es =>
    let merged := match os.lookup k with
      | some o => o.merge v
      | none => v
    mergeEntries (put k merged os) es

end

def nest (v : Value) : List String → Value
  | [] => v
  | k :: ks => table [(k, nest v ks)]

end Value

end Dualbank.Settings
