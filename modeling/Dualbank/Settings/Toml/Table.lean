import Dualbank.Settings.Value

namespace Dualbank.Settings.Toml

/-- A table is defined by a header once. It may also come about on the way to another one, and then
a header can still define it, or through dotted keys, and then only those of the same table add to
it. -/
inductive Origin
  | defined
  /-- Made on the way to the table of a header. -/
  | implied
  /-- Made on the way to a dotted key. -/
  | dotted
  deriving DecidableEq, Repr

inductive Item
  | value (v : Value)
  | table (o : Origin) (items : List (String × Item))
  /-- The tables of one repeated header, the last one first. -/
  | tables (each : List (List (String × Item)))

abbrev Items := List (String × Item)

/-- Changes the table at the end of a path and makes those missing on the way. Dotted keys do not
lead into tables that are defined. -/
def change (made : Origin) (f : Origin → Items → Option (Origin × Items)) :
    List String → Origin → Items → Option (Origin × Items)
  | [], o, items => f o items
  | k :: ks, o, items =>
    match items.lookup k with
    | none => do
      let (o', below) ← change made f ks made []
      return (o, Value.put k (.table o' below) items)
    | some (.table o' below) => do
      if made = .dotted ∧ o' = .defined then none
      let (o', below) ← change made f ks o' below
      return (o, Value.put k (.table o' below) items)
    | some (.tables (last :: before)) => do
      let (_, last) ← change made f ks .defined last
      return (o, Value.put k (.tables (last :: before)) items)
    | some (.tables []) | some (.value _) => none

def add (k : String) (i : Item) (o : Origin) (items : Items) : Option (Origin × Items) :=
  if (items.lookup k).isSome then none else some (o, items ++ [(k, i)])

def addValue (path : List String) (v : Value) (o : Origin) (items : Items) :
    Option (Origin × Items) :=
  match path.getLast? with
  | none => none
  | some k =>
    change .dotted (fun o' below =>
      if path.length = 1 ∨ o' = .dotted then add k (.value v) o' below else none)
      path.dropLast o items

def define (path : List String) (items : Items) : Option Items :=
  match path.getLast? with
  | none => none
  | some k =>
    (change .implied (fun o below =>
      match below.lookup k with
      | none => some (o, below ++ [(k, .table .defined [])])
      | some (.table .implied inner) => some (o, Value.put k (.table .defined inner) below)
      | some _ => none) path.dropLast .defined items).map (·.2)

def defineNext (path : List String) (items : Items) : Option Items :=
  match path.getLast? with
  | none => none
  | some k =>
    (change .implied (fun o below =>
      match below.lookup k with
      | none => some (o, below ++ [(k, .tables [[]])])
      | some (.tables each) => some (o, Value.put k (.tables ([] :: each)) below)
      | some _ => none) path.dropLast .defined items).map (·.2)

mutual

def Item.toValue : Item → Value
  | .value v => v
  | .table _ items => .table (entries items)
  | .tables each => .list (eachTable each).reverse

def entries : Items → Entries
  | [] => []
  | (k, i) :: items => (k, i.toValue) :: entries items

def eachTable : List Items → List Value
  | [] => []
  | items :: each => .table (entries items) :: eachTable each

end

end Dualbank.Settings.Toml
