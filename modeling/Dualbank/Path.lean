namespace Dualbank.Path

def isAbsolute (p : String) : Bool := p.toList.head? == some '/'

/-- An absolute path replaces what it is joined to. -/
def join (p q : String) : String :=
  if isAbsolute q then q
  else if p.isEmpty || p.toList.getLast? == some '/' then p ++ q
  else p ++ "/" ++ q

/-- The pieces between the slashes of a path, empty ones too. -/
def pieces (p : String) : List (List Char) := p.toList.splitOn '/'

def ofPieces (ps : List (List Char)) : String := String.ofList (['/'].intercalate ps)

def namesNothing (piece : List Char) : Bool := piece = [] || piece = ['.']

/-- Whether a path starts at the root, and its components, `..` among them. -/
def components (p : String) : Bool × List String :=
  (isAbsolute p, ((pieces p).filter fun c => !namesNothing c).map String.ofList)

def upwards (directory : String) : List String :=
  let names := (components directory).2
  (List.range (names.length + 1)).reverse.map fun k => "/" ++ "/".intercalate (names.take k)

/-- An absolute path without its root: pieces that name nothing go at both ends, those inside
stay. A relative path is left alone. -/
def relative (p : String) : String :=
  if isAbsolute p then
    let ps := (pieces p).dropWhile namesNothing
    ofPieces (ps.reverse.dropWhile namesNothing).reverse
  else p

end Dualbank.Path
