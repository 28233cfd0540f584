import Dualbank.Bench.Shell.Process
import Dualbank.Bench.Shell.Reader

namespace Dualbank.Bench.Shell

/-- The fields of a command line as they are put together; `open?` may still grow. -/
structure Fields where
  closed : List Bytes := []
  open? : Option Bytes := none

namespace Fields

def add (f : Fields) (bs : Bytes) : Fields := { f with open? := some (f.open?.getD [] ++ bs) }

def close (f : Fields) : Fields := ⟨f.closed ++ f.open?.toList, none⟩

def isSeparator (b : UInt8) : Bool := b = 32 || b = 9 || b = 10

def addPart (f : Fields) (bs : Bytes) : Fields := if bs.isEmpty then f else f.add bs

def addSplit (f : Fields) (bs : Bytes) : Fields :=
  match bs.splitOnP isSeparator with
  | [] => f
  | part :: parts => parts.foldl (fun f part => f.close.addPart part) (f.addPart part)

def addEach (f : Fields) : List Bytes → Fields
  | [] => f
  | [a] => f.add a
  | a :: as => (f.add a).close.addEach as

def toList (f : Fields) : List Bytes := f.close.closed

end Fields

def isEmptyQuote : Piece → Bool
  | .quoted s => s.isEmpty
  | _ => false

def isAllArguments (w : Word) : Bool := w.filter (!isEmptyQuote ·) == [.param "@" true]

def assignment? : Word → Option (String × Word)
  | .plain s :: w =>
    let name := s.toList.takeWhile isNameChar
    match s.toList.drop name.length with
    | '=' :: value =>
      if name.head?.any isNameStart then
        some (String.ofList name, if value.isEmpty then w else .plain (String.ofList value) :: w)
      else none
    | _ => none
  | _ => none

end Dualbank.Bench.Shell
