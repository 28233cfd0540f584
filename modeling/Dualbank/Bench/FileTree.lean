import Dualbank.OsError
import Dualbank.Call
import Dualbank.Path
import Dualbank.Text.Utf8

namespace Dualbank.Bench

inductive Node
  | directory
  | file (number : Nat) (contents : Bytes) (executable : Bool)
  | link (target : String)
  /-- Neither a directory nor a regular file; it reads as empty and swallows what is written. -/
  | device
  /-- A terminal at which nobody is; it cannot be opened. -/
  | terminal
  | program (name : String)
  deriving DecidableEq, Repr

abbrev Place := List String

structure FileTree where
  nodes : List (Place × Node) := []
  next : Nat := 0
  /-- How many zero bytes come after those that are kept of a file, by its number. -/
  tails : List (Nat × Nat) := []
  deriving Repr

namespace FileTree

def node? (t : FileTree) : Place → Option Node
  | [] => some .directory
  | p => t.nodes.lookup p

def put (t : FileTree) (p : Place) (n : Node) : FileTree :=
  { t with nodes := (p, n) :: t.nodes.filter fun e => e.1 ≠ p }

def tail (t : FileTree) (number : Nat) : Nat := (t.tails.lookup number).getD 0

def setTail (t : FileTree) (number zeros : Nat) : FileTree :=
  let others := t.tails.filter fun e => e.1 ≠ number
  { t with tails := if zeros = 0 then others else (number, zeros) :: others }

def spelledOut (bs : Bytes) (zeros : Nat) : Bytes :=
  if zeros = 0 then bs else bs ++ List.replicate zeros 0

def erase (t : FileTree) (p : Place) : FileTree :=
  { t with nodes := t.nodes.filter fun e => !p.isPrefixOf e.1 }

def names (path : String) : List String :=
  let ps := (Path.pieces path).filter (· ≠ [])
  let ps := if path.toList.getLast? == some '/' then ps ++ [[]] else ps
  ps.map String.ofList

inductive Ending
  | follow
  | keep
  /-- Follows links to where a file may have to be created; no slash can come after its name. -/
  | create
  deriving DecidableEq, Repr

def longestName : Nat := 255

def longestPath : Nat := 4095

def mostLinks : Nat := 40

def walk (t : FileTree) (ending : Ending) :
    Nat → Place → List String → Except OsError (Place × Option Node)
  | _, at_, [] => .ok (at_, t.node? at_)
  | links, at_, name :: rest =>
    match t.node? at_ with
    | none => .error (.number Errno.noEntry)
    | some .directory =>
      if name = "" || name = "." then walk t ending links at_ rest
      else if name = ".." then walk t ending links at_.dropLast rest
      else if ending = .create && rest = [""] then .error (.number Errno.isDirectory)
      else if longestName < name.utf8ByteSize then .error (.number Errno.nameTooLong)
      else
        match t.node? (at_ ++ [name]) with
        | some (.link target) =>
          if rest.isEmpty && ending = .keep then .ok (at_ ++ [name], some (.link target))
          else
            match links with
            | 0 => .error (.number Errno.tooManyLinks)
            | links + 1 =>
              let from_ := if Path.isAbsolute target then [] else at_
              walk t ending links from_ (names target ++ rest)
        | _ => walk t ending links (at_ ++ [name]) rest
    | some _ => .error (.number Errno.notDirectory)
termination_by links _ todo => (links, todo.length)

def checkPath (path : String) : Except OsError Unit :=
  if path.toList.contains '\x00' then .error .nulInPath
  else if path.isEmpty then .error (.number Errno.noEntry)
  else if longestPath < path.utf8ByteSize then .error (.number Errno.nameTooLong)
  else .ok ()

def find (t : FileTree) (ending : Ending) (path : String) :
    Except OsError (Place × Option Node) := do
  checkPath path
  t.walk ending mostLinks [] (names path)

def get (t : FileTree) (path : String) : Except OsError Node := do
  match ← t.find .follow path with
  | (_, some n) => return n
  | (_, none) => throw (.number Errno.noEntry)

def isPresent (t : FileTree) (path : String) : Except OsError Bool :=
  match t.get path with
  | .ok _ => .ok true
  | .error e => if e.isNotFound then .ok false else .error e

def programStart : Bytes := [0x7f, 0x45, 0x4c, 0x46, 0xff]

def read (t : FileTree) (path : String) : Except OsError Bytes := do
  match ← t.get path with
  | .file n bs _ => return spelledOut bs (t.tail n)
  | .directory => throw (.number Errno.isDirectory)
  | .terminal => throw (.number Errno.noDevice)
  | .program _ => return programStart
  | .device | .link _ => return []

def readText (t : FileTree) (path : String) : Except OsError String := do
  match Text.decode? (← t.read path) with
  | some s => return s
  | none => throw .notText

def addFile (t : FileTree) (p : Place) (bs : Bytes) (executable : Bool) : FileTree :=
  { t.put p (.file t.next bs executable) with next := t.next + 1 }

/-- Creates an empty file where there is nothing, not even a link. -/
def createNew (t : FileTree) (path : String) : Except OsError FileTree := do
  match ← t.find .keep path with
  | (_, some _) => throw (.number Errno.alreadyPresent)
  | (p, none) => return t.addFile p [] false

/-- Changes the bytes that are kept of a file and the number of zeros after them. The file is
created if it is missing. Programs stay as they are. -/
def modify (t : FileTree) (path : String) (change : Bytes → Nat → Bytes × Nat) :
    Except OsError FileTree := do
  match ← t.find .create path with
  | (p, some (.file n bs x)) =>
    let (bs, zeros) := change bs (t.tail n)
    return (t.put p (.file n bs x)).setTail n zeros
  | (p, none) =>
    let (bs, zeros) := change [] 0
    return (t.addFile p bs false).setTail t.next zeros
  | (_, some .directory) => throw (.number Errno.isDirectory)
  | (_, some .terminal) => throw (.number Errno.noDevice)
  | (_, some (.program _)) | (_, some .device) | (_, some (.link _)) => return t

def write (t : FileTree) (path : String) (bs : Bytes) : Except OsError FileTree :=
  t.modify path fun _ _ => (bs, 0)

def append (t : FileTree) (path : String) (bs : Bytes) : Except OsError FileTree :=
  t.modify path fun old zeros => (spelledOut old zeros ++ bs, 0)

def touch (t : FileTree) (path : String) : Except OsError FileTree := t.modify path Prod.mk

/-- How many zeros a file may be filled up with before they are counted instead. -/
def mostFilled : Nat := 0x100000

def resize (t : FileTree) (path : String) (size : Nat) : Except OsError FileTree :=
  t.modify path fun old _ =>
    let kept := old.take size
    let zeros := size - kept.length
    if zeros ≤ mostFilled then (spelledOut kept zeros, 0) else (kept, zeros)

def setExecutable (t : FileTree) (path : String) : Except OsError FileTree := do
  match ← t.find .follow path with
  | (p, some (.file n bs _)) => return t.put p (.file n bs true)
  | _ => return t

def openFile (t : FileTree) (path : String) : Except OsError (Option Nat) := do
  match ← t.get path with
  | .file n _ _ => return some n
  | .directory => throw (.number Errno.isDirectory)
  | .terminal => throw (.number Errno.noDevice)
  | .program _ | .device | .link _ => return none

def appendTo (t : FileTree) (number : Nat) (bs : Bytes) : FileTree :=
  let nodes := t.nodes.map fun (p, n) =>
    match n with
    | .file k old x =>
      (p, if k = number then .file k (spelledOut old (t.tail k) ++ bs) x else n)
    | _ => (p, n)
  { t with nodes }.setTail number 0

/-- Removes a name that is no directory; the name itself is not followed. -/
def remove (t : FileTree) (path : String) : Except OsError FileTree := do
  checkPath path
  let ns := (names path).filter (· ≠ "")
  match ns.getLast? with
  | none => throw (.number Errno.isDirectory)
  | some name =>
    let (parent, _) ← t.walk .follow mostLinks [] (ns.dropLast ++ [""])
    if name = "." || name = ".." then throw (.number Errno.isDirectory)
    match ← t.walk .keep mostLinks parent [name] with
    | (_, none) => throw (.number Errno.noEntry)
    | (_, some .directory) => throw (.number Errno.isDirectory)
    | (p, some _) =>
      if path.toList.getLast? == some '/' then throw (.number Errno.notDirectory)
      return t.erase p

def removeAll (t : FileTree) (path : String) : Except OsError FileTree := do
  match ← t.find .keep path with
  | (_, none) => throw (.number Errno.noEntry)
  | (p, some _) => return t.erase p

def linkTo (t : FileTree) (path target : String) : Except OsError FileTree := do
  match ← t.find .keep path with
  | (_, some _) => throw (.number Errno.alreadyPresent)
  | (p, none) => return t.put p (.link target)

def makeDirectory (t : FileTree) (path : String) : Except OsError FileTree := do
  match ← t.find .follow path with
  | (_, some .directory) => return t
  | (_, some _) => throw (.number Errno.alreadyPresent)
  | (p, none) => return t.put p .directory

def makeDirectories (t : FileTree) (path : String) : Except OsError FileTree :=
  let pieces := Path.pieces path
  (List.range pieces.length).foldlM (fun t k =>
    let upper := Path.ofPieces (pieces.take (k + 1))
    if upper.isEmpty then .ok t else t.makeDirectory upper) t

def inspect (t : FileTree) (path : String) : Except OsError FileKind := do
  match ← t.get path with
  | .file n bs _ => return .regular (bs.length + t.tail n)
  | .program _ => return .regular programStart.length
  | _ => return .other

def below (t : FileTree) (p : Place) : List (Place × Node) :=
  t.nodes.filterMap fun (q, n) =>
    if p.isPrefixOf q && p.length < q.length then some (q.drop p.length, n) else none

end FileTree

end Dualbank.Bench
