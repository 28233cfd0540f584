import Dualbank.CommandLine.Grammar

namespace Dualbank.CommandLine

structure Given where
  values : List (Param × Value) := []
  flags : List Param := []
  deriving Repr

namespace Given

def has (g : Given) (p : Param) : Bool := (g.values.lookup p).isSome || g.flags.contains p

def isEmpty (g : Given) : Bool := g.values.isEmpty && g.flags.isEmpty

end Given

/-- An argument whose value is settled by the next option, positional argument or the end. -/
structure Pending where
  param : Param
  kind : ValueKind
  value? : Option String

structure Scanner where
  given : Given := {}
  pending? : Option Pending := none
  awaiting : Bool := false
  position : Nat := 0
  trailing : Bool := false

structure Rest where
  verb : Verb
  args : List String
  skip : Nat := 0

namespace Scanner

def take (s : Scanner) (p : Param) (k : ValueKind) (value : String) : Except Stop Scanner := do
  if s.given.has p then throw .argumentConflict
  let v ← k.read value
  return { s with given.values := s.given.values ++ [(p, v)] }

def settle (s : Scanner) : Except Stop Scanner :=
  match s.pending? with
  | none => .ok s
  | some ⟨_, _, none⟩ => .error .invalidValue
  | some ⟨p, k, some v⟩ => { s with pending? := none }.take p k v

def option (s : Scanner) (o : Opt) (attached : Option String) : Except Stop Scanner := do
  let s ← s.settle
  match o.effect, attached with
  | .showHelp, _ => throw .help
  | .showVersion, _ => throw .version
  | .flag, _ =>
    if s.given.has o.param then throw .argumentConflict
    return { s with given.flags := s.given.flags ++ [o.param], awaiting := false }
  | .value k, some v => return { ← s.take o.param k v with awaiting := false }
  | .value k, none => return { s with pending? := some ⟨o.param, k, none⟩, awaiting := true }

def takesValue (o : Opt) : Bool :=
  match o.effect with
  | .value _ => true
  | _ => false

def long (l : Level) (s : Scanner) (name : String) (attached : Option String) :
    Except Stop Scanner :=
  match l.long? name with
  | none => .error .unknownArgument
  | some o =>
    if attached.isSome && !takesValue o then .error .tooManyValues else s.option o attached

/-- What is attached to a short option: the rest of its letters, without an equals sign before it.
-/
def attachedTo : List Char → Option String
  | [] => none
  | '=' :: cs => some (String.ofList cs)
  | cs => some (String.ofList cs)

/-- The letters of a group of short options. A subcommand among them ends the scan: what follows it
belongs to the subcommand, which sees the group again without its first letter. -/
def short (l : Level) (arg : String) (rest : List String) :
    Scanner → List Char → Except Stop (Scanner × Option Rest)
  | s, [] => .ok (s, none)
  | s, c :: cs =>
    match l.short? c with
    | some o =>
      if takesValue o then (s.option o (attachedTo cs)).map (·, none)
      else do short l arg rest (← s.option o none) cs
    | none =>
      match l.shortVerb? c with
      | none => .error .unknownArgument
      | some v => do
        let s ← s.settle
        return (s, some (if cs.isEmpty then ⟨v, rest, 0⟩ else ⟨v, arg :: rest, 1⟩))

def positional (l : Level) (s : Scanner) (arg : String) : Except Stop Scanner :=
  match l.positionals[s.position]? with
  | some (p, k) => do
    let s ← s.settle
    return { s with
      pending? := some ⟨p, k, some arg⟩, awaiting := false, position := s.position + 1 }
  | none =>
    if l.hasVerbs && !(s.trailing && (l.verb? arg).isSome) then .error .invalidSubcommand
    else .error .unknownArgument

/-- The value of the pending option, or else a positional argument. -/
def plain (l : Level) (s : Scanner) (arg : String) : Except Stop Scanner :=
  if s.awaiting then
    .ok { s with pending? := s.pending?.map ({ · with value? := some arg }), awaiting := false }
  else s.positional l arg

def splitLong (cs : List Char) : String × Option String :=
  (String.ofList (cs.takeWhile (· ≠ '=')),
    match cs.dropWhile (· ≠ '=') with
    | [] => none
    | _ :: v => some (String.ofList v))

/-- Scans the arguments up to a subcommand or the end; `skip` letters of the first are used up. -/
def scan (l : Level) : Nat → List String → Scanner → Except Stop (Scanner × Option Rest)
  | _, [], s => .ok (s, none)
  | skip, arg :: rest, s =>
    if s.trailing then do scan l 0 rest (← s.positional l arg)
    else
      match if s.awaiting then none else l.verb? arg with
      | some v => .ok (s, some ⟨v, rest, 0⟩)
      | none =>
        match arg.toList with
        | ['-', '-'] => scan l 0 rest { s with trailing := true }
        | '-' :: '-' :: cs => do
          let (name, attached) := splitLong cs
          scan l 0 rest (← s.long l name attached)
        | '-' :: c :: cs => do
          match ← short l arg rest s ((c :: cs).drop skip) with
          | (s, some found) => return (s, some found)
          | (s, none) => scan l 0 rest s
        | _ => do scan l 0 rest (← s.plain l arg)

end Scanner

end Dualbank.CommandLine
