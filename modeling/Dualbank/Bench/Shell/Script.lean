namespace Dualbank.Bench.Shell

inductive Piece
  | plain (s : String)
  | quoted (s : String)
  | param (name : String) (inQuotes : Bool)
  | altered (name op word : String) (inQuotes : Bool)
  | arithmetic (expression : String) (inQuotes : Bool)
  | output (source : String) (inQuotes : Bool)
  deriving DecidableEq, Repr

abbrev Word := List Piece

inductive Redirection
  | file (stream : Nat) (appending : Bool) (target : Word)
  | duplicate (stream : Nat) (source : Word)
  deriving DecidableEq, Repr

namespace Redirection

def isInput : Redirection → Bool
  | file stream _ _ => stream = 0
  | duplicate stream _ => stream = 0

end Redirection

inductive Script
  | nothing
  | simple (line : Nat) (words : List Word) (redirections : List Redirection)
  | both (a b : Script)
  | ifOk (a b : Script)
  | ifFailed (a b : Script)
  | negated (a : Script)
  | piped (a b : Script)
  | choice (test yes no : Script)
  | loop (whileOk : Bool) (test body : Script)
  | each (name : String) (words : Option (List Word)) (body : Script)
  | cases (word : Word) (branches : List (List Word × Script))
  | grouped (line : Nat) (a : Script) (redirections : List Redirection)
  /-- Runs in a shell of its own. -/
  | nested (line : Nat) (a : Script) (redirections : List Redirection)

inductive Token
  | word (w : Word)
  | redirect (stream : Option Nat) (op : String)
  | mark (s : String)
  deriving DecidableEq, Repr

end Dualbank.Bench.Shell
