import Dualbank.Text.Utf8

namespace Dualbank.Bench.Shell

/-- A byte of a pattern as it was written, and whether it was quoted. -/
abbrev PatternSource := List (UInt8 × Bool)

namespace Pattern

inductive Part
  | many
  | one (holds : UInt8 → Bool)

def members : Nat → Bool → PatternSource → Option ((UInt8 → Bool) × PatternSource)
  | 0, _, _ => none
  | _ + 1, _, [] => none
  | n + 1, isFirst, (93, false) :: rest =>
    if isFirst then
      (members n false rest).map fun r => (fun b => b = 93 || r.1 b, r.2)
    else some (fun _ => false, rest)
  | n + 1, _, (lo, _) :: (45, false) :: (hi, q) :: rest =>
    if hi = 93 && !q then
      (members n false ((45, true) :: (hi, q) :: rest)).map fun r => (fun b => b = lo || r.1 b, r.2)
    else (members n false rest).map fun r => (fun b => (lo ≤ b && b ≤ hi) || r.1 b, r.2)
  | n + 1, _, (c, _) :: rest =>
    (members n false rest).map fun r => (fun b => b = c || r.1 b, r.2)

def set? : PatternSource → Option ((UInt8 → Bool) × PatternSource)
  | (33, false) :: rest => (members (rest.length + 1) true rest).map fun r => (fun b => !r.1 b, r.2)
  | source => members (source.length + 1) true source

def parts : Nat → PatternSource → List Part
  | 0, _ => []
  | _ + 1, [] => []
  | n + 1, (42, false) :: rest => .many :: parts n rest
  | n + 1, (63, false) :: rest => .one (fun _ => true) :: parts n rest
  | n + 1, (91, false) :: rest =>
    match set? rest with
    | some (holds, rest) => .one holds :: parts n rest
    | none => .one (· = 91) :: parts n rest
  | n + 1, (c, _) :: rest => .one (· = c) :: parts n rest

def ofSource (s : PatternSource) : List Part := parts (s.length + 1) s

def fits : List Part → Bytes → Bool
  | [], bs => bs.isEmpty
  | .many :: ps, [] => fits ps []
  | .many :: ps, b :: bs => fits ps (b :: bs) || fits (.many :: ps) bs
  | .one _ :: _, [] => false
  | .one holds :: ps, b :: bs => holds b && fits ps bs
termination_by ps bs => (ps.length + bs.length, ps.length)

def dropStart (longest : Bool) (pattern : List Part) (bs : Bytes) : Bytes :=
  let lengths := List.range (bs.length + 1)
  let lengths := if longest then lengths.reverse else lengths
  match lengths.find? fun k => fits pattern (bs.take k) with
  | some k => bs.drop k
  | none => bs

def dropEnd (longest : Bool) (pattern : List Part) (bs : Bytes) : Bytes :=
  let lengths := List.range (bs.length + 1)
  let lengths := if longest then lengths else lengths.reverse
  match lengths.find? fun k => fits pattern (bs.drop k) with
  | some k => bs.take k
  | none => bs

end Pattern

end Dualbank.Bench.Shell
