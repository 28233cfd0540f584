namespace Dualbank.Text

def dropReturn (cs : List Char) : List Char :=
  if cs.getLast? = some '\r' then cs.dropLast else cs

/-- The lines of a text after the start of its first line, which is given in reverse. -/
def linesAfter (start : List Char) : List Char → List (List Char)
  | [] => if start.isEmpty then [] else [start.reverse]
  | c :: cs =>
    if c = '\n' then dropReturn start.reverse :: linesAfter [] cs else linesAfter (c :: start) cs

/-- A line ends in a line feed, or in a carriage return and a line feed. The last line need not end.
-/
def lines (cs : List Char) : List (List Char) := linesAfter [] cs

end Dualbank.Text
