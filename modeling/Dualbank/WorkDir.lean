import Dualbank.Call
import Dualbank.Path
import Dualbank.Text.Blank

namespace Dualbank

open Routine

structure WorkDir where
  path : String
  deriving DecidableEq, Repr

inductive Creation
  | created
  | alreadyPresent
  deriving DecidableEq, Repr

namespace WorkDir

def pathOf (d : WorkDir) (e : Entry) : String := Path.join d.path e.fileName

def has (d : WorkDir) (m : Marker) : Routine Bool := do
  match ← ask (.has m) with
  | .ok b => return b
  | .error e => throw (.io (.checking (d.pathOf (.marker m))) e)

/-- Never touches an entry that is there already, so two runs that race cannot both believe that
they started a stage. -/
def create (m : Marker) : Routine (Except OsError Creation) := do
  match ← ask (.create m) with
  | .ok () => return .ok .created
  | .error e => return if e.isAlreadyPresent then .ok .alreadyPresent else .error e

/-- To remove what is not there is no failure. -/
def remove (d : WorkDir) (e : Entry) : Routine Unit := do
  match ← ask (.remove e) with
  | .ok () => return ()
  | .error cause =>
    if cause.isNotFound then return () else throw (.io (.removing (d.pathOf e)) cause)

/-- Removes every entry of the workflow, in the fixed order. -/
def clear (d : WorkDir) : Routine Unit := Entry.all.forM d.remove

def read (d : WorkDir) (f : Descriptor) : Routine (Option String) := do
  match ← ask (.read f) with
  | .ok s => return some (Text.trim s)
  | .error cause =>
    if cause.isNotFound then return none
    else throw (.io (.reading (d.pathOf (.descriptor f))) cause)

/-- Where the artifact is. A relative path starts from the work directory, a blank one is not
written yet. -/
def location (d : WorkDir) : Routine (Option String) := do
  return (← d.read .location).bind fun l => if l.isEmpty then none else some (Path.join d.path l)

end WorkDir

end Dualbank
