namespace Dualbank

inductive Marker
  | download
  | install
  | apply
  | rollback
  | installed
  deriving DecidableEq, Repr

namespace Marker

def all : List Marker := [download, install, apply, rollback, installed]

def fileName : Marker → String
  | download => "downloadUpdate"
  | install => "installUpdate"
  | apply => "applyUpdate"
  | rollback => "rollbackUpdate"
  | installed => "updateInstalled"

end Marker

inductive Descriptor
  | type
  | version
  | size
  | location
  deriving DecidableEq, Repr

namespace Descriptor

def all : List Descriptor := [type, version, size, location]

def fileName : Descriptor → String
  | type => "update_type"
  | version => "update_version"
  | size => "update_size"
  | location => "update_location"

end Descriptor

inductive Entry
  | marker (m : Marker)
  | descriptor (d : Descriptor)
  deriving DecidableEq, Repr

namespace Entry

def fileName : Entry → String
  | marker m => m.fileName
  | descriptor d => d.fileName

/-- Every entry, in the order of their removal. -/
def all : List Entry := Marker.all.map marker ++ Descriptor.all.map descriptor

theorem mem_all (e : Entry) : e ∈ all := by
  rcases e with (_ | _ | _ | _ | _) | (_ | _ | _ | _) <;> decide

end Entry

end Dualbank
