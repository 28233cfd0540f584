import Dualbank.Text.Blank
import Dualbank.Text.Lower
import Dualbank.Text.Json

namespace Dualbank

open Text

inductive Image
  | firmware
  | application
  deriving DecidableEq, Repr

inductive Target
  | only (image : Image)
  | both
  deriving DecidableEq, Repr

namespace Image

def text : Image → String
  | firmware => "firmware"
  | application => "application"

end Image

namespace Target

@[match_pattern] abbrev firmware : Target := only .firmware

@[match_pattern] abbrev application : Target := only .application

def all : List Target := [firmware, application, both]

def images : Target → List Image
  | only i => [i]
  | both => [.firmware, .application]

def includesFirmware (t : Target) : Bool := t.images.contains .firmware

def text : Target → String
  | only i => i.text
  | both => "firmware and application"

def capitalized : Target → String
  | firmware => "Firmware"
  | application => "Application"
  | both => "Firmware and application"

def word : Target → String
  | only i => i.text
  | both => "combined"

def words (t : Target) : List String :=
  t.word :: match t with
    | firmware => ["fw"]
    | application => ["app"]
    | both => ["common", "both"]

def ofWord? (s : String) : Option Target := all.find? (·.word = s)

def ofJson? (s : String) : Option Target := (Json.word? s).bind ofWord?

/-- Reads a command line argument, by ASCII case or by the exact letters. -/
def ofArgument? (ignoreCase : Bool) (s : String) : Option Target :=
  all.find? fun t => t.words.any fun w => if ignoreCase then sameIgnoringAsciiCase w s else w = s

/-- Reads the `update_type` file, whatever the case and the white space around. -/
def ofDescriptor? (s : String) : Option Target :=
  match lower (trim s) with
  | "firmware" | "fw" => some firmware
  | "application" | "app" => some application
  | "common" | "combined" | "both" => some both
  | _ => none

end Target

end Dualbank
