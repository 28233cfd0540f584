import Dualbank.Target
import Dualbank.Version

namespace Dualbank

structure Package where
  path : String
  /-- Known for automatic updates only. -/
  version : Option Version := none
  deriving DecidableEq, Repr

structure Offer where
  firmware : Option Package := none
  application : Option Package := none
  deriving DecidableEq, Repr

namespace Offer

def target? : Offer → Option Target
  | ⟨some _, some _⟩ => some .both
  | ⟨some _, none⟩ => some .firmware
  | ⟨none, some _⟩ => some .application
  | ⟨none, none⟩ => none

def parts (o : Offer) : List (Image × Package) :=
  (o.firmware.map (Image.firmware, ·)).toList ++ (o.application.map (Image.application, ·)).toList

theorem map_fst_parts {o : Offer} {t : Target} (h : o.target? = some t) :
    o.parts.map Prod.fst = t.images := by
  rcases o with ⟨_ | f, _ | a⟩ <;> simp_all [target?, parts] <;> subst h <;> rfl

end Offer

end Dualbank
