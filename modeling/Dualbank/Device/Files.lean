import Dualbank.Device.System
import Dualbank.WorkDir

namespace Dualbank.WorkDir

open SysPlan

def answerHas (d : WorkDir) (m : Marker) : SysPlan (Except OsError Bool) :=
  ask (.isPresent (d.pathOf (.marker m)))

def answerCreate (d : WorkDir) (m : Marker) : SysPlan (Except OsError Unit) :=
  ask (.createNew (d.pathOf (.marker m)))

def answerRemove (d : WorkDir) (e : Entry) : SysPlan (Except OsError Unit) :=
  ask (.remove (d.pathOf e))

def answerRead (d : WorkDir) (f : Descriptor) : SysPlan (Except OsError String) :=
  ask (.readText (d.pathOf (.descriptor f)))

end Dualbank.WorkDir
