import LabelPress.Label.Basic
import LabelPress.Output.FileSystem
import LabelPress.Text.Utf8

/-!
Printer devices: files that labels are appended to. A regular file is created when it is missing, so
several labels can be collected in one.
-/

namespace LabelPress

abbrev Device (m : Type → Type) [FileSystem m] : Type := FileSystem.Handle m

namespace Device

variable {m : Type → Type} [Monad m] [FileSystem m]

/-- The device that is used when none is named: the first line printer on USB. -/
def standardPath : String := "/dev/usb/lp0"

def connect (path : String) : ExceptT Failure m (Device m) :=
  FileSystem.attempt (.deviceNotOpened path) (FileSystem.openToAppend path)

def writeAll (device : Device m) (data : List UInt8) : ExceptT Failure m Unit :=
  FileSystem.attempt (fun e => .stream (.system e)) (FileSystem.append device data)

def send (device : Device m) (l : Label) : ExceptT Failure m Unit :=
  writeAll device (Text.bytes l.zpl)

end Device

end LabelPress
