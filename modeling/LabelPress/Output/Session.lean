import LabelPress.Output.Device
import LabelPress.Output.Picture

/-! Sessions with devices, one open at a time. Opening another device closes the one before it, also
when the other one cannot be opened. -/

namespace LabelPress

structure Session (m : Type → Type) [FileSystem m] where
  device : Option (Device m) := none

namespace Session

inductive Request
  | connect (path : String)
  | write (data : List UInt8)
  | send (l : Label)
  | savePicture (path : String) (l : Label)
deriving DecidableEq, Repr

inductive Fault
  | notConnected
  | failed (failure : Failure)
deriving DecidableEq, Repr

variable {m : Type → Type} [Monad m] [FileSystem m]

def outcome : Except Failure Unit → Except Fault Unit := Except.mapError .failed

def withDevice (s : Session m) (work : Device m → ExceptT Failure m Unit) :
    m (Session m × Except Fault Unit) := do
  match s.device with
  | none => return (s, .error .notConnected)
  | some device => return (s, outcome (← (work device).run))

def perform (s : Session m) : Request → m (Session m × Except Fault Unit)
  | .connect path => do
    match ← (Device.connect path).run with
    | .error failure => return ({ device := none }, .error (.failed failure))
    | .ok device => return ({ device := some device }, .ok ())
  | .write data => s.withDevice fun device => device.writeAll data
  | .send l => s.withDevice fun device => device.send l
  | .savePicture path l => do return (s, outcome (← (l.savePicture path).run))

end Session

end LabelPress
