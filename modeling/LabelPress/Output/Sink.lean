import LabelPress.Failure
import LabelPress.Label.Basic
import LabelPress.Text.Utf8

/-!
Sinks of bytes that may be short of room, and sending a label to one. A write takes as many bytes as
the sink allows, so sending writes until nothing is left or a write takes nothing.
-/

namespace LabelPress

structure Sink where
  limit : Option Nat := none
  /-- The most bytes that one write takes. -/
  chunk : Option Nat := none
  /-- A write that finds no room is an error, and does not just take nothing. -/
  refuses : Bool := false
  flushFails : Bool := false
  written : List UInt8 := []
  flushes : Nat := 0
deriving DecidableEq, Repr

namespace Sink

def atMost (bound : Option Nat) (n : Nat) : Nat :=
  match bound with
  | none => n
  | some b => min n b

def accepted (s : Sink) (n : Nat) : Nat :=
  atMost (s.limit.map (· - s.written.length)) (atMost s.chunk n)

theorem accepted_le (s : Sink) (n : Nat) : s.accepted n ≤ n := by
  unfold accepted atMost
  split <;> split <;> omega

def whenFull (s : Sink) : StreamFault := if s.refuses then .full else .nothingTaken

/-- Writes until all bytes are taken or one write takes none. -/
def writeAll (s : Sink) (data : List UInt8) : Except StreamFault Unit × Sink :=
  if data.isEmpty then (.ok (), s)
  else
    let n := s.accepted data.length
    if n = 0 then (.error s.whenFull, s)
    else writeAll { s with written := s.written ++ data.take n } (data.drop n)
termination_by data.length
decreasing_by
  have := s.accepted_le data.length
  simp only [List.length_drop]
  omega

def flush (s : Sink) : Except StreamFault Unit × Sink :=
  (if s.flushFails then .error .flushRefused else .ok (), { s with flushes := s.flushes + 1 })

/-- Writes the program of a label, and flushes if all of it was taken. -/
def send (s : Sink) (l : Label) : Except Failure Unit × Sink :=
  match s.writeAll (Text.bytes l.zpl) with
  | (.error e, s) => (.error (.stream e), s)
  | (.ok (), s) => (s.flush.1.mapError .stream, s.flush.2)

end Sink

end LabelPress
