/-!
Segments of a QR symbol: a text as bytes is cut into runs of one kind, and neighbouring runs are
joined where that does not take more bits.
-/

namespace LabelPress.Qr

inductive Mode
  | numeric
  | alphanumeric
  | byte
  | kanji
deriving DecidableEq, Repr

/-- Versions whose length fields have the same widths. -/
inductive Band
  | small
  | medium
  | large
deriving DecidableEq, Repr

namespace Band

def all : List Band := [small, medium, large]

def top : Band → Nat
  | small => 9
  | medium => 26
  | large => 40

def ofVersion (version : Nat) : Band :=
  if version ≤ 9 then small else if version ≤ 26 then medium else large

end Band

namespace Mode

def indicator : Mode → Nat
  | numeric => 1
  | alphanumeric => 2
  | byte => 4
  | kanji => 8

def lengthBits : Mode → Band → Nat
  | numeric, .small => 10
  | numeric, .medium => 12
  | numeric, .large => 14
  | alphanumeric, .small => 9
  | alphanumeric, .medium => 11
  | alphanumeric, .large => 13
  | byte, .small => 8
  | byte, _ => 16
  | kanji, .small => 8
  | kanji, .medium => 10
  | kanji, .large => 12

def join (a b : Mode) : Mode :=
  if a = b then a
  else if (a = numeric ∧ b = alphanumeric) ∨ (a = alphanumeric ∧ b = numeric) then alphanumeric
  else byte

end Mode

structure Segment where
  mode : Mode
  bytes : List UInt8
deriving DecidableEq, Repr

namespace Segment

/-- Characters as the length field counts them: two bytes make one in kanji mode. -/
def count (s : Segment) : Nat :=
  match s.mode with
  | .kanji => s.bytes.length / 2
  | _ => s.bytes.length

def dataBits (s : Segment) : Nat :=
  let n := s.count
  match s.mode with
  | .numeric => n / 3 * 10 + (if n % 3 = 2 then 7 else if n % 3 = 1 then 4 else 0)
  | .alphanumeric => n / 2 * 11 + n % 2 * 6
  | .byte => n * 8
  | .kanji => n * 13

def bits (band : Band) (s : Segment) : Nat := 4 + s.mode.lengthBits band + s.dataBits

def join (a b : Segment) : Segment := ⟨a.mode.join b.mode, a.bytes ++ b.bytes⟩

end Segment

def isDigitByte (b : UInt8) : Bool := 0x30 ≤ b && b ≤ 0x39

def isLetterByte (b : UInt8) : Bool :=
  (0x41 ≤ b && b ≤ 0x5A)
    || [0x20, 0x24, 0x25, 0x2A, 0x2B, 0x2D, 0x2E, 0x2F, 0x3A].contains b

def isLeadByte (b : UInt8) : Bool := (0x81 ≤ b && b ≤ 0x9F) || (0xE0 ≤ b && b ≤ 0xEB)

def isPair (lead trail : UInt8) : Bool :=
  isLeadByte lead && 0x40 ≤ trail && trail ≠ 0x7F
    && (if lead = 0xEB then trail ≤ 0xBF else trail ≤ 0xFC)

def isOtherByte (b : UInt8) : Bool := !(isDigitByte b || isLetterByte b || isLeadByte b)

def takePairs : List UInt8 → List UInt8 × List UInt8
  | a :: b :: r =>
    if isPair a b then
      let (pairs, rest) := takePairs r
      (a :: b :: pairs, rest)
    else ([], a :: b :: r)
  | r => ([], r)

theorem length_takePairs_le (s : List UInt8) : (takePairs s).2.length ≤ s.length := by
  fun_induction takePairs s with
  | case1 a b r h pairs rest eq ih =>
    rw [eq] at ih
    simp at *
    omega
  | case2 => simp
  | case3 => simp

theorem length_dropWhile_le (p : UInt8 → Bool) (s : List UInt8) :
    (s.dropWhile p).length ≤ s.length :=
  (List.dropWhile_suffix p).length_le

/-- The runs of a text, each as long as it can be. A lead byte that no trail byte follows is a run
of its own. -/
def cut : List UInt8 → List Segment
  | [] => []
  | b :: r =>
    if isDigitByte b then
      ⟨.numeric, b :: r.takeWhile isDigitByte⟩ :: cut (r.dropWhile isDigitByte)
    else if isLetterByte b then
      ⟨.alphanumeric, b :: r.takeWhile isLetterByte⟩ :: cut (r.dropWhile isLetterByte)
    else if isLeadByte b then
      match r with
      | c :: t =>
        if isPair b c then ⟨.kanji, b :: c :: (takePairs t).1⟩ :: cut (takePairs t).2
        else ⟨.byte, [b]⟩ :: cut (c :: t)
      | [] => [⟨.byte, [b]⟩]
    else ⟨.byte, b :: r.takeWhile isOtherByte⟩ :: cut (r.dropWhile isOtherByte)
termination_by s => s.length
decreasing_by
  · have := length_dropWhile_le isDigitByte r
    simp
    omega
  · have := length_dropWhile_le isLetterByte r
    simp
    omega
  · have := length_takePairs_le t
    simp
    omega
  · simp
  · have := length_dropWhile_le isOtherByte r
    simp
    omega

/-- Joins from left to right: the next run goes into the last segment unless it is shorter on its
own. -/
def mergeInto (band : Band) (last : Segment) : List Segment → List Segment
  | [] => [last]
  | s :: rest =>
    let joined := last.join s
    if joined.bits band ≤ last.bits band + s.bits band then mergeInto band joined rest
    else last :: mergeInto band s rest

def merge (band : Band) : List Segment → List Segment
  | [] => []
  | s :: rest => mergeInto band s rest

def totalBits (band : Band) : List Segment → Nat
  | [] => 0
  | s :: rest => s.bits band + totalBits band rest

end LabelPress.Qr
