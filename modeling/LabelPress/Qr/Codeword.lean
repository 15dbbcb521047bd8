import LabelPress.Qr.Capacity

/-!
The code words of a QR symbol: the packed segments, padding, error correction over the field with
256 elements, and the order in which the words of all blocks are written.
-/

namespace LabelPress.Qr

def bitsOf (width n : Nat) : List Bool := (List.range width).reverse.map n.testBit

def digitOf (b : UInt8) : Nat := b.toNat - 0x30

def alphanumerics : List Char := "0123456789ABCDEFGHIJKLMNOPQRSTUVWXYZ $%*+-./:".toList

def alphanumericOf (b : UInt8) : Nat := alphanumerics.idxOf (Char.ofNat b.toNat)

def kanjiOf (lead trail : UInt8) : Nat :=
  let c := lead.toNat * 0x100 + trail.toNat
  let d := c - (if c < 0xE040 then 0x8140 else 0xC140)
  d / 0x100 * 0xC0 + d % 0x100

def packNumeric : List UInt8 → List Bool
  | a :: b :: c :: r => bitsOf 10 (digitOf a * 100 + digitOf b * 10 + digitOf c) ++ packNumeric r
  | [a, b] => bitsOf 7 (digitOf a * 10 + digitOf b)
  | [a] => bitsOf 4 (digitOf a)
  | [] => []

def packAlphanumeric : List UInt8 → List Bool
  | a :: b :: r => bitsOf 11 (alphanumericOf a * 45 + alphanumericOf b) ++ packAlphanumeric r
  | [a] => bitsOf 6 (alphanumericOf a)
  | [] => []

def packKanji : List UInt8 → List Bool
  | a :: b :: r => bitsOf 13 (kanjiOf a b) ++ packKanji r
  | _ => []

def Segment.packed (s : Segment) : List Bool :=
  match s.mode with
  | .numeric => packNumeric s.bytes
  | .alphanumeric => packAlphanumeric s.bytes
  | .byte => s.bytes.flatMap fun b => bitsOf 8 b.toNat
  | .kanji => packKanji s.bytes

/-- Mode, length and data of a segment; the length has to fit its field. -/
def Segment.encoded? (band : Band) (s : Segment) : Option (List Bool) :=
  let width := s.mode.lengthBits band
  if s.count < 1 <<< width then
    some (bitsOf 4 s.mode.indicator ++ bitsOf width s.count ++ s.packed)
  else none

/-- Bits as bytes, the highest bit first. The last byte is filled up with zeros. -/
def bytesOf (bits : List Bool) : List UInt8 :=
  match bits with
  | [] => []
  | b :: r =>
    let first := b :: r.take 7
    let n := first.foldl (fun n b => 2 * n + b.toNat) 0
    UInt8.ofNat (n <<< (8 - first.length)) :: bytesOf (r.drop 7)
termination_by bits.length
decreasing_by
  simp only [List.length_drop, List.length_cons]
  omega

def padding (n : Nat) : List UInt8 :=
  (List.range n).map fun i => if i % 2 = 0 then 0xEC else 0x11

/-- The data words: the segments, up to four zero bits that end them, and padding. -/
def dataBytes? (level : Level) (version : Nat) (segments : List Segment) : Option (List UInt8) := do
  let parts ← segments.mapM (Segment.encoded? (Band.ofVersion version))
  let bits := parts.flatten
  let room := capacity level version - bits.length
  let bytes := bytesOf (bits ++ List.replicate (min 4 room) false)
  pure (bytes ++ padding (dataWords level version - bytes.length))

/-- Multiplication by `x` modulo `x^8 + x^4 + x^3 + x^2 + 1`. -/
def timesX (a : UInt8) : UInt8 := if a < 0x80 then a <<< 1 else (a <<< 1) ^^^ 0x1D

def fieldMulBits (a b : UInt8) : (bits : Nat) → UInt8
  | 0 => 0
  | bits + 1 =>
    let low := if b &&& 1 = 1 then a else 0
    low ^^^ fieldMulBits (timesX a) (b >>> 1) bits

def fieldMul (a b : UInt8) : UInt8 := fieldMulBits a b 8

/-- The coefficients below the leading one of the product of `x - 2^i` for `i < degree`. -/
def generator : (degree : Nat) → List UInt8
  | 0 => []
  | degree + 1 =>
    let g := generator degree
    let root := (List.range degree).foldl (fun r _ => timesX r) 1
    List.zipWith (· ^^^ ·) (g ++ [0]) ((1 :: g).map (fieldMul root))

def divisionStep (g : List UInt8) (remainder : List UInt8) (b : UInt8) : List UInt8 :=
  let factor := b ^^^ remainder.headD 0
  List.zipWith (· ^^^ ·) (remainder.drop 1 ++ [0]) (g.map (fieldMul factor))

def correction (g : List UInt8) (block : List UInt8) : List UInt8 :=
  block.foldl (divisionStep g) (g.map fun _ => 0)

def deal : List Nat → List UInt8 → List (List UInt8)
  | [], _ => []
  | n :: ns, bytes => bytes.take n :: deal ns (bytes.drop n)

/-- The data words of each block; the longer blocks come last. -/
def blockSizes (level : Level) (version : Nat) : List Nat :=
  let blocks := level.blocks version
  let words := dataWords level version
  let long := words % blocks
  List.replicate (blocks - long) (words / blocks) ++ List.replicate long (words / blocks + 1)

def interleave (blocks : List (List UInt8)) : List UInt8 :=
  let arrays := blocks.map List.toArray
  let longest := arrays.foldl (fun n a => max n a.size) 0
  (List.range longest).flatMap fun i => arrays.filterMap fun a => a[i]?

def arrange (level : Level) (version : Nat) (data : List UInt8) : List UInt8 :=
  let blocks := deal (blockSizes level version) data
  let g := generator (level.correctionWords version)
  interleave blocks ++ interleave (blocks.map (correction g))

end LabelPress.Qr
