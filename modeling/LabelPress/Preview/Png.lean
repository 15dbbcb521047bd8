import LabelPress.Preview.Canvas

/-!
Canvases as PNG files of eight-bit grey values. Pixels are stored without compression; reading takes
back just the files that writing gives, whatever follows them.
-/

namespace LabelPress.Png

def word (n : Nat) : List UInt8 :=
  [UInt8.ofNat (n >>> 24), UInt8.ofNat (n >>> 16), UInt8.ofNat (n >>> 8), UInt8.ofNat n]

def halfWord (n : Nat) : List UInt8 := [UInt8.ofNat n, UInt8.ofNat (n >>> 8)]

def crcBits (c : UInt32) : (bits : Nat) → UInt32
  | 0 => c
  | bits + 1 => crcBits (if c &&& 1 = 1 then (c >>> 1) ^^^ 0xEDB88320 else c >>> 1) bits

def crc (bytes : List UInt8) : UInt32 :=
  bytes.foldl (fun c b => crcBits (c ^^^ b.toUInt32) 8) 0xFFFFFFFF ^^^ 0xFFFFFFFF

def adler (bytes : List UInt8) : Nat :=
  let (a, b) := bytes.foldl
    (fun (a, b) byte =>
      let a := (a + byte.toNat) % 65521
      (a, (b + a) % 65521))
    (1, 0)
  (b <<< 16) + a

def maxBlock : Nat := 65535

/-- The bytes in stored blocks, the last of which is marked. -/
def storedBlocks (bytes : List UInt8) : List UInt8 :=
  if bytes.length ≤ maxBlock then
    1 :: halfWord bytes.length ++ halfWord (maxBlock - bytes.length) ++ bytes
  else
    0 :: halfWord maxBlock ++ halfWord 0 ++ bytes.take maxBlock
      ++ storedBlocks (bytes.drop maxBlock)
termination_by bytes.length
decreasing_by
  simp only [List.length_drop, maxBlock] at *
  omega

def chunk (name : String) (data : List UInt8) : List UInt8 :=
  let named := name.toUTF8.toList ++ data
  word data.length ++ named ++ word (crc named).toNat

def signature : List UInt8 := [0x89, 0x50, 0x4E, 0x47, 0x0D, 0x0A, 0x1A, 0x0A]

def grey : LineColor → UInt8
  | .white => 255
  | .black => 0

/-- Each row follows a byte that says it is not filtered. -/
def scanLines (c : Canvas) : List UInt8 := c.rows.flatMap fun row => 0 :: row.map grey

def header (c : Canvas) : List UInt8 := word c.width ++ word c.height ++ [8, 0, 0, 0, 0]

def encode (c : Canvas) : List UInt8 :=
  let lines := scanLines c
  signature ++ chunk "IHDR" (header c)
    ++ chunk "IDAT" (0x78 :: 0x01 :: storedBlocks lines ++ word (adler lines))
    ++ chunk "IEND" []

def wordOf? : List UInt8 → Option (Nat × List UInt8)
  | a :: b :: c :: d :: r =>
    some (((a.toNat * 256 + b.toNat) * 256 + c.toNat) * 256 + d.toNat, r)
  | _ => none

def chunkOf? (name : String) (s : List UInt8) : Option (List UInt8 × List UInt8) := do
  let (n, r) ← wordOf? s
  if r.take 4 = name.toUTF8.toList then
    let data := (r.drop 4).take n
    pure (data, (r.drop 4).drop (n + 4))
  else none

def ofStoredBlocks (s : List UInt8) : List UInt8 :=
  match s with
  | final :: low :: high :: _ :: _ :: r =>
    let n := high.toNat * 256 + low.toNat
    if final = 1 then r.take n else r.take n ++ ofStoredBlocks (r.drop n)
  | _ => []
termination_by s.length
decreasing_by
  simp only [List.length_drop, List.length_cons]
  omega

def ofScanLines (width : Nat) (s : List UInt8) : (rows : Nat) → List LineColor
  | 0 => []
  | rows + 1 =>
    ((s.drop 1).take width).map (fun b => if b = 0 then .black else .white)
      ++ ofScanLines width (s.drop (width + 1)) rows

def decode? (s : List UInt8) : Option Canvas := do
  if s.take 8 = signature then
    let (head, r) ← chunkOf? "IHDR" (s.drop 8)
    let (width, h) ← wordOf? head
    let (height, _) ← wordOf? h
    let (body, _) ← chunkOf? "IDAT" r
    let lines := ofStoredBlocks (body.drop 2)
    pure { width, height, pixels := (ofScanLines width lines height).toArray }
  else none

end LabelPress.Png
