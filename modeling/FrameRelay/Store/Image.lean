import FrameRelay.Store.Folder

/-! The bytes of an image file with three channels of 16 bits. The rows are stored as they are,
without compression. -/

namespace FrameRelay.Image

/-- The `width` lowest bytes of a number, the highest first. -/
def bigEndian : (width value : Nat) → List UInt8
  | 0, _ => []
  | width + 1, value => (value / Nat.pow 256 width).toUInt8 :: bigEndian width value

/-- The remainder of one byte more, bit by bit from the lowest. -/
def remainderStep (crc : UInt32) (byte : UInt8) : UInt32 :=
  (List.range 8).foldl (fun crc _ =>
    if crc &&& 1 = 1 then (crc >>> 1) ^^^ 0xedb88320 else crc >>> 1) (crc ^^^ byte.toUInt32)

/-- The cyclic redundancy check of the file format. -/
def crc (bytes : List UInt8) : UInt32 := bytes.foldl remainderStep 0xffffffff ^^^ 0xffffffff

/-- Two running sums, the second of the values of the first. -/
def adler (bytes : List UInt8) : Nat :=
  let (a, b) := bytes.foldl (fun (a, b) byte =>
    let a := (a + byte.toNat) % 65521
    (a, (b + a) % 65521)) (1, 0)
  b * 65536 + a

/-- A part of the file: the length of its body, its name, the body and a check of both. -/
def chunk (name : String) (body : List UInt8) : List UInt8 :=
  let named := name.toUTF8.toList ++ body
  bigEndian 4 body.length ++ named ++ bigEndian 4 (crc named).toNat

/-- The largest block that is stored as it is. -/
def blockSize : Nat := 65535

/-- Blocks of bytes; the last one is marked. At most `fuel` bytes are taken. -/
def blocks : (fuel : Nat) → List UInt8 → List UInt8
  | 0, _ => [1, 0, 0, 255, 255]
  | fuel + 1, bytes =>
    let block := bytes.take blockSize
    let rest := bytes.drop blockSize
    let size := (bigEndian 2 block.length).reverse
    let last : UInt8 := if rest.isEmpty then 1 else 0
    last :: size ++ size.map (255 - ·) ++ block ++ (if rest.isEmpty then [] else blocks fuel rest)

/-- A stream of stored blocks with a check behind it. -/
def stream (bytes : List UInt8) : List UInt8 :=
  [0x78, 0x01] ++ blocks bytes.length bytes ++ bigEndian 4 (adler bytes)

/-- The rows of an image, each behind a mark that its bytes are not filtered. -/
def rows (width height : Nat) (samples : Array UInt16) : List UInt8 :=
  (List.range height).flatMap fun y =>
    0 :: (samples.extract (3 * width * y) (3 * width * (y + 1))).toList.flatMap fun s =>
      bigEndian 2 s.toNat

def encode (width height : Nat) (samples : Array UInt16) : ByteArray :=
  let header := bigEndian 4 width ++ bigEndian 4 height ++ [16, 2, 0, 0, 0]
  let signature : List UInt8 := [0x89, 0x50, 0x4e, 0x47, 0x0d, 0x0a, 0x1a, 0x0a]
  ⟨(signature ++ chunk "IHDR" header ++ chunk "IDAT" (stream (rows width height samples)) ++
    chunk "IEND" []).toArray⟩

end FrameRelay.Image
