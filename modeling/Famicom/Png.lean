import Famicom.Frame

/-!
# PNG files

Writes pictures as eight bit images with red, green, blue and alpha.  The pixel data is stored,
not compressed: every row has the filter byte zero in front, and the rows go into blocks of at
most 65535 bytes.
-/

namespace Famicom.Png

structure Image where
  width : Nat
  height : Nat
  /-- Red, green, blue and alpha of each pixel, row by row. -/
  data : Array UInt8

/-- The image of a frame; a frame without pixels has none. -/
def Image.ofFrame? (frame : Frame) : Option Image :=
  if frame.width = 0 ∨ frame.height = 0 then none
  else some ⟨frame.width, frame.height, frame.rgba⟩

/-! ### Checksums -/

def crcBit (c : UInt32) : UInt32 :=
  if c &&& 1 = 1 then (0xEDB88320 : UInt32) ^^^ (c >>> 1) else c >>> 1

def crcByte (c : UInt32) (b : UInt8) : UInt32 :=
  (List.range 8).foldl (fun c _ => crcBit c) (c ^^^ b.toUInt32)

def crc32 (bytes : Array UInt8) : UInt32 :=
  bytes.foldl crcByte 0xFFFFFFFF ^^^ 0xFFFFFFFF

def adler32 (bytes : Array UInt8) : UInt32 :=
  let (a, b) := bytes.foldl
    (fun ((a, b) : UInt32 × UInt32) (x : UInt8) =>
      let a := (a + x.toUInt32) % 65521
      (a, (b + a) % 65521)) (1, 0)
  b <<< 16 ||| a

/-! ### Layout -/

def bigEndian (w : UInt32) : Array UInt8 :=
  #[(w >>> 24).toUInt8, (w >>> 16).toUInt8, (w >>> 8).toUInt8, w.toUInt8]

def littleEndian (n : Nat) : Array UInt8 :=
  #[n.toUInt8, (n / 256).toUInt8]

def chunk (name : String) (contents : Array UInt8) : Array UInt8 :=
  let body := name.toUTF8.data ++ contents
  bigEndian contents.size.toUInt32 ++ body ++ bigEndian (crc32 body)

def maxBlock : Nat := 65535

/-- Bytes cut into stored blocks, the last one marked; `fuel` bounds their number. -/
def storedBlocks (bytes : Array UInt8) : (fuel start : Nat) → Array UInt8
  | 0, _ => #[]
  | fuel + 1, start =>
    let block := bytes.extract start (start + maxBlock)
    let last := bytes.size ≤ start + maxBlock
    let header := #[if last then 1 else 0] ++ littleEndian block.size ++
      littleEndian (maxBlock - block.size)
    let rest := if last then #[] else storedBlocks bytes fuel (start + maxBlock)
    header ++ block ++ rest

def stored (bytes : Array UInt8) : Array UInt8 :=
  #[0x78, 0x01] ++ storedBlocks bytes (bytes.size / maxBlock + 1) 0 ++ bigEndian (adler32 bytes)

/-- The rows of an image, each with its filter byte. -/
def Image.filtered (image : Image) : Array UInt8 :=
  (List.range image.height).foldl
    (fun out y =>
      out.push 0 ++ image.data.extract (y * image.width * 4) ((y + 1) * image.width * 4)) #[]

def signature : Array UInt8 :=
  #[0x89, 0x50, 0x4E, 0x47, 0x0D, 0x0A, 0x1A, 0x0A]

def Image.toBytes (image : Image) : Array UInt8 :=
  let header := bigEndian image.width.toUInt32 ++ bigEndian image.height.toUInt32 ++
    #[8, 6, 0, 0, 0]
  signature ++ chunk "IHDR" header ++ chunk "IDAT" (stored image.filtered) ++ chunk "IEND" #[]

end Famicom.Png
