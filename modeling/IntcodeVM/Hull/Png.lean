import IntcodeVM.Hull.Picture

/-!
Pictures as PNG files: eight-bit gray, without compression. A file is a signature and chunks; each
chunk has a length, a name, its data and a checksum of both.
-/

namespace IntcodeVM.Hull.Png

def bigEndian (n : UInt32) : List UInt8 :=
  [(n >>> 24).toUInt8, (n >>> 16).toUInt8, (n >>> 8).toUInt8, n.toUInt8]

def littleEndian (n : UInt16) : List UInt8 :=
  [n.toUInt8, (n >>> 8).toUInt8]

def crcBit (crc : UInt32) : UInt32 :=
  if crc &&& 1 = 0 then crc >>> 1 else (crc >>> 1) ^^^ 0xEDB88320

def crcByte (crc : UInt32) (b : UInt8) : UInt32 :=
  (List.range 8).foldl (fun c _ => crcBit c) (crc ^^^ b.toUInt32)

def crc (bytes : List UInt8) : UInt32 := (bytes.foldl crcByte 0xFFFFFFFF) ^^^ 0xFFFFFFFF

def adler (bytes : List UInt8) : UInt32 :=
  let (a, b) := bytes.foldl
    (fun (a, b) byte =>
      let a := (a + byte.toUInt32) % 65521
      (a, (b + a) % 65521))
    ((1, 0) : UInt32 × UInt32)
  (b <<< 16) ||| a

def chunk (name : String) (data : List UInt8) : List UInt8 :=
  let body := name.toList.map (fun c => UInt8.ofNat c.toNat) ++ data
  bigEndian data.length.toUInt32 ++ body ++ bigEndian (crc body)

/-- The data in blocks of stored bytes; the fuel is the number of blocks. -/
def storedBlocks : Nat → List UInt8 → List UInt8
  | 0, _ => []
  | fuel + 1, data =>
    let block := data.take 65535
    let rest := data.drop 65535
    let size := block.length.toUInt16
    let last : UInt8 := if rest.isEmpty then 1 else 0
    last :: littleEndian size ++ littleEndian (size ^^^ 0xFFFF) ++ block ++
      if rest.isEmpty then [] else storedBlocks fuel rest

def stored (data : List UInt8) : List UInt8 :=
  [0x78, 0x01] ++ storedBlocks (data.length / 65535 + 1) data ++ bigEndian (adler data)

def scanlines (p : Picture) : List UInt8 :=
  p.rows.toList.flatMap fun row => 0 :: row.toList.map fun lit => UInt8.ofNat (Picture.level lit)

def encode (p : Picture) : List UInt8 :=
  [0x89, 0x50, 0x4E, 0x47, 0x0D, 0x0A, 0x1A, 0x0A] ++
    chunk "IHDR" (bigEndian p.width.toUInt32 ++ bigEndian p.height.toUInt32 ++ [8, 0, 0, 0, 0]) ++
    chunk "IDAT" (stored (scanlines p)) ++ chunk "IEND" []

end IntcodeVM.Hull.Png
