import IntcodeVM.Hull.Png
import IntcodeVM.Text.Quoted

/-!
Gray pictures as files. Every format here stores one byte for each pixel: black as zero and white as
255. Formats differ in what stands around these bytes and in whether the top row or the bottom row
comes first; one format writes them as hexadecimal text.
-/

namespace IntcodeVM.Hull

inductive GrayFile where
  | png
  | portable
  | targa
  | tiff
  | postScript
  | labelled
  deriving DecidableEq, Repr

namespace GrayFile

def lowFirst (width n : Nat) : List UInt8 :=
  (List.range width).map fun i => UInt8.ofNat (n / Nat.pow 256 i)

def ascii (text : String) : List UInt8 := text.toUTF8.toList

def levels (rows : List (Array Bool)) : List UInt8 :=
  rows.flatMap fun row => row.toList.map fun lit => UInt8.ofNat (Picture.level lit)

def fromTop (p : Picture) : List UInt8 := levels p.rows.toList

def fromBottom (p : Picture) : List UInt8 := levels p.rows.toList.reverse

def portableFile (p : Picture) : List UInt8 :=
  ascii s!"P5\n{p.width} {p.height}\n255\n" ++ fromTop p

/-- A header of eighteen bytes, the pixels, and a footer that points to nothing but ends in the name
of the format. -/
def targaFile (p : Picture) : List UInt8 :=
  [0, 0, 3] ++ List.replicate 9 0 ++ lowFirst 2 p.width ++ lowFirst 2 p.height ++ [8, 0] ++
    fromBottom p ++ List.replicate 8 0 ++ ascii "TRUEVISION-XFILE.\x00"

/-- A field of a tagged file: its tag, its value, and whether that takes four bytes or two. -/
structure Field where
  tag : Nat
  long : Bool
  value : Nat

def Field.bytes (f : Field) : List UInt8 :=
  lowFirst 2 f.tag ++ lowFirst 2 (if f.long then 4 else 3) ++ lowFirst 4 1 ++ lowFirst 4 f.value

/-- Width, height, bits, no compression, black as zero, where the pixels start, all rows in one
strip, its length, and one plane. -/
def tiffFields (p : Picture) (start : Nat) : List Field :=
  [⟨256, true, p.width⟩, ⟨257, true, p.height⟩, ⟨258, false, 8⟩, ⟨259, false, 1⟩,
    ⟨262, false, 1⟩, ⟨273, true, start⟩, ⟨278, true, p.height⟩, ⟨279, true, p.width * p.height⟩,
    ⟨284, false, 1⟩]

def tiffFile (p : Picture) : List UInt8 :=
  let fields := tiffFields p 122
  ascii "II*\x00" ++ lowFirst 4 8 ++ lowFirst 2 fields.length ++ fields.flatMap Field.bytes ++
    lowFirst 4 0 ++ fromTop p

def hexLines (more : Nat) : List UInt8 → List String
  | [] => []
  | b :: rest =>
    let digits := (b :: rest.take more).flatMap fun b => Text.hexPadded 2 b.toNat
    String.ofList digits :: hexLines more (rest.drop more)
termination_by bytes => bytes.length
decreasing_by
  simp only [List.length_drop, List.length_cons]
  omega

def postScriptFile (p : Picture) : List UInt8 :=
  let w := p.width
  let h := p.height
  let lines :=
    ["%!PS-Adobe-3.0 EPSF-3.0", "%%Creator: PIL 0.1 EpsEncode", s!"%%BoundingBox: 0 0 {w} {h}",
      "%%Pages: 1", "%%EndComments", "%%Page: 1 1", s!"%ImageData: {w} {h} 8 1 0 1 1 \"image\"",
      "gsave", "10 dict begin", s!"/buf {w} string def", s!"{w} {h} scale", s!"{w} {h} 8",
      s!"[{w} 0 0 -{h} 0 {h}]", "\x7b currentfile buf readhexstring pop \x7d bind", "image"] ++
    hexLines 38 (fromTop p) ++ ["%%%%EndBinary", "grestore end", ""]
  ascii ("\n".intercalate lines)

/-- The header is filled up to 512 bytes. One of its lines names the file. -/
def labelledFile (nameLine : String) (p : Picture) : List UInt8 :=
  let header := ascii ("Image type: Greyscale image\r\n" ++ nameLine ++ "\r\n" ++
    s!"Image size (x*y): {p.width}*{p.height}\r\nFile size (no of images): 1\r\n")
  header ++ List.replicate (511 - header.length) 0 ++ [0x1A] ++ fromBottom p

/-- The bytes of a picture in a format; only a labelled file says its name. -/
def encode (nameLine : String) (p : Picture) : GrayFile → List UInt8
  | png => Png.encode p
  | portable => portableFile p
  | targa => targaFile p
  | tiff => tiffFile p
  | postScript => postScriptFile p
  | labelled => labelledFile nameLine p

end GrayFile

end IntcodeVM.Hull
