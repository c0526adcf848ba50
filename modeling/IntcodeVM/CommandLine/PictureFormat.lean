import IntcodeVM.Diagnostic
import IntcodeVM.Hull.GrayFile
import IntcodeVM.Text.Blank
import IntcodeVM.Text.Lowercase
import IntcodeVM.Text.Quoted

/-!
Formats of picture files. The extension of a file's name tells its format, and the format tells
whether a gray picture can be written in it, and of which size. A side has to fit into the field
that a format has for it, and some formats have limits of their own. A format without an encoder
here gets the bytes of a PNG file.
-/

namespace IntcodeVM.CommandLine

inductive PictureFailure where
  | readOnly (format : String)
  | refused (format : String)
  | rejected (format : String)
  | uninstalled (format : String)
  | uncountable
  | unpackable (limit : Nat)
  /-- The picture is larger than the stream's writer takes, which comes after this text. -/
  | brokenStream (begun : String)
  | unencodable
  | longSide (format : String) (limit : Nat)
  /-- No square of an icon fits into the picture, and the picture is no icon itself. -/
  | noIconSize
  | largeFile (format : String)
  /-- The header takes a line of ASCII alone; these characters of it, from this position on, are
  not. -/
  | unwritableName (position : Nat) (characters : List Char)
  deriving DecidableEq, Repr

def notAscii (position : Nat) (characters : List Char) : String :=
  let place := match characters with
    | [c] => " '" ++ String.ofList (Text.escapedCharacter c) ++ s!"' in position {position}"
    | _ => s!"s in position {position}-{position + characters.length - 1}"
  "'ascii' codec can't encode character" ++ place ++ ": ordinal not in range(128)"

def PictureFailure.message : PictureFailure → String
  | readOnly format => "'" ++ format ++ "'"
  | refused format => "cannot write mode L as " ++ format
  | rejected format => "Unsupported " ++ format ++ " image mode"
  | uninstalled format => format ++ " save handler not installed"
  | uncountable => "int too big to convert"
  | unpackable limit => s!"'H' format requires 0 <= number <= {limit}"
  | brokenStream _ => "broken data stream when writing image file"
  | unencodable => "Failed to encode image: Invalid argument"
  | longSide format limit =>
    s!"encoding error 5: Image size exceeds {format} limit of {limit} pixels"
  | noIconSize => "All sizes too large for image"
  | largeFile format => s!"File size is too large for the {format} format"
  | unwritableName position characters => notAscii position characters

/-- The report on a failure that is passed on as it is; the others are told to the user. -/
def PictureFailure.diagnostic? (e : PictureFailure) : Option Diagnostic :=
  match e with
  | readOnly _ | refused _ | uninstalled _ | brokenStream _ => none
  | rejected _ | longSide .. | noIconSize | largeFile _ => some (.badValue e.message)
  | uncountable => some (.overflow e.message)
  | unpackable _ => some (.packing e.message)
  | unencodable => some (.breakdown e.message)
  | unwritableName .. => some (.unwritable e.message)

/-- What a file holds after the failure of its writer: what had been written before. -/
def PictureFailure.written : PictureFailure → String
  | noIconSize => "\x00\x00\x01\x00"
  | unwritableName .. => "Image type: Greyscale image\r\n"
  | brokenStream begun => begun
  | _ => ""

inductive PictureRule where
  | nothing
  | sides (width height : Nat) (failure : PictureFailure)
  /-- Room for a square of sixteen pixels, or no side above 256 pixels. -/
  | iconSize
  | fileSize (format : String)
  | asciiName
  deriving DecidableEq, Repr

inductive GrayWriter where
  | writes (rule : PictureRule) (form : Hull.GrayFile)
  | fails (failure : PictureFailure)
  deriving DecidableEq, Repr

structure PictureFormat where
  extensions : List String
  writer : GrayWriter
  deriving DecidableEq, Repr

namespace PictureFormat

def free (extensions : List String) (form : Hull.GrayFile := .png) : PictureFormat :=
  ⟨extensions, .writes .nothing form⟩

def within (width height : Nat) (failure : PictureFailure) (extensions : List String)
    (form : Hull.GrayFile := .png) : PictureFormat :=
  ⟨extensions, .writes (.sides width height failure) form⟩

def ruled (rule : PictureRule) (extensions : List String) (form : Hull.GrayFile := .png) :
    PictureFormat :=
  ⟨extensions, .writes rule form⟩

def closed (failure : PictureFailure) (extensions : List String) : PictureFormat :=
  ⟨extensions, .fails failure⟩

def wordLimit : Nat := 65535

/-- How a document starts: a catalog and a list of its one page come before the picture. -/
def documentOpening : String :=
  "%PDF-1.4\n% created by Pillow PDF driver\n" ++
    "3 0 obj<<\n/Type /Catalog\n/Pages 4 0 R\n>>endobj\n" ++
    "4 0 obj<<\n/Type /Pages\n/Count 1\n/Kids [ 1 0 R ]\n>>endobj\n"

/-- All formats. A row of the format that is packed by runs takes an even number of bytes, which
has to fit into its field as well. -/
def all : List PictureFormat :=
  [free [".png", ".apng"],
    within 65536 65536 .unencodable [".avif", ".avifs"],
    ruled (.fileSize "BMP") [".bmp"],
    free [".dds"],
    free [".dib"],
    free [".ps", ".eps"] .postScript,
    within wordLimit wordLimit .uncountable [".gif"],
    free [".icns"],
    ruled .iconSize [".ico"],
    ruled .asciiName [".im"] .labelled,
    within 65500 65500 (.brokenStream "") [".jfif", ".jpe", ".jpg", ".jpeg"],
    free [".jp2", ".j2k", ".jpc", ".jpf", ".jpx", ".j2c"],
    within 65500 65500 (.brokenStream "") [".mpo"],
    within (wordLimit - 1) wordLimit .uncountable [".pcx"],
    within 65500 65500 (.brokenStream documentOpening) [".pdf"],
    free [".pbm", ".pgm", ".ppm", ".pnm", ".pfm"] .portable,
    within wordLimit wordLimit (.unpackable wordLimit) [".bw", ".rgb", ".rgba", ".sgi"],
    within wordLimit wordLimit .uncountable [".tga", ".icb", ".vda", ".vst"] .targa,
    free [".tif", ".tiff"] .tiff,
    within 16383 16383 (.longSide "WebP" 16383) [".webp"],
    closed (.readOnly "CUR") [".cur"],
    closed (.readOnly "DCX") [".dcx"],
    closed (.readOnly "FITS") [".fit", ".fits"],
    closed (.readOnly "FLI") [".fli", ".flc"],
    closed (.readOnly "FTEX") [".ftc", ".ftu"],
    closed (.readOnly "GBR") [".gbr"],
    closed (.readOnly "IPTC") [".iim"],
    closed (.readOnly "MPEG") [".mpg", ".mpeg"],
    closed (.readOnly "PCD") [".pcd"],
    closed (.readOnly "PIXAR") [".pxr"],
    closed (.readOnly "PSD") [".psd"],
    closed (.readOnly "SUN") [".ras"],
    closed (.readOnly "XPM") [".xpm"],
    closed (.refused "MSP") [".msp"],
    closed (.refused "Palm") [".palm"],
    closed (.refused "XBM") [".xbm"],
    closed (.rejected "BLP") [".blp"],
    closed (.rejected "QOI") [".qoi"],
    closed (.uninstalled "BUFR") [".bufr"],
    closed (.uninstalled "GRIB") [".grib"],
    closed (.uninstalled "HDF5") [".h5", ".hdf"],
    closed (.uninstalled "WMF") [".wmf", ".emf"]]

def ofExtension? (extension : String) : Option PictureFormat :=
  all.find? (·.extensions.contains extension)

end PictureFormat

def baseName (path : List Char) : List Char := (Text.pieces '/' path).getLast?.getD []

def suffix (path : List Char) : List Char :=
  let name := (baseName path).dropWhile (· = '.')
  if name.contains '.' then '.' :: (name.reverse.takeWhile (· ≠ '.')).reverse else []

def extension (path : List Char) : List Char := Text.lowercase (suffix path)

/-- The line of a header that names the file; a long name is cut, but not its extension. -/
def nameLine (path : List Char) : List Char :=
  let ext := suffix path
  let stem := (baseName path).take ((baseName path).length - ext.length)
  "Name: ".toList ++ stem.take (92 - ext.length) ++ ext

/-- The first run of characters outside ASCII, and where it starts. -/
def foreignRun? (text : List Char) : Option (Nat × List Char) :=
  let isAscii (c : Char) : Bool := c.toNat < 128
  let plain := text.takeWhile isAscii
  match (text.drop plain.length).takeWhile (!isAscii ·) with
  | [] => none
  | run => some (plain.length, run)

def plainFileSize (width height : Nat) : Nat := 1078 + (width + 3) / 4 * 4 * height

def PictureRule.failure? (rule : PictureRule) (path : List Char) (width height : Nat) :
    Option PictureFailure :=
  match rule with
  | nothing => none
  | sides w h failure => if width ≤ w ∧ height ≤ h then none else some failure
  | iconSize => if min width height < 16 ∧ 256 < max width height then some .noIconSize else none
  | fileSize format =>
    if plainFileSize width height < Nat.pow 2 32 then none else some (.largeFile format)
  | asciiName =>
    (foreignRun? (nameLine path)).map fun (position, run) => .unwritableName position run

def GrayWriter.failure? (writer : GrayWriter) (path : List Char) (width height : Nat) :
    Option PictureFailure :=
  match writer with
  | writes rule _ => rule.failure? path width height
  | fails failure => some failure

def GrayWriter.form : GrayWriter → Hull.GrayFile
  | writes _ form => form
  | fails _ => .png

end IntcodeVM.CommandLine
