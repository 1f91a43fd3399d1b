import Mathlib.Tactic.Common

/-!
# Clipboard formats and MIME types

Format identifiers on the RDP side and MIME types on the local side, and the tables between them:
`src/rdp/channels/clipboard/core/formats.rs`, the two helpers of `clipboard/mod.rs`, and the lookup
of `clipboard/manager.rs`. The tables are not inverse to each other; which MIME spellings reach
which formats is what the policy and request results downstream are about.

## Main definitions

* `mimeToRdpFormats` — the formats advertised for a local offer
* `rdpFormatToMime`, `rdpFormatsToMimes` — the MIME types a client's offer stands for
* `lookupFormatIdForMime` — the format requested from a client for a MIME type
-/

namespace Cheirizo

namespace Clipboard

/-! ### Format identifiers -/

/-- The numbers that Windows gives its standard formats. -/
def cfUnicodetext : UInt32 := 13

/-- Text in the code page of the system. -/
def cfText : UInt32 := 1

/-- Text in the code page of the console. -/
def cfOemtext : UInt32 := 7

/-- A bitmap without its file header. -/
def cfDib : UInt32 := 8

/-- A bitmap with the header of version 5. -/
def cfDibv5 : UInt32 := 17

/-- A list of dropped files. -/
def cfHdrop : UInt32 := 15

/-- Sound. -/
def cfWave : UInt32 := 12

/-- Other sound. -/
def cfRiff : UInt32 := 11

/-- The registered formats have the numbers the server chose for them. -/
def cfHtml : UInt32 := 0xD010

/-- Portable network graphics. -/
def cfPng : UInt32 := 0xD011

/-- Photographs. -/
def cfJpeg : UInt32 := 0xD012

/-- Animated pictures. -/
def cfGif : UInt32 := 0xD013

/-- Rich text. -/
def cfRtf : UInt32 := 0xD014

/-- The list of files a client can be asked for. -/
def cfFilegroupdescriptorw : UInt32 := 49430

/-- A format, with a name if it is a registered one. -/
structure ClipboardFormat where
  id : UInt32
  name : Option String
  deriving DecidableEq, Repr

namespace ClipboardFormat

/-- A format without a name. -/
def new (id : UInt32) : ClipboardFormat := ⟨id, none⟩

/-- A registered format goes by its name. -/
def withName (id : UInt32) (name : String) : ClipboardFormat := ⟨id, some name⟩

/-- Text. -/
def unicodeText : ClipboardFormat := new cfUnicodetext

/-- Hypertext. -/
def html : ClipboardFormat := withName cfHtml "HTML Format"

/-- Pictures. -/
def png : ClipboardFormat := withName cfPng "PNG"

end ClipboardFormat

/-! ### From MIME types to formats -/

/-- A format with this identifier is among `formats`. -/
def hasId (formats : List ClipboardFormat) (id : UInt32) : Bool := formats.any fun f => f.id = id

/-- A format with this name is among `formats`. -/
def hasName (formats : List ClipboardFormat) (name : String) : Bool :=
  formats.any fun f => f.name = some name

/-- Add a format unless its identifier is already there. -/
def addOnce (formats : List ClipboardFormat) (id : UInt32) : List ClipboardFormat :=
  if hasId formats id then formats else formats ++ [.new id]

/-- Extend the advertised formats by those of one more MIME type. -/
def addMime (formats : List ClipboardFormat) (mime : String) : List ClipboardFormat :=
  match mime with
  | "text/plain" | "text/plain;charset=utf-8" | "UTF8_STRING" | "STRING" =>
    if hasId formats cfUnicodetext then formats
    else formats ++ [.unicodeText, .new cfText, .new cfOemtext]
  | "text/html" => formats ++ [.html]
  | "text/rtf" | "application/rtf" => formats ++ [.withName cfRtf "Rich Text Format"]
  | "image/png" => addOnce (addOnce (formats ++ [.png]) cfDibv5) cfDib
  | "image/jpeg" | "image/jpg" => addOnce (formats ++ [.withName cfJpeg "JFIF"]) cfDib
  | "image/gif" => formats ++ [.withName cfGif "GIF"]
  | "image/bmp" | "image/x-bmp" => formats ++ [.new cfDib]
  | "text/uri-list" | "x-special/gnome-copied-files" =>
    -- Registered formats: the name is what matters, the identifier is assigned later.
    if hasName formats "FileGroupDescriptorW" then formats
    else formats ++ [.withName 0 "FileGroupDescriptorW", .withName 0 "FileContents"]
  | "audio/wav" | "audio/x-wav" => formats ++ [.new cfWave]
  | _ => formats

/-- What a client is offered for the MIME types of the desktop. -/
def mimeToRdpFormats (mimeTypes : List String) : List ClipboardFormat :=
  mimeTypes.foldl addMime []

/-! ### From formats to MIME types -/

/-- The MIME type of a format with a number of its own. -/
def rdpFormatToMime (id : UInt32) : Option String :=
  if id = cfUnicodetext ∨ id = cfText ∨ id = cfOemtext then some "text/plain;charset=utf-8"
  else if id = cfHtml then some "text/html"
  else if id = cfRtf then some "text/rtf"
  else if id = cfDib ∨ id = cfDibv5 then some "image/png"
  else if id = cfPng then some "image/png"
  else if id = cfJpeg then some "image/jpeg"
  else if id = cfGif then some "image/gif"
  else if id = cfHdrop ∨ id = cfFilegroupdescriptorw then some "text/uri-list"
  else if id = cfWave ∨ id = cfRiff then some "audio/wav"
  else none

/-- The MIME type of a format that is known by its name. -/
def formatNameToMime (name : String) : Option String :=
  match name with
  | "FileGroupDescriptorW" | "FileGroupDescriptor" => some "text/uri-list"
  | "HTML Format" => some "text/html"
  | "Rich Text Format" => some "text/rtf"
  | _ => none

/-- Add a MIME type unless it is already there. -/
def addKnown (output : List String) (mime : String) : List String :=
  if output.contains mime then output else output ++ [mime]

/-- Extend the MIME types of a client's offer by those of one more format. -/
def addFormat (output : List String) (format : ClipboardFormat) : List String :=
  match (rdpFormatToMime format.id).or (format.name.bind formatNameToMime) with
  | none => output
  | some mime =>
    if mime = "text/uri-list" then addKnown (addKnown output mime) "x-special/gnome-copied-files"
    else addKnown output mime

/-- What the desktop is offered for a client's formats. It is never nothing, unless the client's
list is. -/
def rdpFormatsToMimes (formats : List ClipboardFormat) : List String :=
  let output := formats.foldl addFormat []
  if output.isEmpty ∧ ¬ formats.isEmpty then ["text/plain"] else output

/-! ### Requesting a MIME type from a client -/

/-- This format serves the MIME type, by its identifier or by its registered name. -/
def servesMime (mime : String) (format : ClipboardFormat) : Bool :=
  rdpFormatToMime format.id = some mime ||
    match format.name.bind formatNameToMime with
    | none => false
    | some mapped =>
      mapped = mime || (mapped = "text/uri-list" && mime = "x-special/gnome-copied-files")

/-- The number under which a client has a MIME type. Text is looked for under its two standard
numbers first. -/
def lookupFormatIdForMime (formats : List ClipboardFormat) (mime : String) : Option UInt32 :=
  let plain := mime = "text/plain;charset=utf-8" ∨ mime = "text/plain"
  if plain ∧ hasId formats 13 then some 13
  else if plain ∧ hasId formats 1 then some 1
  else (formats.find? (servesMime mime)).map ClipboardFormat.id

end Clipboard

end Cheirizo
