import ZMachine.Fault
import ZMachine.Image
import ZMachine.Settings

/-!
# The story header

The first 64 bytes of a story say where its tables are and how its memory is divided. The header is
read when a story is loaded. Before that, the bytes that describe the interpreter are filled in, and
the features that a plain text interpreter lacks are marked as missing.
-/

namespace ZMachine

open Text

/-- The fields of a story header. -/
structure Header where
  version : Nat
  flags1 : UInt8
  release : Nat
  /-- Where high memory begins, which ordinary loads cannot reach. -/
  highBase : Nat
  initialPc : Nat
  dictionary : Nat
  objectTable : Nat
  globals : Nat
  /-- Where static memory begins, which nothing can change. -/
  staticBase : Nat
  flags2 : UInt16
  serial : String
  abbreviations : Nat
  fileLength : Nat
  checksum : UInt16
  interpreterNumber : UInt8
  interpreterVersion : UInt8
  screenHeight : UInt8
  screenWidth : UInt8
  routinesOffset : Nat
  stringsOffset : Nat
  terminatingChars : Nat
  standardRevision : Nat
  alphabetTable : Nat
  extensionTable : Nat
  unicodeTable : Nat
deriving Repr, DecidableEq

namespace Header

/-- The size of a header, and so of the smallest story. -/
def size : Nat := 64

/-- The address of the word of flags that a story and its interpreter share. -/
def flags2Address : Nat := 0x10

/-- The size of the largest story of a version. -/
def maxStorySize (version : Nat) : Nat :=
  if 1 ≤ version ∧ version ≤ 3 then 128 * 1024
  else if version = 4 ∨ version = 5 then 256 * 1024
  else 512 * 1024

/-- The unit in which a version counts the length of its file. -/
def lengthUnit (version : Nat) : Nat :=
  if version ≤ 3 then 2 else if version ≤ 5 then 4 else 8

/-- A byte of the serial number as a character. -/
def serialChar (byte : UInt8) : Char :=
  if 0x21 ≤ byte && byte ≤ 0x7E then Char.ofNat byte.toNat else '?'

/-- The address of the Unicode table, named by the fourth word of the header extension if there are
that many. -/
def unicodeTableOf (image : Image) (extension : Nat) : Nat :=
  if extension ≠ 0 ∧ extension + 8 ≤ image.size ∧ 3 ≤ (image.wordAt extension).toNat then
    (image.wordAt (extension + 6)).toNat
  else 0

/-- Checks that an image is a story whose memory map makes sense. The first failing check decides
the fault. -/
def check (image : Image) : Except Fault Unit :=
  let version := (image.byteAt 0x00).toNat
  let staticBase := (image.wordAt 0x0E).toNat
  let highBase := (image.wordAt 0x04).toNat
  if image.size < size then .error (.storyTooSmall image.size)
  else if version < 1 ∨ 8 < version then .error (.unsupportedVersion version)
  else if maxStorySize version < image.size then
    .error (.malformedHeader (.tooLarge image.size version (maxStorySize version)))
  else if staticBase < size ∨ image.size < staticBase then
    .error (.malformedHeader (.staticBase staticBase image.size))
  else if highBase < staticBase then
    .error (.malformedHeader (.highBase highBase staticBase))
  else .ok ()

/-- The fields at the beginning of an image. -/
def read (image : Image) : Header :=
  let word := fun address => (image.wordAt address).toNat
  let version := (image.byteAt 0x00).toNat
  let extensionTable := if 5 ≤ version then word 0x36 else 0
  { version
    flags1 := image.byteAt 0x01
    release := word 0x02
    highBase := word 0x04
    initialPc := word 0x06
    dictionary := word 0x08
    objectTable := word 0x0A
    globals := word 0x0C
    staticBase := word 0x0E
    flags2 := image.wordAt flags2Address
    serial := String.ofList ((List.range 6).map fun i => serialChar (image.byteAt (0x12 + i)))
    abbreviations := word 0x18
    fileLength := word 0x1A * lengthUnit version
    checksum := image.wordAt 0x1C
    interpreterNumber := image.byteAt 0x1E
    interpreterVersion := image.byteAt 0x1F
    screenHeight := image.byteAt 0x20
    screenWidth := image.byteAt 0x21
    routinesOffset := word 0x28
    stringsOffset := word 0x2A
    terminatingChars := word 0x2E
    standardRevision := word 0x32
    alphabetTable := if 5 ≤ version then word 0x34 else 0
    extensionTable
    unicodeTable := unicodeTableOf image extensionTable }

/-- The header of an image that passes all checks. -/
def parse (image : Image) : Except Fault Header := do
  check image
  return read image

/-- Fills in the fields that describe the interpreter and clears the flags of features that it does
not have: colour, pictures, sound, mouse, menus and timed input. -/
def normalize (settings : Settings) (image : Image) : Image :=
  let version := (image.byteAt 0x00).toNat
  let image :=
    if version ≤ 3 then image.setByte 0x01 (image.byteAt 0x01 &&& 0x9F)
    else
      ((((image.setByte 0x01 (image.byteAt 0x01 &&& 0x5C)).setByte 0x1E
        settings.interpreterNumber).setByte 0x1F settings.interpreterVersion).setByte 0x20
          settings.screenHeight).setByte 0x21 settings.screenWidth
  let image :=
    if 5 ≤ version then
      ((((image.setWord 0x22 settings.screenWidth.toUInt16).setWord 0x24
        settings.screenHeight.toUInt16).setByte 0x26 1).setByte 0x27 1).setWord flags2Address
          (image.wordAt flags2Address &&& 0xFE57)
    else image
  (image.setByte 0x32 1).setByte 0x33 1

/-- Whether the status line shows the time of day instead of score and moves. -/
def isTimed (header : Header) : Bool :=
  header.version ≤ 3 && header.flags1 &&& 0x02 != 0

/-- The listing of a header. -/
def listing (header : Header) : String :=
  let common := [
    ("Z-code version:           ", decimal header.version),
    ("Interpreter flags:        0x", hex 2 header.flags1.toNat),
    ("Release number:           ", decimal header.release),
    ("Size of resident memory:  0x", hex 4 header.highBase),
    ("Start PC:                 0x", hex 4 header.initialPc),
    ("Dictionary address:       0x", hex 4 header.dictionary),
    ("Object table address:     0x", hex 4 header.objectTable),
    ("Global variables address: 0x", hex 4 header.globals),
    ("Size of dynamic memory:   0x", hex 4 header.staticBase),
    ("Game flags:               0x", hex 4 header.flags2.toNat),
    ("Serial number:            ", header.serial),
    ("Abbreviations address:    0x", hex 4 header.abbreviations),
    ("File size:                0x", hex 5 header.fileLength),
    ("Checksum:                 0x", hex 4 header.checksum.toNat)]
  let tables :=
    if 5 ≤ header.version then [
      ("Alphabet table address:   0x", hex 4 header.alphabetTable),
      ("Header extension address: 0x", hex 4 header.extensionTable)]
    else []
  "\n" ++ String.join ((common ++ tables).map fun (label, text) => label ++ text ++ "\n")

end Header

end ZMachine
