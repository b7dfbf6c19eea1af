import ZMachine.Word

/-!
# Story images

A story image is the list of bytes of a story file. Reading outside an image gives 0 and writing
outside it changes nothing; who may read and write where is decided by the memory.
-/

namespace ZMachine

/-- The bytes of a story file. -/
abbrev Image := Array UInt8

namespace Image

/-- The byte at an address. -/
def byteAt (image : Image) (address : Nat) : UInt8 :=
  image[address]?.getD 0

/-- The word at an address. -/
def wordAt (image : Image) (address : Nat) : UInt16 :=
  Word.ofBytes (image.byteAt address) (image.byteAt (address + 1))

/-- The image with a new byte at an address. -/
def setByte (image : Image) (address : Nat) (value : UInt8) : Image :=
  image.setIfInBounds address value

/-- The image with a new word at an address. -/
def setWord (image : Image) (address : Nat) (value : UInt16) : Image :=
  (image.setByte address (Word.high value)).setByte (address + 1) (Word.low value)

/-- The image whose beginning is replaced by other bytes. -/
def withStart (image : Image) (start : Image) : Image :=
  start ++ image.extract start.size image.size

end Image

end ZMachine
