import ZMachine.Image

/-!
# Laws of story images

What reading gives after writing: a store changes the bytes that it names and no others, and a new
beginning leaves everything behind it in place.
-/

namespace ZMachine

theorem Word.ofBytes_high_low (word : UInt16) : ofBytes (high word) (low word) = word := by
  apply UInt16.toNat_inj.mp
  have small := word.toNat_lt
  simp only [ofBytes, high, low, UInt16.toNat_ofNat', UInt8.toNat_ofNat']
  omega

theorem Word.high_ofBytes (first second : UInt8) : high (ofBytes first second) = first := by
  apply UInt8.toNat_inj.mp
  have := first.toNat_lt
  have := second.toNat_lt
  simp only [high, ofBytes, UInt16.toNat_ofNat', UInt8.toNat_ofNat']
  omega

theorem Word.low_ofBytes (first second : UInt8) : low (ofBytes first second) = second := by
  apply UInt8.toNat_inj.mp
  have := second.toNat_lt
  simp only [low, ofBytes, UInt16.toNat_ofNat', UInt8.toNat_ofNat']
  omega

namespace Image

@[simp]
theorem size_setByte (image : Image) (address : Nat) (value : UInt8) :
    (image.setByte address value).size = image.size := by
  simp [setByte]

@[simp]
theorem size_setWord (image : Image) (address : Nat) (value : UInt16) :
    (image.setWord address value).size = image.size := by
  simp [setWord]

theorem byteAt_setByte_of_ne {address other : Nat} (different : address ≠ other) (image : Image)
    (value : UInt8) : (image.setByte address value).byteAt other = image.byteAt other := by
  simp [byteAt, setByte, different]

theorem byteAt_setByte {image : Image} {address : Nat} (inside : address < image.size)
    (value : UInt8) : (image.setByte address value).byteAt address = value := by
  simp [byteAt, setByte, inside]

theorem byteAt_setByte_eq {image : Image} {address : Nat} (inside : address < image.size)
    (value : UInt8) (other : Nat) :
    (image.setByte address value).byteAt other =
      if address = other then value else image.byteAt other := by
  split
  · rename_i same
    rw [← same, byteAt_setByte inside]
  · rename_i different
    exact byteAt_setByte_of_ne different image value

theorem byteAt_setWord_of_ne {address other : Nat} (first : address ≠ other)
    (second : address + 1 ≠ other) (image : Image) (value : UInt16) :
    (image.setWord address value).byteAt other = image.byteAt other := by
  rw [setWord, byteAt_setByte_of_ne second, byteAt_setByte_of_ne first]

theorem wordAt_setWord {image : Image} {address : Nat} (inside : address + 1 < image.size)
    (value : UInt16) : (image.setWord address value).wordAt address = value := by
  have first : (image.setWord address value).byteAt address = Word.high value := by
    rw [setWord, byteAt_setByte_of_ne (by omega), byteAt_setByte (by omega)]
  have second : (image.setWord address value).byteAt (address + 1) = Word.low value := by
    rw [setWord, byteAt_setByte (by simpa using inside)]
  rw [wordAt, first, second, Word.ofBytes_high_low]

/-- A store has the same effect on a byte wherever the byte was the same before. -/
theorem byteAt_setByte_congr {first second : Image} {other : Nat} (size : second.size = first.size)
    (same : second.byteAt other = first.byteAt other) (address : Nat) (value : UInt8) :
    (second.setByte address value).byteAt other = (first.setByte address value).byteAt other := by
  by_cases reached : address = other ∧ address < first.size
  · rcases reached with ⟨rfl, fits⟩
    rw [byteAt_setByte fits, byteAt_setByte (size ▸ fits)]
  · have missed : ∀ image : Image, image.size = first.size →
        (image.setByte address value).byteAt other = image.byteAt other := by
      intro image length
      by_cases different : address = other
      · have outside : image.size ≤ address := by omega
        simp only [setByte, Array.setIfInBounds, dif_neg (Nat.not_lt.mpr outside)]
      · exact byteAt_setByte_of_ne different _ _
    rw [missed first rfl, missed second size, same]

theorem byteAt_setWord_congr {first second : Image} {other : Nat} (size : second.size = first.size)
    (same : second.byteAt other = first.byteAt other) (address : Nat) (value : UInt16) :
    (second.setWord address value).byteAt other = (first.setWord address value).byteAt other :=
  byteAt_setByte_congr (by simpa using size) (byteAt_setByte_congr size same _ _) _ _

theorem size_withStart {image start : Image} (fits : start.size ≤ image.size) :
    (image.withStart start).size = image.size := by
  simp [withStart]
  omega

theorem byteAt_withStart_of_lt {image start : Image} {address : Nat}
    (inStart : address < start.size) : (image.withStart start).byteAt address = start.byteAt address
    := by
  simp [byteAt, withStart, Array.getElem?_append_left, inStart]

theorem byteAt_withStart_of_le {image start : Image} {address : Nat} (fits : start.size ≤ image.size)
    (behind : start.size ≤ address) :
    (image.withStart start).byteAt address = image.byteAt address := by
  simp only [byteAt, withStart, Array.getElem?_append_right behind, Array.getElem?_extract]
  by_cases inside : address < image.size
  · rw [if_pos (by omega)]
    congr 2
    omega
  · rw [if_neg (by omega), Array.getElem?_eq_none (by omega)]

theorem byteAt_extract_of_lt {image : Image} {count address : Nat} (before : address < count) :
    byteAt (image.extract 0 count) address = image.byteAt address := by
  simp only [byteAt, Array.getElem?_extract]
  by_cases inside : address < image.size
  · rw [if_pos (by omega)]
    simp
  · rw [if_neg (by omega), Array.getElem?_eq_none (by omega)]

/-- Images of one size with the same bytes are equal. -/
theorem eq_of_byteAt {first second : Image} (size : first.size = second.size)
    (bytes : ∀ address, first.byteAt address = second.byteAt address) : first = second := by
  apply Array.ext size
  intro address inFirst inSecond
  have same := bytes address
  simpa [byteAt, inFirst, inSecond] using same

/-- Storing what is there already changes nothing. -/
theorem setByte_of_same {image : Image} {address : Nat} {value : UInt8}
    (same : image.byteAt address = value) : image.setByte address value = image := by
  apply eq_of_byteAt (size_setByte image address value)
  intro other
  by_cases inside : address < image.size
  · rw [byteAt_setByte_eq inside]
    split
    · rename_i here
      rw [← here, same]
    · rfl
  · simp [setByte, Array.setIfInBounds, inside]

theorem setWord_of_same {image : Image} {address : Nat} {value : UInt16}
    (same : image.wordAt address = value) : image.setWord address value = image := by
  have high : image.byteAt address = Word.high value := by
    rw [← same, wordAt, Word.high_ofBytes]
  have low : image.byteAt (address + 1) = Word.low value := by
    rw [← same, wordAt, Word.low_ofBytes]
  rw [setWord, setByte_of_same high, setByte_of_same low]

end Image

end ZMachine
