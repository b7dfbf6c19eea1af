import ZMachine.Proofs.Image
import ZMachine.Proofs.Instruction.Decoding
import ZMachine.Zscii.Encode

/-!
# Bytes held in memory

What is laid out in memory can be read from there: bytes, words, and packed text, which ends by
itself with the first word that is marked as the last one. A layout is a list of bytes, so that what
is laid out one after the other is held piece by piece.
-/

namespace ZMachine

namespace Word

/-- The two bytes of a word. -/
def bytes (word : UInt16) : List UInt8 :=
  [high word, low word]

theorem length_flatMap_bytes (words : List UInt16) :
    (words.flatMap bytes).length = 2 * words.length := by
  induction words with
  | nil => rfl
  | cons word words ih =>
      simp only [List.flatMap_cons, List.length_append, ih, List.length_cons, bytes, List.length_nil]
      omega

end Word

namespace Memory

/-- From an address on, the memory holds the bytes of a list. -/
def Holds (memory : Memory) (address : Nat) (bytes : List UInt8) : Prop :=
  ∀ index byte, bytes[index]? = some byte → memory.bytes[address + index]? = some byte

variable {memory : Memory} {address : Nat}

theorem holds_cons {byte : UInt8} {bytes : List UInt8} :
    memory.Holds address (byte :: bytes) ↔
      memory.bytes[address]? = some byte ∧ memory.Holds (address + 1) bytes := by
  constructor
  · intro holds
    refine ⟨holds 0 byte rfl, ?_⟩
    intro index found inside
    have := holds (index + 1) found inside
    rwa [show address + (index + 1) = address + 1 + index by omega] at this
  · rintro ⟨first, rest⟩ index found inside
    cases index with
    | zero =>
        simp only [List.getElem?_cons_zero, Option.some.injEq] at inside
        rwa [inside] at first
    | succ index =>
        have := rest index found inside
        rwa [show address + 1 + index = address + (index + 1) by omega] at this

theorem holds_append {first second : List UInt8} :
    memory.Holds address (first ++ second) ↔
      memory.Holds address first ∧ memory.Holds (address + first.length) second := by
  induction first generalizing address with
  | nil => simp [Holds]
  | cons byte bytes ih =>
      rw [List.cons_append, holds_cons, holds_cons, ih, List.length_cons, and_assoc,
        show address + 1 + bytes.length = address + (bytes.length + 1) by omega]

/-- Of bytes that are held, a piece is held where it begins. -/
theorem Holds.slice {bytes : List UInt8} (holds : memory.Holds address bytes)
    (first count : Nat) : memory.Holds (address + first) ((bytes.drop first).take count) := by
  intro index byte found
  rw [List.getElem?_take] at found
  split at found
  · rw [List.getElem?_drop] at found
    rw [Nat.add_assoc]
    exact holds (first + index) byte found
  · cases found

theorem byteAt_of_held {byte : UInt8} (held : memory.bytes[address]? = some byte) :
    address < memory.bytes.size ∧ memory.bytes.byteAt address = byte := by
  rcases Array.getElem?_eq_some_iff.mp held with ⟨inside, _⟩
  exact ⟨inside, by simp [Image.byteAt, held]⟩

theorem wordAt_of_holds {word : UInt16} (holds : memory.Holds address (Word.bytes word)) :
    address + 2 ≤ memory.bytes.size ∧ memory.bytes.wordAt address = word := by
  rcases holds_cons.mp holds with ⟨high, rest⟩
  rcases holds_cons.mp rest with ⟨low, _⟩
  rcases byteAt_of_held high with ⟨_, highByte⟩
  rcases byteAt_of_held low with ⟨inside, lowByte⟩
  exact ⟨inside, by rw [Image.wordAt, highByte, lowByte, Word.ofBytes_high_low]⟩

end Memory

/-- Words of packed text as they are written: the last one is marked, and no other. -/
structure PackedText where
  before : List UInt16
  last : UInt16
  unmarked : ∀ word ∈ before, Word.isLast word = false
  marked : Word.isLast last = true

namespace PackedText

variable (text : PackedText)

/-- The words of a packed text. -/
def words : List UInt16 :=
  text.before ++ [text.last]

/-- The bytes of a packed text. -/
def bytes : List UInt8 :=
  text.words.flatMap Word.bytes

/-- The codes of a packed text. -/
def codes : List Nat :=
  unpackCodes text.words

theorem length_bytes : text.bytes.length = 2 * text.words.length :=
  Word.length_flatMap_bytes text.words

end PackedText

namespace Memory

variable {memory : Memory} {address : Nat}

theorem textLength_of_holds {before : List UInt16} {last : UInt16} {consumed : Nat}
    (unmarked : ∀ word ∈ before, Word.isLast word = false) (marked : Word.isLast last = true)
    (holds : memory.Holds (address + consumed) ((before ++ [last]).flatMap Word.bytes)) :
    memory.textLength address none consumed = .ok (consumed + 2 * (before.length + 1)) := by
  induction before generalizing consumed with
  | nil =>
      simp only [List.nil_append, List.flatMap_cons, List.flatMap_nil, List.append_nil] at holds
      rcases wordAt_of_holds holds with ⟨inside, word⟩
      rw [textLength, word, marked, if_neg (by simp), if_neg (by omega), if_pos rfl]
      simp
  | cons first before ih =>
      rw [List.cons_append, List.flatMap_cons, holds_append] at holds
      rcases wordAt_of_holds holds.1 with ⟨inside, word⟩
      have rest : memory.textLength address none (consumed + 2) =
          .ok (consumed + 2 + 2 * (before.length + 1)) := by
        apply ih
        · intro later member
          exact unmarked later (List.mem_cons_of_mem _ member)
        · exact holds.2
      rw [textLength, word, unmarked first List.mem_cons_self, if_neg (by simp),
        if_neg (by omega), if_neg (by simp), rest, List.length_cons]
      congr 1
      omega

theorem codesIn_of_holds {words : List UInt16}
    (holds : memory.Holds address (words.flatMap Word.bytes)) :
    memory.codesIn address (2 * words.length) = unpackCodes words := by
  have counted : 2 * words.length / 2 = words.length := by omega
  rw [codesIn, counted, unpackCodes]
  clear counted
  induction words generalizing address with
  | nil => rfl
  | cons word words ih =>
      rw [List.flatMap_cons, holds_append] at holds
      have rest := ih holds.2
      rw [List.length_cons, List.range_succ_eq_map, List.flatMap_cons, List.flatMap_cons,
        List.flatMap_map, Nat.mul_zero, Nat.add_zero, (wordAt_of_holds holds.1).2, ← rest]
      have shifted : ∀ index, address + 2 * (index + 1) =
          address + (Word.bytes word).length + 2 * index := by
        intro index
        simp only [Word.bytes, List.length_cons, List.length_nil]
        omega
      simp only [Nat.succ_eq_add_one, shifted]

/-- Reading packed text gives all of its codes and stops after its last word. -/
theorem readCodes_of_holds {text : PackedText} (holds : memory.Holds address text.bytes) :
    memory.readCodes address none = .ok (text.bytes.length, text.codes) := by
  have length : memory.textLength address none 0 = .ok (2 * text.words.length) := by
    rw [textLength_of_holds text.unmarked text.marked holds]
    simp [PackedText.words]
  simp only [readCodes, length, bind, Except.bind, pure, Except.pure, text.length_bytes]
  rw [codesIn_of_holds holds, PackedText.codes]

end Memory

end ZMachine
