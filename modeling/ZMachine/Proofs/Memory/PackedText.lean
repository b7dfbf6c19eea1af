import Mathlib.Tactic.Ring
import ZMachine.Proofs.Memory.Addressing
import ZMachine.Proofs.Zscii.Packing

/-!
# Packed text in memory

A word of packed text is a mark and three codes, one after the other. Nothing but the words
themselves tells how long a text in memory is. It is read word by word to the first marked word, or
to a limit, and `Memory.TextEnds` says where that is. If neither is found before the file is over,
`Memory.TextRunsOut`, and reading fails. One of the two is always the case.
-/

namespace ZMachine

namespace Bits

/-- The lowest bits of a number, the most significant one first. -/
def ofNat : (width number : Nat) → List Bool
  | 0, _ => []
  | width + 1, number => number.testBit width :: ofNat width number

/-- The number that bits stand for, the most significant one first. -/
def toNat (bits : List Bool) : Nat :=
  bits.foldl (fun number bit => 2 * number + bit.toNat) 0

/-- The numbers in successive fields of some widths. -/
def fields : (widths : List Nat) → (bits : List Bool) → List Nat
  | [], _ => []
  | width :: widths, bits => toNat (bits.take width) :: fields widths (bits.drop width)

variable {width number : Nat}

@[simp]
theorem length_ofNat : (ofNat width number).length = width := by
  induction width with
  | zero => rfl
  | succ width ih => simp [ofNat, ih]

theorem ofNat_add (high low number : Nat) :
    ofNat (high + low) number = ofNat high (number / 2 ^ low) ++ ofNat low number := by
  induction high with
  | zero => simp [ofNat]
  | succ high ih =>
      rw [Nat.succ_add]
      simp [ofNat, ih, Nat.testBit_div_two_pow]

theorem ofNat_congr {other : Nat} (same : number % 2 ^ width = other % 2 ^ width) :
    ofNat width number = ofNat width other := by
  induction width with
  | zero => rfl
  | succ width ih =>
      have bit := congrArg (Nat.testBit · width) same
      have rest := congrArg (· % 2 ^ width) same
      simp only [Nat.testBit_mod_two_pow, Nat.lt_succ_self, decide_true, Bool.true_and] at bit
      simp only [Nat.mod_mod_of_dvd _ (Nat.pow_dvd_pow 2 (Nat.le_succ width))] at rest
      simp only [ofNat, bit, ih rest]

theorem foldl_ofNat (begun : Nat) :
    (ofNat width number).foldl (fun number bit => 2 * number + bit.toNat) begun =
      begun * 2 ^ width + number % 2 ^ width := by
  induction width generalizing begun with
  | zero => simp [ofNat, Nat.mod_one]
  | succ width ih =>
      simp only [ofNat, List.foldl_cons, ih, Nat.toNat_testBit, Nat.mod_pow_succ]
      ring

theorem toNat_ofNat : toNat (ofNat width number) = number % 2 ^ width := by
  simp [toNat, foldl_ofNat]

theorem fields_cons (rest : List Bool) (widths : List Nat) :
    fields (width :: widths) (ofNat width number ++ rest) =
      number % 2 ^ width :: fields widths rest := by
  have front : (ofNat width number ++ rest).take width = ofNat width number := by simp
  have back : (ofNat width number ++ rest).drop width = rest := by simp
  rw [fields, front, back, toNat_ofNat]

end Bits

/-- The mark and the codes of a word are its bits one after the other, the most significant first.
-/
theorem Word.fields_bytes (word : UInt16) :
    Bits.fields [1, 5, 5, 5] ((bytes word).flatMap fun byte => Bits.ofNat 8 byte.toNat) =
      (isLast word).toNat :: codes word := by
  have small := word.toNat_lt
  have joined : (bytes word).flatMap (fun byte => Bits.ofNat 8 byte.toNat) =
      Bits.ofNat (8 + 8) word.toNat := by
    rw [Bits.ofNat_add]
    simp only [bytes, List.flatMap_cons, List.flatMap_nil, List.append_nil, high, low,
      UInt8.toNat_ofNat']
    congr 1
    · exact Bits.ofNat_congr (by omega)
    · exact Bits.ofNat_congr (by omega)
  have divided : Bits.ofNat (8 + 8) word.toNat =
      Bits.ofNat 1 (word.toNat / 2 ^ 15) ++ (Bits.ofNat 5 (word.toNat / 2 ^ 10) ++
        (Bits.ofNat 5 (word.toNat / 2 ^ 5) ++ (Bits.ofNat 5 word.toNat ++ []))) := by
    rw [List.append_nil, ← Bits.ofNat_add, ← Bits.ofNat_add, ← Bits.ofNat_add]
  have mark : word.toNat / 2 ^ 15 % 2 ^ 1 = (isLast word).toNat := by
    unfold isLast
    by_cases marked : 32768 ≤ word.toNat
    · simp only [marked, decide_true, Bool.toNat_true]
      omega
    · simp only [marked, decide_false, Bool.toNat_false]
      omega
  rw [joined, divided, Bits.fields_cons, Bits.fields_cons, Bits.fields_cons, Bits.fields_cons, mark]
  rfl

namespace Memory

/-- A number of words from an address on. -/
def wordsFrom (memory : Memory) (address count : Nat) : List UInt16 :=
  (List.range count).map fun index => memory.bytes.wordAt (address + 2 * index)

/-- The text at an address ends after a number of words, all of which lie in the file: none before
the last is marked, the limit is not reached before the last, and the last is marked or reaches it.
-/
structure TextEnds (memory : Memory) (address : Nat) (limit : Option Nat) (count : Nat) : Prop where
  inside : ∀ index < count, address + 2 * index + 2 ≤ memory.bytes.size
  unmarked : ∀ index, index + 1 < count →
    Word.isLast (memory.bytes.wordAt (address + 2 * index)) = false
  below : ∀ bound ∈ limit, ∀ index < count, 2 * index < bound
  stops : (∃ index, index + 1 = count ∧
      Word.isLast (memory.bytes.wordAt (address + 2 * index)) = true) ∨
    ∃ bound ∈ limit, bound ≤ 2 * count

/-- The file ends before the text at an address: no word in the file is marked, and no number of
words in the file reaches the limit. -/
structure TextRunsOut (memory : Memory) (address : Nat) (limit : Option Nat) : Prop where
  unmarked : ∀ index, address + 2 * index + 2 ≤ memory.bytes.size →
    Word.isLast (memory.bytes.wordAt (address + 2 * index)) = false
  below : ∀ bound ∈ limit, ∀ count,
    (∀ index < count, address + 2 * index + 2 ≤ memory.bytes.size) → 2 * count < bound

/-- A number of words at an address lie in the file, and the text does not end with any of them. -/
structure TextGoesOn (memory : Memory) (address : Nat) (limit : Option Nat) (count : Nat) :
    Prop where
  inside : ∀ index < count, address + 2 * index + 2 ≤ memory.bytes.size
  unmarked : ∀ index < count, Word.isLast (memory.bytes.wordAt (address + 2 * index)) = false
  below : ∀ bound ∈ limit, ∀ index < count, 2 * index < bound

variable {memory : Memory} {address count length : Nat} {limit : Option Nat} {fault : Fault}

theorem textGoesOn_zero : memory.TextGoesOn address limit 0 where
  inside := by simp
  unmarked := by simp
  below := by simp

theorem TextGoesOn.succ (goes : memory.TextGoesOn address limit count)
    (inside : address + 2 * count + 2 ≤ memory.bytes.size)
    (unmarked : Word.isLast (memory.bytes.wordAt (address + 2 * count)) = false)
    (below : ∀ bound ∈ limit, 2 * count < bound) :
    memory.TextGoesOn address limit (count + 1) where
  inside := Nat.forall_lt_succ_right.mpr ⟨goes.inside, inside⟩
  unmarked := Nat.forall_lt_succ_right.mpr ⟨goes.unmarked, unmarked⟩
  below := fun bound member =>
    Nat.forall_lt_succ_right.mpr ⟨goes.below bound member, below bound member⟩

theorem limit_reached {consumed : Nat} :
    limit.any (· ≤ consumed) = true ↔ ∃ bound ∈ limit, bound ≤ consumed := by
  cases limit <;> simp

/-- Reading goes on as long as the text does, and stops where it ends or where the file does. -/
theorem textLength_cases {count : Nat} (goes : memory.TextGoesOn address limit count) :
    (∃ total, memory.textLength address limit (2 * count) = .ok (2 * total) ∧
        memory.TextEnds address limit total) ∨
      (∃ outside, memory.textLength address limit (2 * count) = .error (.outsideStory outside)) ∧
        memory.TextRunsOut address limit := by
  by_cases reached : limit.any (· ≤ 2 * count) = true
  · refine Or.inl ⟨count, by rw [textLength, if_pos reached], goes.inside, ?_, goes.below,
      Or.inr (limit_reached.mp reached)⟩
    exact fun index before => goes.unmarked index (by omega)
  have below : ∀ bound ∈ limit, 2 * count < bound := by
    simpa [limit_reached] using reached
  by_cases short : memory.bytes.size < address + 2 * count + 2
  · refine Or.inr ⟨⟨_, by rw [textLength, if_neg reached, if_pos short]⟩, ?_, ?_⟩
    · exact fun index inside => goes.unmarked index (by omega)
    · intro bound member other inside
      have few : other ≤ count := by
        by_contra more
        have := inside count (by omega)
        omega
      have := below bound member
      omega
  have inside : address + 2 * count + 2 ≤ memory.bytes.size := by omega
  cases marked : Word.isLast (memory.bytes.wordAt (address + 2 * count)) with
  | true =>
      refine Or.inl ⟨count + 1, ?_, ?_, ?_, ?_, Or.inl ⟨count, rfl, marked⟩⟩
      · rw [textLength, if_neg reached, if_neg short, if_pos marked]
        rfl
      · exact Nat.forall_lt_succ_right.mpr ⟨goes.inside, inside⟩
      · exact fun index before => goes.unmarked index (by omega)
      · exact fun bound member =>
          Nat.forall_lt_succ_right.mpr ⟨goes.below bound member, below bound member⟩
  | false =>
      have step : memory.textLength address limit (2 * count) =
          memory.textLength address limit (2 * (count + 1)) := by
        rw [textLength, if_neg reached, if_neg short, marked]
        rfl
      rw [step]
      exact textLength_cases (goes.succ inside marked below)
termination_by memory.bytes.size - (address + 2 * count)

/-- A text ends in one place: the longer of two would go on behind the end of the shorter one. -/
theorem TextEnds.unique {other : Nat} (ends : memory.TextEnds address limit count)
    (again : memory.TextEnds address limit other) : count = other := by
  have notBefore : ∀ {first second}, memory.TextEnds address limit first →
      memory.TextEnds address limit second → ¬ first < second := by
    intro first second ends again shorter
    rcases ends.stops with ⟨index, last, marked⟩ | ⟨bound, member, reached⟩
    · have unmarked := again.unmarked index (by omega)
      simp [marked] at unmarked
    · have := again.below bound member first shorter
      omega
  have := notBefore ends again
  have := notBefore again ends
  omega

theorem TextEnds.not_runsOut (ends : memory.TextEnds address limit count) :
    ¬ memory.TextRunsOut address limit := by
  intro out
  rcases ends.stops with ⟨index, last, marked⟩ | ⟨bound, member, reached⟩
  · have unmarked := out.unmarked index (ends.inside index (by omega))
    simp [marked] at unmarked
  · have := out.below bound member count ends.inside
    omega

theorem codesIn_eq :
    memory.codesIn address (2 * count) = unpackCodes (memory.wordsFrom address count) := by
  simp [codesIn, unpackCodes, wordsFrom, List.flatMap_map]

theorem length_unpackCodes (words : List UInt16) :
    (unpackCodes words).length = 3 * words.length := by
  induction words with
  | nil => rfl
  | cons word words ih =>
      rw [unpackCodes, List.flatMap_cons, ← unpackCodes]
      simp only [List.length_append, ih, Word.codes, List.length_cons, List.length_nil]
      omega

theorem readCodes_of_ends (ends : memory.TextEnds address limit count) :
    memory.readCodes address limit =
      .ok (2 * count, unpackCodes (memory.wordsFrom address count)) := by
  rcases textLength_cases textGoesOn_zero with ⟨total, found, again⟩ | ⟨_, out⟩
  · obtain rfl := ends.unique again
    rw [Nat.mul_zero] at found
    simp only [readCodes, found, bind, Except.bind, pure, Except.pure, codesIn_eq]
  · exact absurd out ends.not_runsOut

theorem readCodes_of_runsOut (out : memory.TextRunsOut address limit) :
    ∃ outside, memory.readCodes address limit = .error (.outsideStory outside) := by
  rcases textLength_cases textGoesOn_zero with ⟨total, _, ends⟩ | ⟨⟨outside, failed⟩, _⟩
  · exact absurd out ends.not_runsOut
  · rw [Nat.mul_zero] at failed
    exact ⟨outside, by simp only [readCodes, failed, bind, Except.bind]⟩

theorem textEnds_or_runsOut (memory : Memory) (address : Nat) (limit : Option Nat) :
    (∃ count, memory.TextEnds address limit count) ∨ memory.TextRunsOut address limit := by
  rcases textLength_cases textGoesOn_zero with ⟨total, _, ends⟩ | ⟨_, out⟩
  · exact Or.inl ⟨total, ends⟩
  · exact Or.inr out

theorem readCodes_eq_ok {found : Nat × List Nat} :
    memory.readCodes address limit = .ok found ↔
      ∃ count, memory.TextEnds address limit count ∧
        found = (2 * count, unpackCodes (memory.wordsFrom address count)) := by
  constructor
  · intro read
    rcases memory.textEnds_or_runsOut address limit with ⟨count, ends⟩ | out
    · rw [readCodes_of_ends ends] at read
      cases read
      exact ⟨count, ends, rfl⟩
    · rcases readCodes_of_runsOut out with ⟨outside, failed⟩
      rw [failed] at read
      cases read
  · rintro ⟨count, ends, rfl⟩
    exact readCodes_of_ends ends

theorem readCodes_eq_error :
    (∃ fault, memory.readCodes address limit = .error fault) ↔
      memory.TextRunsOut address limit := by
  constructor
  · rintro ⟨fault, failed⟩
    rcases memory.textEnds_or_runsOut address limit with ⟨count, ends⟩ | out
    · rw [readCodes_of_ends ends] at failed
      cases failed
    · exact out
  · intro out
    rcases readCodes_of_runsOut out with ⟨outside, failed⟩
    exact ⟨_, failed⟩

/-- Packed codes are read back from wherever their words lie in memory, filled up as they were for
packing, and words with the one mark that they should have are packed again from their codes.

Whatever lies in memory, reading ends: at the first word that is marked or reaches the limit, with
three codes for each word up to there, or else with a fault, because the file has no such word. The
mark and the codes of a word are its bits in their order, the most significant first. -/
theorem packed_text_reads_back (codes : List Nat) (text : PackedText) (memory : Memory)
    (address : Nat) (limit : Option Nat) :
    (codes ≠ [] → (∀ code ∈ codes, code < 32) →
      memory.Holds address ((packCodes codes).flatMap Word.bytes) →
      memory.readCodes address none = .ok (2 * (packCodes codes).length, filledUp codes) ∧
        unpackCodes (packCodes codes) = filledUp codes ∧ (filledUp codes).length % 3 = 0) ∧
    packCodes (unpackCodes text.words) = text.words ∧
    (∀ consumed found, memory.readCodes address limit = .ok (consumed, found) ↔
      ∃ count, memory.TextEnds address limit count ∧ consumed = 2 * count ∧
        found = unpackCodes (memory.wordsFrom address count)) ∧
    (∀ consumed found, memory.readCodes address limit = .ok (consumed, found) →
      found.length = 3 * consumed / 2 ∧ ∀ code ∈ found, code < 32) ∧
    ((∃ fault, memory.readCodes address limit = .error fault) ↔
      memory.TextRunsOut address limit) ∧
    ∀ word, Bits.fields [1, 5, 5, 5]
        ((Word.bytes word).flatMap fun byte => Bits.ofNat 8 byte.toNat) =
      (Word.isLast word).toNat :: Word.codes word := by
  refine ⟨?_, text.packCodes_codes, ?_, ?_, readCodes_eq_error, Word.fields_bytes⟩
  · intro some small holds
    rcases exists_packedText some with ⟨packed, words⟩
    have unpacked := unpackCodes_packCodes small
    have read : memory.readCodes address none = .ok (packed.bytes.length, packed.codes) := by
      apply readCodes_of_holds
      rwa [PackedText.bytes, words]
    rw [packed.length_bytes, PackedText.codes, words, unpacked] at read
    exact ⟨read, unpacked, length_filledUp_mod codes⟩
  · intro consumed found
    simp only [readCodes_eq_ok, Prod.mk.injEq]
  · intro consumed found read
    refine ⟨?_, fun code => lt_of_readCodes read⟩
    rcases readCodes_eq_ok.mp read with ⟨count, _, same⟩
    cases same
    rw [length_unpackCodes, wordsFrom, List.length_map, List.length_range]
    omega

/-- Four codes packed at an odd address. The file ends half way through the word after them. -/
def oddText : Memory :=
  let image : Image := ([0xFF] ++ (packCodes [7, 31, 0, 5]).flatMap Word.bytes ++ [0x12]).toArray
  { bytes := image, pristine := image, header := Header.read image, pc := 0 }

/-- The codes are read to the mark, to a limit in the middle of a word, and not from the last byte.
-/
theorem packed_text_reads_back_odd :
    oddText.readCodes 1 none = .ok (4, [7, 31, 0, 5, 5, 5]) ∧
      oddText.readCodes 1 (some 1) = .ok (2, [7, 31, 0]) ∧
      (∃ fault, oddText.readCodes 5 none = .error fault) ∧
      packCodes (unpackCodes [0x1FE0, 0x94A5]) = [0x1FE0, 0x94A5] := by
  let text : PackedText := ⟨[0x1FE0], 0x94A5, by simp [Word.isLast], rfl⟩
  have laws := packed_text_reads_back [7, 31, 0, 5] text oddText
  have held : oddText.Holds 1 ((packCodes [7, 31, 0, 5]).flatMap Word.bytes) := by
    have whole : oddText.Holds 0
        ([0xFF] ++ (packCodes [7, 31, 0, 5]).flatMap Word.bytes ++ [0x12]) := by
      intro index byte inside
      simpa [oddText] using inside
    exact (holds_append.mp (holds_append.mp whole).1).2
  have cut : oddText.TextEnds 1 (some 1) 1 := by
    refine ⟨by decide, ?_, by simp, Or.inr ⟨1, rfl, by decide⟩⟩
    intro index before
    omega
  have out : oddText.TextRunsOut 5 none := by
    refine ⟨?_, by simp⟩
    intro index inside
    have size : oddText.bytes.size = 6 := by decide
    omega
  refine ⟨?_, ?_, (laws 5 none).2.2.2.2.1.mpr out, (laws 0 none).2.1⟩
  · exact ((laws 1 none).1 (by decide) (by decide) held).1
  · exact ((laws 1 (some 1)).2.2.1 2 [7, 31, 0]).mpr ⟨1, cut, rfl, by decide⟩

end Memory

end ZMachine
