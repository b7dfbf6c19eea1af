import ZMachine.Proofs.Machine.Run
import ZMachine.Proofs.Zscii.RoundTrip

/-!
# Characters and their codes

A codec gives characters codes and codes characters. The table of a story may have up to 255
entries, of which the codes up to 251 reach the first 97. The characters behind them are given codes
all the same, but these codes stand for a question mark. All other characters come back from their
codes.
-/

namespace ZMachine

/-- Answers to a list of questions are as many as the questions. -/
theorem length_of_mapM {α β : Type} {ask : α → Except Fault β} {questions : List α}
    {answers : List β} (answered : questions.mapM ask = .ok answers) :
    answers.length = questions.length := by
  induction questions generalizing answers with
  | nil =>
      cases answered
      rfl
  | cons question questions ih =>
      rw [List.mapM_cons] at answered
      rcases query_bind_eq_ok.mp answered with ⟨first, _, more⟩
      rcases query_bind_eq_ok.mp more with ⟨rest, later, done⟩
      cases done
      rw [List.length_cons, List.length_cons, ih later]

namespace Codec

variable {memory : Memory} {codec : Codec} {c : Char} {zscii : Nat}

theorem length_of_readUnicodeTable {address : Nat} {unicode : List Char}
    (read : readUnicodeTable memory address = .ok unicode) :
    unicode.length = (memory.bytes.byteAt address).toNat := by
  rcases query_bind_eq_ok.mp read with ⟨count, counted, entries⟩
  rw [length_of_mapM entries, List.length_range, (Memory.fetchByte_eq_ok.mp counted).2]

theorem unicode_of_withAlphabets {address : Nat} {plain : Codec}
    (read : plain.withAlphabets memory address = .ok codec) : codec.unicode = plain.unicode := by
  rcases query_bind_eq_ok.mp read with ⟨codes, _, done⟩
  cases done
  rfl

/-- Without a table of its own a story has the default one, which has 69 entries. -/
theorem length_unicode (read : ofMemory memory = .ok codec) :
    codec.unicode.length =
      if memory.header.unicodeTable = 0 then 69
      else (memory.bytes.byteAt memory.header.unicodeTable).toNat := by
  unfold ofMemory at read
  split at read <;> dsimp only at read <;> split at read
  · rename_i none
    rw [if_pos none, unicode_of_withAlphabets read]
    rfl
  · rename_i some
    rcases query_bind_eq_ok.mp read with ⟨unicode, found, alphabets⟩
    rw [if_neg some, unicode_of_withAlphabets alphabets, ← length_of_readUnicodeTable found]
  · rename_i none
    cases read
    rw [if_pos none]
    rfl
  · rename_i some
    rcases query_bind_eq_ok.mp read with ⟨unicode, found, done⟩
    cases done
    rw [if_neg some, ← length_of_readUnicodeTable found]

theorem charOfZscii_of_lt (beyond : 251 < zscii) : codec.charOfZscii zscii = some '?' := by
  have base : unicodeBase = 155 := rfl
  rw [charOfZscii, if_neg (by omega), if_neg (by omega), if_neg (by omega), if_neg (by omega),
    if_neg (by omega), if_neg (by omega)]

/-- The first entry of a character counts. -/
theorem lt_iff_mem_take {place count : Nat} (found : codec.unicode.idxOf? c = some place) :
    place < count ↔ c ∈ codec.unicode.take count := by
  obtain ⟨inside, same, first⟩ := List.idxOf?_eq_some_iff.mp found
  constructor
  · intro within
    exact List.mem_take_iff_getElem.mpr ⟨place, by omega, same⟩
  · intro member
    obtain ⟨other, otherInside, holds⟩ := List.mem_take_iff_getElem.mp member
    apply Nat.lt_of_not_le
    intro behind
    exact first other (by omega) holds

/-- A character comes back from its code exactly if the code is at most 251: it is the line end, a
printed character of its own, or one of the first 97 of the table. -/
theorem charOfZscii_zsciiOfChar_iff (read : ofMemory memory = .ok codec)
    (has : codec.zsciiOfChar c = some zscii) :
    (codec.charOfZscii zscii = some c ↔ zscii ≤ 251) ∧
    (zscii ≤ 251 ↔ c = '\n' ∨ 32 ≤ c.toNat ∧ c.toNat ≤ 126 ∨ c ∈ codec.unicode.take 97) ∧
    (251 < zscii → codec.charOfZscii zscii = some '?' ∧ memory.header.unicodeTable ≠ 0 ∧
      97 < (memory.bytes.byteAt memory.header.unicodeTable).toNat) := by
  have base : unicodeBase = 155 := rfl
  refine ⟨⟨fun back => ?_, charOfZscii_of_le has⟩, ?_, fun beyond => ⟨charOfZscii_of_lt beyond, ?_⟩⟩
  · apply Nat.le_of_not_lt
    intro beyond
    rw [charOfZscii_of_lt beyond, Option.some.injEq] at back
    subst back
    rw [zsciiOfChar, if_neg (by decide), if_pos (by decide)] at has
    cases has
    exact absurd beyond (by decide)
  · rcases zsciiOfChar_cases has with ⟨rfl, rfl⟩ | ⟨from32, to126, rfl⟩ |
      ⟨notNewline, notPrinted, place, found, rfl⟩
    · simp
    · exact iff_of_true (by omega) (Or.inr (Or.inl ⟨from32, to126⟩))
    · simp only [notNewline, notPrinted, false_or, ← lt_iff_mem_take found]
      omega
  · rcases zsciiOfChar_cases has with ⟨_, rfl⟩ | ⟨_, to126, rfl⟩ | ⟨_, _, place, found, rfl⟩
    · omega
    · omega
    · obtain ⟨inside, _⟩ := List.idxOf?_eq_some_iff.mp found
      rw [length_unicode read] at inside
      split at inside
      · omega
      · exact ⟨‹_›, by omega⟩

/-- A story with a table of 98 characters, the capital omega of the Cyrillic alphabet before the
small one at its end. -/
def crowdedStory : Image :=
  let table := 98 :: (List.range 98).flatMap fun index => [4, UInt8.ofNat index]
  let start := (((Image.sample 5 []).setWord 0x36 64).setWord 64 3).setWord 70 80
  (start.toList ++ table).toArray

theorem codes_crowdedStory :
    ∃ memory codec, Memory.load {} crowdedStory = .ok memory ∧ ofMemory memory = .ok codec ∧
      codec.zsciiOfChar 'Ѡ' = some 251 ∧ codec.zsciiOfChar 'ѡ' = some 252 := by
  have ran : (Memory.load {} crowdedStory).toOption.bind (fun memory =>
      (ofMemory memory).toOption.map fun codec =>
        (codec.zsciiOfChar 'Ѡ', codec.zsciiOfChar 'ѡ')) = some (some 251, some 252) := by
    decide +kernel
  rcases Option.bind_eq_some_iff.mp ran with ⟨memory, loaded, more⟩
  rcases Option.map_eq_some_iff.mp more with ⟨codec, read, codes⟩
  simp only [Prod.mk.injEq] at codes
  exact ⟨memory, codec, eq_ok_of_toOption loaded, eq_ok_of_toOption read, codes⟩

/-- The last character within reach comes back from its code. -/
theorem charOfZscii_zsciiOfChar_capital :
    ∃ memory codec, Memory.load {} crowdedStory = .ok memory ∧ ofMemory memory = .ok codec ∧
      codec.zsciiOfChar 'Ѡ' = some 251 ∧ codec.charOfZscii 251 = some 'Ѡ' := by
  rcases codes_crowdedStory with ⟨memory, codec, loaded, read, has, _⟩
  exact ⟨memory, codec, loaded, read, has,
    (charOfZscii_zsciiOfChar_iff read has).1.mpr (by decide)⟩

/-- The character behind it is given a code that stands for a question mark. -/
theorem charOfZscii_zsciiOfChar_small :
    ∃ memory codec, Memory.load {} crowdedStory = .ok memory ∧ ofMemory memory = .ok codec ∧
      codec.zsciiOfChar 'ѡ' = some 252 ∧ codec.charOfZscii 252 ≠ some 'ѡ' := by
  rcases codes_crowdedStory with ⟨memory, codec, loaded, read, _, has⟩
  refine ⟨memory, codec, loaded, read, has, ?_⟩
  rw [charOfZscii_of_lt (by decide)]
  decide

end Codec

end ZMachine
