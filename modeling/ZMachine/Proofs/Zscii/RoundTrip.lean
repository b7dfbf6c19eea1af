import ZMachine.Proofs.Action
import ZMachine.Proofs.Zscii.Packing
import ZMachine.Zscii.Decode

/-!
# Texts written and read back

Encoding a text and decoding its codes gives the text in small letters, with question marks for the
characters that the codec cannot spell. A packed dictionary word is cut off at a fixed number of
codes, and then decodes to the beginning of that text: a character whose codes are cut off leaves no
trace.

Encoder and decoder are compared through `Codec.Spells`, which lists the ways in which codes stand
for a character. The encoder produces such codes, and the decoder gives their character back.
-/

namespace ZMachine

namespace Codec

/-- The ways in which codes stand for a character, in a codec that is not locked in another alphabet
than the small letters. -/
inductive Spells (codec : Codec) (c : Char) : List Nat → Prop
  | space (blank : c = ' ') : codec.Spells c [0]
  | small {code : Nat} (above : 6 ≤ code) (below : code < 32) (stands : codec.letter 0 code = c) :
      codec.Spells c [code]
  | capital {code : Nat} (above : 6 ≤ code) (below : code < 32)
      (stands : codec.letter 1 code = c) : codec.Spells c [codec.shifts.1, code]
  | sign {code : Nat} (above : 7 ≤ code) (below : code < 32) (stands : codec.letter 2 code = c) :
      codec.Spells c [codec.shifts.2, code]
  | escape {high low : Nat} (high_lt : high < 32) (low_lt : low < 32)
      (stands : codec.charOfZscii (high * 32 + low) = some c) :
      codec.Spells c [codec.shifts.2, 6, high, low]

section Decoding

variable {codec : Codec} {expand : Expansion} {text : String} {c : Char} {codes rest : List Nat}

theorem decodeAfter_letter {locked current code : Nat} (above : 6 ≤ code)
    (plain : ¬(code = 6 ∧ current = 2)) :
    codec.decodeAfter expand locked current text (code :: rest) =
      codec.decodeAfter expand locked locked (text.push (codec.letter current code)) rest := by
  rw [decodeAfter.eq_def]
  dsimp only
  repeat rw [if_neg (by omega)]

theorem decodeAfter_shifts :
    codec.decodeAfter expand 0 0 text (codec.shifts.1 :: rest) =
        codec.decodeAfter expand 0 1 text rest ∧
      codec.decodeAfter expand 0 0 text (codec.shifts.2 :: rest) =
        codec.decodeAfter expand 0 2 text rest := by
  by_cases early : codec.version < 3
  · have later : ¬3 ≤ codec.version := by omega
    rw [shifts, if_pos early, decodeAfter.eq_def, decodeAfter.eq_def _ _ _ _ _ (_ :: _)]
    simp [later]
  · rw [shifts, if_neg early, decodeAfter.eq_def, decodeAfter.eq_def _ _ _ _ _ (_ :: _)]
    simp [early]

/-- The decoder gives back the character that codes stand for, and goes on in small letters. -/
theorem decodeAfter_of_spells (spells : codec.Spells c codes) :
    codec.decodeAfter expand 0 0 text (codes ++ rest) =
      codec.decodeAfter expand 0 0 (text.push c) rest := by
  cases spells with
  | space blank =>
      rw [List.singleton_append, decodeAfter.eq_def, blank]
      simp
  | small above below stands =>
      rw [List.singleton_append, decodeAfter_letter above (by omega), stands]
  | capital above below stands =>
      rw [List.cons_append, decodeAfter_shifts.1, List.singleton_append,
        decodeAfter_letter above (by omega), stands]
  | sign above below stands =>
      rw [List.cons_append, decodeAfter_shifts.2, List.singleton_append,
        decodeAfter_letter (by omega) (by omega), stands]
  | escape high_lt low_lt stands =>
      rw [List.cons_append, decodeAfter_shifts.2]
      simp [decodeAfter, stands]

/-- Codes that are cut off before the last one print nothing. -/
theorem decodeAfter_of_spells_take (spells : codec.Spells c codes) {count : Nat}
    (short : count < codes.length) :
    codec.decodeAfter expand 0 0 text (codes.take count) = .ok ⟨text, 0⟩ := by
  have shifted (number : Nat) : codec.decodeAfter expand 0 number text [] = .ok ⟨text, 0⟩ := by
    rw [decodeAfter]
  cases spells with
  | space _ | small _ _ _ =>
      obtain rfl : count = 0 := by simpa using short
      exact shifted 0
  | capital _ _ _ =>
      match count, short with
      | 0, _ => exact shifted 0
      | 1, _ => exact decodeAfter_shifts.1.trans (shifted 1)
  | sign _ _ _ =>
      match count, short with
      | 0, _ => exact shifted 0
      | 1, _ => exact decodeAfter_shifts.2.trans (shifted 2)
  | escape _ _ _ =>
      match count, short with
      | 0, _ => exact shifted 0
      | 1, _ => exact decodeAfter_shifts.2.trans (shifted 2)
      | 2, _ =>
          apply decodeAfter_shifts.2.trans
          simp [decodeAfter]
      | 3, _ =>
          apply decodeAfter_shifts.2.trans
          simp [decodeAfter]

theorem decodeAfter_padding (codec : Codec) (expand : Expansion) (locked current : Nat)
    (text : String) (count : Nat) :
    ∃ alphabet, codec.decodeAfter expand locked current text (List.replicate count padCode) =
      .ok ⟨text, alphabet⟩ := by
  induction count generalizing locked current with
  | zero => exact ⟨locked, by rw [List.replicate_zero, decodeAfter.eq_def]⟩
  | succ count ih =>
      rw [List.replicate_succ, decodeAfter.eq_def]
      by_cases early : codec.version < 3
      · simpa [padCode, early] using ih ((locked + 2) % 3) ((locked + 2) % 3)
      · simpa [padCode, early] using ih locked 2

theorem code_lt_of_spells (spells : codec.Spells c codes) : ∀ code ∈ codes, code < 32 := by
  have shifts : codec.shifts.1 < 32 ∧ codec.shifts.2 < 32 := by
    rw [Codec.shifts]
    split <;> decide
  cases spells <;> simp <;> omega

end Decoding

/-- Whether packed text can stand for a character. -/
def Knows (codec : Codec) (c : Char) : Prop :=
  c = ' ' ∨ c ∈ codec.small ∨ c ∈ codec.capital ∨ c ∈ codec.signs ∨ (codec.zsciiOfChar c).isSome

instance (codec : Codec) (c : Char) : Decidable (codec.Knows c) :=
  inferInstanceAs (Decidable (_ ∨ _))

/-- The character itself if packed text can stand for it, and a question mark if not. -/
def knownOrMark (codec : Codec) (c : Char) : Char :=
  if codec.Knows c then c else '?'

/-- What is left of a text in a dictionary word of any length: small letters, with question marks
for unknown characters. -/
def respelled (codec : Codec) (text : String) : List Char :=
  (text.toList.flatMap Text.lowerChar).map codec.knownOrMark

section Encoding

variable {codec : Codec} {c : Char}

theorem getElem?_of_idxOf? {letters : List Char} {place : Nat}
    (found : letters.idxOf? c = some place) : letters[place]? = some c := by
  obtain ⟨inside, same, _⟩ := List.idxOf?_eq_some_iff.mp found
  rw [List.getElem?_eq_getElem inside, same]

theorem letter_of_getElem? (number : Nat) {place : Nat}
    (stands : (codec.alphabet number).toList[place]? = some c) :
    place + 6 < 32 ∧ codec.letter number (place + 6) = c := by
  obtain ⟨inside, _⟩ := List.getElem?_eq_some_iff.mp stands
  rw [Vector.length_toList] at inside
  rw [Vector.getElem?_toList] at stands
  exact ⟨by omega, by simp [letter, stands]⟩

/-- A code comes from the line end, from a printed character of its own or from the table. -/
theorem zsciiOfChar_cases {zscii : Nat} (has : codec.zsciiOfChar c = some zscii) :
    c = '\n' ∧ zscii = 13 ∨ 32 ≤ c.toNat ∧ c.toNat ≤ 126 ∧ zscii = c.toNat ∨
      c ≠ '\n' ∧ ¬ (32 ≤ c.toNat ∧ c.toNat ≤ 126) ∧
        ∃ place, codec.unicode.idxOf? c = some place ∧ zscii = unicodeBase + place := by
  simp only [zsciiOfChar] at has
  split at has
  case isTrue newline =>
      cases has
      exact Or.inl ⟨newline, rfl⟩
  case isFalse notNewline =>
      split at has
      case isTrue printed =>
          cases has
          exact Or.inr (Or.inl ⟨printed.1, printed.2, rfl⟩)
      case isFalse notPrinted =>
          obtain ⟨place, found, rfl⟩ := Option.map_eq_some_iff.mp has
          exact Or.inr (Or.inr ⟨notNewline, notPrinted, place, found, rfl⟩)

/-- Codes from 252 on have no character of their own, but the table may give them to characters. -/
theorem charOfZscii_of_le {zscii : Nat} (has : codec.zsciiOfChar c = some zscii)
    (low : zscii ≤ 251) : codec.charOfZscii zscii = some c := by
  rcases zsciiOfChar_cases has with ⟨rfl, rfl⟩ | ⟨from32, to126, rfl⟩ | ⟨_, _, place, found, rfl⟩
  · simp [charOfZscii]
  · rw [charOfZscii, if_neg (by omega), if_neg (by omega), if_neg (by omega), if_neg (by omega),
      if_pos ⟨from32, to126⟩, Char.ofNat_toNat]
  · have base : unicodeBase = 155 := rfl
    rw [charOfZscii, if_neg (by omega), if_neg (by omega), if_neg (by omega), if_neg (by omega),
      if_neg (by omega), if_pos (by omega), Nat.add_sub_cancel_left, getElem?_of_idxOf? found,
      Option.getD_some]

/-- A table of at most 97 characters gives out no code above 251. -/
theorem zsciiOfChar_bounds (fits : codec.unicode.length ≤ 97) {zscii : Nat}
    (has : codec.zsciiOfChar c = some zscii) : 0 < zscii ∧ zscii ≤ 251 := by
  rcases zsciiOfChar_cases has with ⟨_, rfl⟩ | ⟨_, to126, rfl⟩ | ⟨_, _, place, found, rfl⟩
  · decide
  · omega
  · obtain ⟨inside, _⟩ := List.idxOf?_eq_some_iff.mp found
    have base : unicodeBase = 155 := rfl
    omega

theorem charOfZscii_of_zsciiOfChar (fits : codec.unicode.length ≤ 97) {zscii : Nat}
    (has : codec.zsciiOfChar c = some zscii) :
    zscii < 1024 ∧ codec.charOfZscii zscii = some c := by
  have low := (zsciiOfChar_bounds fits has).2
  exact ⟨by omega, charOfZscii_of_le has low⟩

theorem spells_escape {zscii : Nat} (below : zscii < 1024)
    (stands : codec.charOfZscii zscii = some c) :
    codec.Spells c [codec.shifts.2, 6, zscii / 32 % 32, zscii % 32] := by
  apply Spells.escape
  · omega
  · omega
  · rw [show zscii / 32 % 32 * 32 + zscii % 32 = zscii by omega, stands]

/-- A character in no alphabet is escaped, by its own code or by that of a question mark. -/
theorem spells_zscii (fits : codec.unicode.length ≤ 97) (visible : c ≠ ' ')
    (notSmall : c ∉ codec.small) (notCapital : c ∉ codec.capital) (notSign : c ∉ codec.signs) :
    codec.Spells (codec.knownOrMark c)
      [codec.shifts.2, 6, codec.zsciiOrMark c / 32 % 32, codec.zsciiOrMark c % 32] := by
  cases has : codec.zsciiOfChar c with
  | some zscii =>
      have known : codec.knownOrMark c = c := by simp [knownOrMark, Knows, has]
      obtain ⟨below, stands⟩ := charOfZscii_of_zsciiOfChar fits has
      rw [known, zsciiOrMark, has]
      exact spells_escape below stands
  | none =>
      have unknown : codec.knownOrMark c = '?' := by
        simp [knownOrMark, Knows, has, visible, notSmall, notCapital, notSign]
      rw [unknown, zsciiOrMark, has]
      exact spells_escape (by decide) rfl

/-- The codes that the encoder writes stand for the character, or for a question mark if the codec
does not know it. The encoder passes over the place of the escape, which holds a blank. -/
theorem spells_codesOfChar (blank : codec.signs[0]? = some ' ') (fits : codec.unicode.length ≤ 97)
    (c : Char) : codec.Spells (codec.knownOrMark c) (codec.codesOfChar c) := by
  have known (knows : codec.Knows c) : codec.knownOrMark c = c := if_pos knows
  have listed {letters : Alphabet} {place : Nat} (stands : letters.toList[place]? = some c) :
      c ∈ letters := Vector.mem_toList_iff.mp (List.mem_of_getElem? stands)
  by_cases space : c = ' '
  · rw [known (.inl space), codesOfChar, if_pos space]
    exact .space space
  rw [codesOfChar, if_neg space]
  cases inSmall : codec.small.toList.idxOf? c with
  | some place =>
      have stands := getElem?_of_idxOf? inSmall
      obtain ⟨below, letter⟩ := letter_of_getElem? 0 stands
      rw [known (.inr (.inl (listed stands)))]
      exact .small (by omega) below letter
  | none =>
      cases inSigns : codec.signs.toList.tail.idxOf? c with
      | some place =>
          have stands := getElem?_of_idxOf? inSigns
          rw [List.getElem?_tail] at stands
          obtain ⟨below, letter⟩ := letter_of_getElem? 2 stands
          rw [known (.inr (.inr (.inr (.inl (listed stands)))))]
          exact .sign (by omega) below letter
      | none =>
          cases inCapital : codec.capital.toList.idxOf? c with
          | some place =>
              have stands := getElem?_of_idxOf? inCapital
              obtain ⟨below, letter⟩ := letter_of_getElem? 1 stands
              rw [known (.inr (.inr (.inl (listed stands))))]
              exact .capital (by omega) below letter
          | none =>
              rw [List.idxOf?_eq_none_iff] at inSmall inSigns inCapital
              have notSign : c ∉ codec.signs := by
                rw [← Vector.getElem?_toList, ← List.head?_eq_getElem?] at blank
                obtain ⟨others, signs⟩ := List.head?_eq_some_iff.mp blank
                rw [signs] at inSigns
                rw [← Vector.mem_toList_iff, signs, List.mem_cons]
                rintro (blank | member)
                · exact space blank
                · exact inSigns member
              rw [Vector.mem_toList_iff] at inSmall inCapital
              exact spells_zscii fits space inSmall inCapital notSign

end Encoding

section Texts

variable {codec : Codec} (blank : codec.signs[0]? = some ' ') (fits : codec.unicode.length ≤ 97)
include blank fits

theorem decodeAfter_encoded (expand : Expansion) (text : String) (chars : List Char)
    (rest : List Nat) :
    codec.decodeAfter expand 0 0 text (chars.flatMap codec.codesOfChar ++ rest) =
      codec.decodeAfter expand 0 0 (text ++ String.ofList (chars.map codec.knownOrMark)) rest := by
  induction chars generalizing text with
  | nil => simp
  | cons c chars ih =>
      rw [List.flatMap_cons, List.append_assoc,
        decodeAfter_of_spells (spells_codesOfChar blank fits c), ih, List.map_cons]
      congr 1
      simp [← String.toList_inj]

/-- The codes of a text decode to a beginning of it, wherever they are cut off. -/
theorem decodeAfter_encoded_take (expand : Expansion) (text : String) (chars : List Char)
    (count : Nat) :
    ∃ kept, codec.decodeAfter expand 0 0 text ((chars.flatMap codec.codesOfChar).take count) =
      .ok ⟨text ++ String.ofList ((chars.map codec.knownOrMark).take kept), 0⟩ := by
  induction chars generalizing text count with
  | nil => exact ⟨0, by simp [decodeAfter]⟩
  | cons c chars ih =>
      have spells := spells_codesOfChar blank fits c
      rw [List.flatMap_cons, List.take_append]
      by_cases short : count < (codec.codesOfChar c).length
      · refine ⟨0, ?_⟩
        rw [Nat.sub_eq_zero_of_le (Nat.le_of_lt short), List.take_zero, List.append_nil,
          decodeAfter_of_spells_take spells short]
        simp
      · obtain ⟨kept, decoded⟩ := ih (text.push (codec.knownOrMark c))
          (count - (codec.codesOfChar c).length)
        refine ⟨kept + 1, ?_⟩
        rw [List.take_of_length_le (by omega), decodeAfter_of_spells spells, decoded]
        simp [← String.toList_inj]

theorem encodeCodes_lt (text : String) : ∀ code ∈ codec.encodeCodes text, code < 32 := by
  intro code member
  obtain ⟨c, _, inside⟩ := List.mem_flatMap.mp member
  exact code_lt_of_spells (spells_codesOfChar blank fits c) code inside

theorem packed_encode (text : String) :
    ∃ packed : PackedText, codec.encode text = packed.words ∧
      packed.words.length = (if codec.version ≤ 3 then 2 else 3) ∧
      packed.codes = fitted codec.resolution (codec.encodeCodes text) := by
  have small : ∀ code ∈ fitted codec.resolution (codec.encodeCodes text), code < 32 := by
    intro code member
    rcases List.mem_append.mp member with kept | padded
    · exact encodeCodes_lt blank fits text code (List.mem_of_mem_take kept)
    · rw [List.eq_of_mem_replicate padded]
      decide
  have length : (fitted codec.resolution (codec.encodeCodes text)).length =
      3 * ((if codec.version ≤ 3 then 1 else 2) + 1) := by
    simp only [fitted, List.length_append, List.length_take, List.length_replicate, resolution]
    split <;> omega
  obtain ⟨packed, words, count, codes⟩ := packCodes_eq_words length small
  refine ⟨packed, words, ?_, codes⟩
  rw [count]
  split <;> rfl

end Texts

/-- The codecs that texts are written and read with: those of the versions, and those with tables of
a story. -/
inductive Provided : Codec → Prop
  | standard {version : Nat} (first : 1 ≤ version) (last : version ≤ 8) :
      Provided (.standard version)
  | ofMemory {memory : Memory} {codec : Codec} (later : 5 ≤ memory.version)
      (read : Codec.ofMemory memory = .ok codec) : Provided codec

theorem signs_standard (version : Nat) : (standard version).signs[0]? = some ' ' := by
  simp only [standard]
  split <;> rfl

theorem signs_withAlphabets {codec told : Codec} {memory : Memory} {address : Nat}
    (read : codec.withAlphabets memory address = .ok told) : told.signs[0]? = some ' ' := by
  simp only [withAlphabets, bind, Except.bind] at read
  split at read
  · cases read
  · cases read
    simp

theorem signs_ofMemory {codec : Codec} {memory : Memory} (read : ofMemory memory = .ok codec) :
    codec.signs[0]? = some ' ' := by
  have finished (told : Codec) (blank : told.signs[0]? = some ' ')
      (read : (if 5 ≤ memory.version ∧ memory.header.alphabetTable ≠ 0 then
        told.withAlphabets memory memory.header.alphabetTable else pure told) = .ok codec) :
      codec.signs[0]? = some ' ' := by
    split at read
    · exact signs_withAlphabets read
    · cases read
      exact blank
  simp only [ofMemory, bind, Except.bind] at read
  split at read
  · exact finished (standard memory.version) (signs_standard memory.version) read
  · cases table : readUnicodeTable memory memory.header.unicodeTable with
    | error fault => simp [table] at read
    | ok unicode =>
        rw [table] at read
        exact finished { standard memory.version with unicode } (signs_standard memory.version) read

theorem Provided.signs {codec : Codec} (provided : codec.Provided) :
    codec.signs[0]? = some ' ' := by
  cases provided with
  | standard first last => exact signs_standard _
  | ofMemory later read => exact signs_ofMemory read

/-- The text of a packed dictionary word is a beginning of the text it was packed from, and all of
it if its codes fit in the word. -/
theorem decodeText_encode {codec : Codec} (blank : codec.signs[0]? = some ' ')
    (fits : codec.unicode.length ≤ 97) (expand : Expansion) (text : String) :
    ∃ beginning, codec.decodeText expand (fitted codec.resolution (codec.encodeCodes text)) =
        .ok (String.ofList beginning) ∧
      beginning <+: codec.respelled text ∧
      ((codec.encodeCodes text).length ≤ codec.resolution → beginning = codec.respelled text) := by
  by_cases short : (codec.encodeCodes text).length ≤ codec.resolution
  · refine ⟨codec.respelled text, ?_, List.prefix_rfl, fun _ => rfl⟩
    obtain ⟨alphabet, padded⟩ := codec.decodeAfter_padding expand 0 0
      ("" ++ String.ofList (codec.respelled text))
      (codec.resolution - (codec.encodeCodes text).length)
    rw [decodeText, decode, fitted, List.take_of_length_le short]
    simp only [encodeCodes] at padded ⊢
    rw [decodeAfter_encoded blank fits, ← respelled, padded]
    simp [Except.map]
  · obtain ⟨kept, decoded⟩ := decodeAfter_encoded_take blank fits expand ""
      (text.toList.flatMap Text.lowerChar) codec.resolution
    refine ⟨(codec.respelled text).take kept, ?_, List.take_prefix _ _, ?_⟩
    · rw [decodeText, decode, fitted, Nat.sub_eq_zero_of_le (by omega), List.replicate_zero,
        List.append_nil, encodeCodes, decoded]
      simp [Except.map, respelled]
    · intro fitting
      exact absurd fitting short

/-- A text survives encoding up to capitals and unknown characters, and a packed word holds as much
of the beginning as fits. -/
theorem decode_encode {codec : Codec} (provided : codec.Provided)
    (fits : codec.unicode.length ≤ 97) (text : String) :
    codec.decodeText Expansion.refuse (codec.encodeCodes text) =
        .ok (String.ofList (codec.respelled text)) ∧
      (codec.encode text).length = (if codec.version ≤ 3 then 2 else 3) ∧
      (∀ index word, (codec.encode text)[index]? = some word →
        (Word.isLast word = true ↔ index + 1 = (codec.encode text).length)) ∧
      ∃ beginning, codec.decodeText Expansion.refuse (unpackCodes (codec.encode text)) =
          .ok (String.ofList beginning) ∧
        beginning <+: codec.respelled text ∧
        ((codec.encodeCodes text).length ≤ (if codec.version ≤ 3 then 6 else 9) →
          beginning = codec.respelled text) := by
  have blank := provided.signs
  obtain ⟨packed, words, length, codes⟩ := packed_encode blank fits text
  refine ⟨?_, ?_, ?_, ?_⟩
  · have decoded := decodeAfter_encoded blank fits Expansion.refuse ""
      (text.toList.flatMap Text.lowerChar) []
    rw [List.append_nil] at decoded
    rw [decodeText, decode, encodeCodes, decoded]
    simp [decodeAfter, Except.map, respelled]
  · rw [words, length]
  · rw [words]
    exact packed.isLast_iff
  · have unpacked : unpackCodes (codec.encode text) =
        fitted codec.resolution (codec.encodeCodes text) := by
      rw [words, ← codes, PackedText.codes]
    rw [unpacked]
    exact decodeText_encode blank fits Expansion.refuse text

/-- A story of version 5 whose alphabets run backwards through the codes from 122 on. -/
def backwardStory : Memory :=
  let bytes : List UInt8 := [5] ++ List.replicate 51 0 ++ [0, 64] ++ List.replicate 10 0 ++
    (List.range 78).map fun place => UInt8.ofNat (122 - place)
  let image := bytes.toArray
  { bytes := image, pristine := image, header := Header.read image, pc := 0 }

/-- Alphabets that run backwards, from the small z to the hyphen. -/
def backward : Codec where
  version := 5
  small := Vector.ofFn fun place => Char.ofNat (122 - place.val)
  capital := Vector.ofFn fun place => Char.ofNat (96 - place.val)
  signs := Vector.ofFn fun place =>
    if place.val = 0 then ' ' else if place.val = 1 then '\n' else Char.ofNat (70 - place.val)

theorem decode_encode_backward :
    Codec.ofMemory backwardStory = .ok backward ∧ backward.unicode.length ≤ 97 ∧
      backward.decodeText Expansion.refuse (backward.encodeCodes "Go É\t") = .ok "go é?" ∧
      ∃ beginning, backward.decodeText Expansion.refuse (unpackCodes (backward.encode "Go É\t")) =
          .ok (String.ofList beginning) ∧ beginning <+: ['g', 'o', ' ', 'é', '?'] := by
  have read : Codec.ofMemory backwardStory = .ok backward :=
    eq_ok_of_toOption (by decide +kernel)
  have fits : backward.unicode.length ≤ 97 := by decide
  have respelled : backward.respelled "Go É\t" = ['g', 'o', ' ', 'é', '?'] := by decide +kernel
  obtain ⟨whole, _, _, beginning, decoded, within, _⟩ :=
    decode_encode (.ofMemory (by decide +kernel) read) fits "Go É\t"
  rw [respelled] at whole within
  exact ⟨read, fits, whole, beginning, decoded, within⟩

end Codec

end ZMachine
