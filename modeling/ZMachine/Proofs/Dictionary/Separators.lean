import ZMachine.Machine.Reading
import ZMachine.Proofs.Machine.Run

/-!
# Separators as words

A separator in a line is a word of its own. The lists of separators and the texts of a story are both
made of ZSCII codes, but a dictionary takes the codes in its list for code points, while the codec of
the story says which characters those in a text stand for. The two agree on the printed characters of
ASCII. Beyond them a code that is listed as a separator divides words only if its character is that
of some listed code. `Token.singled_splitFrom_iff` says when a character is a word by itself.
-/

namespace ZMachine

namespace Token

variable {isSeparator : Char → Bool} {c : Char}

/-- A character that ends the word before it. -/
def Divides (isSeparator : Char → Bool) (c : Char) : Prop :=
  isSeparator c = true ∨ Text.isBlank c = true

/-- The character at a position is a word by itself. -/
def Singled (tokens : List Token) (position : Nat) : Prop :=
  ∃ token ∈ tokens, token.position = position ∧ token.text.length = 1

instance (tokens : List Token) (position : Nat) : Decidable (Singled tokens position) :=
  inferInstanceAs (Decidable (∃ token ∈ tokens, _))

theorem mem_finish {token : Token} {current : Option Token} {rest : List Token} :
    token ∈ finish current rest ↔ current = some token ∨ token ∈ rest := by
  cases current with
  | none => simp [finish]
  | some word => simp [finish, eq_comm]

/-- Words begin in the rest of the line, but for the one being collected, which can only grow. -/
theorem position_of_mem {token : Token} {position : Nat} {current : Option Token}
    {chars : List Char}
    (member : token ∈ splitFrom isSeparator Text.isBlank position current chars) :
    position ≤ token.position ∨ ∃ word, current = some word ∧ token.position = word.position ∧
      word.text.length ≤ token.text.length := by
  induction chars generalizing position current with
  | nil =>
      rcases mem_finish.mp member with same | none
      · exact Or.inr ⟨token, same, rfl, Nat.le_refl _⟩
      · cases none
  | cons c rest ih =>
      rw [splitFrom] at member
      split at member
      · rcases mem_finish.mp member with same | member
        · exact Or.inr ⟨token, same, rfl, Nat.le_refl _⟩
        · rcases List.mem_cons.mp member with rfl | member
          · exact Or.inl (Nat.le_refl _)
          · rcases ih member with later | ⟨_, impossible, _⟩
            · exact Or.inl (by omega)
            · cases impossible
      · split at member
        · rcases mem_finish.mp member with same | member
          · exact Or.inr ⟨token, same, rfl, Nat.le_refl _⟩
          · rcases ih member with later | ⟨_, impossible, _⟩
            · exact Or.inl (by omega)
            · cases impossible
        · rcases ih member with later | ⟨word, same, begins, grows⟩
          · exact Or.inl (by omega)
          · cases same
            cases current with
            | none => exact Or.inl (Nat.le_of_eq begins.symm)
            | some word =>
                refine Or.inr ⟨word, rfl, begins, ?_⟩
                simp only [extend, String.length_push] at grows
                omega

section Splitting

variable {position : Nat} {current : Option Token} {before after rest : List Char}

/-- The word being collected once the next character of the line is read. -/
def carried (isSeparator : Char → Bool) (current : Option Token) (c : Char) (position : Nat) :
    Option Token :=
  if isSeparator c = true ∨ Text.isBlank c = true then none
  else some (extend current c position)

theorem carried_eq_none : carried isSeparator current c position = none ↔ Divides isSeparator c := by
  unfold carried Divides
  split <;> simp_all

/-- The word being collected began earlier. -/
def Begun (current : Option Token) (position : Nat) : Prop :=
  ∀ word, current = some word → word.position < position

theorem Begun.carried (begun : Begun current position) (c : Char) :
    Begun (carried isSeparator current c position) (position + 1) := by
  intro word same
  unfold Token.carried at same
  split at same
  · cases same
  · cases same
    cases current with
    | none => exact Nat.lt_succ_self position
    | some word =>
        have := begun word rfl
        simp only [extend]
        omega

/-- Behind the first character of the line, its words are those of the rest. -/
theorem singled_cons_iff (begun : Begun current position) {place : Nat} (behind : position < place) :
    Singled (splitFrom isSeparator Text.isBlank position current (c :: rest)) place ↔
      Singled (splitFrom isSeparator Text.isBlank (position + 1)
        (carried isSeparator current c position) rest) place := by
  have notCurrent : ∀ token, current = some token → token.position ≠ place := by
    intro token same
    have := begun token same
    omega
  rw [splitFrom, carried]
  by_cases separates : isSeparator c = true
  · simp only [separates, if_true, true_or]
    constructor
    · rintro ⟨token, member, here, single⟩
      rcases mem_finish.mp member with same | member
      · exact absurd here (notCurrent token same)
      · rcases List.mem_cons.mp member with rfl | member
        · exact absurd here (Nat.ne_of_lt behind)
        · exact ⟨token, member, here, single⟩
    · rintro ⟨token, member, here, single⟩
      exact ⟨token, mem_finish.mpr (Or.inr (List.mem_cons_of_mem _ member)), here, single⟩
  · by_cases blank : Text.isBlank c = true
    · simp only [separates, blank, if_true, or_true]
      constructor
      · rintro ⟨token, member, here, single⟩
        rcases mem_finish.mp member with same | member
        · exact absurd here (notCurrent token same)
        · exact ⟨token, member, here, single⟩
      · rintro ⟨token, member, here, single⟩
        exact ⟨token, mem_finish.mpr (Or.inr member), here, single⟩
    · simp [separates, blank]

/-- A word of one character stays so if the next character divides. -/
theorem singled_word_iff {word : Token} (begins : word.position < position)
    (single : word.text.length = 1) :
    Singled (splitFrom isSeparator Text.isBlank position (some word) rest) word.position ↔
      ∀ next ∈ rest.head?, Divides isSeparator next := by
  cases rest with
  | nil =>
      simp only [List.head?_nil, Option.not_mem_none, false_implies, implies_true, iff_true]
      exact ⟨word, List.mem_singleton_self word, rfl, single⟩
  | cons c rest =>
      simp only [List.head?_cons, Option.mem_def, Option.some.injEq, forall_eq']
      rw [splitFrom, Divides]
      by_cases separates : isSeparator c = true
      · simp only [separates, if_true, true_or, iff_true]
        exact ⟨word, mem_finish.mpr (Or.inl rfl), rfl, single⟩
      · by_cases blank : Text.isBlank c = true
        · simp only [separates, blank, if_true, or_true, iff_true]
          exact ⟨word, mem_finish.mpr (Or.inl rfl), rfl, single⟩
        · simp only [separates, blank, Bool.false_eq_true, if_false, or_self, iff_false]
          rintro ⟨token, member, here, still⟩
          rcases position_of_mem member with later | ⟨grown, same, _, longer⟩
          · omega
          · cases same
            simp only [extend, String.length_push] at longer
            omega

theorem singled_head_iff (begun : Begun current position) :
    Singled (splitFrom isSeparator Text.isBlank position current (c :: rest)) position ↔
      isSeparator c = true ∨ Text.isBlank c = false ∧ current = none ∧
        ∀ next ∈ rest.head?, Divides isSeparator next := by
  have notCurrent : ∀ token, current = some token → token.position ≠ position :=
    fun token same => Nat.ne_of_lt (begun token same)
  rw [splitFrom]
  by_cases separates : isSeparator c = true
  · simp only [separates, if_true, true_or, iff_true]
    exact ⟨_, mem_finish.mpr (Or.inr List.mem_cons_self), rfl, String.length_singleton⟩
  by_cases blank : Text.isBlank c = true
  · simp only [separates, blank, Bool.false_eq_true, Bool.true_eq_false, if_false, if_true, false_and,
      or_self, iff_false]
    rintro ⟨token, member, here, _⟩
    rcases mem_finish.mp member with same | member
    · exact notCurrent token same here
    · rcases position_of_mem member with later | ⟨_, impossible, _⟩
      · omega
      · cases impossible
  simp only [separates, blank, Bool.false_eq_true, if_false, false_or, true_and]
  cases current with
  | none =>
      rw [eq_self, true_and]
      exact singled_word_iff (Nat.lt_succ_self position) String.length_singleton
  | some word =>
      simp only [reduceCtorEq, false_and, iff_false]
      rintro ⟨token, member, here, _⟩
      rcases position_of_mem member with later | ⟨_, same, begins, _⟩
      · omega
      · cases same
        exact notCurrent word rfl (begins.symm.trans here)

/-- When a character is a word by itself: it is a separator, or no blank either, and each of its
neighbours divides words. -/
theorem singled_splitFrom_iff (begun : Begun current position) :
    Singled (splitFrom isSeparator Text.isBlank position current (before ++ c :: after))
        (position + before.length) ↔
      isSeparator c = true ∨ Text.isBlank c = false ∧ (before = [] → current = none) ∧
        (∀ previous ∈ before.getLast?, Divides isSeparator previous) ∧
        ∀ next ∈ after.head?, Divides isSeparator next := by
  induction before generalizing position current with
  | nil => simpa using singled_head_iff begun
  | cons first before ih =>
      have behind : position < position + (first :: before).length := by simp
      have shift : position + (first :: before).length = position + 1 + before.length := by
        simp only [List.length_cons]
        omega
      rw [List.cons_append, singled_cons_iff begun behind, shift, ih (begun.carried first),
        carried_eq_none]
      cases before with
      | nil => simp
      | cons second before => simp [List.getLast?_cons_cons]

end Splitting

end Token

namespace Codec

variable {codec : Codec} {code : UInt8} {codes : List UInt8}

/-- The character that a code stands for. Only the code 0 has none. -/
def shown (codec : Codec) (code : UInt8) : Char :=
  (codec.charOfZscii code.toNat).getD '?'

theorem charOfZscii_eq_shown (nonzero : code ≠ 0) :
    codec.charOfZscii code.toNat = some (codec.shown code) := by
  have positive : code.toNat ≠ 0 := fun zero => nonzero (UInt8.toNat_inj.mp zero)
  unfold shown charOfZscii
  grind

/-- The printed characters of ASCII are shown by their code points, and so is the tab. -/
theorem shown_of_ascii (ascii : code = 9 ∨ 32 ≤ code.toNat ∧ code.toNat ≤ 126) :
    codec.shown code = Char.ofNat code.toNat := by
  rcases ascii with rfl | printed
  · rfl
  · rw [shown, charOfZscii, if_neg (by omega), if_neg (by omega), if_neg (by omega),
      if_neg (by omega), if_pos printed, Option.getD_some]

theorem toList_bufferText (nonzero : ∀ other ∈ codes, other ≠ 0) :
    (Machine.bufferText codec codes).toList = codes.map codec.shown := by
  rw [Machine.bufferText, String.toList_ofList]
  induction codes with
  | nil => rfl
  | cons first rest ih =>
      have later := ih fun other member => nonzero other (List.mem_cons_of_mem _ member)
      simp only [List.filterMap_cons, charOfZscii_eq_shown (nonzero first List.mem_cons_self), later,
        List.map_cons]

end Codec

theorem Memory.mem_fetchBytes {memory : Memory} {address count : Nat} {bytes : List UInt8}
    (fetched : memory.fetchBytes address count = .ok bytes) {byte : UInt8} :
    byte ∈ bytes ↔ ∃ index < count, memory.bytes.byteAt (address + index) = byte := by
  unfold fetchBytes at fetched
  split at fetched
  · cases fetched
  · rename_i inside
    cases fetched
    rw [Array.mem_toList_iff, Array.mem_iff_getElem]
    constructor
    · rintro ⟨index, within, rfl⟩
      rw [Array.size_extract] at within
      refine ⟨index, by omega, ?_⟩
      rw [Array.getElem_extract, Image.byteAt, Array.getElem?_eq_getElem (by omega),
        Option.getD_some]
    · rintro ⟨index, within, rfl⟩
      refine ⟨index, by rw [Array.size_extract]; omega, ?_⟩
      rw [Array.getElem_extract, Image.byteAt, Array.getElem?_eq_getElem (by omega),
        Option.getD_some]

namespace Dictionary

open Machine (bufferText)

variable {memory : Memory} {address : Nat} {dictionary : Dictionary} {codec : Codec} {code : UInt8}

/-- The dictionary at an address lists a code among its separators. -/
def Lists (memory : Memory) (address : Nat) (code : UInt8) : Prop :=
  ∃ index < (memory.bytes.byteAt address).toNat, memory.bytes.byteAt (address + 1 + index) = code

/-- The character of a code divides words. -/
def Divides (dictionary : Dictionary) (codec : Codec) (code : UInt8) : Prop :=
  Token.Divides dictionary.isSeparator (codec.shown code)

/-- In every text the character of a code is a word by itself. -/
def AlwaysSingled (dictionary : Dictionary) (codec : Codec) (code : UInt8) : Prop :=
  ∀ before after : List UInt8, (∀ other ∈ before ++ after, other ≠ 0) →
    Token.Singled (dictionary.tokenize (bufferText codec (before ++ code :: after))) before.length

/-- A dictionary takes the codes that it lists for code points. -/
theorem isSeparator_iff (read : Dictionary.read memory address = .ok dictionary) {c : Char} :
    dictionary.isSeparator c = true ↔
      ∃ other, Lists memory address other ∧ c = Char.ofNat other.toNat := by
  rcases query_bind_eq_ok.mp read with ⟨count, counted, read⟩
  rcases query_bind_eq_ok.mp read with ⟨codes, fetched, read⟩
  rcases query_bind_eq_ok.mp read with ⟨_, _, read⟩
  rcases query_bind_eq_ok.mp read with ⟨_, _, done⟩
  cases done
  rcases Memory.fetchByte_eq_ok.mp counted with ⟨_, rfl⟩
  rw [isSeparator, List.contains_iff_mem, List.mem_map]
  simp only [Memory.mem_fetchBytes fetched, Lists]
  exact exists_congr fun other => and_congr_right fun _ => eq_comm

/-- When a code is a word by itself: it is a separator, or no blank either, and each of its
neighbours divides words. -/
theorem singled_tokenize_iff {before after : List UInt8} (printable : code ≠ 0)
    (nonzero : ∀ other ∈ before ++ after, other ≠ 0) :
    Token.Singled (dictionary.tokenize (bufferText codec (before ++ code :: after)))
        before.length ↔
      dictionary.isSeparator (codec.shown code) = true ∨
        Text.isBlank (codec.shown code) = false ∧
          (∀ previous ∈ before.getLast?, dictionary.Divides codec previous) ∧
          ∀ next ∈ after.head?, dictionary.Divides codec next := by
  have allNonzero : ∀ other ∈ before ++ code :: after, other ≠ 0 := by
    intro other member
    rcases List.mem_append.mp member with earlier | later
    · exact nonzero other (List.mem_append_left _ earlier)
    · rcases List.mem_cons.mp later with rfl | later
      · exact printable
      · exact nonzero other (List.mem_append_right _ later)
  have begun : Token.Begun none 0 := by
    intro word impossible
    cases impossible
  have place : before.length = 0 + (before.map codec.shown).length := by simp
  rw [tokenize, Token.split, Codec.toList_bufferText allNonzero, List.map_append, List.map_cons,
    place, Token.singled_splitFrom_iff begun]
  simp [Divides, List.getLast?_map, List.head?_map]

/-- A character that is a word of its own in every line divides words: otherwise it would be none in
the line of two of it. -/
theorem alwaysSingled_iff (printable : code ≠ 0) :
    dictionary.AlwaysSingled codec code ↔ dictionary.isSeparator (codec.shown code) = true := by
  constructor
  · intro always
    rcases (singled_tokenize_iff printable (by simpa using printable)).mp
      (always [code] [] (by simpa using printable)) with separates | ⟨visible, divided, _⟩
    · exact separates
    · rcases divided code rfl with separates | blank
      · exact separates
      · rw [visible] at blank
        cases blank
  · intro separates before after nonzero
    exact (singled_tokenize_iff printable nonzero).mpr (Or.inl separates)

/-- A listed separator is a word wherever it occurs exactly if its character is the one that a listed
code has as a code point; this holds of ASCII. Any other code is a word by itself only between
characters that divide words. -/
theorem separator_is_word_iff (read : Dictionary.read memory address = .ok dictionary)
    (listed : Lists memory address code) (printable : code ≠ 0) :
    (dictionary.AlwaysSingled codec code ↔
      ∃ other, Lists memory address other ∧ codec.shown code = Char.ofNat other.toNat) ∧
    (code = 9 ∨ 32 ≤ code.toNat ∧ code.toNat ≤ 126 → dictionary.AlwaysSingled codec code) ∧
    (¬ dictionary.AlwaysSingled codec code → ∀ before after : List UInt8,
      (∀ other ∈ before ++ after, other ≠ 0) →
      (Token.Singled (dictionary.tokenize (bufferText codec (before ++ code :: after)))
          before.length ↔
        Text.isBlank (codec.shown code) = false ∧
          (∀ previous ∈ before.getLast?, dictionary.Divides codec previous) ∧
          ∀ next ∈ after.head?, dictionary.Divides codec next)) := by
  rw [alwaysSingled_iff printable]
  refine ⟨isSeparator_iff read, fun ascii => ?_, fun missed before after nonzero => ?_⟩
  · exact (isSeparator_iff read).mpr ⟨code, listed, Codec.shown_of_ascii ascii⟩
  · rw [singled_tokenize_iff printable nonzero, or_iff_right missed]

/-- A story with an empty dictionary that lists two separators: the code of a small a with two dots,
and a comma. -/
def umlautStory : Image :=
  (Image.sample 3 [2, 155, 44, 7, 0, 0]).setWord 8 80

theorem read_umlautStory :
    ∃ memory codec dictionary, Memory.load {} umlautStory = .ok memory ∧
      Codec.ofMemory memory = .ok codec ∧ Dictionary.read memory 80 = .ok dictionary ∧
      memory.bytes.byteAt 80 = 2 ∧ memory.bytes.byteAt 81 = 155 ∧ memory.bytes.byteAt 82 = 44 ∧
      dictionary.separators = ['\u009b', ','] ∧ codec.shown 97 = 'a' ∧ codec.shown 155 = 'ä' := by
  have ran : (Memory.load {} umlautStory).toOption.bind (fun memory =>
      (Codec.ofMemory memory).toOption.bind fun codec =>
        (Dictionary.read memory 80).toOption.map fun dictionary =>
          (memory.bytes.byteAt 80, memory.bytes.byteAt 81, memory.bytes.byteAt 82,
            dictionary.separators, codec.shown 97, codec.shown 155)) =
        some (2, 155, 44, ['\u009b', ','], 'a', 'ä') := by
    decide +kernel
  rcases Option.bind_eq_some_iff.mp ran with ⟨memory, loaded, more⟩
  rcases Option.bind_eq_some_iff.mp more with ⟨codec, codecRead, more⟩
  rcases Option.map_eq_some_iff.mp more with ⟨dictionary, read, found⟩
  simp only [Prod.mk.injEq] at found
  exact ⟨memory, codec, dictionary, eq_ok_of_toOption loaded, eq_ok_of_toOption codecRead,
    eq_ok_of_toOption read, found⟩

/-- The comma is a word wherever it occurs. -/
theorem separator_is_word_comma :
    ∃ memory codec dictionary, Memory.load {} umlautStory = .ok memory ∧
      Codec.ofMemory memory = .ok codec ∧ Dictionary.read memory 80 = .ok dictionary ∧
      Lists memory 80 44 ∧ dictionary.AlwaysSingled codec 44 := by
  rcases read_umlautStory with
    ⟨memory, codec, dictionary, loaded, codecRead, read, count, _, second, _⟩
  have listed : Lists memory 80 44 := ⟨1, by rw [count]; decide, second⟩
  exact ⟨memory, codec, dictionary, loaded, codecRead, read, listed,
    (separator_is_word_iff read listed (by decide)).2.1 (Or.inr (by decide))⟩

/-- The other separator is not: between letters it belongs to their word. -/
theorem separator_is_no_word_umlaut :
    ∃ memory codec dictionary, Memory.load {} umlautStory = .ok memory ∧
      Codec.ofMemory memory = .ok codec ∧ Dictionary.read memory 80 = .ok dictionary ∧
      Lists memory 80 155 ∧
      ¬ Token.Singled (dictionary.tokenize (bufferText codec [97, 155, 98])) 1 := by
  rcases read_umlautStory with
    ⟨memory, codec, dictionary, loaded, codecRead, read, count, first, _, separators, letter, umlaut⟩
  have listed : Lists memory 80 155 := ⟨0, by rw [count]; decide, first⟩
  refine ⟨memory, codec, dictionary, loaded, codecRead, read, listed, fun single => ?_⟩
  have undivided : dictionary.isSeparator 'ä' = false ∧ dictionary.isSeparator 'a' = false := by
    simp [isSeparator, separators]
  have alone := (singled_tokenize_iff (by decide) (by simp)).mp
    (show Token.Singled (dictionary.tokenize (bufferText codec ([97] ++ 155 :: [98])))
      [(97 : UInt8)].length from single)
  simp only [umlaut, undivided.1, Bool.false_eq_true, false_or] at alone
  rcases alone.2.1 97 rfl with separates | blank
  · rw [letter, undivided.2] at separates
    cases separates
  · rw [letter] at blank
    exact absurd blank (by decide)

end Dictionary

end ZMachine
