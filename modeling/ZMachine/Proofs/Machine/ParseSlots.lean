import ZMachine.Proofs.Dictionary.Segments
import ZMachine.Proofs.Dictionary.Separators
import ZMachine.Proofs.Machine.Addressing
import ZMachine.Proofs.Machine.Recall
import ZMachine.Proofs.Machine.Tokenising
import ZMachine.Proofs.Zscii.RoundTrip

/-!
# Slots of the parse buffer

A slot tells where in the text buffer its word begins and how long the word is. The positions are
counted in the characters of the stored text, and the story takes them for numbers of bytes. Both
are the same because each code of the text buffer stands for one character, whatever the line was:
a code that stands for none, which is 0, is never stored.

The slots are filled from the first one on. A slot that has been filled keeps its word because the
later ones lie behind it, and a slot that is passed over keeps its bytes.
-/

namespace ZMachine

open Memory

namespace ParseBuffer

variable {region : Set Nat} {buffer slot index offset count : Nat} {word : ParsedWord}
  {words : List ParsedWord} {skipUnknown : Bool} {memory after : Memory}

/-- Where a slot of a parse buffer begins. -/
def slotAddress (buffer index : Nat) : Nat :=
  buffer + 2 + 4 * index

/-- The bytes of a slot. -/
def slotRange (slot : Nat) : Set Nat :=
  Set.Ico slot (slot + 4)

/-- The slot holds a word; a position that does not fit is cut to the largest one. -/
structure HoldsWord (memory : Memory) (slot offset : Nat) (word : ParsedWord) : Prop where
  address : memory.bytes.wordAt slot = word.address
  length : memory.bytes.byteAt (slot + 2) = word.length
  position : memory.bytes.byteAt (slot + 3) =
    UInt8.ofNat (min (word.position.toNat + offset) 255)

theorem HoldsWord.of_confined (holds : HoldsWord memory slot offset word)
    (confined : Confined region memory after) (beside : ∀ place < 4, slot + place ∉ region) :
    HoldsWord after slot offset word where
  address := by
    rw [← holds.address, Image.wordAt, Image.wordAt, confined slot (beside 0 (by decide)),
      confined (slot + 1) (beside 1 (by decide))]
  length := (confined _ (beside 2 (by decide))).trans holds.length
  position := (confined _ (beside 3 (by decide))).trans holds.position

theorem holdsWord_writeSlot (static : memory.header.staticBase ≤ memory.bytes.size)
    (success : writeSlot slot offset word memory = .ok () after) :
    HoldsWord after slot offset word := by
  rcases bind_eq_ok.mp success with ⟨_, first, addressed, success⟩
  rcases bind_eq_ok.mp success with ⟨_, second, measured, placed⟩
  rcases writeWord_eq_ok.mp addressed with ⟨dynamic, rfl⟩
  rcases writeByte_eq_ok.mp measured with ⟨further, rfl⟩
  rcases writeByte_eq_ok.mp placed with ⟨furthest, rfl⟩
  simp only at further furthest
  constructor
  case address =>
    rw [Image.wordAt, Image.byteAt_setByte_of_ne (by omega), Image.byteAt_setByte_of_ne (by omega),
      Image.byteAt_setByte_of_ne (by omega), Image.byteAt_setByte_of_ne (by omega), ← Image.wordAt]
    exact Image.wordAt_setWord (by omega) word.address
  case length =>
    rw [Image.byteAt_setByte_of_ne (by omega)]
    exact Image.byteAt_setByte (by simp only [Image.size_setWord]; omega) _
  case position =>
    exact Image.byteAt_setByte (by simp only [Image.size_setByte, Image.size_setWord]; omega) _

/-- When the slots are filled without passing any over, each holds its word. -/
theorem holdsWord_writeSlots (static : memory.header.staticBase ≤ memory.bytes.size)
    (success : writeSlots offset false slot words memory = .ok () after)
    (found : words[index]? = some word) : HoldsWord after (slot + 4 * index) offset word := by
  induction words generalizing slot index memory with
  | nil => cases found
  | cons first words ih =>
      rcases bind_eq_ok.mp success with ⟨_, middle, written, rest⟩
      have wrote := (writes_writeSlot slot offset first).of_ok written
      cases index with
      | zero =>
          cases found
          have behind := (confined_writeSlots (Set.Subset.refl _) offset false).of_ok rest
          have held := holdsWord_writeSlot static written
          refine held.of_confined behind fun place short inside => ?_
          have := inside.1
          omega
      | succ index =>
          have later := ih (by rwa [wrote.header, wrote.size]) rest found
          rwa [show slot + 4 + 4 * index = slot + 4 * (index + 1) by omega] at later

/-- The slot of a word that is passed over keeps its bytes, even if filling fails half way. -/
theorem confined_writeSlots_skipped (found : words[index]? = some word)
    (unknown : word.address = 0) :
    Keeps (Confined (slotRange (slot + 4 * index))ᶜ) (writeSlots offset true slot words) := by
  induction words generalizing slot index with
  | nil => cases found
  | cons first words ih =>
      cases index with
      | zero =>
          cases found
          have behind : Set.Ico (slot + 4) (slot + 4 + 4 * words.length) ⊆ (slotRange slot)ᶜ :=
            fun address within inside => absurd within.1 (Nat.not_le_of_lt inside.2)
          rw [writeSlots, if_pos (by simp [unknown])]
          exact (Keeps.pure ()).bind fun _ => confined_writeSlots behind offset true
      | succ index =>
          have before : Set.Ico slot (slot + 4) ⊆ (slotRange (slot + 4 * (index + 1)))ᶜ :=
            fun address within inside => by
              have := within.2
              have := inside.1
              omega
          have later : Keeps (Confined (slotRange (slot + 4 + 4 * index))ᶜ)
              (writeSlots offset true (slot + 4) words) := ih found
          rw [show slot + 4 + 4 * index = slot + 4 * (index + 1) by omega] at later
          refine Keeps.ite ?_ ?_
          · exact (Keeps.pure ()).bind fun _ => later
          · exact (confined_writeSlot before offset first).bind fun _ => later

theorem fill_eq_ok (success : fill buffer skipUnknown words memory = .ok count after) :
    count = min words.length (memory.bytes.byteAt buffer).toNat ∧ ∃ counted,
      writeByte (buffer + 1) (UInt8.ofNat count) memory = .ok () counted ∧
      writeSlots (textOffset memory.version) skipUnknown (buffer + 2) (words.take count) counted =
        .ok () after := by
  rcases bind_eq_ok.mp success with ⟨capacity, begun, read, counting⟩
  rcases inspect_eq_ok.mp read with ⟨room, rfl⟩
  rcases bind_eq_ok.mp counting with ⟨_, _, written, locating⟩
  rcases bind_eq_ok.mp locating with ⟨offset, counted, asked, filling⟩
  rcases inspect_eq_ok.mp asked with ⟨located, rfl⟩
  rcases bind_eq_ok.mp filling with ⟨_, _, filled, done⟩
  cases located
  cases done
  have version : counted.version = begun.version :=
    congrArg Header.version ((writes_writeByte _ _).of_ok written).header
  rw [version] at filled
  rw [(readByte_eq_ok.mp room).2.2]
  exact ⟨rfl, counted, written, filled⟩

/-- A filled parse buffer tells how many words there are. -/
theorem byteAt_fill (static : memory.header.staticBase ≤ memory.bytes.size)
    (success : fill buffer skipUnknown words memory = .ok count after) :
    (after.bytes.byteAt (buffer + 1)).toNat = count := by
  rcases fill_eq_ok success with ⟨number, counted, written, filled⟩
  have kept := (confined_writeSlots (Set.Subset.refl _) _ skipUnknown).of_ok filled
  rw [kept (buffer + 1) fun inside => by have := inside.1; omega,
    (byteAt_of_held (held_of_writeByte static written)).2, UInt8.toNat_ofNat']
  apply Nat.mod_eq_of_lt
  have := (memory.bytes.byteAt buffer).toNat_lt
  omega

theorem holdsWord_fill (static : memory.header.staticBase ≤ memory.bytes.size)
    (success : fill buffer false words memory = .ok count after) (few : index < count)
    (found : words[index]? = some word) :
    HoldsWord after (slotAddress buffer index) (textOffset memory.version) word := by
  rcases fill_eq_ok success with ⟨_, counted, written, filled⟩
  have wrote := (writes_writeByte _ _).of_ok written
  refine holdsWord_writeSlots (by rwa [wrote.header, wrote.size]) filled ?_
  rw [List.getElem?_take, if_pos few, found]

theorem confined_fill_skipped (found : words[index]? = some word) (unknown : word.address = 0)
    (buffer : Nat) :
    Keeps (Confined (slotRange (slotAddress buffer index))ᶜ) (fill buffer true words) := by
  have number : buffer + 1 ∈ (slotRange (slotAddress buffer index))ᶜ := by
    intro inside
    have := inside.1
    unfold slotAddress at this
    omega
  refine (confined_inspect _).bind fun capacity => ?_
  refine (confined_writeByte number _).bind fun _ => ?_
  refine (confined_inspect _).bind fun offset => ?_
  refine Keeps.bind ?_ fun _ => Keeps.pure _
  generalize min words.length capacity.toNat = count
  by_cases few : index < count
  · have taken : (words.take count)[index]? = some word := by
      rw [List.getElem?_take, if_pos few, found]
    exact confined_writeSlots_skipped taken unknown
  · have before : Set.Ico (buffer + 2) (buffer + 2 + 4 * (words.take count).length) ⊆
        (slotRange (slotAddress buffer index))ᶜ := by
      intro address within inside
      have := within.2
      have := inside.1
      simp only [List.length_take, slotAddress] at *
      omega
    exact confined_writeSlots before offset true

end ParseBuffer

namespace Dictionary

open ParseBuffer

variable {memory : Memory} {codec : Codec} {dictionary later : Dictionary} {tokens : List Token}
  {words : List ParsedWord} {token : Token} {index : Nat}

/-- The answer for a word of a line, behind those for the words before it. -/
def answerAt (dictionary : Dictionary) (memory : Memory) (codec : Codec) (tokens : List Token)
    (index : Nat) (token : Token) : Except Fault UInt16 :=
  (dictionary.afterWords memory codec ((tokens.take index).map (·.text))).answer memory codec
    token.text

/-- A word of a line as it is put down, if its answer is an address. -/
def parsed (address : UInt16) (token : Token) : ParsedWord :=
  ⟨address, UInt8.ofNat (min token.text.length 255), UInt8.ofNat (min token.position 255)⟩

theorem length_of_parse (success : parse memory codec tokens dictionary = .ok words later) :
    words.length = tokens.length := by
  induction tokens generalizing dictionary words with
  | nil =>
      cases success
      rfl
  | cons token tokens ih =>
      rcases bind_eq_ok.mp success with ⟨address, middle, _, success⟩
      rcases bind_eq_ok.mp success with ⟨others, _, rest, done⟩
      cases done
      rw [List.length_cons, List.length_cons, ih rest]

theorem getElem?_of_parse (success : parse memory codec tokens dictionary = .ok words later)
    (found : tokens[index]? = some token) :
    ∃ address, dictionary.answerAt memory codec tokens index token = .ok address ∧
      words[index]? = some (parsed address token) := by
  induction tokens generalizing dictionary words index with
  | nil => cases found
  | cons first tokens ih =>
      rcases bind_eq_ok.mp success with ⟨address, middle, looked, success⟩
      rcases bind_eq_ok.mp success with ⟨others, _, rest, done⟩
      cases done
      cases index with
      | zero =>
          cases found
          refine ⟨address, ?_, rfl⟩
          simp only [answerAt, List.take_zero, List.map_nil, afterWords, List.foldl_nil, answer,
            looked]
      | succ index =>
          rcases ih rest found with ⟨other, answered, put⟩
          refine ⟨other, ?_, put⟩
          rw [← answered]
          simp only [answerAt, List.take_succ_cons, List.map_cons, afterWords, List.foldl_cons,
            stateAfter_of_ok looked]

/-- If what the dictionary remembers is right, the answer for each word is the one of a search. -/
theorem answerAt_eq_search
    (right : ∀ word address, dictionary.memo = some (word, address) →
      dictionary.search memory codec word = .ok address)
    (tokens : List Token) (index : Nat) (token : Token) :
    dictionary.answerAt memory codec tokens index token =
      dictionary.search memory codec token.text := by
  have recalls : Recalls memory codec dictionary dictionary := ⟨rfl, right⟩
  exact (recalls.afterWords (fun _ => rfl) _).answer (fun _ => rfl) token.text

/-- What becomes of the words of a line that the dictionary lacks if they are to be skipped. Whether
tokenising succeeds or fails, their slots keep their bytes; yet they are counted. -/
structure SkipsUnknown (dictionary : Dictionary) (codec : Codec) (line : String) (buffer : Nat)
    (memory : Memory) : Prop where
  untouched : ∀ index token, (dictionary.tokenize line)[index]? = some token →
    dictionary.answerAt memory codec (dictionary.tokenize line) index token = .ok 0 →
    ∀ address ∈ slotRange (slotAddress buffer index),
      (stateAfter (tokeniseInto codec line buffer true) (dictionary, memory)).2.bytes.byteAt
        address = memory.bytes.byteAt address
  counted : ∀ count later,
    tokeniseInto codec line buffer true (dictionary, memory) = .ok count later →
      count = min (dictionary.tokenize line).length (memory.bytes.byteAt buffer).toNat ∧
        (later.2.bytes.byteAt (buffer + 1)).toNat = count

theorem skipsUnknown_tokeniseInto (static : memory.header.staticBase ≤ memory.bytes.size)
    (dictionary : Dictionary) (codec : Codec) (line : String) (buffer : Nat) :
    SkipsUnknown dictionary codec line buffer memory := by
  constructor
  case untouched =>
    intro index token found unknown address inside
    unfold stateAfter tokeniseInto
    dsimp only
    cases run : parse memory codec (dictionary.tokenize line) dictionary with
    | error fault later => rfl
    | ok words later =>
        rcases getElem?_of_parse run found with ⟨place, answered, put⟩
        rw [unknown, Except.ok.injEq] at answered
        have kept := confined_fill_skipped put answered.symm buffer memory address
          (Set.notMem_compl_iff.mpr inside)
        dsimp only
        cases filled : ParseBuffer.fill buffer true words memory with
        | error fault last => rwa [stateAfter_of_error filled] at kept
        | ok count last => rwa [stateAfter_of_ok filled] at kept
  case counted =>
    intro count later success
    unfold tokeniseInto at success
    dsimp only at success
    cases run : parse memory codec (dictionary.tokenize line) dictionary with
    | error fault middle =>
        rw [run] at success
        cases success
    | ok words middle =>
        rw [run] at success
        dsimp only at success
        cases filled : ParseBuffer.fill buffer true words memory with
        | error fault last =>
            rw [filled] at success
            cases success
        | ok number last =>
            rw [filled] at success
            cases success
            rw [← length_of_parse run]
            exact ⟨(fill_eq_ok filled).1, byteAt_fill static filled⟩

end Dictionary

/-- No code that a line leaves in a text buffer is 0. -/
theorem Codec.ne_zero_of_mem_bufferCodes {codec : Codec} (few : codec.unicode.length ≤ 97)
    {capacity : Nat} {line : String} {code : UInt8}
    (member : code ∈ Machine.bufferCodes codec capacity line) : code ≠ 0 := by
  rcases List.mem_map.mp member with ⟨c, _, rfl⟩
  have bounds : 0 < codec.zsciiOrMark c ∧ codec.zsciiOrMark c ≤ 251 := by
    unfold zsciiOrMark
    cases has : codec.zsciiOfChar c with
    | none => decide
    | some zscii => exact zsciiOfChar_bounds few has
  intro zero
  have value := congrArg UInt8.toNat zero
  rw [UInt8.toNat_ofNat', Nat.mod_eq_of_lt (by omega), UInt8.toNat_zero] at value
  omega

namespace Machine

open ParseBuffer

variable {η : Type} {memory after : Memory} {codec : Codec} {codes : List UInt8} {token : Token}
  {text slot offset : Nat}

/-- A slot of a parse buffer points to a word: its last two bytes are the length of the word and
where it is from the address of the text buffer on, and there the codes of the word stand. -/
structure PointsTo (memory : Memory) (codec : Codec) (text slot offset : Nat) (token : Token) :
    Prop where
  position : (memory.bytes.byteAt (slot + 3)).toNat = token.position + offset
  length : (memory.bytes.byteAt (slot + 2)).toNat = token.text.length
  letters : ∃ codes, memory.Holds (text + (memory.bytes.byteAt (slot + 3)).toNat) codes ∧
    codes.map (fun code => codec.charOfZscii code.toNat) = token.text.toList.map some

/-- Where the codes of a text stand in memory, those of a piece of it stand at its position. -/
theorem letters_of_slice (nonzero : ∀ code ∈ codes, code ≠ 0)
    (slice : Token.IsSlice (bufferText codec codes).toList token) :
    ((codes.drop token.position).take token.text.length).map
        (fun code => codec.charOfZscii code.toNat) = token.text.toList.map some := by
  rw [slice, Codec.toList_bufferText nonzero, ← List.map_drop, ← List.map_take, List.map_map]
  refine List.map_congr_left fun code member => ?_
  have stored : code ∈ codes := List.mem_of_mem_drop (List.mem_of_mem_take member)
  exact Codec.charOfZscii_eq_shown (nonzero code stored)

/-- A slot that holds a word of the stored text points to it, if the position fits into a byte. -/
theorem pointsTo_of_holdsWord {address : UInt16} (nonzero : ∀ code ∈ codes, code ≠ 0)
    (short : codes.length ≤ 255) (holds : memory.Holds (text + offset) codes)
    (slice : Token.IsSlice (bufferText codec codes).toList token)
    (fits : token.position + offset ≤ 255)
    (put : HoldsWord memory slot offset (Dictionary.parsed address token)) :
    PointsTo memory codec text slot offset token := by
  have length : token.text.length ≤ codes.length := by
    have measured := congrArg List.length slice
    rw [String.length_toList, List.length_take, List.length_drop,
      Codec.toList_bufferText nonzero, List.length_map] at measured
    omega
  have position : (memory.bytes.byteAt (slot + 3)).toNat = token.position + offset := by
    rw [put.position]
    simp only [Dictionary.parsed, UInt8.toNat_ofNat']
    omega
  constructor
  case position => exact position
  case length =>
    rw [put.length]
    simp only [Dictionary.parsed, UInt8.toNat_ofNat']
    omega
  case letters =>
    refine ⟨_, ?_, letters_of_slice nonzero slice⟩
    rw [position, Nat.add_comm token.position, ← Nat.add_assoc]
    exact holds.slice token.position token.text.length

/-- A text buffer whose first byte is `size`. From version 5 on a byte for the number of letters
comes before the letters. -/
def textBuffer (version text size : Nat) : Set Nat :=
  Set.Icc text (text + size + if version ≤ 4 then 0 else 1)

/-- A parse buffer that has `capacity` slots. -/
def parseBuffer (parse capacity : Nat) : Set Nat :=
  Set.Icc parse (parse + 1 + 4 * capacity)

/-- What is left in a text buffer for a letter or more lies in it. -/
theorem textRange_subset {version size : Nat} (room : 0 < bufferCapacity version size) :
    textRange version text size ⊆ textBuffer version text size := by
  unfold bufferCapacity at room
  unfold textRange textBuffer
  by_cases early : version ≤ 4
  · rw [if_pos early] at room
    rw [if_pos early, if_pos early, Nat.max_eq_left (by omega)]
    exact Set.Icc_subset_Icc_left (by omega)
  · rw [if_neg early, if_neg early]
    exact Set.Icc_subset_Icc (by omega) (by omega)

theorem holds_of_lineBytes {version : Nat}
    (holds : memory.Holds (text + 1) (lineBytes version codes)) :
    memory.Holds (text + textOffset version) codes := by
  unfold lineBytes at holds
  unfold textOffset
  by_cases early : version ≤ 4
  · rw [if_pos early] at holds
    rw [if_neg (by omega)]
    exact (holds_append.mp holds).1
  · rw [if_neg early] at holds
    rw [if_pos (by omega)]
    exact (holds_cons.mp holds).2

section Reading

variable {machine entered filled : Machine η} {dictionary : Dictionary} {parse : Nat}

theorem tokenize_nil (dictionary : Dictionary) (codec : Codec) :
    dictionary.tokenize (bufferText codec []) = [] := by
  simp [Dictionary.tokenize, Token.split, bufferText, Token.splitFrom, Token.finish]

/-- The words of a line that has been entered are found in it by way of their slots. -/
theorem pointsTo_of_parseLine
    (static : entered.memory.header.staticBase ≤ entered.memory.bytes.size)
    (present : entered.dictionary = some dictionary) (parsing : parse ≠ 0)
    (nonzero : ∀ code ∈ codes, code ≠ 0) (short : codes.length ≤ 255)
    (holds : entered.memory.Holds (text + textOffset entered.version) codes)
    (apart : ∀ place, text + textOffset entered.version ≤ place →
      place < text + textOffset entered.version + codes.length →
      place ∉ range parse (entered.memory.bytes.byteAt parse).toNat)
    (success : parseLine parse codes entered = .ok () filled) :
    let tokens := dictionary.tokenize (bufferText entered.codec codes)
    let count := min tokens.length (entered.memory.bytes.byteAt parse).toNat
    (filled.memory.bytes.byteAt (parse + 1)).toNat = count ∧
      ∀ index < count, ∀ token, tokens[index]? = some token →
        token.position + textOffset entered.version ≤ 255 →
        PointsTo filled.memory entered.codec text (slotAddress parse index)
            (textOffset entered.version) token ∧
          dictionary.answerAt entered.memory entered.codec tokens index token =
            .ok (filled.memory.bytes.wordAt (slotAddress parse index)) := by
  intro tokens count
  rw [parseLine, if_neg parsing] at success
  rcases (tokeniseLine_eq_ok present).mp success with
    ⟨words, later, number, memory, found, wrote, rfl⟩
  have total : number = count := by
    rw [(fill_eq_ok wrote).1, Dictionary.length_of_parse found]
  subst total
  have confined := confined_fill parse false words entered.memory
  have size := ((writes_fill parse false words).of_ok wrote).size
  rw [stateAfter_of_ok wrote] at confined
  have kept : memory.Holds (text + textOffset entered.version) codes :=
    holds.of_same size fun place first last => confined place (apart place first last)
  refine ⟨byteAt_fill static wrote, ?_⟩
  intro index few token member fits
  rcases Dictionary.getElem?_of_parse found member with ⟨address, answered, put⟩
  have held := holdsWord_fill static wrote few put
  have slice : Token.IsSlice (bufferText entered.codec codes).toList token :=
    ((Token.segments_split _ _ _).words token (List.mem_of_getElem? member)).slice
  refine ⟨pointsTo_of_holdsWord nonzero short kept slice fits held, ?_⟩
  rw [answered, held.address]
  rfl

variable [Host η]

/-- Entering a letter or more changes nothing of a parse buffer beside the text buffer, and the
slots of that parse buffer lie beside the letters. -/
theorem parseBuffer_of_entered
    (apart : Apart (textBuffer machine.version text (machine.memory.bytes.byteAt text).toNat)
      (parseBuffer parse (machine.memory.bytes.byteAt parse).toNat))
    (begun : enterLine text machine = .ok codes entered) (letter : codes ≠ []) :
    entered.memory.bytes.byteAt parse = machine.memory.bytes.byteAt parse ∧
      ∀ place, text + textOffset machine.version ≤ place →
        place < text + textOffset machine.version + codes.length →
        place ∉ range parse (machine.memory.bytes.byteAt parse).toNat := by
  rcases enterLine_eq_ok begun with ⟨size, line, room, _, counted, _, _⟩
  have first : machine.memory.bytes.byteAt text = size := (readByte_eq_ok.mp room).2.2
  have fits : codes.length ≤ bufferCapacity machine.version size.toNat :=
    counted ▸ length_bufferCodes _ _ _
  have inside : textRange machine.version text size.toNat ⊆
      textBuffer machine.version text size.toNat :=
    textRange_subset (Nat.lt_of_lt_of_le (List.length_pos_iff.mpr letter) fits)
  have entering := confined_enterLine text machine
  rw [first] at apart entering
  rw [stateAfter_of_ok begun] at entering
  constructor
  · refine entering parse fun reached => apart parse (inside reached) ⟨Nat.le_refl _, by omega⟩
  · intro place low high reached
    have within : place ∈ textRange machine.version text size.toNat := by
      unfold textOffset at low high
      by_cases early : machine.version ≤ 4
      · rw [if_neg (by omega)] at low high
        apply mem_textRange fits low
        rw [lineBytes, if_pos early, List.length_append, List.length_singleton]
        omega
      · rw [if_pos (by omega)] at low high
        apply mem_textRange fits (by omega)
        rw [lineBytes, if_neg early, List.length_cons]
        omega
    have behind := reached.1
    exact apart place (inside within) ⟨by omega, reached.2⟩

/-- Whatever line is entered, as many of its words fit into a parse buffer beside the text buffer as
before, and their slots lie beside the letters. An empty line has no words, so it does not matter
that the zero at its end may lie behind a text buffer that has no room for it. -/
theorem slots_of_entered (dictionary : Dictionary)
    (apart : Apart (textBuffer machine.version text (machine.memory.bytes.byteAt text).toNat)
      (parseBuffer parse (machine.memory.bytes.byteAt parse).toNat))
    (begun : enterLine text machine = .ok codes entered) :
    let tokens := dictionary.tokenize (bufferText machine.codec codes)
    let capacity := (entered.memory.bytes.byteAt parse).toNat
    min tokens.length capacity = min tokens.length (machine.memory.bytes.byteAt parse).toNat ∧
      ∀ place, text + textOffset machine.version ≤ place →
        place < text + textOffset machine.version + codes.length →
        place ∉ range parse capacity := by
  intro tokens capacity
  by_cases empty : codes = []
  · subst empty
    have none : tokens = [] := tokenize_nil dictionary machine.codec
    refine ⟨?_, fun place low high => ?_⟩
    · rw [none, List.length_nil, Nat.zero_min, Nat.zero_min]
    · simp only [List.length_nil] at high
      omega
  · rcases parseBuffer_of_entered apart begun empty with ⟨unchanged, letters⟩
    have same : capacity = (machine.memory.bytes.byteAt parse).toNat :=
      congrArg UInt8.toNat unchanged
    rw [same]
    exact ⟨rfl, letters⟩

/-- Slots point into the text buffer. If a line is read into buffers that do not overlap, the parse
buffer has the number of the words of the stored text, as far as they fit; and if the position of a
word fits into a byte, its slot tells where the word is in the text buffer, how long it is, and what
the dictionary answers for it. If words are skipped that the dictionary lacks, their slots keep
their bytes, and the words count all the same. -/
theorem slots_point_into_text
    (static : machine.memory.header.staticBase ≤ machine.memory.bytes.size)
    (present : machine.dictionary = some dictionary) (few : machine.codec.unicode.length ≤ 97)
    (parsing : parse ≠ 0)
    (apart : Apart (textBuffer machine.version text (machine.memory.bytes.byteAt text).toNat)
      (parseBuffer parse (machine.memory.bytes.byteAt parse).toNat))
    (success : readLine text parse machine = .ok () filled) :
    (∃ line,
      let capacity := bufferCapacity machine.version (machine.memory.bytes.byteAt text).toNat
      let tokens := dictionary.tokenize
        (bufferText machine.codec (bufferCodes machine.codec capacity line))
      let count := min tokens.length (machine.memory.bytes.byteAt parse).toNat
      let entered := (stateAfter (readLine text 0) machine).memory
      (Host.readLine capacity (stateAfter showStatus machine).host).1 = .ok line ∧
      (filled.memory.bytes.byteAt (parse + 1)).toNat = count ∧
      ∀ index < count, ∀ token, tokens[index]? = some token →
        token.position + textOffset machine.version ≤ 255 →
        let found := filled.memory.bytes.wordAt (slotAddress parse index)
        PointsTo filled.memory machine.codec text (slotAddress parse index)
            (textOffset machine.version) token ∧
          dictionary.answerAt entered machine.codec tokens index token = .ok found ∧
          ((∀ word address, dictionary.memo = some (word, address) →
              dictionary.search entered machine.codec word = .ok address) →
            dictionary.search entered machine.codec token.text = .ok found)) ∧
    ∀ (other : Dictionary) (codec : Codec) (line : String) (buffer : Nat) (memory : Memory),
      memory.header.staticBase ≤ memory.bytes.size →
      other.SkipsUnknown codec line buffer memory := by
  refine ⟨?_, fun other codec line buffer memory static =>
    other.skipsUnknown_tokeniseInto static codec line buffer⟩
  rcases readLine_eq_ok success with ⟨codes, entered, begun, ended⟩
  rcases enterLine_eq_ok begun with ⟨size, line, room, answered, counted, written, same⟩
  have first : machine.memory.bytes.byteAt text = size := (readByte_eq_ok.mp room).2.2
  have calm := ((calm_readLine text 0).of_ok (readLine_of_entered begun)).memory
  have codec : entered.codec = machine.codec := by rw [same]
  have version : entered.version = machine.version := congrArg Header.version calm.header
  have nonzero : ∀ code ∈ codes, code ≠ 0 := fun code member =>
    Codec.ne_zero_of_mem_bufferCodes few (counted ▸ member)
  have short : codes.length ≤ 255 :=
    Nat.le_of_lt_succ (counted ▸ length_bufferCodes_lt machine.codec machine.version size line)
  have holds := holds_of_lineBytes (holds_writeBuffer static written)
  rcases slots_of_entered dictionary apart begun with ⟨count, beside⟩
  rw [← version] at holds beside
  rcases pointsTo_of_parseLine (by rwa [calm.header, calm.size]) (by rw [same]; exact present)
    parsing nonzero short holds beside ended with ⟨total, slots⟩
  rw [codec, count] at total slots
  rw [version] at slots
  rw [first, stateAfter_of_ok (readLine_of_entered begun)]
  refine ⟨line, answered, ?_⟩
  rw [← counted]
  refine ⟨total, ?_⟩
  intro index few token member fits found
  rcases slots index few token member fits with ⟨points, looked⟩
  refine ⟨points, looked, fun right => ?_⟩
  rw [← Dictionary.answerAt_eq_search right, looked]

/-- A player says three words, and there are slots for two. The first word is found at 66 and the
comma behind it. If unknown words are skipped, the slot of the comma stays as it is. -/
theorem slots_point_into_text_spoken :
    let machine := talking [] ["Up,go"]
    let filled := stateAfter (readLine 64 72) machine
    (filled.memory.bytes.byteAt 73).toNat = 2 ∧
      PointsTo filled.memory machine.codec 64 74 2 ⟨"up", 0⟩ ∧
      PointsTo filled.memory machine.codec 64 78 2 ⟨",", 2⟩ ∧
      Dictionary.talking.search (stateAfter (readLine 64 0) machine).memory machine.codec "up" =
        .ok (filled.memory.bytes.wordAt 74) ∧
      ∀ address ∈ slotRange 78,
        (stateAfter (Dictionary.tokeniseInto machine.codec "up,go" 72 true)
          (.talking, machine.memory)).2.bytes.byteAt address =
            machine.memory.bytes.byteAt address := by
  intro machine filled
  have static : machine.memory.header.staticBase ≤ machine.memory.bytes.size := by decide +kernel
  have present : machine.dictionary = some .talking := rfl
  have few : machine.codec.unicode.length ≤ 97 := by decide +kernel
  have version : machine.version = 5 := by decide +kernel
  have size : machine.memory.bytes.byteAt 64 = 5 := by decide +kernel
  have room : machine.memory.bytes.byteAt 72 = 2 := by decide +kernel
  have said : (Host.readLine 5 machine.host).1 = .ok "Up,go" := rfl
  have tokens : Dictionary.talking.tokenize
      (bufferText machine.codec (bufferCodes machine.codec 5 "Up,go")) =
        [⟨"up", 0⟩, ⟨",", 2⟩, ⟨"go", 3⟩] := by
    decide +kernel
  have done : valueOf (readLine 64 72) machine = some () := by decide +kernel
  have unknown : (Dictionary.talking.answerAt machine.memory machine.codec
      (Dictionary.talking.tokenize "up,go") 1 ⟨",", 2⟩).toOption = some 0 := by
    decide +kernel
  clear_value machine
  have apart : Apart (textBuffer machine.version 64 (machine.memory.bytes.byteAt 64).toNat)
      (parseBuffer 72 (machine.memory.bytes.byteAt 72).toNat) := by
    rw [version, size]
    intro address within behind
    have before : address ≤ 70 := within.2
    have := behind.1
    omega
  rcases slots_point_into_text static present few (by decide) apart (eq_ok_of_valueOf done) with
    ⟨⟨line, answered, total, slots⟩, skips⟩
  have late : 3 < machine.version := by omega
  have capacity : bufferCapacity machine.version (machine.memory.bytes.byteAt 64).toNat = 5 := by
    rw [version, size]
    rfl
  rw [capacity] at answered total slots
  rw [stateAfter_of_ok (showStatus_of_late late), said, Except.ok.injEq] at answered
  subst answered
  rw [tokens, room] at total slots
  rw [version] at slots
  have first := slots 0 (by decide) _ rfl (by decide)
  have second := slots 1 (by decide) _ rfl (by decide)
  have forgets : ∀ word address, Dictionary.talking.memo = some (word, address) →
      Dictionary.talking.search (stateAfter (readLine 64 0) machine).memory machine.codec word =
        .ok address := by
    intro word address remembers
    cases remembers
  exact ⟨total, first.1, second.1, first.2.2 forgets,
    (skips .talking machine.codec "up,go" 72 machine.memory static).untouched 1 _
      (by decide) (eq_ok_of_toOption unknown)⟩

end Reading

end Machine

end ZMachine
