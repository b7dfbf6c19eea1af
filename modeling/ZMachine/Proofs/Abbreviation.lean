import ZMachine.Abbreviation
import ZMachine.Proofs.Memory.Addressing
import ZMachine.Proofs.Zscii.Reading

/-!
# Abbreviations are not nested

The tables of a story may name any strings for abbreviations: strings that refer to themselves or to
each other, or that lie outside the file. The text at an address is found all the same, or a fault
is, because a string that stands for an abbreviation is never looked up further: a complete
reference in it is a fault. So a text consists of its own letters and of the letters of strings
without references, as `AbbreviationTable.Renders` says for each of its pieces.
-/

namespace ZMachine

/-- The piece does not refer to an abbreviation. -/
def Piece.isLetter : Piece → Bool
  | .letter _ => true
  | .reference _ _ => false

namespace Codec

variable {codec : Codec} {codes : List Nat} {text : String} {fault : Fault}

/-- The codes, read as a text that starts with small letters, hold no complete reference. -/
def Plain (codec : Codec) (codes : List Nat) : Prop :=
  ∀ piece ∈ codec.pieces codes, piece.isLetter

instance (codec : Codec) (codes : List Nat) : Decidable (codec.Plain codes) :=
  inferInstanceAs (Decidable (∀ _ ∈ _, _))

theorem plain_of_decodeText (read : codec.decodeText Expansion.refuse codes = .ok text) :
    codec.Plain codes := by
  rw [decodeText_eq_fill] at read
  intro piece member
  cases piece with
  | letter c => rfl
  | reference table index =>
      rcases Piece.text_of_mem read member with ⟨part, impossible⟩
      cases impossible

theorem refused_of_decodeText (failed : codec.decodeText Expansion.refuse codes = .error fault) :
    ¬ codec.Plain codes ∧ ∃ table index, fault = .nestedAbbreviation table index := by
  rw [decodeText_eq_fill] at failed
  rcases Piece.fill_eq_error failed with ⟨table, index, member, refused⟩
  cases refused
  refine ⟨fun plain => ?_, table, index, rfl⟩
  exact absurd (plain _ member) (by simp [Piece.isLetter])

end Codec

/-- Packed text cannot be read if the file ends before it. -/
theorem Memory.outside_of_textLength {memory : Memory} {address consumed : Nat}
    {limit : Option Nat} {fault : Fault}
    (failed : memory.textLength address limit consumed = .error fault) :
    ∃ outside, fault = .outsideStory outside := by
  fun_induction Memory.textLength memory address limit consumed with
  | case1 consumed reached => cases failed
  | case2 consumed unreached short =>
      cases failed
      exact ⟨_, rfl⟩
  | case3 consumed unreached enough last => cases failed
  | case4 consumed unreached enough more ih => exact ih failed

theorem Memory.textLength_of_sameBytes {memory other : Memory} {address consumed : Nat}
    {limit : Option Nat} (same : other.bytes = memory.bytes) :
    other.textLength address limit consumed = memory.textLength address limit consumed := by
  fun_induction textLength memory address limit consumed with
  | case1 consumed reached => rw [textLength, if_pos reached]
  | case2 consumed unreached short => rw [textLength, if_neg unreached, same, if_pos short]
  | case3 consumed unreached enough last =>
      rw [textLength, if_neg unreached, same, if_neg enough, if_pos last]
  | case4 consumed unreached enough more ih =>
      rw [textLength, if_neg unreached, same, if_neg enough, if_neg more, ih]

theorem Memory.outside_of_readCodes {memory : Memory} {address : Nat} {limit : Option Nat}
    {fault : Fault} (failed : memory.readCodes address limit = .error fault) :
    ∃ outside, fault = .outsideStory outside := by
  unfold readCodes at failed
  cases measured : memory.textLength address limit 0 with
  | error reason =>
      rw [measured] at failed
      cases failed
      exact Memory.outside_of_textLength measured
  | ok length =>
      rw [measured] at failed
      cases failed

namespace AbbreviationTable

variable {abbreviations : AbbreviationTable} {memory : Memory} {codec : Codec}
  {table index : Nat} {own : List Nat} {text : String} {fault : Fault}

/-- The codes of the string that stands for an abbreviation. -/
def ownCodes (abbreviations : AbbreviationTable) (memory : Memory) (table index : Nat) :
    Except Fault (List Nat) := do
  let address ← abbreviations.stringAddress memory table index
  let (_, codes) ← memory.readCodes address none
  return codes

/-- What a piece of a text prints: a letter prints itself, and a reference the text of a string
without references, which is read from small letters on. -/
inductive Renders (abbreviations : AbbreviationTable) (memory : Memory) (codec : Codec) :
    Piece → String → Prop where
  | letter (c : Char) : Renders abbreviations memory codec (.letter c) (String.singleton c)
  | reference {table index : Nat} {own : List Nat} {text : String}
      (found : abbreviations.ownCodes memory table index = .ok own) (plain : codec.Plain own)
      (reads : codec.decodeText Expansion.refuse own = .ok text) :
      Renders abbreviations memory codec (.reference table index) text

theorem expand_of_ownCodes (found : abbreviations.ownCodes memory table index = .ok own) :
    abbreviations.expand memory codec table index =
      (codec.decodeText Expansion.refuse own).mapError (blameReference table index) := by
  rcases query_bind_eq_ok.mp found with ⟨address, located, more⟩
  rcases query_bind_eq_ok.mp more with ⟨⟨length, codes⟩, read, done⟩
  cases done
  simp only [expand, located, read, bind, Except.bind]

/-- A string is missing if its address is, or if it cannot be read from there. -/
theorem ownCodes_eq_error (missing : abbreviations.ownCodes memory table index = .error fault) :
    abbreviations.stringAddress memory table index = .error fault ∨
      ∃ address, abbreviations.stringAddress memory table index = .ok address ∧
        memory.readCodes address none = .error fault := by
  unfold ownCodes at missing
  cases located : abbreviations.stringAddress memory table index with
  | error reason =>
      rw [located] at missing
      cases missing
      exact Or.inl rfl
  | ok address =>
      cases read : memory.readCodes address none with
      | error reason =>
          simp only [located, read, bind, Except.bind] at missing
          cases missing
          exact Or.inr ⟨address, rfl, read⟩
      | ok found =>
          simp only [located, read, bind, Except.bind] at missing
          cases missing

theorem expand_of_missing (missing : abbreviations.ownCodes memory table index = .error fault) :
    abbreviations.expand memory codec table index = .error fault := by
  rcases ownCodes_eq_error missing with unlocated | ⟨address, located, unread⟩
  · simp only [expand, unlocated, bind, Except.bind]
  · simp only [expand, located, unread, bind, Except.bind]

/-- A reference that a text can hold names a word of memory, which may lie outside the file. -/
theorem outside_of_stringAddress (first : 1 ≤ table) (last : table ≤ 3) (small : index < 32)
    (unlocated : abbreviations.stringAddress memory table index = .error fault) :
    ∃ outside, fault = .outsideStory outside := by
  rw [stringAddress, if_neg (by omega)] at unlocated
  unfold Memory.fetchWord at unlocated
  split at unlocated
  · cases unlocated
    exact ⟨_, rfl⟩
  · cases unlocated

/-- A string that refers to an abbreviation is refused, and the blame is on the reference to it. -/
theorem expand_of_nested (found : abbreviations.ownCodes memory table index = .ok own)
    (nested : ¬ codec.Plain own) :
    abbreviations.expand memory codec table index = .error (.nestedAbbreviation table index) := by
  rw [expand_of_ownCodes found]
  cases read : codec.decodeText Expansion.refuse own with
  | ok text => exact absurd (Codec.plain_of_decodeText read) nested
  | error fault =>
      rcases (Codec.refused_of_decodeText read).2 with ⟨_, _, rfl⟩
      rfl

theorem expand_eq_ok :
    abbreviations.expand memory codec table index = .ok text ↔
      abbreviations.Renders memory codec (.reference table index) text := by
  constructor
  · intro expanded
    cases found : abbreviations.ownCodes memory table index with
    | error fault =>
        rw [expand_of_missing found] at expanded
        cases expanded
    | ok own =>
        rw [expand_of_ownCodes found] at expanded
        cases read : codec.decodeText Expansion.refuse own with
        | error fault =>
            rw [read] at expanded
            cases expanded
        | ok said =>
            rw [read] at expanded
            cases expanded
            exact .reference found (Codec.plain_of_decodeText read) read
  · intro renders
    cases renders with
    | reference found plain reads =>
        rw [expand_of_ownCodes found, reads]
        rfl

/-- The string lies outside the file, or it refers to an abbreviation. -/
theorem expand_eq_error (first : 1 ≤ table) (last : table ≤ 3) (small : index < 32)
    (failed : abbreviations.expand memory codec table index = .error fault) :
    (∃ outside, fault = .outsideStory outside) ∨
      ∃ own, abbreviations.ownCodes memory table index = .ok own ∧ ¬ codec.Plain own ∧
        fault = .nestedAbbreviation table index := by
  cases found : abbreviations.ownCodes memory table index with
  | ok own =>
      right
      cases read : codec.decodeText Expansion.refuse own with
      | ok text =>
          rw [expand_of_ownCodes found, read] at failed
          cases failed
      | error reason =>
          have nested := (Codec.refused_of_decodeText read).1
          rw [expand_of_nested found nested] at failed
          cases failed
          exact ⟨own, rfl, nested, rfl⟩
  | error reason =>
      left
      rw [expand_of_missing found] at failed
      cases failed
      rcases ownCodes_eq_error found with unlocated | ⟨address, _, unread⟩
      · exact outside_of_stringAddress first last small unlocated
      · exact Memory.outside_of_readCodes unread

/-- Abbreviations are read from the bytes of the file. -/
theorem expand_of_sameBytes {other : Memory} (same : other.bytes = memory.bytes) :
    abbreviations.expand other codec = abbreviations.expand memory codec := by
  unfold expand stringAddress Memory.fetchWord Memory.readCodes Memory.codesIn
  simp only [Memory.textLength_of_sameBytes same, same]

theorem text_eq_ok {piece : Piece} :
    piece.text (abbreviations.expand memory codec) = .ok text ↔
      abbreviations.Renders memory codec piece text := by
  cases piece with
  | reference table index => exact expand_eq_ok
  | letter c =>
      constructor
      · intro tells
        cases tells
        exact .letter c
      · intro renders
        cases renders
        rfl

variable {address length : Nat} {codes : List Nat}

theorem stringAt_of_readCodes (read : memory.readCodes address none = .ok (length, codes)) :
    abbreviations.stringAt memory codec address =
      (Piece.fill (abbreviations.expand memory codec) (codec.pieces codes)).map (·, length) := by
  simp only [stringAt, read, bind, Except.bind, Codec.decodeText_eq_fill]
  cases Piece.fill (abbreviations.expand memory codec) (codec.pieces codes) with
  | error fault => rfl
  | ok text => rfl

theorem stringAt_of_unread (unread : memory.readCodes address none = .error fault) :
    abbreviations.stringAt memory codec address = .error fault := by
  simp only [stringAt, unread, bind, Except.bind]

theorem stringAt_eq_ok :
    abbreviations.stringAt memory codec address = .ok (text, length) ↔
      ∃ codes parts, memory.readCodes address none = .ok (length, codes) ∧
        List.Forall₂ (abbreviations.Renders memory codec) (codec.pieces codes) parts ∧
        text = String.join parts := by
  cases read : memory.readCodes address none with
  | error fault => simp [stringAt_of_unread read]
  | ok result =>
      rcases result with ⟨found, codes⟩
      have filled : Piece.fill (abbreviations.expand memory codec) (codec.pieces codes) = .ok text ↔
          ∃ parts, List.Forall₂ (abbreviations.Renders memory codec) (codec.pieces codes) parts ∧
            text = String.join parts := by
        rw [Piece.fill_eq_ok]
        simp only [text_eq_ok]
      rw [stringAt_of_readCodes read]
      constructor
      · intro success
        cases all : Piece.fill (abbreviations.expand memory codec) (codec.pieces codes) with
        | error fault =>
            rw [all] at success
            cases success
        | ok said =>
            rw [all] at success
            cases success
            rcases filled.mp all with ⟨parts, each, joined⟩
            exact ⟨codes, parts, rfl, each, joined⟩
      · rintro ⟨_, parts, same, each, joined⟩
        cases same
        rw [filled.mpr ⟨parts, each, joined⟩]
        rfl

/-- The text at an address fails if it or one of its references leads outside the file, or if one of
its references leads to a string that has references. -/
theorem stringAt_eq_error (failed : abbreviations.stringAt memory codec address = .error fault) :
    (∃ outside, fault = .outsideStory outside) ∨
      ∃ length codes table index own, memory.readCodes address none = .ok (length, codes) ∧
        .reference table index ∈ codec.pieces codes ∧
        abbreviations.ownCodes memory table index = .ok own ∧ ¬ codec.Plain own ∧
        fault = .nestedAbbreviation table index := by
  cases read : memory.readCodes address none with
  | error reason =>
      rw [stringAt_of_unread read] at failed
      cases failed
      exact Or.inl (Memory.outside_of_readCodes read)
  | ok result =>
      rcases result with ⟨length, codes⟩
      rw [stringAt_of_readCodes read] at failed
      cases filled : Piece.fill (abbreviations.expand memory codec) (codec.pieces codes) with
      | ok said =>
          rw [filled] at failed
          cases failed
      | error reason =>
          rw [filled] at failed
          cases failed
          rcases Piece.fill_eq_error filled with ⟨table, index, member, refused⟩
          have small : ∀ code ∈ codes, code < 32 := fun code inside =>
            Memory.lt_of_readCodes read inside
          have known : ∀ table, (Standing.start 0).awaited = .index table →
              1 ≤ table ∧ table ≤ 3 := by
            intro table begun
            cases begun
          rcases Codec.reference_bounds small known member with ⟨first, last, fits⟩
          rcases expand_eq_error first last fits refused with outside | ⟨own, found, nested, rfl⟩
          · exact Or.inl outside
          · exact Or.inr ⟨length, codes, table, index, own, rfl, member, found, nested, rfl⟩

/-- Whatever the tables of abbreviations look like, the text at an address is found or there is a
fault: the file ends too early, or a reference in the text leads to a string with references of its
own. A text that is found consists of its own letters and, for each of its references, the letters
of a string without references. The first reference to a string with references is blamed, if the
codes before it can be read. -/
theorem stringAt_expands_once (abbreviations : AbbreviationTable) (memory : Memory) (codec : Codec)
    (address : Nat) :
    ((∃ text length, abbreviations.stringAt memory codec address = .ok (text, length)) ∨
      ∃ fault, abbreviations.stringAt memory codec address = .error fault ∧
        ((∃ outside, fault = .outsideStory outside) ∨
          ∃ length codes table index own, memory.readCodes address none = .ok (length, codes) ∧
            .reference table index ∈ codec.pieces codes ∧
            abbreviations.ownCodes memory table index = .ok own ∧ ¬ codec.Plain own ∧
            fault = .nestedAbbreviation table index)) ∧
    (∀ text length, abbreviations.stringAt memory codec address = .ok (text, length) ↔
      ∃ codes parts, memory.readCodes address none = .ok (length, codes) ∧
        List.Forall₂ (abbreviations.Renders memory codec) (codec.pieces codes) parts ∧
        text = String.join parts) ∧
    ∀ length before table index after own said,
      memory.readCodes address none = .ok (length, before ++ table :: index :: after) →
      codec.Refers 0 before table →
      abbreviations.ownCodes memory table index = .ok own → ¬ codec.Plain own →
      codec.decodeText (abbreviations.expand memory codec) before = .ok said →
      abbreviations.stringAt memory codec address = .error (.nestedAbbreviation table index) := by
  refine ⟨?_, fun text length => stringAt_eq_ok, ?_⟩
  · cases ends : abbreviations.stringAt memory codec address with
    | ok result => exact Or.inl ⟨result.1, result.2, rfl⟩
    | error fault => exact Or.inr ⟨fault, rfl, stringAt_eq_error ends⟩
  · intro length before table index after own said read refers found nested reads
    have refused := expand_of_nested found nested
    rcases Codec.pieces_of_refers refers with ⟨rest, pieces⟩
    rw [Codec.decodeText_eq_fill] at reads
    rw [stringAt_of_readCodes read, pieces, Piece.fill_append_of_error reads refused]
    rfl

/-- A story of version 3 with two abbreviations: the word "the", and a string that refers to itself.
Two texts follow, one for each. -/
def circularStory : Memory :=
  let bytes : List UInt8 := [3] ++ List.replicate 23 0 ++ [0, 64] ++ List.replicate 38 0 ++
    [0, 35, 0, 36, 0, 0, 0xE5, 0xAA, 0x84, 0x26, 0x84, 0x06, 0x1C, 0x21, 0x98, 0xC6]
  let image := bytes.toArray
  { bytes := image, pristine := image, header := Header.read image, pc := 0 }

/-- The first text is completed by the first abbreviation. The second one breaks off where the
second abbreviation refers to itself. -/
theorem stringAt_expands_once_circular :
    let abbreviations := ofMemory circularStory
    let codec := Codec.standard 3
    (∃ codes parts, circularStory.readCodes 74 none = .ok (2, codes) ∧
      List.Forall₂ (abbreviations.Renders circularStory codec) (codec.pieces codes) parts ∧
      "thea" = String.join parts) ∧
    abbreviations.stringAt circularStory codec 74 = .ok ("thea", 2) ∧
    circularStory.readCodes 76 none = .ok (4, [7, 1, 1, 6, 6, 6]) ∧ codec.Refers 0 [7] 1 ∧
    abbreviations.ownCodes circularStory 1 1 = .ok [1, 1, 6] ∧ ¬ codec.Plain [1, 1, 6] ∧
    codec.decodeText (abbreviations.expand circularStory codec) [7] = .ok "b" ∧
    abbreviations.stringAt circularStory codec 76 = .error (.nestedAbbreviation 1 1) := by
  intro abbreviations codec
  have first : circularStory.readCodes 74 none = .ok (2, [1, 0, 6]) :=
    eq_ok_of_toOption (by decide +kernel)
  have the : abbreviations.ownCodes circularStory 1 0 = .ok [25, 13, 10] :=
    eq_ok_of_toOption (by decide +kernel)
  have reads : codec.decodeText Expansion.refuse [25, 13, 10] = .ok "the" :=
    eq_ok_of_toOption (by decide +kernel)
  have second : circularStory.readCodes 76 none = .ok (4, [7, 1, 1, 6, 6, 6]) :=
    eq_ok_of_toOption (by decide +kernel)
  have itself : abbreviations.ownCodes circularStory 1 1 = .ok [1, 1, 6] :=
    eq_ok_of_toOption (by decide +kernel)
  have before : codec.decodeText (abbreviations.expand circularStory codec) [7] = .ok "b" :=
    eq_ok_of_toOption (by decide +kernel)
  have refers : codec.Refers 0 [7] 1 := by decide
  have nested : ¬ codec.Plain [1, 1, 6] := by decide
  have rendered : ∃ codes parts, circularStory.readCodes 74 none = .ok (2, codes) ∧
      List.Forall₂ (abbreviations.Renders circularStory codec) (codec.pieces codes) parts ∧
      "thea" = String.join parts := by
    refine ⟨[1, 0, 6], ["the", "a"], first, ?_, by decide⟩
    exact .cons (.reference the (by decide) reads) (.cons (.letter 'a') .nil)
  rcases stringAt_expands_once abbreviations circularStory codec 74 with ⟨_, finds, _⟩
  rcases stringAt_expands_once abbreviations circularStory codec 76 with ⟨_, _, blames⟩
  exact ⟨rendered, (finds "thea" 2).mpr rendered, second, refers, itself, nested, before,
    blames 4 [7] 1 1 [6, 6, 6] [1, 1, 6] "b" second refers itself nested before⟩

end AbbreviationTable

end ZMachine
