import ZMachine.Host.Recorded
import ZMachine.Machine.Step
import ZMachine.Proofs.Abbreviation
import ZMachine.Proofs.Memory.PackedText

/-!
# What an instruction depends on

An instruction is read from its own bytes. Another memory that has the same bytes there gives the
same instruction, however long it is and whatever else it holds. Only the text of an instruction
looks further: the strings that stand for abbreviations lie elsewhere.

`Fetching.Repeats` compares a reader on one memory with a reader on another: if the first one
succeeds, the second one does the same, provided that the memories share the bytes in between. It
carries over to sequences, so that each part of an instruction has a law of its own.
-/

namespace ZMachine

namespace Memory

/-- The bytes that a memory has from one address up to another are the same in another memory. -/
def SharedWith (memory other : Memory) (first last : Nat) : Prop :=
  ∀ place < last, first ≤ place → place < memory.bytes.size →
    other.bytes[place]? = memory.bytes[place]?

instance (memory other : Memory) (first last : Nat) :
    Decidable (memory.SharedWith other first last) :=
  inferInstanceAs (Decidable (∀ place < last, _ → _ → _))

variable {memory other : Memory} {first last place count : Nat}

namespace SharedWith

variable (shared : memory.SharedWith other first last)

include shared

theorem mono {inner outer : Nat} (begins : first ≤ inner) (ends : outer ≤ last) :
    memory.SharedWith other inner outer :=
  fun place before after inside => shared place (by omega) (by omega) inside

theorem byteAt (begins : first ≤ place) (ends : place < last) (inside : place < memory.bytes.size) :
    place < other.bytes.size ∧ other.bytes.byteAt place = memory.bytes.byteAt place := by
  have same := shared place ends begins inside
  refine ⟨?_, by simp only [Image.byteAt, same]⟩
  rw [Array.getElem?_eq_getElem inside] at same
  exact (Array.getElem?_eq_some_iff.mp same).1

theorem wordAt (begins : first ≤ place) (ends : place + 2 ≤ last)
    (inside : place + 2 ≤ memory.bytes.size) :
    place + 2 ≤ other.bytes.size ∧ other.bytes.wordAt place = memory.bytes.wordAt place := by
  have high := shared.byteAt begins (by omega) (by omega)
  have next : first ≤ place + 1 := by omega
  have low := shared.byteAt next (by omega) (by omega)
  exact ⟨low.1, by simp only [Image.wordAt, high.2, low.2]⟩

end SharedWith

/-- A text ends where it does in every memory that shares its bytes, and has the same words. -/
theorem TextEnds.shared {limit : Option Nat} (ends : memory.TextEnds first limit count)
    (shared : memory.SharedWith other first (first + 2 * count)) :
    other.TextEnds first limit count ∧
      other.wordsFrom first count = memory.wordsFrom first count := by
  have words : ∀ index < count, first + 2 * index + 2 ≤ other.bytes.size ∧
      other.bytes.wordAt (first + 2 * index) = memory.bytes.wordAt (first + 2 * index) :=
    fun index short => shared.wordAt (by omega) (by omega) (ends.inside index short)
  refine ⟨⟨fun index short => (words index short).1, ?_, ends.below, ?_⟩, ?_⟩
  · intro index before
    rw [(words index (by omega)).2]
    exact ends.unmarked index before
  · rcases ends.stops with ⟨index, isLast, marked⟩ | reached
    · refine Or.inl ⟨index, isLast, ?_⟩
      rwa [(words index (by omega)).2]
    · exact Or.inr reached
  · apply List.map_congr_left
    intro index short
    exact (words index (List.mem_range.mp short)).2

theorem readCodes_of_shared {limit : Option Nat} {length : Nat} {codes : List Nat}
    (read : memory.readCodes first limit = .ok (length, codes))
    (shared : memory.SharedWith other first (first + length)) :
    other.readCodes first limit = .ok (length, codes) := by
  rcases readCodes_eq_ok.mp read with ⟨count, ends, same⟩
  cases same
  rcases ends.shared shared with ⟨again, words⟩
  rw [readCodes_of_ends again, words]

end Memory

namespace AbbreviationTable

/-- Another memory has the tables of abbreviations of a memory, and the strings that they name. -/
structure SharedWith (abbreviations : AbbreviationTable) (memory other : Memory) : Prop where
  tables : memory.SharedWith other abbreviations.address (abbreviations.address + 192)
  strings : ∀ table index address length codes,
    abbreviations.stringAddress memory table index = .ok address →
    memory.readCodes address none = .ok (length, codes) →
    memory.SharedWith other address (address + length)

variable {abbreviations : AbbreviationTable} {memory other : Memory} {codec : Codec}
  {table index : Nat}

theorem SharedWith.stringAddress (shared : abbreviations.SharedWith memory other) {address : Nat}
    (found : abbreviations.stringAddress memory table index = .ok address) :
    abbreviations.stringAddress other table index = .ok address := by
  unfold AbbreviationTable.stringAddress at found ⊢
  split at found
  · cases found
  · rename_i legal
    rcases query_bind_eq_ok.mp found with ⟨word, fetched, named⟩
    rcases Memory.fetchWord_eq_ok.mp fetched with ⟨inside, value⟩
    have same := shared.tables.wordAt (by omega) (by omega) inside
    rw [if_neg legal]
    refine query_bind_eq_ok.mpr ⟨word, ?_, named⟩
    exact Memory.fetchWord_eq_ok.mpr ⟨same.1, same.2.trans value⟩

theorem SharedWith.expand (shared : abbreviations.SharedWith memory other) {text : String}
    (expanded : abbreviations.expand memory codec table index = .ok text) :
    abbreviations.expand other codec table index = .ok text := by
  rcases query_bind_eq_ok.mp expanded with ⟨address, located, more⟩
  rcases query_bind_eq_ok.mp more with ⟨⟨length, codes⟩, read, reads⟩
  have again := Memory.readCodes_of_shared read (shared.strings _ _ _ _ _ located read)
  refine query_bind_eq_ok.mpr ⟨address, shared.stringAddress located, ?_⟩
  exact query_bind_eq_ok.mpr ⟨_, again, reads⟩

end AbbreviationTable

/-- A text can also be read with other expansions, if they replace what the first ones replace. -/
theorem Codec.decode_of_expand {codec : Codec} {expand other : Expansion} {alphabet : Nat}
    {codes : List Nat} {decoded : Decoded}
    (replaces : ∀ table index text, expand table index = .ok text → other table index = .ok text)
    (read : codec.decode expand alphabet codes = .ok decoded) :
    codec.decode other alphabet codes = .ok decoded := by
  rcases decode_eq_ok.mp read with ⟨filled, locked⟩
  rcases Piece.fill_eq_ok.mp filled with ⟨parts, each, said⟩
  refine decode_eq_ok.mpr ⟨Piece.fill_eq_ok.mpr ⟨parts, each.imp ?_, said⟩, locked⟩
  intro piece part tells
  cases piece with
  | letter c => exact tells
  | reference table index => exact replaces table index part tells

namespace Fetching

variable {α β : Type} {memory other : Memory}

/-- What a reader finds on one memory, another one finds on another memory at the same place, if the
memories share the bytes up to where the first one stops. -/
def Repeats (memory other : Memory) (reader again : Fetching α) : Prop :=
  ∀ ⦃address value after⦄, reader address = .ok (value, after) → address ≤ after ∧
    (memory.SharedWith other address after → again address = .ok (value, after))

theorem repeats_pure (value : α) : Repeats memory other (pure value) (pure value) := by
  intro address found after read
  cases read
  exact ⟨le_rfl, fun _ => rfl⟩

theorem repeats_bind {reader again : Fetching α} {next later : α → Fetching β}
    (first : Repeats memory other reader again)
    (rest : ∀ value, Repeats memory other (next value) (later value)) :
    Repeats memory other (reader >>= next) (again >>= later) := by
  intro address value after read
  rcases bind_reads.mp read with ⟨found, middle, firstRead, restRead⟩
  have begun := first firstRead
  have ended := rest found restRead
  refine ⟨begun.1.trans ended.1, fun shared => ?_⟩
  refine bind_reads.mpr ⟨found, middle, ?_, ?_⟩
  · exact begun.2 (shared.mono le_rfl ended.1)
  · exact ended.2 (shared.mono begun.1 le_rfl)

theorem repeats_map (change : α → β) {reader again : Fetching α}
    (repeats : Repeats memory other reader again) :
    Repeats memory other (change <$> reader) (change <$> again) :=
  repeats_bind repeats fun value => repeats_pure (change value)

theorem repeats_ite {condition : Prop} [Decidable condition]
    {first second third fourth : Fetching α}
    (holds : Repeats memory other first second) (fails : Repeats memory other third fourth) :
    Repeats memory other (if condition then first else third)
      (if condition then second else fourth) := by
  split
  · exact holds
  · exact fails

theorem repeats_onlyIf {condition : Bool} {reader again : Fetching α}
    (repeats : condition = true → Repeats memory other reader again) :
    Repeats memory other (onlyIf condition reader) (onlyIf condition again) := by
  cases condition with
  | true => exact repeats_map some (repeats rfl)
  | false => exact repeats_pure none

theorem repeats_byte : Repeats memory other (byte memory) (byte other) := by
  intro address value after read
  rcases byte_eq_ok.mp read with ⟨inside, value, rfl⟩
  refine ⟨by omega, fun shared => ?_⟩
  have same := shared.byteAt le_rfl (by omega) inside
  exact byte_eq_ok.mpr ⟨same.1, same.2.trans value, rfl⟩

theorem repeats_word : Repeats memory other (word memory) (word other) := by
  intro address value after read
  rcases query_bind_eq_ok.mp read with ⟨found, fetched, done⟩
  cases done
  rcases Memory.fetchWord_eq_ok.mp fetched with ⟨inside, value⟩
  refine ⟨by omega, fun shared => ?_⟩
  have same := shared.wordAt le_rfl le_rfl inside
  exact query_bind_eq_ok.mpr ⟨_, Memory.fetchWord_eq_ok.mpr ⟨same.1, same.2.trans value⟩, rfl⟩

end Fetching

open Fetching

section Parts

variable (memory other : Memory)

theorem Opening.repeats_read (version : Nat) :
    Repeats memory other (Opening.read version memory) (Opening.read version other) := by
  refine repeats_bind repeats_byte fun first => repeats_ite ?_ (repeats_pure _)
  exact repeats_bind repeats_byte fun number => repeats_pure _

theorem Opening.repeats_readKinds (opening : Opening) :
    Repeats memory other (opening.readKinds memory) (opening.readKinds other) := by
  refine repeats_ite ?_ (repeats_pure _)
  refine repeats_bind repeats_byte fun first => repeats_ite ?_ (repeats_pure _)
  exact repeats_bind repeats_byte fun second => repeats_pure _

theorem Operand.repeats_readAll (kinds : List OperandKind) :
    Repeats memory other (Operand.readAll memory kinds) (Operand.readAll other kinds) := by
  induction kinds with
  | nil => exact repeats_pure []
  | cons kind kinds ih =>
      have rest : ∀ value, Repeats memory other
          (do
            let operands ← Operand.readAll memory kinds
            return (⟨kind, value⟩ : Operand) :: operands)
          (do
            let operands ← Operand.readAll other kinds
            return (⟨kind, value⟩ : Operand) :: operands) := fun value =>
        repeats_bind ih fun operands => repeats_pure _
      simp only [Operand.readAll]
      split
      · exact repeats_bind repeats_word rest
      · exact repeats_bind (repeats_map _ repeats_byte) rest

/-- The target counts from the address behind the branch, which is the same in both memories. -/
theorem Branch.repeats_read : Repeats memory other (Branch.read memory) (Branch.read other) := by
  refine repeats_bind repeats_byte fun first => ?_
  have rest : ∀ offset : Int, Repeats memory other
      (do
        let after ← get
        return (⟨decide (128 ≤ first.toNat), offset, Branch.targetOf after offset⟩ : Branch))
      (do
        let after ← get
        return (⟨decide (128 ≤ first.toNat), offset, Branch.targetOf after offset⟩ : Branch)) := by
    intro offset address value after read
    cases read
    exact ⟨le_rfl, fun _ => rfl⟩
  dsimp only
  split
  · exact repeats_bind (repeats_pure _) rest
  · exact repeats_bind (repeats_map _ repeats_byte) rest

variable {memory other}

theorem Decoder.repeats_readText (decoder : Decoder) (codec : Codec)
    {abbreviations : AbbreviationTable} (strings : abbreviations.SharedWith memory other) :
    Repeats memory other (decoder.readText memory codec abbreviations)
      (decoder.readText other codec abbreviations) := by
  intro address decoded after read
  rcases query_bind_eq_ok.mp read with ⟨⟨length, codes⟩, found, more⟩
  rcases query_bind_eq_ok.mp more with ⟨said, reads, done⟩
  cases done
  refine ⟨by simp, fun shared => ?_⟩
  refine query_bind_eq_ok.mpr ⟨_, Memory.readCodes_of_shared found shared, ?_⟩
  refine query_bind_eq_ok.mpr ⟨decoded, ?_, rfl⟩
  exact Codec.decode_of_expand (fun _ _ _ => strings.expand) reads

end Parts

namespace Decoder

variable {decoder : Decoder} {memory other : Memory} {codec otherCodec : Codec}
  {abbreviations otherAbbreviations : AbbreviationTable} {address after alphabet : Nat}
  {instruction : Instruction} {later : Decoder}

/-- An instruction is put together again from a memory that shares its bytes, if its text is. -/
theorem Reads.of_shared
    (reads : decoder.Reads memory codec abbreviations address instruction alphabet after)
    (text : instruction.entry.any (·.carriesText) = true →
      Repeats memory other (decoder.readText memory codec abbreviations)
        (decoder.readText other otherCodec otherAbbreviations))
    (shared : memory.SharedWith other address (address + instruction.size)) :
    decoder.Reads other otherCodec otherAbbreviations address instruction alphabet after := by
  cases reads with
  | parts openingRead kindsRead operandsRead storeRead branchRead textRead =>
      have opening := Opening.repeats_read memory other _ openingRead
      have kinds := Opening.repeats_readKinds memory other _ kindsRead
      have operands := Operand.repeats_readAll memory other _ operandsRead
      have store := repeats_onlyIf (fun _ => @repeats_byte memory other) storeRead
      have branch := repeats_onlyIf (fun _ => Branch.repeats_read memory other) branchRead
      have told := repeats_onlyIf text textRead
      simp only at shared
      exact .parts (opening.2 (shared.mono (by omega) (by omega)))
        (kinds.2 (shared.mono (by omega) (by omega)))
        (operands.2 (shared.mono (by omega) (by omega)))
        (store.2 (shared.mono (by omega) (by omega)))
        (branch.2 (shared.mono (by omega) (by omega)))
        (told.2 (shared.mono (by omega) (by omega)))

theorem decode_of_shared
    (decoded : decoder.decode memory codec abbreviations address = .ok (instruction, later))
    (text : instruction.entry.any (·.carriesText) = true →
      Repeats memory other (decoder.readText memory codec abbreviations)
        (decoder.readText other otherCodec otherAbbreviations))
    (shared : memory.SharedWith other address (address + instruction.size)) :
    decoder.decode other otherCodec otherAbbreviations address = .ok (instruction, later) := by
  rcases decode_eq_ok.mp decoded with ⟨alphabet, after, reads, same⟩
  exact decode_eq_ok.mpr ⟨alphabet, after, reads.of_shared text shared, same⟩

/-- A decoded instruction is determined by its own bytes. There is at least one, and all of them lie
in the file. From every memory that shares them, whatever its size and its other bytes, the same
instruction is decoded: with any tables if it carries no text, and otherwise with the same tables of
abbreviations and the strings that they name. A machine whose next instruction cannot be decoded
stays as it is, and with it the alphabet that is locked in. -/
theorem decode_determined_by_bytes {η : Type} [Host η] (decoder : Decoder) (memory : Memory)
    (codec : Codec) (abbreviations : AbbreviationTable) (address : Nat) (machine : Machine η) :
    (∀ instruction later,
      decoder.decode memory codec abbreviations address = .ok (instruction, later) →
      1 ≤ instruction.size ∧ address + instruction.size ≤ memory.bytes.size ∧
      ∀ other : Memory, memory.SharedWith other address (address + instruction.size) →
        (instruction.entry.any (·.carriesText) = false → ∀ otherCodec otherAbbreviations,
          decoder.decode other otherCodec otherAbbreviations address = .ok (instruction, later)) ∧
        (abbreviations.SharedWith memory other →
          decoder.decode other codec abbreviations address = .ok (instruction, later))) ∧
    ∀ fault, machine.nextInstruction = .error fault →
      Machine.step machine = .error fault machine := by
  refine ⟨?_, ?_⟩
  · intro instruction later decoded
    rcases bounds_of_decode decoded with ⟨_, some, inside⟩
    refine ⟨some, inside, fun other shared => ⟨?_, ?_⟩⟩
    · intro textless otherCodec otherAbbreviations
      apply decode_of_shared decoded _ shared
      simp [textless]
    · intro strings
      exact decode_of_shared decoded (fun _ => repeats_readText decoder codec strings) shared
  · intro fault failed
    rw [Machine.step, failed]

/-- A line end and, from address 2 on, a text that is an abbreviation. Its table at address 6 has
one entry, and the string follows. Other bytes may stand before, between and behind them. -/
def quotation (filler : UInt8) (behind : List UInt8) : Memory :=
  let image : Image :=
    ([filler, 0xBB, 0xB2, 0x84, 0x05, filler, 0x00, 0x04, 0xB5, 0xC5] ++ behind).toArray
  { bytes := image, pristine := image, header := Header.read image, pc := 10 }

theorem sharedWith_quotation (filler other : UInt8) (behind : List UInt8) :
    (⟨6⟩ : AbbreviationTable).SharedWith (quotation filler []) (quotation other behind) := by
  have tail : ∀ last, (quotation filler []).SharedWith (quotation other behind) 6 last := by
    intro last place _ begins inside
    have size : (quotation filler []).bytes.size = 10 := rfl
    have places : place = 6 ∨ place = 7 ∨ place = 8 ∨ place = 9 := by omega
    rcases places with rfl | rfl | rfl | rfl <;> simp [quotation]
  refine ⟨tail _, ?_⟩
  intro table index address length codes located read
  have later : 6 ≤ address := by
    unfold AbbreviationTable.stringAddress at located
    split at located
    · cases located
    · rename_i legal
      rcases query_bind_eq_ok.mp located with ⟨word, fetched, named⟩
      rcases Memory.fetchWord_eq_ok.mp fetched with ⟨inside, value⟩
      cases named
      have size : (quotation filler []).bytes.size = 10 := rfl
      have first : (quotation filler []).bytes.wordAt 6 = 4 := by
        simp [quotation, Image.wordAt, Image.byteAt, Word.ofBytes]
      have second : (quotation filler []).bytes.wordAt 8 = 0xB5C5 := by
        simp [quotation, Image.wordAt, Image.byteAt, Word.ofBytes]
      dsimp only at inside value
      have places : 32 * (table - 1) + index = 0 ∨ 32 * (table - 1) + index = 1 := by omega
      rcases places with place | place
      · rw [place, Nat.zero_mul, Nat.add_zero, first] at value
        subst value
        decide
      · rw [place, Nat.one_mul, second] at value
        subst value
        decide
  exact (tail _).mono later le_rfl

theorem decode_determined_by_bytes_quoted :
    let decoder : Decoder := { version := 5 }
    let other := quotation 0x55 [0x55]
    let machine : Machine Recorded :=
      { memory := quotation 0xAA [], decoder, codec := .standard 5, abbreviations := ⟨6⟩
        objects := ⟨5, 0⟩, dictionary := none, host := { script := ⟨[]⟩, chance := .dice [] }
        archive := .absent, settings := {} }
    decoder.decode other (.standard 1) ⟨99⟩ 1 =
      .ok (⟨1, .short, .op0, 11, Opcode.lookup 5 .op0 11, [], none, none, none, 1⟩, decoder) ∧
    decoder.decode other (.standard 5) ⟨6⟩ 2 =
      .ok (⟨2, .short, .op0, 2, Opcode.lookup 5 .op0 2, [], none, none, some "hi", 3⟩, decoder) ∧
    Machine.step machine = .error (.outsideStory 10) machine := by
  intro decoder other machine
  have laws := fun address =>
    decode_determined_by_bytes decoder (quotation 0xAA []) (.standard 5) ⟨6⟩ address machine
  have lineEnd : decoder.decode (quotation 0xAA []) (.standard 5) ⟨6⟩ 1 =
      .ok (⟨1, .short, .op0, 11, Opcode.lookup 5 .op0 11, [], none, none, none, 1⟩, decoder) :=
    eq_ok_of_toOption (by decide +kernel)
  have quoted : decoder.decode (quotation 0xAA []) (.standard 5) ⟨6⟩ 2 =
      .ok (⟨2, .short, .op0, 2, Opcode.lookup 5 .op0 2, [], none, none, some "hi", 3⟩, decoder) :=
    eq_ok_of_toOption (by decide +kernel)
  refine ⟨?_, ?_, (laws 0).2 _ rfl⟩
  · exact (((laws 1).1 _ _ lineEnd).2.2 other (by decide)).1 (by decide) _ _
  · exact (((laws 2).1 _ _ quoted).2.2 other (by decide)).2 (sharedWith_quotation _ _ _)

end Decoder

end ZMachine
