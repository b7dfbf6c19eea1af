import ZMachine.Proofs.Instruction.Format

/-!
# The decoder accepts the format

Every instruction that is written in the format is read back as it is meant. `Fetching.Takes` says
that a reader takes the bytes written for a value and no more; it carries over to sequences, so that
each part of an instruction has a law of its own. The only opcode byte that might be taken for
another one is the mark of the extended form, and no operation without operands has its number.
-/

namespace ZMachine

namespace Fetching

variable {α β : Type} {memory : Memory} {address : Nat}

/-- A reader takes the bytes of a list, if they stand at an address, for a value. -/
def Takes (memory : Memory) (reader : Fetching α) (address : Nat) (bytes : List UInt8) (value : α) :
    Prop :=
  memory.Holds address bytes → reader address = .ok (value, address + bytes.length)

theorem takes_pure (value : α) : Takes memory (pure value) address [] value :=
  fun _ => rfl

theorem takes_bind {reader : Fetching α} {next : α → Fetching β} {bytes others : List UInt8}
    {found : α} {value : β} (first : Takes memory reader address bytes found)
    (rest : Takes memory (next found) (address + bytes.length) others value) :
    Takes memory (reader >>= next) address (bytes ++ others) value := by
  intro holds
  rcases Memory.holds_append.mp holds with ⟨firstHeld, restHeld⟩
  rw [List.length_append, ← Nat.add_assoc]
  exact bind_reads.mpr ⟨found, _, first firstHeld, rest restHeld⟩

theorem takes_map {reader : Fetching α} {bytes : List UInt8} {found : α} (change : α → β)
    (takes : Takes memory reader address bytes found) :
    Takes memory (change <$> reader) address bytes (change found) := by
  rw [map_eq_pure_bind, ← List.append_nil bytes]
  exact takes_bind takes (takes_pure (change found))

theorem takes_byte (value : UInt8) : Takes memory (byte memory) address [value] value := by
  intro holds
  rcases Memory.byteAt_of_held (Memory.holds_cons.mp holds).1 with ⟨inside, found⟩
  exact byte_eq_ok.mpr ⟨inside, found, rfl⟩

theorem takes_word (value : UInt16) : Takes memory (word memory) address (Word.bytes value) value := by
  intro holds
  have fetched := Memory.fetchWord_eq_ok.mpr (Memory.wordAt_of_holds holds)
  simp [word, fetched, Word.bytes, bind, Except.bind, pure, Except.pure]

/-- What may be missing is read if and only if it is there. -/
theorem takes_onlyIf {condition : Bool} {reader : Fetching α} {bytes : List UInt8}
    {found : Option α} (present : found.isSome = condition)
    (absent : found = none → bytes = [])
    (takes : ∀ value, found = some value → Takes memory reader address bytes value) :
    Takes memory (onlyIf condition reader) address bytes found := by
  subst present
  cases found with
  | none =>
      rw [absent rfl]
      exact takes_pure none
  | some value => exact takes_map some (takes value rfl)

end Fetching

open Fetching

section Parts

variable {memory : Memory} {address : Nat}

theorem Operand.takes_readAll (operands : List WrittenOperand) :
    Takes memory (Operand.readAll memory (operands.map (·.kind))) address
      (operands.flatMap (·.bytes)) (operands.map (·.meant)) := by
  induction operands generalizing address with
  | nil => exact takes_pure []
  | cons operand operands ih =>
      have rest : Takes memory (do
          let others ← Operand.readAll memory (operands.map (·.kind))
          return operand.meant :: others) (address + operand.bytes.length)
          (operands.flatMap (·.bytes)) (operand.meant :: operands.map (·.meant)) := by
        rw [← List.append_nil (operands.flatMap (·.bytes))]
        exact takes_bind ih (takes_pure _)
      rcases operand with (value | name) | value
      · exact takes_bind (takes_map UInt8.toUInt16 (takes_byte value)) rest
      · exact takes_bind (takes_map UInt8.toUInt16 (takes_byte name)) rest
      · exact takes_bind (takes_word value) rest

/-- The topmost bit of a byte shows on which result to branch. -/
theorem Branch.sense_eq (onTrue : Bool) {rest : Nat} (small : rest < 128) :
    decide (128 ≤ onTrue.toNat * 128 + rest) = onTrue := by
  cases onTrue with
  | false =>
      simp only [Bool.toNat_false, Nat.zero_mul, Nat.zero_add, decide_eq_false_iff_not]
      omega
  | true => simp

theorem Branch.takes_read (branch : WrittenBranch) :
    Takes memory (Branch.read memory) address branch.bytes (branch.meant address) := by
  have finish : ∀ {after : Nat} {onTrue : Bool} {offset : Int}, Takes memory (do
      let after ← get
      return { onTrue, offset, target := targetOf after offset } : Fetching Branch) after []
      { onTrue, offset, target := targetOf after offset } :=
    fun _ => rfl
  cases branch with
  | near onTrue offset =>
      have small := offset.isLt
      have sense := onTrue.toNat_lt
      have value : (UInt8.ofNat (onTrue.toNat * 128 + 64 + offset)).toNat =
          onTrue.toNat * 128 + 64 + offset := by
        rw [UInt8.toNat_ofNat']
        omega
      have read : ((onTrue.toNat * 128 + 64 + offset : Nat) : Int) % 64 = (offset : Nat) := by omega
      have sensed : decide (128 ≤ onTrue.toNat * 128 + 64 + offset) = onTrue := by
        rw [Nat.add_assoc]
        exact Branch.sense_eq onTrue (by omega)
      refine takes_bind (takes_byte _) ?_
      dsimp only
      rw [if_pos (by omega), value, read, sensed]
      exact takes_bind (takes_pure _) finish
  | far onTrue offset atLeast atMost =>
      have sense := onTrue.toNat_lt
      have raw : (offset % 16384).toNat < 16384 := by omega
      have first : (UInt8.ofNat (onTrue.toNat * 128 + (offset % 16384).toNat / 256)).toNat =
          onTrue.toNat * 128 + (offset % 16384).toNat / 256 := by
        rw [UInt8.toNat_ofNat']
        omega
      have second : (UInt8.ofNat ((offset % 16384).toNat % 256)).toNat =
          (offset % 16384).toNat % 256 := by
        rw [UInt8.toNat_ofNat']
        omega
      have read : longOffset (UInt8.ofNat (onTrue.toNat * 128 + (offset % 16384).toNat / 256))
          (UInt8.ofNat ((offset % 16384).toNat % 256)) = offset := by
        simp only [longOffset, first, second]
        split <;> omega
      have sensed :
          decide (128 ≤ onTrue.toNat * 128 + (offset % 16384).toNat / 256) = onTrue :=
        Branch.sense_eq onTrue (by omega)
      refine takes_bind (takes_byte _) ?_
      dsimp only
      rw [if_neg (by omega), first, sensed]
      refine takes_bind (takes_map _ (takes_byte _)) ?_
      rw [read]
      exact finish

/-- The mark of extended opcodes stands for no other operation. -/
theorem Opcode.catalog_extendedMark : ∀ row ∈ catalog,
    (row.opcodeClass = .op0 → row.number ≠ 14) ∧ (row.opcodeClass = .ext → 5 ≤ row.firstVersion) := by
  decide +kernel

theorem Opcode.class_of_lookup {version number : Nat} {opcodeClass : OpcodeClass}
    {row : CatalogEntry} (found : lookup version opcodeClass number = some row) :
    row.opcodeClass = opcodeClass ∧ row.number = number := by
  have matched := List.find?_some found
  simp only [Bool.and_eq_true, decide_eq_true_eq, beq_iff_eq] at matched
  exact ⟨matched.1.1.1, matched.1.1.2⟩

namespace Opening

theorem ofByte_long (number : Fin 32) (first second : ByteOperand) :
    ofByte (UInt8.ofNat (first.longBit * 64 + second.longBit * 32 + number)) =
      ⟨.long, .op2, number, [first.kind, second.kind]⟩ := by
  have small := number.isLt
  have firstSmall := first.longBit_lt
  have secondSmall := second.longBit_lt
  generalize (number : Nat) = rest at small ⊢
  have value : (UInt8.ofNat (first.longBit * 64 + second.longBit * 32 + rest)).toNat =
      first.longBit * 64 + second.longBit * 32 + rest := by
    rw [UInt8.toNat_ofNat']
    omega
  have firstBit : (first.longBit * 64 + second.longBit * 32 + rest) / 64 % 2 = first.longBit := by
    omega
  have secondBit : (first.longBit * 64 + second.longBit * 32 + rest) / 32 % 2 = second.longBit := by
    omega
  have last : (first.longBit * 64 + second.longBit * 32 + rest) % 32 = rest := by omega
  simp only [ofByte, value, firstBit, secondBit, last, ByteOperand.longKind_longBit]
  rw [if_neg (by omega), if_neg (by omega)]

theorem ofByte_short (number : Fin 16) (kind : OperandKind) :
    ofByte (UInt8.ofNat (128 + kind.bits * 16 + number)) =
      if kind = .omitted then ⟨.short, .op0, number, []⟩ else ⟨.short, .op1, number, [kind]⟩ := by
  have small := number.isLt
  have bits := kind.bits_lt
  have value : (UInt8.ofNat (128 + kind.bits * 16 + number)).toNat =
      128 + kind.bits * 16 + number := by
    rw [UInt8.toNat_ofNat']
    omega
  have found : OperandKind.ofBits ((128 + kind.bits * 16 + number) / 16) = kind := by
    apply OperandKind.ofBits_of_mod
    omega
  have last : (128 + kind.bits * 16 + number) % 16 = number := by omega
  simp only [ofByte, value, found, last]
  rw [if_neg (by omega), if_pos (by omega)]

theorem ofByte_variadic (number : Fin 32) {start : Nat} (starts : start = 192 ∨ start = 224) :
    ofByte (UInt8.ofNat (start + number)) =
      ⟨.variadic, if start = 192 then .op2 else .var, number, []⟩ := by
  have small := number.isLt
  have value : (UInt8.ofNat (start + number)).toNat = start + number := by
    rw [UInt8.toNat_ofNat']
    omega
  have last : (start + number) % 32 = number := by omega
  have isTwo : (start + number) / 32 % 2 = 0 ↔ start = 192 := by omega
  simp only [ofByte, value, last, isTwo]
  rw [if_pos (by omega)]

theorem ofNat_ne_extendedMark {number : Nat} (small : number < 256) (different : number ≠ 190) :
    UInt8.ofNat number ≠ extendedMark := by
  intro same
  have value := congrArg UInt8.toNat same
  rw [UInt8.toNat_ofNat'] at value
  simp only [extendedMark, UInt8.reduceToNat] at value
  omega

/-- In every form but the extended one the opcode is a single byte other than the mark. -/
theorem takes_read {version : Nat} {head : WrittenHead} {entry : CatalogEntry}
    (listed : Opcode.lookup version head.opening.opcodeClass head.opening.number = some entry) :
    Takes memory (Opening.read version memory) address head.opcodeBytes head.opening := by
  have row := Opcode.row_of_lookup listed
  have named := Opcode.class_of_lookup listed
  have marked := Opcode.catalog_extendedMark entry row.1
  have single : ∀ {byte : UInt8} {opening : Opening}, byte ≠ extendedMark → ofByte byte = opening →
      Takes memory (Opening.read version memory) address [byte] opening := by
    rintro byte opening plain rfl
    refine takes_bind (takes_byte byte) ?_
    rw [if_neg fun both => plain both.1]
    exact takes_pure _
  cases head with
  | long number first second =>
      apply single _ (ofByte_long number first second)
      have small := number.isLt
      have firstSmall := first.longBit_lt
      have secondSmall := second.longBit_lt
      apply ofNat_ne_extendedMark <;> omega
  | short number operand =>
      have small := number.isLt
      cases operand with
      | none =>
          apply single _ (ofByte_short number .omitted)
          have free : (number : Nat) ≠ 14 := by
            have other := marked.1 named.1
            rwa [named.2] at other
          apply ofNat_ne_extendedMark <;> simp only [OperandKind.bits] <;> omega
      | some operand =>
          apply single
          · have bits := operand.bits_kind_lt
            apply ofNat_ne_extendedMark <;> simp only [Option.elim_some] <;> omega
          · exact (ofByte_short number operand.kind).trans (if_neg operand.kind_ne_omitted)
  | variadicTwo number operands =>
      apply single _ (ofByte_variadic number (.inl rfl))
      have small := number.isLt
      apply ofNat_ne_extendedMark <;> omega
  | variadic number operands =>
      apply single _ (ofByte_variadic number (.inr rfl))
      have small := number.isLt
      apply ofNat_ne_extendedMark <;> omega
  | extended number operands =>
      have late : 5 ≤ version := Nat.le_trans (marked.2 named.1) row.2.1
      refine takes_bind (takes_byte extendedMark) ?_
      rw [if_pos ⟨rfl, late⟩]
      exact takes_bind (takes_byte number) (takes_pure _)

theorem takes_readKinds_of_four {opening : Opening} {kinds : List OperandKind}
    (form : opening.form = .variadic ∨ opening.form = .extended)
    (single : Opcode.hasDoubleTypeByte opening.opcodeClass opening.number = false)
    (four : kinds.length = 4) :
    Takes memory (opening.readKinds memory) address (OperandKind.typeBytes kinds) kinds := by
  rcases OperandKind.typeBytes_of_four four [] with ⟨byte, rfl, written⟩
  rw [List.append_nil] at written
  rw [written, readKinds, if_pos form]
  refine takes_bind (takes_byte byte) ?_
  rw [single]
  exact takes_pure _

theorem takes_readKinds_of_eight {opening : Opening} {kinds : List OperandKind}
    (form : opening.form = .variadic ∨ opening.form = .extended)
    (double : Opcode.hasDoubleTypeByte opening.opcodeClass opening.number = true)
    (eight : kinds.length = 8) :
    Takes memory (opening.readKinds memory) address (OperandKind.typeBytes kinds) kinds := by
  have front : (kinds.take 4).length = 4 := by simp [eight]
  have back : (kinds.drop 4).length = 4 := by simp [eight]
  rcases OperandKind.typeBytes_of_four front (kinds.drop 4) with ⟨first, firstKinds, written⟩
  rcases OperandKind.typeBytes_of_four back [] with ⟨second, secondKinds, writtenBack⟩
  rw [List.append_nil] at writtenBack
  rw [List.take_append_drop, writtenBack] at written
  have split : kinds = kindsOfByte first ++ kindsOfByte second := by
    rw [firstKinds, secondKinds, List.take_append_drop]
  rw [written, readKinds, if_pos form, split]
  refine takes_bind (takes_byte first) ?_
  rw [double]
  exact takes_bind (takes_byte second) (takes_pure _)

/-- The type fields are read as they are written. -/
theorem takes_readKinds (head : WrittenHead) :
    Takes memory (head.opening.readKinds memory) address (OperandKind.typeBytes head.fields)
      (head.opening.kinds ++ head.fields) := by
  cases head with
  | long number first second => exact takes_pure _
  | short number operand => cases operand <;> exact takes_pure _
  | variadicTwo number written =>
      exact takes_readKinds_of_four (.inl rfl) rfl written.length_kinds
  | variadic number written =>
      have length := written.length_kinds
      cases double : Opcode.hasDoubleTypeByte .var number with
      | false =>
          refine takes_readKinds_of_four (.inl rfl) double ?_
          simpa [WrittenHead.fields, typeFields, double] using length
      | true =>
          refine takes_readKinds_of_eight (.inl rfl) double ?_
          simpa [WrittenHead.fields, typeFields, double] using length
  | extended number written =>
      exact takes_readKinds_of_four (.inr rfl) rfl written.length_kinds

end Opening

/-- Opcode and type fields together say which operands follow. -/
theorem WrittenHead.takeWhile_kinds (head : WrittenHead) :
    (head.opening.kinds ++ head.fields).takeWhile (· ≠ .omitted) =
      head.operands.map (·.kind) := by
  cases head with
  | long number first second => cases first <;> cases second <;> rfl
  | short number operand => rcases operand with _ | (_ | _) | _ <;> rfl
  | variadicTwo number written => exact written.takeWhile_kinds
  | variadic number written => exact written.takeWhile_kinds
  | extended number written => exact written.takeWhile_kinds

end Parts

namespace Decoder

variable {decoder : Decoder} {memory : Memory} {codec : Codec} {abbreviations : AbbreviationTable}
  {address : Nat}

theorem takes_readText {text : PackedText} {decoded : Decoded}
    (readable : codec.decode (abbreviations.expand memory codec) decoder.alphabet text.codes =
      .ok decoded) :
    Takes memory (decoder.readText memory codec abbreviations) address text.bytes decoded := by
  intro holds
  simp [readText, Memory.readCodes_of_holds holds, readable, bind, Except.bind, pure, Except.pure]

end Decoder

namespace WrittenInstruction

variable {written : WrittenInstruction} {version : Nat} {entry : CatalogEntry}
  (legal : written.Legal version entry) {memory : Memory} {address : Nat}

include legal

theorem Legal.takes_store :
    Takes memory (onlyIf entry.stores (byte memory)) address written.store.toList written.store := by
  apply takes_onlyIf legal.stores
  · intro missing
    simp [missing]
  · intro name present
    simp only [present, Option.toList_some]
    exact takes_byte name

theorem Legal.takes_branch :
    Takes memory (onlyIf entry.branches (Branch.read memory)) address written.branchBytes
      (written.branch.map (·.meant address)) := by
  apply takes_onlyIf
  · rw [Option.isSome_map, legal.branches]
  · intro missing
    simp_all [branchBytes]
  · intro meant present
    rcases Option.map_eq_some_iff.mp present with ⟨branch, found, rfl⟩
    simp only [branchBytes, found, Option.map_some, Option.getD_some]
    exact Branch.takes_read branch

theorem Legal.takes_text {decoder : Decoder} {codec : Codec} {abbreviations : AbbreviationTable}
    {decoded : Option Decoded} (readable : written.text.mapM (fun text =>
      codec.decode (abbreviations.expand memory codec) decoder.alphabet text.codes) = .ok decoded) :
    Takes memory (onlyIf entry.carriesText (decoder.readText memory codec abbreviations)) address
      written.textBytes decoded := by
  have present := legal.carriesText
  cases found : written.text with
  | none =>
      rw [found] at readable present
      cases readable
      simp only [textBytes, found, Option.map_none, Option.getD_none]
      exact takes_onlyIf present (fun _ => rfl) (by simp)
  | some text =>
      rw [found] at readable present
      have mapped : some <$> codec.decode (abbreviations.expand memory codec) decoder.alphabet
        text.codes = .ok decoded := readable
      cases reading : codec.decode (abbreviations.expand memory codec) decoder.alphabet text.codes with
      | error fault =>
          rw [reading] at mapped
          cases mapped
      | ok result =>
          rw [reading] at mapped
          cases mapped
          simp only [textBytes, found, Option.map_some, Option.getD_some]
          apply takes_onlyIf (by simpa using present) (by simp)
          intro value same
          cases same
          exact Decoder.takes_readText reading

end WrittenInstruction

namespace Decoder

/-- The decoder accepts the format: whatever legal instruction is written at an address, it reads
back that form, class and number, the operands, the variable for the result and the branch, and as
text what the codec makes of the written codes from the present alphabet on. -/
theorem decode_written (decoder : Decoder) (memory : Memory) (codec : Codec)
    (abbreviations : AbbreviationTable) (address : Nat) (written : WrittenInstruction)
    (entry : CatalogEntry) (decoded : Option Decoded) (legal : written.Legal decoder.version entry)
    (readable : written.text.mapM (fun text =>
      codec.decode (abbreviations.expand memory codec) decoder.alphabet text.codes) = .ok decoded)
    (holds : memory.Holds address written.bytes) :
    decoder.decode memory codec abbreviations address =
      .ok (written.meant address entry (decoded.map (·.text)),
        { decoder with alphabet := (decoded.map (·.alphabet)).getD decoder.alphabet }) := by
  rcases Memory.holds_append.mp holds with ⟨headHeld, restHeld⟩
  rcases Memory.holds_append.mp headHeld with ⟨frontHeld, operandsHeld⟩
  rcases Memory.holds_append.mp frontHeld with ⟨opcodeHeld, fieldsHeld⟩
  rcases Memory.holds_append.mp restHeld with ⟨storeHeld, tailHeld⟩
  rcases Memory.holds_append.mp tailHeld with ⟨branchHeld, textHeld⟩
  have openingRead := Opening.takes_read legal.listed opcodeHeld
  have fieldsRead := Opening.takes_readKinds written.head fieldsHeld
  rw [List.length_append, ← Nat.add_assoc] at operandsHeld
  have operandsRead := Operand.takes_readAll written.head.operands operandsHeld
  rw [← written.head.takeWhile_kinds] at operandsRead
  have storeRead := legal.takes_store storeHeld
  have branchRead := legal.takes_branch branchHeld
  have textRead := legal.takes_text readable textHeld
  have headEnd : address + written.head.opcodeBytes.length +
      (OperandKind.typeBytes written.head.fields).length +
      (written.head.operands.flatMap (·.bytes)).length = address + written.head.bytes.length := by
    simp only [WrittenHead.bytes, List.length_append]
    omega
  have size : address + written.head.bytes.length + written.store.toList.length +
      written.branchBytes.length + written.textBytes.length - address = written.bytes.length := by
    simp only [WrittenInstruction.bytes, List.length_append]
    omega
  rw [headEnd] at operandsRead
  have reads := Reads.parts openingRead fieldsRead operandsRead
    (by simpa only [legal.listed, Option.any_some] using storeRead)
    (by simpa only [legal.listed, Option.any_some] using branchRead)
    (by simpa only [legal.listed, Option.any_some] using textRead)
  rw [legal.listed, size] at reads
  exact decode_eq_ok.mpr ⟨_, _, reads, rfl⟩

/-- A search of a table for a word, with a type field that means nothing and a branch backwards. -/
def writtenSearch : WrittenInstruction where
  head := .variadic 0x17
    { operands := [.inWord 0x1234, .inByte (.named 5)]
      unused := [.omitted, .smallConstant]
      filled := rfl
      closed := by decide }
  store := some 7
  branch := some (.far false (-2) (by decide) (by decide))
  text := none

/-- The printing of two letters. -/
def writtenGreeting : WrittenInstruction where
  head := .short ⟨2, by decide⟩ none
  store := none
  branch := none
  text := some
    { before := []
      last := 0xB5C5
      unmarked := fun _ member => absurd member List.not_mem_nil
      marked := rfl }

/-- The two instructions, one after the other. -/
def writtenPair : Memory :=
  let image : Image := (writtenSearch.bytes ++ writtenGreeting.bytes).toArray
  { bytes := image, pristine := image, header := Header.read image, pc := 0 }

theorem decode_written_pair :
    let decoder : Decoder := { version := 5 }
    let search := Opcode.entry .var 0x17 .scanTable "scan_table" 4 8 [.stores, .branches]
    let print := Opcode.entry .op0 0x02 .print "print" 1 8 [.carriesText]
    writtenSearch.bytes = [0xF7, 0x2D, 0x12, 0x34, 0x05, 0x07, 0x3F, 0xFE] ∧
      decoder.decode writtenPair (.standard 5) ⟨0⟩ 0 =
        .ok (writtenSearch.meant 0 search none, decoder) ∧
      decoder.decode writtenPair (.standard 5) ⟨0⟩ 8 =
        .ok (writtenGreeting.meant 8 print (some "hi"), decoder) := by
  have held : writtenPair.Holds 0 (writtenSearch.bytes ++ writtenGreeting.bytes) := by
    intro index byte inside
    simpa [writtenPair] using inside
  rcases Memory.holds_append.mp held with ⟨searchHeld, greetingHeld⟩
  refine ⟨by decide, ?_, ?_⟩
  · exact decode_written { version := 5 } writtenPair (.standard 5) ⟨0⟩ 0 writtenSearch _ none
      ⟨by decide +kernel, rfl, rfl, rfl⟩ rfl searchHeld
  · exact decode_written { version := 5 } writtenPair (.standard 5) ⟨0⟩ 8 writtenGreeting _
      (some ⟨"hi", 0⟩) ⟨by decide +kernel, rfl, rfl, rfl⟩ (by rfl) greetingHeld

end Decoder

end ZMachine
