import ZMachine.Instruction.Decode

/-!
# What a decoded instruction says

An instruction is read byte after byte, so it lies in the file as a whole and is not empty. Only its
text depends on more than the bytes of the file and the version. The variable that takes the result
of an instruction without branch and text is named by its last byte, which is how that variable is
found again from the address after the instruction.
-/

namespace ZMachine

/-- A branch of the instruction leads to an address that a program counter can hold. -/
def Instruction.Fits (instruction : Instruction) : Prop :=
  ∀ branch address, instruction.branch = some branch → branch.target = .address address →
    address < addressCount

/-- A variable is named by a byte. -/
def Operand.Named (operand : Operand) : Prop :=
  operand.kind = .byVariable → operand.value.toNat < 256

namespace Opcode

/-- The operations that keep a state of play. -/
def savesPlay : Opcode → Bool
  | .save | .saveUndo => true
  | _ => false

/-- An operation that keeps a state of play branches up to version 3 and stores a result later. -/
theorem catalog_savesPlay : ∀ row ∈ catalog, row.opcode.savesPlay = true →
    row.carriesText = false ∧
      (row.lastVersion ≤ 3 ∧ row.stores = false ∧ row.branches = true ∨
        4 ≤ row.firstVersion ∧ row.stores = true ∧ row.branches = false) := by
  decide +kernel

/-- Undoing came with version 5. -/
theorem catalog_undo : ∀ row ∈ catalog, row.opcode = .saveUndo ∨ row.opcode = .restoreUndo →
    5 ≤ row.firstVersion := by
  decide +kernel

theorem row_of_lookup {version number : Nat} {opcodeClass : OpcodeClass} {row : CatalogEntry}
    (found : lookup version opcodeClass number = some row) :
    row ∈ catalog ∧ row.firstVersion ≤ version ∧ version ≤ row.lastVersion := by
  have matched := List.find?_some found
  simp only [Bool.and_eq_true, decide_eq_true_eq] at matched
  exact ⟨List.mem_of_find?_eq_some found, matched.1.2, matched.2⟩

end Opcode

namespace Memory

theorem fetchByte_eq_ok {memory : Memory} {address : Nat} {byte : UInt8} :
    memory.fetchByte address = .ok byte ↔
      address < memory.bytes.size ∧ memory.bytes.byteAt address = byte := by
  unfold fetchByte
  split
  · simp
    omega
  · simp
    omega

theorem fetchWord_eq_ok {memory : Memory} {address : Nat} {word : UInt16} :
    memory.fetchWord address = .ok word ↔
      address + 2 ≤ memory.bytes.size ∧ memory.bytes.wordAt address = word := by
  unfold fetchWord
  split
  · simp
    omega
  · simp
    omega

/-- A text ends inside the file. -/
theorem textLength_le {memory : Memory} {address : Nat} {limit : Option Nat} {consumed length : Nat}
    (inside : address + consumed ≤ memory.bytes.size)
    (found : memory.textLength address limit consumed = .ok length) :
    address + length ≤ memory.bytes.size := by
  fun_induction textLength memory address limit consumed with
  | case1 consumed reached =>
      simp only [Except.ok.injEq] at found
      omega
  | case2 consumed unreached short => simp at found
  | case3 consumed unreached enough last =>
      simp only [Except.ok.injEq] at found
      omega
  | case4 consumed unreached enough more ih => exact ih (by omega) found

end Memory

namespace Fetching

variable {α β : Type} {memory : Memory}

theorem bind_reads {reader : Fetching α} {next : α → Fetching β} {address after : Nat} {value : β} :
    (reader >>= next) address = .ok (value, after) ↔
      ∃ first middle, reader address = .ok (first, middle) ∧ next first middle = .ok (value, after)
    := by
  simp only [bind, StateT.bind, Except.bind]
  cases reader address with
  | error fault => simp
  | ok result =>
      rcases result with ⟨first, middle⟩
      constructor
      · intro read
        exact ⟨first, middle, rfl, read⟩
      · rintro ⟨_, _, same, read⟩
        cases same
        exact read

theorem onlyIf_true {reader : Fetching α} {address after : Nat} {found : Option α} :
    onlyIf true reader address = .ok (found, after) ↔
      ∃ value, found = some value ∧ reader address = .ok (value, after) := by
  simp only [onlyIf, if_true, Functor.map, StateT.map, bind, Except.bind]
  cases reader address with
  | error fault => simp
  | ok result =>
      rcases result with ⟨value, after⟩
      constructor
      · intro read
        cases read
        exact ⟨value, rfl, rfl⟩
      · rintro ⟨_, rfl, same⟩
        cases same
        rfl

theorem of_onlyIf {condition : Bool} {reader : Fetching α} {address after : Nat} {value : α}
    (read : onlyIf condition reader address = .ok (some value, after)) :
    reader address = .ok (value, after) := by
  cases condition with
  | false => cases read
  | true =>
      rcases onlyIf_true.mp read with ⟨_, same, read⟩
      cases same
      exact read

theorem byte_eq_ok {address after : Nat} {value : UInt8} :
    byte memory address = .ok (value, after) ↔
      address < memory.bytes.size ∧ memory.bytes.byteAt address = value ∧ after = address + 1 := by
  unfold byte
  cases fetched : memory.fetchByte address with
  | error fault =>
      have outside : ¬ address < memory.bytes.size := by
        intro inside
        rw [Memory.fetchByte_eq_ok.mpr ⟨inside, rfl⟩] at fetched
        cases fetched
      simp [bind, Except.bind, outside]
  | ok found =>
      rcases Memory.fetchByte_eq_ok.mp fetched with ⟨inside, rfl⟩
      simp [bind, Except.bind, pure, Except.pure, inside, eq_comm]

/-- Reading that begins inside the file goes forward and stays there. -/
def Advances (memory : Memory) (reader : Fetching α) : Prop :=
  ∀ ⦃address value after⦄, address ≤ memory.bytes.size → reader address = .ok (value, after) →
    address ≤ after ∧ after ≤ memory.bytes.size

theorem advances_pure (value : α) : Advances memory (pure value) := by
  intro address found after inside read
  cases read
  exact ⟨Nat.le_refl _, inside⟩

theorem advances_bind {reader : Fetching α} {next : α → Fetching β}
    (first : Advances memory reader) (rest : ∀ value, Advances memory (next value)) :
    Advances memory (reader >>= next) := by
  intro address value after inside read
  rcases bind_reads.mp read with ⟨found, middle, firstRead, restRead⟩
  have begun := first inside firstRead
  have ended := rest found begun.2 restRead
  exact ⟨by omega, ended.2⟩

theorem advances_map (change : α → β) {reader : Fetching α} (advances : Advances memory reader) :
    Advances memory (change <$> reader) :=
  advances_bind advances fun value => advances_pure (change value)

theorem advances_ite {condition : Prop} [Decidable condition] {first second : Fetching α}
    (holds : Advances memory first) (fails : Advances memory second) :
    Advances memory (if condition then first else second) := by
  split
  · exact holds
  · exact fails

theorem advances_byte : Advances memory (byte memory) := by
  intro address value after inside read
  rcases byte_eq_ok.mp read with ⟨before, _, rfl⟩
  omega

theorem advances_word : Advances memory (word memory) := by
  intro address value after inside read
  unfold word at read
  cases fetched : memory.fetchWord address with
  | error fault => simp [fetched, bind, Except.bind] at read
  | ok found =>
      simp only [fetched, bind, Except.bind, pure, Except.pure, Except.ok.injEq, Prod.mk.injEq]
        at read
      have enough := (Memory.fetchWord_eq_ok.mp fetched).1
      omega

theorem advances_onlyIf {condition : Bool} {reader : Fetching α} (advances : Advances memory reader) :
    Advances memory (onlyIf condition reader) :=
  advances_ite (advances_map some advances) (advances_pure none)

end Fetching

open Fetching

section Parts

variable {memory : Memory}

theorem Opening.advances_readKinds (opening : Opening) :
    Advances memory (opening.readKinds memory) := by
  refine advances_ite ?_ (advances_pure _)
  refine advances_bind advances_byte fun first => advances_ite ?_ (advances_pure _)
  exact advances_bind advances_byte fun second => advances_pure _

theorem Operand.advances_readAll (kinds : List OperandKind) :
    Advances memory (Operand.readAll memory kinds) := by
  induction kinds with
  | nil => exact advances_pure []
  | cons kind kinds ih =>
      unfold Operand.readAll
      have rest : ∀ value, Advances memory (do
          let operands ← Operand.readAll memory kinds
          return (⟨kind, value⟩ : Operand) :: operands) := fun value =>
        advances_bind ih fun operands => advances_pure _
      dsimp only
      split
      · exact advances_bind advances_word rest
      · exact advances_bind (advances_map _ advances_byte) rest

theorem Branch.advances_read : Advances memory (Branch.read memory) := by
  unfold Branch.read
  refine advances_bind advances_byte fun first => ?_
  have rest : ∀ offset : Int, Advances memory (do
      let after ← get
      return (⟨decide (128 ≤ first.toNat), offset, Branch.targetOf after offset⟩ : Branch)) := by
    intro offset address value after inside read
    cases read
    exact ⟨Nat.le_refl _, inside⟩
  dsimp only
  split
  · exact advances_bind (advances_pure _) rest
  · exact advances_bind (advances_map _ advances_byte) rest

/-- A branch leads to an address modulo the range of the program counter. -/
theorem Branch.lt_of_read {address after target : Nat} {branch : Branch}
    (read : Branch.read memory address = .ok (branch, after))
    (toTarget : branch.target = .address target) : target < addressCount := by
  have reached : ∀ {onTrue : Bool} {offset : Int} {place : Nat},
      (do
        let after ← get
        return ⟨onTrue, offset, Branch.targetOf after offset⟩ : Fetching Branch) place =
          .ok (branch, after) → target < addressCount := by
    intro onTrue offset place read
    cases read
    simp only [Branch.targetOf] at toTarget
    split at toTarget
    · cases toTarget
    · split at toTarget
      · cases toTarget
      · cases toTarget
        unfold addressBy addressCount
        omega
  rcases bind_reads.mp read with ⟨first, second, _, read⟩
  dsimp only at read
  split at read
  · rcases bind_reads.mp read with ⟨offset, _, _, read⟩
    exact reached read
  · rcases bind_reads.mp read with ⟨offset, _, _, read⟩
    exact reached read

section SameBytes

variable {other : Memory} (sameBytes : other.bytes = memory.bytes)

include sameBytes

theorem Fetching.byte_of_sameBytes : byte other = byte memory := by
  funext address
  simp only [byte, Memory.fetchByte, sameBytes]

theorem Fetching.word_of_sameBytes : word other = word memory := by
  funext address
  simp only [word, Memory.fetchWord, sameBytes]

theorem Operand.readAll_of_sameBytes (kinds : List OperandKind) :
    Operand.readAll other kinds = Operand.readAll memory kinds := by
  induction kinds with
  | nil => rfl
  | cons kind kinds ih =>
      simp only [Operand.readAll, byte_of_sameBytes sameBytes, word_of_sameBytes sameBytes, ih]

theorem Opening.read_of_sameBytes (version : Nat) :
    Opening.read version other = Opening.read version memory := by
  simp only [Opening.read, byte_of_sameBytes sameBytes]

theorem Opening.readKinds_of_sameBytes (opening : Opening) :
    opening.readKinds other = opening.readKinds memory := by
  simp only [Opening.readKinds, byte_of_sameBytes sameBytes]

theorem Branch.read_of_sameBytes : Branch.read other = Branch.read memory := by
  simp only [Branch.read, byte_of_sameBytes sameBytes]

end SameBytes

theorem Operand.length_of_readAll {kinds : List OperandKind} {address after : Nat}
    {operands : List Operand} (read : Operand.readAll memory kinds address = .ok (operands, after)) :
    operands.length = kinds.length := by
  induction kinds generalizing address operands after with
  | nil =>
      cases read
      rfl
  | cons kind kinds ih =>
      unfold Operand.readAll at read
      dsimp only at read
      split at read
      · rcases bind_reads.mp read with ⟨value, _, _, read⟩
        rcases bind_reads.mp read with ⟨rest, _, restRead, same⟩
        cases same
        simp only [List.length_cons, ih restRead]
      · rcases bind_reads.mp read with ⟨value, _, _, read⟩
        rcases bind_reads.mp read with ⟨rest, _, restRead, same⟩
        cases same
        simp only [List.length_cons, ih restRead]

theorem Operand.named_of_readAll {kinds : List OperandKind} {address after : Nat}
    {operands : List Operand} (read : Operand.readAll memory kinds address = .ok (operands, after)) :
    ∀ operand ∈ operands, operand.Named := by
  induction kinds generalizing address operands after with
  | nil =>
      cases read
      simp
  | cons kind kinds ih =>
      unfold Operand.readAll at read
      dsimp only at read
      split at read
      case isTrue large =>
          rcases bind_reads.mp read with ⟨value, _, _, read⟩
          rcases bind_reads.mp read with ⟨rest, _, restRead, same⟩
          cases same
          refine List.forall_mem_cons.mpr ⟨?_, ih restRead⟩
          intro named
          simp only [large] at named
          cases named
      case isFalse =>
          rcases bind_reads.mp read with ⟨value, _, valueRead, read⟩
          rcases bind_reads.mp read with ⟨rest, _, restRead, whole⟩
          have widened : (Fetching.byte memory >>= fun byte => pure byte.toUInt16) address =
            .ok (value, _) := valueRead
          rcases bind_reads.mp widened with ⟨byte, _, _, same⟩
          cases same
          cases whole
          refine List.forall_mem_cons.mpr ⟨?_, ih restRead⟩
          intro _
          exact UInt8.toNat_lt byte

theorem Opening.kinds_of_read {version address after : Nat} {opening : Opening}
    (read : Opening.read version memory address = .ok (opening, after)) :
    opening.kinds.length ≤ 2 := by
  have ofByte_le : ∀ byte, (Opening.ofByte byte).kinds.length ≤ 2 := by
    intro byte
    unfold Opening.ofByte
    dsimp only
    split
    · simp
    · split
      · split <;> simp
      · simp
  rcases bind_reads.mp read with ⟨first, second, _, read⟩
  split at read
  · rcases bind_reads.mp read with ⟨number, _, _, same⟩
    cases same
    simp
  · cases read
    exact ofByte_le first

theorem Opening.length_of_readKinds {opening : Opening} (few : opening.kinds.length ≤ 2)
    {address after : Nat} {kinds : List OperandKind}
    (read : opening.readKinds memory address = .ok (kinds, after)) :
    kinds.length ≤ Operand.maxCount := by
  unfold Opening.readKinds at read
  split at read
  · rcases bind_reads.mp read with ⟨first, _, _, read⟩
    split at read
    · rcases bind_reads.mp read with ⟨second, _, _, same⟩
      cases same
      simp [Opening.kindsOfByte, Operand.maxCount]
    · cases read
      simp [Opening.kindsOfByte, Operand.maxCount]
  · cases read
    unfold Operand.maxCount
    omega

theorem Decoder.advances_readText (decoder : Decoder) (codec : Codec)
    (abbreviations : AbbreviationTable) :
    Advances memory (decoder.readText memory codec abbreviations) := by
  intro address decoded after inside read
  unfold Decoder.readText Memory.readCodes at read
  cases found : memory.textLength address none 0 with
  | error fault => simp [found, bind, Except.bind] at read
  | ok length =>
      have ends := Memory.textLength_le (by omega) found
      simp only [found, bind, Except.bind, pure, Except.pure] at read
      split at read
      · cases read
      · simp only [Except.ok.injEq, Prod.mk.injEq] at read
        omega

end Parts

namespace Decoder

variable {decoder : Decoder} {memory : Memory} {codec : Codec} {abbreviations : AbbreviationTable}

/-- How an instruction is put together from the parts that are read one after the other. -/
inductive Reads (decoder : Decoder) (memory : Memory) (codec : Codec)
    (abbreviations : AbbreviationTable) (start : Nat) : Instruction → Nat → Nat → Prop where
  | parts {opening : Opening} {kinds : List OperandKind} {operands : List Operand}
      {store : Option UInt8} {branch : Option Branch} {decoded : Option Decoded}
      {afterOpening afterKinds afterOperands afterStore afterBranch after : Nat}
      (openingRead : Opening.read decoder.version memory start = .ok (opening, afterOpening))
      (kindsRead : opening.readKinds memory afterOpening = .ok (kinds, afterKinds))
      (operandsRead : Operand.readAll memory (kinds.takeWhile (· ≠ .omitted)) afterKinds =
        .ok (operands, afterOperands))
      (storeRead : onlyIf ((Opcode.lookup decoder.version opening.opcodeClass opening.number).any
        (·.stores)) (byte memory) afterOperands = .ok (store, afterStore))
      (branchRead : onlyIf ((Opcode.lookup decoder.version opening.opcodeClass opening.number).any
        (·.branches)) (Branch.read memory) afterStore = .ok (branch, afterBranch))
      (textRead : onlyIf ((Opcode.lookup decoder.version opening.opcodeClass opening.number).any
        (·.carriesText)) (decoder.readText memory codec abbreviations) afterBranch =
          .ok (decoded, after)) :
      Reads decoder memory codec abbreviations start
        { address := start
          form := opening.form
          opcodeClass := opening.opcodeClass
          number := opening.number
          entry := Opcode.lookup decoder.version opening.opcodeClass opening.number
          operands
          store
          branch
          text := decoded.map (·.text)
          size := after - start }
        ((decoded.map (·.alphabet)).getD decoder.alphabet) after

theorem decode_eq_ok {address : Nat} {instruction : Instruction} {later : Decoder} :
    decoder.decode memory codec abbreviations address = .ok (instruction, later) ↔
      ∃ alphabet after, decoder.Reads memory codec abbreviations address instruction alphabet after ∧
        later = { decoder with alphabet } := by
  have opened : decoder.decode memory codec abbreviations address = .ok (instruction, later) ↔
      ∃ alphabet after, decoder.read memory codec abbreviations address address =
        .ok ((instruction, alphabet), after) ∧ later = { decoder with alphabet } := by
    unfold decode
    cases decoder.read memory codec abbreviations address address with
    | error fault => simp [bind, Except.bind]
    | ok result =>
        rcases result with ⟨⟨read, alphabet⟩, after⟩
        simp [bind, Except.bind, pure, Except.pure, and_assoc, eq_comm]
  rw [opened]
  refine exists_congr fun alphabet => exists_congr fun after => and_congr_left fun _ => ?_
  unfold read
  constructor
  · intro success
    rcases bind_reads.mp success with ⟨opening, afterOpening, openingRead, success⟩
    rcases bind_reads.mp success with ⟨kinds, afterKinds, kindsRead, success⟩
    rcases bind_reads.mp success with ⟨operands, afterOperands, operandsRead, success⟩
    rcases bind_reads.mp success with ⟨store, afterStore, storeRead, success⟩
    rcases bind_reads.mp success with ⟨branch, afterBranch, branchRead, success⟩
    rcases bind_reads.mp success with ⟨decoded, afterText, textRead, success⟩
    cases success
    exact .parts openingRead kindsRead operandsRead storeRead branchRead textRead
  · intro reads
    cases reads with
    | parts openingRead kindsRead operandsRead storeRead branchRead textRead =>
        refine bind_reads.mpr ⟨_, _, openingRead, bind_reads.mpr ⟨_, _, kindsRead, ?_⟩⟩
        refine bind_reads.mpr ⟨_, _, operandsRead, bind_reads.mpr ⟨_, _, storeRead, ?_⟩⟩
        exact bind_reads.mpr ⟨_, _, branchRead, bind_reads.mpr ⟨_, _, textRead, rfl⟩⟩

section Decoded

variable {address : Nat} {instruction : Instruction} {later : Decoder}

theorem version_of_decode
    (decoded : decoder.decode memory codec abbreviations address = .ok (instruction, later)) :
    later.version = decoder.version := by
  rcases decode_eq_ok.mp decoded with ⟨alphabet, after, _, rfl⟩
  rfl

/-- An instruction is not empty and lies in the file as a whole. -/
theorem bounds_of_decode
    (decoded : decoder.decode memory codec abbreviations address = .ok (instruction, later)) :
    instruction.address = address ∧ 0 < instruction.size ∧
      address + instruction.size ≤ memory.bytes.size := by
  rcases decode_eq_ok.mp decoded with ⟨alphabet, after, reads, _⟩
  cases reads with
  | @parts _ _ _ _ _ _ afterOpening _ _ _ _ _ openingRead kindsRead operandsRead storeRead branchRead
      textRead =>
      have first : address < memory.bytes.size ∧ address < afterOpening ∧
          afterOpening ≤ memory.bytes.size := by
        rcases bind_reads.mp openingRead with ⟨mark, second, markRead, restRead⟩
        rcases byte_eq_ok.mp markRead with ⟨inside, _, rfl⟩
        have rest := advances_ite (advances_bind advances_byte fun number => advances_pure _)
          (advances_pure _) (by omega) restRead
        omega
      have kinds := Opening.advances_readKinds _ first.2.2 kindsRead
      have operands := Operand.advances_readAll _ kinds.2 operandsRead
      have store := advances_onlyIf advances_byte operands.2 storeRead
      have branch := advances_onlyIf Branch.advances_read store.2 branchRead
      have text := advances_onlyIf (decoder.advances_readText codec abbreviations) branch.2 textRead
      refine ⟨rfl, ?_, ?_⟩ <;> simp only <;> omega

theorem fits_of_decode
    (decoded : decoder.decode memory codec abbreviations address = .ok (instruction, later)) :
    instruction.Fits := by
  rcases decode_eq_ok.mp decoded with ⟨alphabet, after, reads, _⟩
  cases reads with
  | parts openingRead kindsRead operandsRead storeRead branchRead textRead =>
      rintro branch target rfl toTarget
      exact Branch.lt_of_read (of_onlyIf branchRead) toTarget

theorem entry_of_decode
    (decoded : decoder.decode memory codec abbreviations address = .ok (instruction, later)) :
    instruction.entry =
      Opcode.lookup decoder.version instruction.opcodeClass instruction.number := by
  rcases decode_eq_ok.mp decoded with ⟨alphabet, after, reads, _⟩
  cases reads with
  | parts => rfl

theorem operands_of_decode
    (decoded : decoder.decode memory codec abbreviations address = .ok (instruction, later)) :
    instruction.operands.length ≤ Operand.maxCount := by
  rcases decode_eq_ok.mp decoded with ⟨alphabet, after, reads, _⟩
  cases reads with
  | @parts _ kinds _ _ _ _ _ _ _ _ _ _ openingRead kindsRead operandsRead storeRead branchRead
      textRead =>
      have kindsFew := Opening.length_of_readKinds (Opening.kinds_of_read openingRead) kindsRead
      have taken : (kinds.takeWhile (· ≠ .omitted)).length ≤ kinds.length :=
        (List.takeWhile_sublist _).length_le
      rw [Operand.length_of_readAll operandsRead]
      exact Nat.le_trans taken kindsFew

theorem named_of_decode
    (decoded : decoder.decode memory codec abbreviations address = .ok (instruction, later)) :
    ∀ operand ∈ instruction.operands, operand.Named := by
  rcases decode_eq_ok.mp decoded with ⟨alphabet, after, reads, _⟩
  cases reads with
  | parts openingRead kindsRead operandsRead storeRead branchRead textRead =>
      exact Operand.named_of_readAll operandsRead

theorem stores_of_decode {name : UInt8}
    (decoded : decoder.decode memory codec abbreviations address = .ok (instruction, later))
    (stored : instruction.store = some name) :
    ∃ entry, instruction.entry = some entry ∧ entry.stores = true := by
  rcases decode_eq_ok.mp decoded with ⟨alphabet, after, reads, _⟩
  cases reads with
  | @parts opening _ _ store _ _ _ _ _ _ _ _ openingRead kindsRead operandsRead storeRead branchRead
      textRead =>
      simp only at stored ⊢
      cases listed : Opcode.lookup decoder.version opening.opcodeClass opening.number with
      | none =>
          rw [listed] at storeRead
          cases storeRead
          cases stored
      | some entry =>
          refine ⟨entry, rfl, ?_⟩
          cases stores : entry.stores with
          | true => rfl
          | false =>
              simp only [listed, Option.any_some, stores] at storeRead
              cases storeRead
              cases stored

/-- The variable for the result is named by the last byte, if nothing follows it. -/
theorem store_of_decode {entry : CatalogEntry}
    (decoded : decoder.decode memory codec abbreviations address = .ok (instruction, later))
    (listed : instruction.entry = some entry) (stores : entry.stores = true)
    (branchless : entry.branches = false) (textless : entry.carriesText = false) :
    instruction.store = some (memory.bytes.byteAt (address + instruction.size - 1)) := by
  have bounds := bounds_of_decode decoded
  rcases decode_eq_ok.mp decoded with ⟨alphabet, after, reads, _⟩
  cases reads with
  | @parts _ _ _ _ _ _ _ _ afterOperands _ _ _ openingRead kindsRead operandsRead storeRead
      branchRead textRead =>
      simp only at listed bounds
      simp only [listed, Option.any_some, stores, branchless, textless]
        at storeRead branchRead textRead
      cases branchRead
      cases textRead
      rcases onlyIf_true.mp storeRead with ⟨name, rfl, nameRead⟩
      rcases byte_eq_ok.mp nameRead with ⟨_, rfl, rfl⟩
      have last : address + (afterOperands + 1 - address) - 1 = afterOperands := by omega
      rw [last]

/-- Apart from its text, an instruction depends on the bytes of the file and on the version. -/
theorem decode_of_sameBytes {entry : CatalogEntry} {other : Memory} {otherDecoder : Decoder}
    {otherCodec : Codec} {otherAbbreviations : AbbreviationTable}
    (decoded : decoder.decode memory codec abbreviations address = .ok (instruction, later))
    (listed : instruction.entry = some entry) (textless : entry.carriesText = false)
    (sameBytes : other.bytes = memory.bytes) (sameVersion : otherDecoder.version = decoder.version) :
    otherDecoder.decode other otherCodec otherAbbreviations address =
      .ok (instruction, otherDecoder) := by
  rcases decode_eq_ok.mp decoded with ⟨alphabet, after, reads, _⟩
  cases reads with
  | parts openingRead kindsRead operandsRead storeRead branchRead textRead =>
      simp only at listed
      simp only [listed, Option.any_some, textless] at textRead
      cases textRead
      rcases otherDecoder with ⟨version, otherAlphabet⟩
      cases sameVersion
      refine decode_eq_ok.mpr ⟨otherAlphabet, after, ?_, rfl⟩
      rw [← Opening.read_of_sameBytes sameBytes] at openingRead
      rw [← Opening.readKinds_of_sameBytes sameBytes] at kindsRead
      rw [← Operand.readAll_of_sameBytes sameBytes] at operandsRead
      rw [← byte_of_sameBytes sameBytes] at storeRead
      rw [← Branch.read_of_sameBytes sameBytes] at branchRead
      refine @Reads.parts ⟨_, otherAlphabet⟩ other otherCodec otherAbbreviations address _ _ _ _ _
        none _ _ _ _ _ _ openingRead kindsRead operandsRead storeRead branchRead ?_
      simp only [listed, Option.any_some, textless]
      rfl

/-- The catalog entry of a decoded instruction is legal in the version. -/
theorem row_of_decode {entry : CatalogEntry}
    (decoded : decoder.decode memory codec abbreviations address = .ok (instruction, later))
    (listed : instruction.entry = some entry) :
    entry ∈ Opcode.catalog ∧ entry.firstVersion ≤ decoder.version ∧
      decoder.version ≤ entry.lastVersion := by
  rw [entry_of_decode decoded] at listed
  exact Opcode.row_of_lookup listed

/-- An operation of a decoded instruction, with its catalog entry. -/
theorem entry_of_opcode {opcode : Opcode} (operation : instruction.opcode? = some opcode) :
    ∃ entry, instruction.entry = some entry ∧ entry.opcode = opcode := by
  simpa only [Instruction.opcode?, Option.map_eq_some_iff] using operation

end Decoded

end Decoder

end ZMachine
