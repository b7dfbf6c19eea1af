import Mathlib.Algebra.BigOperators.Intervals
import ZMachine.Proofs.Instruction.Acceptance
import ZMachine.Proofs.Machine.Recall
import ZMachine.Proofs.Machine.Saving
import ZMachine.Proofs.Memory.Loading

/-!
# The story as it was loaded

A memory has a copy of the story from the time when it was loaded. No step reaches this copy, the
header that was read then, or static memory. Restarting takes dynamic memory from the copy, and so
leads back to the loaded machine, whatever has happened since. Verifying adds up the bytes of the
copy, which are those of the story file: only the header is ever filled in, and the header is not
added up.
-/

namespace ZMachine

theorem Opcode.catalog_bare : ∀ row ∈ catalog, row.opcode = .restart ∨ row.opcode = .verify →
    row.opcodeClass = .op0 := by
  decide +kernel

theorem Opening.bare_of_read {memory : Memory} {version address after : Nat} {opening : Opening}
    (read : Opening.read version memory address = .ok (opening, after))
    (bare : opening.opcodeClass = .op0) : opening.form = .short ∧ opening.kinds = [] := by
  have ofByte_bare : ∀ byte, (ofByte byte).opcodeClass = .op0 →
      (ofByte byte).form = .short ∧ (ofByte byte).kinds = [] := by
    intro byte
    simp only [ofByte]
    grind
  rcases Fetching.bind_reads.mp read with ⟨first, second, _, read⟩
  split at read
  · rcases Fetching.bind_reads.mp read with ⟨number, _, _, same⟩
    cases same
    cases bare
  · cases read
    exact ofByte_bare first bare

theorem Decoder.operands_of_bare {decoder later : Decoder} {memory : Memory} {codec : Codec}
    {abbreviations : AbbreviationTable} {address : Nat} {instruction : Instruction}
    (decoded : decoder.decode memory codec abbreviations address = .ok (instruction, later))
    (bare : instruction.opcodeClass = .op0) : instruction.operands = [] := by
  rcases decode_eq_ok.mp decoded with ⟨alphabet, after, reads, _⟩
  cases reads with
  | parts openingRead kindsRead operandsRead storeRead branchRead textRead =>
      rcases Opening.bare_of_read openingRead bare with ⟨form, kinds⟩
      simp only [Opening.readKinds, form, kinds] at kindsRead
      cases kindsRead
      cases operandsRead
      rfl

namespace Machine

variable {η : Type} [Host η]

/-- Restarting and verifying have no operands, so nothing can fail before they are carried out. -/
theorem step_of_bare {machine : Machine η} {instruction : Instruction} {decoder : Decoder}
    {opcode : Opcode} (decoded : machine.nextInstruction = .ok (instruction, decoder))
    (named : instruction.opcode? = some opcode) (bare : opcode = .restart ∨ opcode = .verify) :
    step machine =
      tolerating (perform instruction opcode []) (machine.advance instruction decoder) := by
  rcases Decoder.entry_of_opcode named with ⟨entry, listed, operation⟩
  have row := (Decoder.row_of_decode decoded listed).1
  have bareClass := Opcode.catalog_bare entry row (operation ▸ bare)
  rw [Decoder.entry_of_decode decoded] at listed
  rw [(Opcode.class_of_lookup listed).1] at bareClass
  have fetched : operandValues opcode.takesVariable instruction.operands
      (machine.advance instruction decoder).memory =
        .ok [] (machine.advance instruction decoder).memory := by
    rw [Decoder.operands_of_bare decoded bareClass]
    rfl
  rw [step_of_decoded decoded, tolerating, execute_of_named named fetched]
  rfl

end Machine

/-- Restarting goes back to the loaded memory, except for the bits that survive. -/
theorem Memory.restart_of_protects {settings : Settings} {image : Image} {story memory : Memory}
    (loaded : load settings image = .ok story) (protects : story.Protects memory) :
    memory.restart =
      { story with
        bytes := story.bytes.setByte 0x11
          ((story.bytes.byteAt 0x11 &&& 0xFC) ||| (memory.bytes.byteAt 0x11 &&& 0x03)) } := by
  rcases load_eq_ok loaded with ⟨_, pristine, _, pc, frame, frames⟩
  have bytes := withStart_of_protects (mapped_of_load loaded) protects
  simp only [restart, protects.header, protects.pristine, pristine, bytes, pc, frame, frames,
    survivingAddress, Header.flags2Address]

/-- The bits that survive do not matter to a dictionary that lies elsewhere. -/
theorem Dictionary.ofMemory_setByte {memory : Memory} {dictionary : Option Dictionary}
    {address : Nat} (found : ofMemory? memory = .ok dictionary)
    (apart : ∀ main, dictionary = some main → address ∉ Set.Ico main.address main.entries)
    (value : UInt8) :
    ofMemory? { memory with bytes := memory.bytes.setByte address value } = .ok dictionary := by
  cases dictionary with
  | none =>
      simp only [ofMemory?] at found ⊢
      split at found
      · rename_i unnamed
        rw [if_pos unnamed]
      · cases read : Dictionary.read memory memory.header.dictionary with
        | error fault => simp [read, Except.map] at found
        | ok main => simp [read, Except.map] at found
  | some main =>
      refine ofMemory_of_same found ⟨rfl, Image.size_setByte _ _ _, ?_⟩
      intro other inside
      apply Image.byteAt_setByte_of_ne
      rintro rfl
      exact apart main rfl inside

namespace Machine

variable {η : Type}

/-- A machine as it was started, with two bits of the present one that survive. What does not belong
to the story is taken from the present machine, but its output is no longer diverted. -/
def reloaded (machine present : Machine η) : Machine η :=
  let survived :=
    (machine.memory.bytes.byteAt 0x11 &&& 0xFC) ||| (present.memory.bytes.byteAt 0x11 &&& 0x03)
  { present with
    memory := { machine.memory with bytes := machine.memory.bytes.setByte 0x11 survived }
    decoder := machine.decoder
    dictionary := machine.dictionary
    streams := { present.streams with tables := [] } }

theorem restart_of_protects {settings : Settings} {image : Image} {archive : Archive}
    {machine present : Machine η} (starts : machine.Starts settings image archive)
    (apart : ∀ main, machine.dictionary = some main → 0x11 ∉ Set.Ico main.address main.entries)
    (protects : machine.memory.Protects present.memory)
    (version : present.decoder.version = machine.decoder.version) :
    restart present = .ok .restarted (machine.reloaded present) := by
  have memory := Memory.restart_of_protects starts.memory protects
  have decoder : present.decoder.reset = machine.decoder := by
    rw [Decoder.reset, version, starts.decoder]
  have dictionary := Dictionary.ofMemory_setByte starts.dictionary apart
    ((machine.memory.bytes.byteAt 0x11 &&& 0xFC) ||| (present.memory.bytes.byteAt 0x11 &&& 0x03))
  simp only [restart_apply, memory, decoder, dictionary, reloaded]

/-- However a story has been running, restarting it leads back to the machine that was started, if
the beginning of the dictionary does not lie over the bits that survive. The decoder of that machine
has no alphabet locked in, and its dictionary remembers no word. -/
theorem restart_reloads [Host η] {settings : Settings} {image : Image} {host : η}
    {archive : Archive} {machine last : Machine η}
    (started : start settings image host archive = .ok machine)
    (apart : ∀ main, machine.dictionary = some main → 0x11 ∉ Set.Ico main.address main.entries)
    (run : Run (fun _ => True) machine last) :
    restart last = .ok .restarted (machine.reloaded last) ∧
    (∀ instruction decoder, last.nextInstruction = .ok (instruction, decoder) →
      instruction.opcode? = some .restart →
      step last = .ok .restarted
        { machine.reloaded last with instructionCount := last.instructionCount + 1 }) ∧
    machine.decoder = { version := machine.version } ∧
    ∀ main, machine.dictionary = some main → main.memo = none := by
  have starts := starts_of_start started
  rcases kept_of_run (Memory.mapped_of_load starts.memory) run with ⟨protects, version⟩
  refine ⟨restart_of_protects starts apart protects version, ?_, starts.decoder, ?_⟩
  · intro instruction decoder decoded named
    have moved : machine.memory.Protects (last.advance instruction decoder).memory :=
      protects.trans ⟨rfl, rfl, rfl, fun _ _ => rfl⟩
    have advanced : (last.advance instruction decoder).decoder.version = machine.decoder.version :=
      (Decoder.version_of_decode decoded).trans version
    rw [step_of_bare decoded named (Or.inl rfl)]
    exact tolerating_of_ok (restart_of_protects starts apart moved advanced)
  · intro main present
    have read := starts.dictionary
    rw [present] at read
    exact (Dictionary.of_read (Dictionary.of_ofMemory read).2).1

/-- A player says "go up", and the story begins a transcript before it is restarted. The word is
forgotten, and the transcript goes on. -/
theorem restart_reloads_spoken :
    let machine := talking [0xE4, 0x5F, 64, 72, 16, 0xF3, 0x7F, 2, 0xB7] ["go up"]
    let last := machine.next.next
    start {} (.talking [0xE4, 0x5F, 64, 72, 16, 0xF3, 0x7F, 2, 0xB7]) (talker ["go up"]) .absent =
        .ok machine ∧
    last.dictionary = some { Dictionary.talking with memo := some ("up", 100) } ∧
    step last = .ok .restarted { machine.reloaded last with instructionCount := 3 } ∧
    (machine.reloaded last).dictionary = some .talking ∧
    (machine.reloaded last).memory.bytes.byteAt 0x11 = 1 ∧
    (machine.reloaded last).streams.transcript = true := by
  intro machine last
  have started : start {} (.talking [0xE4, 0x5F, 64, 72, 16, 0xF3, 0x7F, 2, 0xB7])
      (talker ["go up"]) .absent = .ok machine := rfl
  have played : last.dictionary = some { Dictionary.talking with memo := some ("up", 100) } ∧
      (machine.reloaded last).memory.bytes.byteAt 0x11 = 1 ∧
      (machine.reloaded last).streams.transcript = true ∧
      last.instructionCount = 2 ∧ last.PerformsNext .restart := by
    decide +kernel
  have present : machine.dictionary = some .talking := rfl
  have run : Run (fun _ => True) machine last := .step (.step .refl trivial) trivial
  clear_value machine last
  have apart : ∀ main, machine.dictionary = some main →
      0x11 ∉ Set.Ico main.address main.entries := by
    intro main found
    cases present.symm.trans found
    decide
  rcases played with ⟨remembers, survives, transcript, counted, restarts⟩
  rcases restarts with ⟨instruction, _, _, named, decoder, _, decoded, _⟩
  refine ⟨started, remembers, ?_, present, survives, transcript⟩
  rw [(restart_reloads started apart run).2.1 instruction decoder decoded named, counted]

end Machine

namespace Image

theorem toNat_sum (image : Image) (start stop : Nat) :
    ((image.extract start stop).foldl (fun sum (byte : UInt8) => sum + byte.toUInt16) 0).toNat =
      (∑ address ∈ Finset.Ico start (min stop image.size), (image.byteAt address).toNat) % 65536 := by
  induction stop with
  | zero => simp
  | succ stop ih =>
      by_cases inside : stop < image.size
      · by_cases behind : start ≤ stop
        · have byte : image.byteAt stop = image[stop] := by simp [byteAt, inside]
          rw [Nat.min_eq_left (by omega)] at ih ⊢
          rw [Array.extract_succ_right (by omega) inside, Array.foldl_push, UInt16.toNat_add, ih,
            UInt8.toNat_toUInt16, Finset.sum_Ico_succ_top behind, byte, Nat.mod_add_mod]
        · have before : image.extract start (stop + 1) = #[] :=
            Array.extract_eq_empty_of_le (by omega)
          rw [before, Finset.Ico_eq_empty (by omega)]
          rfl
      · have ended : image.extract start (stop + 1) = image.extract start stop := by
          simp only [Array.ext_iff, Array.size_extract, Array.getElem_extract, implies_true, and_true]
          omega
        rw [ended, ih, Nat.min_eq_right (by omega), Nat.min_eq_right (by omega)]

/-- The sum of the bytes of a story file that should be the one in its header. The length of the story
is counted in units that depend on the version, and the file may be shorter. -/
def storySum (image : Image) : Nat :=
  let version := (image.byteAt 0x00).toNat
  let unit := if version ≤ 3 then 2 else if version ≤ 5 then 4 else 8
  let length := (image.wordAt 0x1A).toNat * unit
  (∑ address ∈ Finset.Ico 64 (min length image.size), (image.byteAt address).toNat) % 65536

end Image

namespace Memory

variable {settings : Settings} {image : Image} {story memory : Memory}
  (loaded : load settings image = .ok story) (protects : story.Protects memory)

include loaded protects

theorem header_of_protects : memory.header = Header.read (Header.normalize settings image) := by
  rw [protects.header, (load_eq_ok_iff.mp loaded).2, fresh]

/-- The sum of the loaded bytes is that of the story file, since only the header is filled in. -/
theorem toNat_checksum : memory.checksum.toNat = image.storySum := by
  have pristine : memory.pristine = Header.normalize settings image := by
    rw [protects.pristine, (load_eq_ok_iff.mp loaded).2, fresh]
  have length : memory.header.fileLength = (Header.read image).fileLength := by
    rw [Header.read_normalize settings (header_of_protects loaded protects)]
  have bytes : ∀ address, 64 ≤ address →
      memory.pristine.byteAt address = image.byteAt address := by
    intro address behind
    rw [pristine]
    apply Header.byteAt_normalize_of_five
    simp only [Header.Rewrites]
    omega
  have size : memory.pristine.size = image.size := by rw [pristine, Header.size_normalize]
  rw [checksum, Image.toNat_sum, length, size]
  apply congrArg (· % 65536)
  apply Finset.sum_congr rfl
  intro address listed
  rw [bytes address (Finset.mem_Ico.mp listed).1]

/-- A story is found valid exactly if its file has the sum that its header gives. -/
theorem checksum_beq : (memory.checksum == memory.header.checksum) =
    decide (image.storySum = (image.wordAt 0x1C).toNat) := by
  have given : memory.header.checksum = image.wordAt 0x1C := by
    rw [Header.read_normalize settings (header_of_protects loaded protects), Header.read]
  simp only [← toNat_checksum loaded protects, given, UInt16.toNat_inj]
  rfl

end Memory

namespace Machine

variable {η : Type} [Host η]

/-- However a story has been running, verifying judges the story file as it was before it was loaded:
the condition of the branch is that the bytes behind the header have the sum that the header gives.
-/
theorem verify_judges_file {settings : Settings} {image : Image} {host : η} {archive : Archive}
    {machine last : Machine η} (started : start settings image host archive = .ok machine)
    (run : Run (fun _ => True) machine last) :
    last.memory.checksum.toNat = image.storySum ∧
    ∀ instruction decoder, last.nextInstruction = .ok (instruction, decoder) →
      instruction.opcode? = some .verify →
      step last =
        tolerating (branchIf instruction (decide (image.storySum = (image.wordAt 0x1C).toNat)))
          (last.advance instruction decoder) := by
  have loaded := (starts_of_start started).memory
  have protects := (kept_of_run (Memory.mapped_of_load loaded) run).1
  refine ⟨Memory.toNat_checksum loaded protects, ?_⟩
  intro instruction decoder decoded named
  have moved : machine.memory.Protects (last.advance instruction decoder).memory :=
    protects.trans ⟨rfl, rfl, rfl, fun _ _ => rfl⟩
  have performed : perform instruction .verify [] (last.advance instruction decoder) =
      branchIf instruction (decide (image.storySum = (image.wordAt 0x1C).toNat))
        (last.advance instruction decoder) := by
    rw [← Memory.checksum_beq loaded moved]
    rfl
  rw [step_of_bare decoded named (Or.inr rfl), tolerating, performed]
  rfl

/-- A story of 44 units with the sum 962 stores a byte, and is found valid. -/
theorem verify_judges_file_stored :
    let code : List UInt8 := [0xE2, 0x57, 79, 0, 7, 0xBD, 0xC2, 0xB4]
    let image := ((Image.sample 3 code).setWord 0x1A 44).setWord 0x1C 962
    ∃ machine, start {} image Recorded.silent .absent = .ok machine ∧
      machine.next.memory.bytes.byteAt 79 = 7 ∧
      machine.next.memory.checksum.toNat = 962 ∧
      ∃ instruction decoder, machine.next.nextInstruction = .ok (instruction, decoder) ∧
        step machine.next =
          tolerating (branchIf instruction true) (machine.next.advance instruction decoder) := by
  intro code image
  have sum : image.storySum = 962 ∧ (image.wordAt 0x1C).toNat = 962 := by decide +kernel
  have ran : (start {} image Recorded.silent .absent).toOption.map (fun machine =>
      (machine.next.memory.bytes.byteAt 79, decide (machine.next.PerformsNext .verify))) =
        some (7, true) := by
    decide +kernel
  clear_value image
  cases started : start {} image Recorded.silent .absent with
  | error fault => simp [started, Except.toOption] at ran
  | ok machine =>
      simp only [started, Except.toOption, Option.map_some, Option.some.injEq, Prod.mk.injEq,
        decide_eq_true_eq] at ran
      rcases ran with ⟨stored, instruction, _, _, named, decoder, _, decoded, _⟩
      rcases verify_judges_file started (.step .refl trivial) with ⟨checksum, judges⟩
      refine ⟨machine, rfl, stored, by rw [checksum, sum.1], instruction, decoder, decoded, ?_⟩
      rw [judges instruction decoder decoded named, sum.1, sum.2]
      rfl

end Machine

end ZMachine
