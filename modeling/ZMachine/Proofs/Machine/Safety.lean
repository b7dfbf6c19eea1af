import ZMachine.Proofs.Machine.Soundness

/-!
# No step crashes

The machine adds up addresses and looks into its tables without further checks. A sound machine can
afford this. Addresses that cannot be reached appear in faults, and no fault of a sound machine names
an address of more than 32 bits. What is subtracted from an address is never too much, and no index
leaves its table: the invariants of `Machine.Sound` and the check just before leave no room for it.
-/

namespace ZMachine

/-- A broken device refuses to save, which is no fault of an address. -/
theorem Archive.addressable_save {archive : Archive} {memory : Memory} {fault : Fault}
    (failed : archive.save memory = .error fault) : fault.Addressable := by
  cases archive with
  | absent => cases failed
  | broken =>
      cases failed
      trivial
  | snapshots saved history depth => cases failed

namespace Machine

variable {η : Type}

theorem ensures_operandValues (named : Bool) (operands : List Operand) :
    Ensures Memory.Bounded (fun _ => True) (operandValues named operands) := by
  induction operands generalizing named with
  | nil => exact Ensures.pure trivial
  | cons operand operands ih =>
      have first : Ensures Memory.Bounded (fun _ => True) (operandValue named operand) := by
        apply Ensures.ite
        · intro _
          exact Memory.ensures_readVariable _
        · intro _
          exact Ensures.pure trivial
      exact first.bind fun _ _ => (ih false).bind fun _ _ => Ensures.pure trivial

theorem ensures_report (instruction : Instruction) (success : Bool) :
    Ensures Bounded (fun _ => True) (report instruction success : MachineM η Outcome) := by
  intro machine bounded
  unfold report
  by_cases early : machine.version ≤ 3
  · rw [if_pos early]
    exact ensures_branchIf instruction success machine bounded
  · rw [if_neg early]
    exact ensures_conclude instruction _ machine bounded

theorem Bounded.of_archive {machine : Machine η} (bounded : machine.Bounded) (archive : Archive) :
    ({ machine with archive } : Machine η).Bounded :=
  ⟨bounded.memory, bounded.abbreviations, bounded.objects, bounded.dictionary, bounded.tables⟩

section Resuming

variable {machine after : Machine η} {fault : Fault} (bounded : machine.Bounded)
  (placed : machine.memory.pc < addressCount)

include bounded placed

theorem addressable_nextInstruction (failed : machine.nextInstruction = .error fault) :
    fault.Addressable := by
  have answers := machine.decoder.answers_decode bounded.memory bounded.abbreviations machine.codec
    placed
  rw [nextInstruction] at failed
  rw [failed] at answers
  exact answers

theorem addressable_storeRestored (failed : storeRestored machine = .error fault after) :
    fault.Addressable := by
  have fits : machine.memory.pc - 1 < addressCount := by omega
  have named : Ensures Bounded (fun _ => True)
      (inspect fun other : Machine η => other.memory.fetchByte (machine.memory.pc - 1)) :=
    ensures_inspect fun _ _ => (Memory.answers_fetchByte fits).mono fun _ _ => trivial
  have stored := named.bind fun name _ =>
    ensures_onMemory (Memory.ensures_writeVariable name restoredResult)
  unfold storeRestored at failed
  rw [bind_view] at failed
  exact stored.fault bounded failed

theorem addressable_branchRestored (failed : branchRestored machine = .error fault after) :
    fault.Addressable := by
  rw [branchRestored_apply] at failed
  cases decoded : machine.nextInstruction with
  | error reason =>
      simp only [decoded] at failed
      cases failed
      exact addressable_nextInstruction bounded placed decoded
  | ok result =>
      rcases result with ⟨saving, decoder⟩
      simp only [decoded] at failed
      have branched : Ensures Bounded (fun _ => True) (do
          let _ ← branchIf saving true
          return () : MachineM η Unit) :=
        (ensures_branchIf saving true).bind fun _ _ => Ensures.pure trivial
      refine branched.fault ?_ failed
      exact ⟨bounded.memory.of_same rfl rfl, bounded.abbreviations, bounded.objects,
        bounded.dictionary, bounded.tables⟩

theorem addressable_resume (failed : resume machine = .error fault after) : fault.Addressable := by
  unfold resume at failed
  split at failed
  · rcases bind_eq_error failed with failed | ⟨_, _, _, impossible⟩
    · exact addressable_branchRestored bounded placed failed
    · cases impossible
  · rcases bind_eq_error failed with failed | ⟨_, _, _, impossible⟩
    · exact addressable_storeRestored bounded placed failed
    · cases impossible

end Resuming

section Operations

variable {machine after : Machine η} {instruction : Instruction} {fault : Fault}
  (sound : machine.Sound)

include sound

theorem addressable_save (failed : save instruction machine = .error fault after) :
    fault.Addressable := by
  rw [save_apply] at failed
  split at failed
  · rename_i refused
    cases failed
    exact Archive.addressable_save refused
  · rename_i success archive _
    exact (ensures_report instruction success).fault (sound.bounded.of_archive archive) failed

theorem addressable_saveUndo (failed : saveUndo instruction machine = .error fault after) :
    fault.Addressable := by
  rw [saveUndo_apply] at failed
  exact (ensures_conclude instruction _).fault (sound.bounded.of_archive _) failed

/-- A state of play that is gone back to is a sound memory. -/
theorem sound_restored {memory : Memory} {snapshot : Snapshot}
    (held : machine.archive.Holds snapshot)
    (restored : Memory.restoreSnapshot snapshot machine.memory = .ok () memory) : memory.Sound :=
  sound.memory.restoreSnapshot (sound.archive snapshot held) restored

theorem addressable_restore (failed : restore instruction machine = .error fault after) :
    fault.Addressable := by
  rw [restore_apply] at failed
  split at failed
  · rename_i refused
    cases failed
    rcases Archive.restore_eq_error refused with ⟨_, rfl | ⟨misfit, rfl⟩⟩
    · trivial
    · trivial
  · rename_i memory restored
    rcases Archive.restore_eq_true restored with ⟨snapshot, held, went⟩
    have back := sound_restored sound held went
    exact addressable_resume (sound.bounded.of_memory back.bounded) back.pc failed
  · rename_i memory missing
    have same := Archive.restore_eq_false missing
    subst same
    exact (ensures_report instruction false).fault (sound.bounded.of_memory sound.bounded.memory)
      failed

theorem addressable_restoreUndo (failed : restoreUndo instruction machine = .error fault after) :
    fault.Addressable := by
  rw [restoreUndo_apply] at failed
  rcases Archive.restoreUndo_cases machine.archive machine.memory with
    ⟨newest, memory, taken, went, undone⟩ | undone | ⟨misfit, undone⟩
  · rw [undone] at failed
    have back := sound_restored sound (Archive.holds_of_takeUndo taken) went
    have bounded := (sound.bounded.of_archive machine.archive.takeUndo.2).of_memory back.bounded
    rcases bind_eq_error failed with failed | ⟨_, _, _, impossible⟩
    · exact addressable_storeRestored bounded back.pc failed
    · cases impossible
  · rw [undone] at failed
    exact (ensures_conclude instruction 0).fault (sound.bounded.of_archive _) failed
  · rw [undone] at failed
    cases failed
    trivial

theorem addressable_restart (failed : restart machine = .error fault after) : fault.Addressable := by
  have answers := Dictionary.answers_ofMemory sound.memory.restart.bounded
  rw [restart_apply] at failed
  dsimp only at failed
  split at failed
  · rename_i read
    rw [read] at answers
    cases failed
    exact answers
  · cases failed

theorem addressable_perform [Host η] {opcode : Opcode} {values : List UInt16}
    (failed : perform instruction opcode values machine = .error fault after) :
    fault.Addressable := by
  cases managing : opcode.managesPlay with
  | false => exact (ensures_perform instruction values managing).fault sound.bounded failed
  | true =>
      unfold Opcode.managesPlay at managing
      split at managing
      · exact addressable_save sound failed
      · exact addressable_restore sound failed
      · exact addressable_saveUndo sound failed
      · exact addressable_restoreUndo sound failed
      · exact addressable_restart sound failed
      · cases managing

/-- Whatever goes wrong while an instruction is carried out, the address in the fault has 32 bits. -/
theorem addressable_execute [Host η] {decoder : Decoder}
    (decoded : machine.nextInstruction = .ok (instruction, decoder))
    (failed : execute instruction (machine.advance instruction decoder) = .error fault after) :
    fault.Addressable := by
  have advanced := sound.advance decoded
  cases named : instruction.opcode? with
  | none =>
      rw [execute, named] at failed
      cases failed
      trivial
  | some opcode =>
      have ensures := ensures_operandValues opcode.takesVariable instruction.operands
      rcases ensures.cases _ advanced.bounded.memory with
        ⟨values, memory, fetched, _⟩ | ⟨reason, memory, refused, addressable⟩
      · have performs : machine.Performs instruction opcode values
            { machine.advance instruction decoder with memory } :=
          ⟨named, decoder, memory, decoded, fetched, rfl⟩
        rw [execute_of_named named fetched] at failed
        exact addressable_perform (sound.performs performs) failed
      · rw [execute, named] at failed
        dsimp only at failed
        rw [bind_of_error (onMemory_of_error refused)] at failed
        cases failed
        exact addressable

end Operations

end Machine

namespace Codec

/-- The letter of an alphabet, if there are such an alphabet and such a letter in it. -/
def letter? (codec : Codec) (number code : Nat) : Option Char :=
  if number < 3 ∧ 6 ≤ code then (codec.alphabet number)[code - 6]? else none

theorem letter?_of_lt (codec : Codec) {number code : Nat} (known : number < 3) (least : 6 ≤ code)
    (small : code < 32) : codec.letter? number code = some (codec.letter number code) := by
  have inside : code - 6 < 26 := by omega
  simp [letter?, letter, known, least, inside]

/-- Reads codes as `decodeAfter` does, but gives up when a letter that does not exist is looked up. -/
def decodeStrictly (codec : Codec) (expand : Expansion) (locked current : Nat) (text : String) :
    List Nat → Option (Except Fault Decoded)
  | [] => some (.ok ⟨text, locked⟩)
  | code :: rest =>
    if code = 0 then codec.decodeStrictly expand locked locked (text.push ' ') rest
    else if code = 1 ∧ codec.version = 1 then
      codec.decodeStrictly expand locked locked (text.push '\n') rest
    else if code ≤ 3 ∧ (3 ≤ codec.version ∨ code = 1) then
      match rest with
      | [] => some (.ok ⟨text, locked⟩)
      | index :: rest =>
        match expand code index with
        | .error fault => some (.error fault)
        | .ok expansion => codec.decodeStrictly expand locked locked (text ++ expansion) rest
    else if code ≤ 3 then
      codec.decodeStrictly expand locked ((locked + code - 1) % 3) text rest
    else if code ≤ 5 ∧ codec.version < 3 then
      codec.decodeStrictly expand ((locked + code - 3) % 3) ((locked + code - 3) % 3) text rest
    else if code = 4 then codec.decodeStrictly expand locked 1 text rest
    else if code = 5 then codec.decodeStrictly expand locked 2 text rest
    else if code = 6 ∧ current = 2 then
      match rest with
      | high :: low :: rest =>
        let text :=
          match codec.charOfZscii (high * 32 + low) with
          | none => text
          | some c => text.push c
        codec.decodeStrictly expand locked locked text rest
      | _ => some (.ok ⟨text, locked⟩)
    else
      match codec.letter? current code with
      | none => none
      | some c => codec.decodeStrictly expand locked locked (text.push c) rest

/-- Codes of five bits, read from an alphabet on, look up letters that exist. -/
theorem decodeStrictly_eq (codec : Codec) (expand : Expansion) {locked current : Nat}
    (text : String) {codes : List Nat} (lockedKnown : locked < 3) (currentKnown : current < 3)
    (small : ∀ code ∈ codes, code < 32) :
    codec.decodeStrictly expand locked current text codes =
      some (codec.decodeAfter expand locked current text codes) := by
  have later : ∀ {code : Nat} {rest : List Nat}, (∀ other ∈ code :: rest, other < 32) →
      ∀ other ∈ rest, other < 32 := fun small other member =>
    small other (List.mem_cons_of_mem _ member)
  fun_induction Codec.decodeAfter codec expand locked current text codes with
  | case1 => rfl
  | case2 locked current text rest ih =>
      unfold decodeStrictly
      rw [if_pos rfl]
      exact ih lockedKnown lockedKnown (later small)
  | case3 locked current text code rest notZero isBreak ih =>
      unfold decodeStrictly
      rw [if_neg notZero, if_pos isBreak]
      exact ih lockedKnown lockedKnown (later small)
  | case4 locked current text code notZero notBreak isReference =>
      unfold decodeStrictly
      rw [if_neg notZero, if_neg notBreak, if_pos isReference]
  | case5 locked current text code notZero notBreak isReference index rest fault failed =>
      unfold decodeStrictly
      rw [if_neg notZero, if_neg notBreak, if_pos isReference]
      simp only [failed]
  | case6 locked current text code notZero notBreak isReference index rest expansion expanded ih =>
      unfold decodeStrictly
      rw [if_neg notZero, if_neg notBreak, if_pos isReference]
      simp only [expanded]
      exact ih lockedKnown lockedKnown (later (later small))
  | case7 locked current text code rest notZero notBreak notReference isShift ih =>
      unfold decodeStrictly
      rw [if_neg notZero, if_neg notBreak, if_neg notReference, if_pos isShift]
      exact ih lockedKnown (Nat.mod_lt _ (by decide)) (later small)
  | case8 locked current text code rest notZero notBreak notReference notShift isLock ih =>
      unfold decodeStrictly
      rw [if_neg notZero, if_neg notBreak, if_neg notReference, if_neg notShift,
        if_pos isLock]
      exact ih (Nat.mod_lt _ (by decide)) (Nat.mod_lt _ (by decide)) (later small)
  | case9 locked current text rest notZero notBreak notReference notShift notLock ih =>
      unfold decodeStrictly
      rw [if_neg notZero, if_neg notBreak, if_neg notReference, if_neg notShift,
        if_neg notLock, if_pos rfl]
      exact ih lockedKnown (by decide) (later small)
  | case10 locked current text rest notZero notBreak notReference notShift notLock notFour ih =>
      unfold decodeStrictly
      rw [if_neg notZero, if_neg notBreak, if_neg notReference, if_neg notShift,
        if_neg notLock, if_neg notFour, if_pos rfl]
      exact ih lockedKnown (by decide) (later small)
  | case11 locked current text code notZero notBreak notReference notShift notLock notFour notFive
      isEscape high low rest _ ih =>
      unfold decodeStrictly
      rw [if_neg notZero, if_neg notBreak, if_neg notReference, if_neg notShift,
        if_neg notLock, if_neg notFour, if_neg notFive, if_pos isEscape]
      exact ih lockedKnown lockedKnown (later (later (later small)))
  | case12 locked current text code rest notZero notBreak notReference notShift notLock notFour
      notFive isEscape short =>
      unfold decodeStrictly
      rw [if_neg notZero, if_neg notBreak, if_neg notReference, if_neg notShift,
        if_neg notLock, if_neg notFour, if_neg notFive, if_pos isEscape]
      split
      · exact absurd rfl (short _ _ _)
      · rfl
  | case13 locked current text code rest notZero notBreak notReference notShift notLock notFour
      notFive notEscape ih =>
      have exists_ := codec.letter?_of_lt currentKnown (by omega) (small code (List.mem_cons_self ..))
      unfold decodeStrictly
      rw [if_neg notZero, if_neg notBreak, if_neg notReference, if_neg notShift,
        if_neg notLock, if_neg notFour, if_neg notFive, if_neg notEscape, exists_]
      exact ih lockedKnown lockedKnown (later small)
end Codec

namespace Memory

/-- What passes a check of the memory lies inside what it looks into, and packed text is spelled with
letters that exist. -/
structure InRange (memory : Memory) : Prop where
  loadByte : ∀ {address : Nat} {byte : UInt8}, memory.readByte address = .ok byte →
    address < memory.bytes.size
  loadWord : ∀ {address : Nat} {word : UInt16}, memory.readWord address = .ok word →
    address + 1 < memory.bytes.size
  storeByte : ∀ {address : Nat} {value : UInt8} {after : Memory},
    writeByte address value memory = .ok () after → address < memory.bytes.size
  storeWord : ∀ {address : Nat} {value : UInt16} {after : Memory},
    writeWord address value memory = .ok () after → address + 1 < memory.bytes.size
  stretch : ∀ {address count : Nat}, memory.checkDynamic address count = .ok () →
    address + count ≤ memory.bytes.size
  dynamic : memory.header.staticBase ≤ memory.bytes.size
  pristine : memory.header.staticBase ≤ memory.pristine.size
  surviving : survivingAddress < memory.bytes.size
  locals : ∀ {name : UInt8}, name ≠ 0 → name < 16 →
    1 ≤ name.toNat ∧ name.toNat - 1 < memory.frame.locals.size
  globals : ∀ {name : UInt8}, ¬ name < 16 →
    16 ≤ name.toNat ∧ memory.globalAddress name + 1 < addressCount
  letters : ∀ {address : Nat} {limit : Option Nat} {found : Nat × List Nat} (codec : Codec)
    (expand : Expansion) (alphabet : Nat), memory.readCodes address limit = .ok found →
      codec.decodeStrictly expand (alphabet % 3) (alphabet % 3) "" found.2 =
        some (codec.decode expand alphabet found.2)

theorem inRange_of_mapped {memory : Memory} (mapped : memory.Mapped) (bounded : memory.Bounded) :
    memory.InRange where
  loadByte := by
    intro address byte loaded
    unfold readByte at loaded
    split at loaded
    · cases loaded
    · omega
  loadWord := by
    intro address word loaded
    unfold readWord at loaded
    split at loaded
    · cases loaded
    · omega
  storeByte := by
    intro address value after stored
    have inside := mapped.static
    unfold writeByte at stored
    split at stored
    · cases stored
    · omega
  storeWord := by
    intro address value after stored
    have inside := mapped.static
    unfold writeWord at stored
    split at stored
    · cases stored
    · omega
  stretch := by
    intro address count checked
    have inside := mapped.static
    unfold checkDynamic at checked
    split at checked
    · cases checked
    · omega
  dynamic := mapped.static
  pristine := by
    rw [mapped.pristine]
    exact mapped.static
  surviving := by
    have header := mapped.header
    have inside := mapped.static
    simp only [survivingAddress, Header.flags2Address, Header.size] at *
    omega
  locals := by
    intro name notStack isLocal
    have positive : name.toNat ≠ 0 := fun zero => notStack (UInt8.toNat_inj.mp zero)
    have small : name.toNat < 16 := UInt8.lt_iff_toNat_lt.mp isLocal
    refine ⟨by omega, ?_⟩
    show name.toNat - 1 < 15
    omega
  globals := by
    intro name isGlobal
    refine ⟨?_, addressable_global bounded name⟩
    simpa [UInt8.lt_iff_toNat_lt] using isGlobal
  letters := by
    intro address limit found codec expand alphabet read
    have known : alphabet % 3 < 3 := Nat.mod_lt _ (by decide)
    exact codec.decodeStrictly_eq expand "" known known fun code member =>
      lt_of_readCodes read member

end Memory

/-- The operations that look at all operands after the first. -/
def Opcode.takesRest : Opcode → Bool
  | .je | .callVs | .callVs2 | .callVn | .callVn2 | .call1s | .call1n | .call2s | .call2n => true
  | _ => false

namespace Machine

variable {η : Type}

/-- Prints rows as `printRows` does, but fails when the address after a row has more than 32 bits. -/
def printRowsStrictly [Host η] (width stride : Nat) :
    (count address : Nat) → (first : Bool) → MachineM η Unit
  | 0, _, _ => pure ()
  | count + 1, address, first => do
    if !first then outputNewLine
    let row ← inspect fun machine => machine.memory.readText machine.codec width address ""
    outputText row
    if addressCount ≤ address + stride then throw (.outsideStory (address + stride))
    printRowsStrictly width stride count (address + stride) false

theorem printRowsStrictly_eq [Host η] {width stride count address : Nat} (first : Bool)
    (rows : RowsFit width stride count address) {machine : Machine η} (bounded : machine.Bounded) :
    printRowsStrictly width stride count address first machine =
      printRows width stride count address first machine := by
  induction count generalizing address first machine with
  | zero => rfl
  | succ count ih =>
      have row : ∀ {other : Machine η}, other.Bounded → (do
          let row ← inspect fun machine => machine.memory.readText machine.codec width address ""
          outputText row
          if addressCount ≤ address + stride then throw (.outsideStory (address + stride))
          printRowsStrictly width stride count (address + stride) false : MachineM η Unit) other =
          (do
            let row ← inspect fun machine => machine.memory.readText machine.codec width address ""
            outputText row
            printRows width stride count (address + stride) false : MachineM η Unit) other := by
        intro other bounded
        rcases (ensures_readRow width rows.first).cases other bounded with
          ⟨text, same, read, inside, bounded⟩ | ⟨fault, same, read, _⟩
        · rw [bind_of_ok read, bind_of_ok read]
          rcases (ensures_outputText text).cases same bounded with
            ⟨_, after, shown, _, bounded⟩ | ⟨fault, after, shown, _⟩
          · have next := rows.next inside
            have fits : ¬ addressCount ≤ address + stride := by
              have fits := next.first
              omega
            rw [bind_of_ok shown, bind_of_ok shown, if_neg fits]
            exact ih false next bounded
          · rw [bind_of_error shown, bind_of_error shown]
        · rw [bind_of_error read, bind_of_error read]
      unfold printRowsStrictly printRows
      cases first with
      | true => exact row bounded
      | false =>
          simp only [Bool.not_false, if_true]
          rcases ensures_outputNewLine.cases machine bounded with
            ⟨_, after, ended, _, bounded⟩ | ⟨fault, after, ended, _⟩
          · rw [bind_of_ok ended, bind_of_ok ended]
            exact row bounded
          · rw [bind_of_error ended, bind_of_error ended]

/-- No address or index of the next step leaves its range. Whatever the step has done to memory so
far, that memory belongs to the same story. -/
structure StaysInRange [Host η] (machine : Machine η) : Prop where
  memory : ∀ memory, machine.memory.Protects memory → memory.InRange
  operands : ∀ {instruction : Instruction} {decoder : Decoder},
    machine.nextInstruction = .ok (instruction, decoder) →
      instruction.operands.length ≤ Operand.maxCount ∧
        machine.memory.pc + instruction.size ≤ machine.memory.bytes.size
  /-- Without a first operand there is a fault before the rest is looked at. -/
  rest : ∀ {instruction : Instruction} {opcode : Opcode} {ready : Machine η},
    machine.Performs instruction opcode [] ready → opcode.takesRest = true →
      perform instruction opcode [] ready = .error (.missingOperand instruction.name 0) ready
  /-- Objects, property defaults and abbreviation tables are numbered from 1. -/
  objects : ∀ {object address : Nat}, machine.objects.entryAddress object = .ok address → 1 ≤ object
  defaults : ∀ {memory : Memory} {number : Nat} {value : UInt16},
    machine.objects.propertyDefault memory number = .ok value → 1 ≤ number
  abbreviations : ∀ {memory : Memory} {table index address : Nat},
    machine.abbreviations.stringAddress memory table index = .ok address → 1 ≤ table
  /-- Without property data there is no byte before it. -/
  lengths : ∀ memory, machine.objects.propertyLength memory 0 = .ok 0
  /-- Where the result of a saving instruction is stored, there is a byte before the program counter.
  -/
  restores : ∀ {instruction : Instruction} {values : List UInt16} {ready : Machine η}
    {memory : Memory}, machine.Performs instruction .restore values ready → 4 ≤ machine.version →
      ready.archive.restore ready.memory = .ok true memory → 1 ≤ memory.pc
  undoes : ∀ {instruction : Instruction} {values : List UInt16} {ready : Machine η}
    {archive : Archive} {memory : Memory}, machine.Performs instruction .restoreUndo values ready →
      Archive.restoreUndo (ready.archive, ready.memory) = .ok true (archive, memory) → 1 ≤ memory.pc
  /-- Checking the address of each row of a printed table makes no difference. -/
  rows : ∀ {instruction : Instruction} {values : List UInt16} {ready : Machine η}
    (start width skip height : UInt16), machine.Performs instruction .printTable values ready →
      printRowsStrictly width.toNat (width.toNat + skip.toNat) height.toNat start.toNat true ready =
        printRows width.toNat (width.toNat + skip.toNat) height.toNat start.toNat true ready
  decodes : ∀ {fault : Fault}, machine.nextInstruction = .error fault → fault.Addressable
  executes : ∀ {instruction : Instruction} {decoder : Decoder} {fault : Fault} {after : Machine η},
    machine.nextInstruction = .ok (instruction, decoder) →
      execute instruction (machine.advance instruction decoder) = .error fault after →
        fault.Addressable

section Ranges

variable {machine : Machine η} (sound : machine.Sound)

include sound

/-- A state of play that is gone back to keeps the program counter that it was saved with. -/
theorem positive_of_restored {memory : Memory} {snapshot : Snapshot} (late : 4 ≤ machine.version)
    (held : machine.archive.Holds snapshot)
    (restored : Memory.restoreSnapshot snapshot machine.memory = .ok () memory) : 1 ≤ memory.pc := by
  have saved := sound.archive snapshot held
  rw [Memory.restoreSnapshot_of_size saved.dynamic] at restored
  cases restored
  exact saved.past late

theorem staysInRange_of_sound [Host η] : machine.StaysInRange where
  memory := by
    intro memory protects
    exact Memory.inRange_of_mapped (protects.mapped sound.memory.mapped)
      (protects.bounded sound.memory.bounded)
  operands := by
    intro instruction decoder decoded
    exact ⟨Decoder.operands_of_decode decoded, (Decoder.bounds_of_decode decoded).2.2⟩
  rest := by
    intro instruction opcode ready performs takes
    unfold Opcode.takesRest at takes
    split at takes
    case h_10 => cases takes
    all_goals rfl
  objects := by
    intro object address found
    unfold ObjectTable.entryAddress at found
    split at found
    · cases found
    · omega
  defaults := by
    intro memory number value found
    unfold ObjectTable.propertyDefault at found
    split at found
    · cases found
    · omega
  abbreviations := by
    intro memory table index address found
    unfold AbbreviationTable.stringAddress at found
    split at found
    · cases found
    · omega
  lengths := fun _ => rfl
  restores := by
    intro instruction values ready memory performs late restored
    rcases Archive.restore_eq_true restored with ⟨snapshot, held, went⟩
    have same : ready.version = machine.version :=
      congrArg Header.version performs.touches.header
    exact positive_of_restored (sound.performs performs) (by omega) held went
  undoes := by
    intro instruction values ready archive memory performs undone
    have late := late_of_undo sound.consistent performs (Or.inr rfl)
    have same : ready.version = machine.version :=
      congrArg Header.version performs.touches.header
    rcases Archive.restoreUndo_cases ready.archive ready.memory with
      ⟨newest, later, taken, went, success⟩ | missing | ⟨fault, refused⟩
    · rw [success] at undone
      cases undone
      exact positive_of_restored (sound.performs performs) (by omega)
        (Archive.holds_of_takeUndo taken) went
    · rw [missing] at undone
      cases undone
    · rw [refused] at undone
      cases undone
  rows := by
    intro instruction values ready start width skip height performs
    exact printRowsStrictly_eq true (rowsFit_of_words start width skip height)
      (sound.performs performs).bounded
  decodes := addressable_nextInstruction sound.bounded sound.memory.pc
  executes := addressable_execute sound

end Ranges

/-- Whatever a story does and is told, every machine that it reaches is sound and stays in range in
its next step, provided that it began without any saved states of play. -/
theorem no_step_crashes [Host η] {settings : Settings} {image : Image} {host : η}
    {archive : Archive} {machine last : Machine η}
    (started : start settings image host archive = .ok machine)
    (fresh : ∀ snapshot, ¬ archive.Holds snapshot) (run : Run (fun _ => True) machine last) :
    last.Sound ∧ last.StaysInRange := by
  have sound := sound_of_run (sound_of_start started fresh) run
  exact ⟨sound, staysInRange_of_sound sound⟩

/-- A story of version 5 notes its state of play, and tries to print a table of 65535 rows without
characters, 65535 bytes apart. -/
theorem no_step_crashes_sample :
    let machine := sample 5 [0xBE, 9, 0xFF, 16, 0xFE, 0, 255, 255, 0, 0, 255, 255, 255, 255]
      (.empty 8)
    machine.next.archive.undoCount = 1 ∧ machine.next.PerformsNext .printTable ∧
      machine.next.Sound ∧ machine.next.StaysInRange := by
  intro machine
  have started : start {} (.sample 5 [0xBE, 9, 0xFF, 16, 0xFE, 0, 255, 255, 0, 0, 255, 255, 255,
      255]) .silent (.empty 8) = .ok machine := rfl
  have fresh : ∀ snapshot, ¬ (Archive.empty 8).Holds snapshot := by
    rintro snapshot (none | none)
    · cases none
    · cases none
  have noted : machine.next.archive.undoCount = 1 := by decide +kernel
  have prints : machine.next.PerformsNext .printTable := by decide +kernel
  clear_value machine
  exact ⟨noted, prints, no_step_crashes started fresh (.step .refl trivial)⟩

end Machine

end ZMachine
