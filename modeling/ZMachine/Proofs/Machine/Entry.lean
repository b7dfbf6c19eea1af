import ZMachine.Proofs.Machine.Run
import ZMachine.Proofs.Memory.Region

/-!
# Entering a routine

What a call leaves behind. The frame of the caller is suspended as it is, and the new frame has the
arguments in its first locals. Up to version 4 the other locals take the initial values that stand
in front of the first instruction, and later they begin with zero. The program counter then stands
behind the header of the routine.

The locals are filled one after the other, first with the initial values and then with the arguments
over them. `Frame.setLocals` is what either loop comes to.
-/

namespace ZMachine

namespace Frame

/-- The frame with new values for the local variables from a number on. -/
def setLocals (frame : Frame) : Nat → List UInt16 → Frame
  | _, [] => frame
  | number, value :: values => (frame.setLocal number value).setLocals (number + 1) values

section Locals

variable (frame : Frame) (number : Nat) (values : List UInt16)

/-- Only the local variables change. -/
theorem setLocals_eq : ∃ locals, frame.setLocals number values = { frame with locals } := by
  induction values generalizing frame number with
  | nil => exact ⟨frame.locals, rfl⟩
  | cons value values ih => exact ih (frame.setLocal number value) (number + 1)

@[simp]
theorem returnPc_setLocals : (frame.setLocals number values).returnPc = frame.returnPc := by
  rcases frame.setLocals_eq number values with ⟨_, same⟩
  rw [same]

@[simp]
theorem returnStore_setLocals :
    (frame.setLocals number values).returnStore = frame.returnStore := by
  rcases frame.setLocals_eq number values with ⟨_, same⟩
  rw [same]

@[simp]
theorem localCount_setLocals : (frame.setLocals number values).localCount = frame.localCount := by
  rcases frame.setLocals_eq number values with ⟨_, same⟩
  rw [same]

@[simp]
theorem stack_setLocals : (frame.setLocals number values).stack = frame.stack := by
  rcases frame.setLocals_eq number values with ⟨_, same⟩
  rw [same]

variable {frame number values}

theorem getLocal_setLocal {other : Nat} (positive : 1 ≤ number) (few : number ≤ 15)
    (otherPositive : 1 ≤ other) (value : UInt16) :
    (frame.setLocal number value).getLocal other =
      if other = number then value else frame.getLocal other := by
  split
  · rename_i same
    subst same
    simp [getLocal, setLocal, show other - 1 < 15 by omega]
  · have different : number - 1 ≠ other - 1 := by omega
    simp [getLocal, setLocal, Vector.getElem?_setIfInBounds_ne different]

/-- A local takes the value that is meant for it, if there is one. -/
theorem getLocal_setLocals {other : Nat} (positive : 1 ≤ number)
    (few : number + values.length ≤ 16) (otherPositive : 1 ≤ other) :
    (frame.setLocals number values).getLocal other =
      if number ≤ other then values[other - number]?.getD (frame.getLocal other)
      else frame.getLocal other := by
  induction values generalizing frame number with
  | nil => simp [setLocals]
  | cons value values ih =>
      rw [List.length_cons] at few
      rw [setLocals, ih (by omega) (by omega),
        getLocal_setLocal positive (by omega) otherPositive]
      rcases Nat.lt_trichotomy other number with before | rfl | behind
      · rw [if_neg (by omega), if_neg (by omega), if_neg (by omega)]
      · rw [if_neg (by omega), if_pos rfl, if_pos (by omega)]
        simp
      · have next : other - number = other - (number + 1) + 1 := by omega
        rw [if_pos (by omega), if_neg (by omega), if_pos (by omega), next,
          List.getElem?_cons_succ]

end Locals

/-- The frame of a routine at an address that has just been entered with some arguments: the first
of its locals hold the arguments, and the others their initial values. -/
structure Entered (frame : Frame) (before : Memory) (address count : Nat)
    (arguments : List UInt16) (returnStore : Option UInt8) : Prop where
  returnPc : frame.returnPc = before.pc
  returnStore : frame.returnStore = returnStore
  localCount : frame.localCount = count
  argCount : frame.argCount = arguments.length
  stack : frame.stack = []
  given : ∀ number value, 1 ≤ number → number ≤ count → arguments[number - 1]? = some value →
    frame.getLocal number = value
  initial : before.version ≤ 4 → ∀ number, arguments.length < number → number ≤ count →
    frame.getLocal number = before.bytes.wordAt (address + 1 + 2 * (number - 1))
  zero : 4 < before.version → ∀ number, arguments.length < number → number ≤ count →
    frame.getLocal number = 0
  unused : ∀ number, count < number → number ≤ 15 → frame.getLocal number = 0

end Frame

namespace Memory

variable {memory : Memory} {count number address : Nat}

/-- Writing a local of the running routine succeeds. -/
theorem writeVariable_local (positive : 1 ≤ number) (present : number ≤ memory.frame.localCount)
    (few : number ≤ 15) (value : UInt16) :
    writeVariable (UInt8.ofNat number) value memory =
      .ok () { memory with frame := memory.frame.setLocal number value } := by
  have name : (UInt8.ofNat number).toNat = number := by
    rw [UInt8.toNat_ofNat']
    omega
  have notStack : UInt8.ofNat number ≠ 0 := by
    intro zero
    rw [zero] at name
    simp at name
    omega
  have isLocal : UInt8.ofNat number < 16 := by
    rw [UInt8.lt_iff_toNat_lt, name]
    exact Nat.lt_succ_of_le few
  rw [writeVariable, if_neg notStack, writeCell, if_pos isLocal, name, if_neg (by omega)]

/-- The initial values of locals, as they stand in memory. -/
def initials (memory : Memory) (count address : Nat) : List UInt16 :=
  (List.range count).map fun index => memory.bytes.wordAt (address + 2 * index)

theorem initials_succ :
    memory.initials (count + 1) address =
      memory.bytes.wordAt address :: memory.initials count (address + 2) := by
  have shift : ∀ index, address + 2 * (index + 1) = address + 2 + 2 * index := by
    intro index
    omega
  simp [initials, List.range_succ_eq_map, Function.comp_def, shift]

end Memory

namespace Machine

variable {memory : Memory} {count number address : Nat} (arguments : List UInt16)

/-- Reading initial values fills locals with the words in memory. -/
theorem readInitials_eq (positive : 1 ≤ number)
    (present : number + count ≤ memory.frame.localCount + 1)
    (few : number + count ≤ 16) (inside : address + 2 * count ≤ memory.bytes.size) :
    readInitials count number address memory =
      .ok () { memory with
        frame := memory.frame.setLocals number (memory.initials count address) } := by
  induction count generalizing memory number address with
  | zero => rfl
  | succ count ih =>
      have fetched : Memory.inspect (·.fetchWord address) memory =
          .ok (memory.bytes.wordAt address) memory :=
        Memory.inspect_eq_ok.mpr ⟨Memory.fetchWord_eq_ok.mpr ⟨by omega, rfl⟩, rfl⟩
      have isThere : number ≤ memory.frame.localCount := by omega
      have written := Memory.writeVariable_local positive isThere (by omega)
        (memory.bytes.wordAt address)
      rw [readInitials, bind_of_ok fetched, bind_of_ok written, ih (by omega)]
      · rw [Memory.initials_succ]
        rfl
      · simp only [Frame.setLocal]
        omega
      · omega
      · simp only
        omega

/-- Giving arguments fills as many locals as there are. -/
theorem writeArguments_eq (positive : 1 ≤ number)
    (present : number + count ≤ memory.frame.localCount + 1) (few : number + count ≤ 16) :
    writeArguments count number arguments memory =
      .ok () { memory with frame := memory.frame.setLocals number (arguments.take count) } := by
  induction count generalizing memory number arguments with
  | zero => rfl
  | succ count ih =>
      cases arguments with
      | nil => rfl
      | cons argument arguments =>
          have isThere : number ≤ memory.frame.localCount := by omega
          have written := Memory.writeVariable_local positive isThere (by omega) argument
          rw [writeArguments, bind_of_ok written, ih arguments (by omega)]
          · rfl
          · simp only [Frame.setLocal]
            omega
          · omega

/-- The last part of a call: arguments go over the first locals, and the routine can begin. -/
theorem fillArguments_eq {start : Nat} (locals : memory.frame.localCount = count)
    (few : count ≤ 15) :
    (do
      writeArguments count 1 arguments
      modify fun memory => { memory.setArgCount arguments.length with pc := start } : MemoryM Unit)
      memory =
    .ok ()
      { memory with
        pc := start
        frame :=
          { memory.frame.setLocals 1 (arguments.take count) with argCount := arguments.length } }
    := by
  have isThere : 1 + count ≤ memory.frame.localCount + 1 := by omega
  rw [bind_of_ok (writeArguments_eq arguments (Nat.le_refl 1) isThere (by omega))]
  rfl

/-- The frame of a routine that is entered without initial values or with them. -/
theorem entered_of_setLocals (initials : List UInt16) (returnStore : Option UInt8)
    (few : count ≤ 15)
    (supplied : ∀ index, index < count → initials[index]?.getD 0 =
      if memory.version ≤ 4 then memory.bytes.wordAt (address + 1 + 2 * index) else 0)
    (short : initials.length ≤ count) :
    Frame.Entered
      { ((memory.inRoutine count returnStore).frame.setLocals 1 initials).setLocals 1
          (arguments.take count) with
        argCount := arguments.length }
      memory address count arguments returnStore := by
  have taken : (arguments.take count).length ≤ count := List.length_take_le _ _
  have value : ∀ number, 1 ≤ number →
      (((memory.inRoutine count returnStore).frame.setLocals 1 initials).setLocals 1
        (arguments.take count)).getLocal number =
          (arguments.take count)[number - 1]?.getD (initials[number - 1]?.getD 0) := by
    intro number positive
    have blank : (memory.inRoutine count returnStore).frame.getLocal number = 0 := by
      simp only [Memory.inRoutine, Frame.getLocal, Vector.getElem?_replicate]
      split <;> rfl
    rw [Frame.getLocal_setLocals (by omega) (by omega) positive, if_pos positive,
      Frame.getLocal_setLocals (by omega) (by omega) positive, if_pos positive, blank]
  have missing : ∀ number, arguments.length < number → number ≤ count →
      (((memory.inRoutine count returnStore).frame.setLocals 1 initials).setLocals 1
        (arguments.take count)).getLocal number = initials[number - 1]?.getD 0 := by
    intro number behind inside
    have absent : (arguments.take count)[number - 1]? = none := by
      apply List.getElem?_eq_none
      rw [List.length_take]
      omega
    rw [value number (by omega), absent, Option.getD_none]
  refine ⟨?_, ?_, ?_, rfl, ?_, ?_, ?_, ?_, ?_⟩
  · simp [Memory.inRoutine]
  · simp [Memory.inRoutine]
  · simp [Memory.inRoutine]
  · simp [Memory.inRoutine]
  · intro number argument positive inside found
    refine (value number positive).trans ?_
    rw [List.getElem?_take, if_pos (by omega), found, Option.getD_some]
  · intro early number behind inside
    refine (missing number behind inside).trans ?_
    rw [supplied (number - 1) (by omega), if_pos early]
  · intro late number behind inside
    refine (missing number behind inside).trans ?_
    rw [supplied (number - 1) (by omega), if_neg (by omega)]
  · intro number behind inside
    refine (value number (by omega)).trans ?_
    rw [List.getElem?_eq_none (by omega), Option.getD_none, List.getElem?_eq_none (by omega),
      Option.getD_none]

/-- Where the routine at an address begins, behind its header. -/
def codeStart (memory : Memory) (address count : Nat) : Nat :=
  if memory.version ≤ 4 then address + 1 + 2 * count else address + 1

section Calls

variable {count : UInt8} (returnStore : Option UInt8)
  (present : memory.bytes[address]? = some count)

include present

theorem inspect_count :
    Memory.inspect (·.fetchByte address) memory = .ok count memory := by
  rcases Array.getElem?_eq_some_iff.mp present with ⟨inside, _⟩
  refine Memory.inspect_eq_ok.mpr ⟨Memory.fetchByte_eq_ok.mpr ⟨inside, ?_⟩, rfl⟩
  rw [Image.byteAt, present, Option.getD_some]

/-- A routine that has too many locals is not entered. -/
theorem enterRoutine_of_many (many : 15 < count.toNat) :
    enterRoutine address arguments returnStore memory =
      .error (.illegalVariable count.toNat 15) memory := by
  have refused : Memory.pushFrame memory.pc count.toNat returnStore memory =
      .error (.illegalVariable count.toNat 15) memory := by
    rw [Memory.pushFrame, if_pos (show Memory.maxLocals < count.toNat from many)]
    rfl
  rw [enterRoutine, bind_of_ok (inspect_count present), bind_get, bind_of_error refused]

theorem enterRoutine_eq_ok (few : count.toNat ≤ 15)
    (inside : memory.version ≤ 4 → address + 1 + 2 * count.toNat ≤ memory.bytes.size) :
    ∃ frame : Frame, frame.Entered memory address count.toNat arguments returnStore ∧
      enterRoutine address arguments returnStore memory =
        .ok ()
          { memory with
            pc := codeStart memory address count.toNat
            frame
            frames := memory.frame :: memory.frames } := by
  have pushed : Memory.pushFrame memory.pc count.toNat returnStore memory =
      .ok () (memory.inRoutine count.toNat returnStore) := by
    rw [Memory.pushFrame, if_neg (show ¬ Memory.maxLocals < count.toNat from Nat.not_lt.mpr few)]
    rfl
  by_cases early : memory.version ≤ 4
  · have read := readInitials_eq (Nat.le_refl 1)
      (show 1 + count.toNat ≤ (memory.inRoutine count.toNat returnStore).frame.localCount + 1 by
        simp only [Memory.inRoutine]
        omega) (by omega) (inside early)
    refine ⟨_, entered_of_setLocals arguments (memory.initials count.toNat (address + 1))
      returnStore few ?_ ?_, ?_⟩
    · intro index less
      rw [if_pos early]
      simp [Memory.initials, less]
    · simp [Memory.initials]
    · rw [enterRoutine, bind_of_ok (inspect_count present), bind_get, bind_of_ok pushed]
      simp only [early, if_true]
      rw [bind_of_ok read, fillArguments_eq arguments (by simp [Memory.inRoutine]) few, codeStart,
        if_pos early]
      rfl
  · refine ⟨_, entered_of_setLocals arguments [] returnStore few ?_ ?_, ?_⟩
    · intro index _
      rw [if_neg early]
      rfl
    · simp
    · rw [enterRoutine, bind_of_ok (inspect_count present), bind_get, bind_of_ok pushed]
      simp only [early, if_false]
      rw [codeStart, if_neg early]
      exact fillArguments_eq arguments rfl few

end Calls

variable {η : Type}

/-- Calling a routine that has no more than 15 locals, whose header lies in the file, succeeds: the
frame of the caller is suspended and the new one is as `Frame.Entered` says. A routine with more
locals is refused, and nothing has changed then. Calling 0 only stores a zero. -/
theorem callRoutine_enters (machine : Machine η) (arguments : List UInt16)
    (returnStore : Option UInt8) :
    (∀ (packed : UInt16) (count : UInt8), packed ≠ 0 →
      machine.memory.bytes[machine.memory.unpackRoutine packed]? = some count →
      (count.toNat ≤ 15 →
        (machine.version ≤ 4 → machine.memory.unpackRoutine packed + 1 + 2 * count.toNat ≤
          machine.memory.bytes.size) →
        ∃ frame : Frame,
          frame.Entered machine.memory (machine.memory.unpackRoutine packed) count.toNat arguments
            returnStore ∧
          callRoutine packed arguments returnStore machine =
            .ok .called
              { machine with
                memory :=
                  { machine.memory with
                    pc := codeStart machine.memory (machine.memory.unpackRoutine packed) count.toNat
                    frame
                    frames := machine.memory.frame :: machine.memory.frames } }) ∧
      (15 < count.toNat →
        callRoutine packed arguments returnStore machine =
          .error (.illegalVariable count.toNat 15) machine)) ∧
    callRoutine 0 arguments returnStore machine = (do
      onMemory (Memory.storeIn returnStore 0)
      return .advanced : MachineM η Outcome) machine ∧
    (stateAfter (callRoutine 0 arguments returnStore) machine).memory.frames =
      machine.memory.frames := by
  have nothing : callRoutine 0 arguments returnStore machine = (do
      onMemory (Memory.storeIn returnStore 0)
      return .advanced : MachineM η Outcome) machine := by
    rw [callRoutine, if_pos rfl]
    cases returnStore with
    | none => rfl
    | some name => rfl
  refine ⟨?_, nothing, ?_⟩
  · intro packed count nonzero present
    have called : callRoutine packed arguments returnStore machine = (do
        onMemory (enterRoutine (machine.memory.unpackRoutine packed) arguments returnStore)
        return .called : MachineM η Outcome) machine := by
      rw [callRoutine, if_neg nonzero, bind_view]
    constructor
    · intro few inside
      rcases enterRoutine_eq_ok arguments returnStore present few inside with
        ⟨frame, entered, success⟩
      refine ⟨frame, entered, ?_⟩
      rw [called, bind_of_ok (onMemory_of_ok success)]
      rfl
    · intro many
      have refused := enterRoutine_of_many arguments returnStore present many
      rw [called, bind_of_error (onMemory_of_error refused)]
  · rw [stateAfter, nothing, ← stateAfter, stateAfter_bind_pure, stateAfter_onMemory]
    exact (Memory.touches_storeIn returnStore 0 machine.memory).frames

/-- A routine with three locals is called with one argument, and one with 16 locals is refused. -/
theorem callRoutine_enters_initials :
    let machine := sample 3 [3, 0, 7, 0, 8, 0, 9, 0, 16] .absent
    (∃ frame : Frame,
      callRoutine 40 [5] (some 17) machine =
        .ok .called
          { machine with
            memory := { machine.memory with pc := 87, frame, frames := [machine.memory.frame] } } ∧
      frame.argCount = 1 ∧ frame.getLocal 1 = 5 ∧ frame.getLocal 2 = 8 ∧ frame.getLocal 3 = 9 ∧
      frame.getLocal 4 = 0) ∧
    callRoutine 44 [] none machine = .error (.illegalVariable 16 15) machine := by
  intro machine
  have version : machine.memory.version = 3 := by decide +kernel
  have address : machine.memory.unpackRoutine 40 = 80 := by decide +kernel
  have other : machine.memory.unpackRoutine 44 = 88 := by decide +kernel
  have three : machine.memory.bytes[80]? = some 3 := by decide +kernel
  have sixteen : machine.memory.bytes[88]? = some 16 := by decide +kernel
  have size : machine.memory.bytes.size = 89 := by decide +kernel
  have second : machine.memory.bytes.wordAt 83 = 8 := by decide +kernel
  have third : machine.memory.bytes.wordAt 85 = 9 := by decide +kernel
  have alone : machine.memory.frames = [] := rfl
  clear_value machine
  have start : codeStart machine.memory 80 3 = 87 := if_pos (by rw [version]; decide)
  rcases (callRoutine_enters machine [5] (some 17)).1 40 3 (by decide) (address ▸ three) with
    ⟨enters, _⟩
  rcases (callRoutine_enters machine [] none).1 44 16 (by decide) (other ▸ sixteen) with
    ⟨_, refused⟩
  rcases enters (by decide) (fun _ => by rw [address, size]; decide) with ⟨frame, entered, called⟩
  rw [address, alone] at called
  rw [address] at entered
  refine ⟨⟨frame, ?_, entered.argCount, entered.given 1 5 (by decide) (by decide) rfl, ?_, ?_,
    entered.unused 4 (by decide) (by decide)⟩, refused (by decide)⟩
  · rw [called]
    exact congrArg (fun pc => EStateM.Result.ok Outcome.called
      { machine with
        memory := { machine.memory with pc, frame, frames := [machine.memory.frame] } }) start
  · exact (entered.initial (by rw [version]; decide) 2 (by decide) (by decide)).trans second
  · exact (entered.initial (by rw [version]; decide) 3 (by decide) (by decide)).trans third

end Machine

end ZMachine
