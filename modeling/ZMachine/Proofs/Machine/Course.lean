import ZMachine.Proofs.Instruction.Decoding
import ZMachine.Proofs.Machine.Quiet

/-!
# The course of play

What an instruction can do to the program counter and to the calls, once its operands are fetched.
Every instruction but a call and those that save, restore or restart works quietly and then goes on,
jumps, or leaves one or more routines; `Memory.Continues` lists these cases with the outcomes that
go with them. A call either does not get as far as making a frame, or it makes one, as
`Memory.Enters` says.

Both relations speak about failures too: a routine may be left or entered although the instruction
fails afterwards.
-/

namespace ZMachine

/-- The operations on the state of play as a whole. -/
def Opcode.managesPlay : Opcode → Bool
  | .save | .restore | .saveUndo | .restoreUndo | .restart => true
  | _ => false

namespace Memory

/-- Writes a result into the variable that takes it, if there is one. -/
def storeIn (store : Option UInt8) (value : UInt16) : MemoryM Unit :=
  match store with
  | none => pure ()
  | some name => writeVariable name value

theorem touches_storeIn (store : Option UInt8) (value : UInt16) :
    Keeps Touches (storeIn store value) := by
  cases store with
  | none => exact Keeps.pure ()
  | some name => exact touches_writeVariable name value

/-- The memory after the running routine is left for a caller, and before its result is stored. -/
def backIn (memory : Memory) (caller : Frame) (frames : List Frame) : Memory :=
  { memory with pc := memory.frame.returnPc, frame := caller, frames }

/-- The memory with a new frame for a routine that returns to the present program counter. -/
def inRoutine (memory : Memory) (localCount : Nat) (returnStore : Option UInt8) : Memory :=
  { memory with
    frame := { returnPc := memory.pc, localCount, returnStore }
    frames := memory.frame :: memory.frames }

/-- What an instruction that neither calls nor replaces the state of play does to memory. -/
inductive Continues (before : Memory) : Option Outcome → Memory → Prop where
  | fails {after : Memory} (touches : before.Touches after) : Continues before none after
  | advances {after : Memory} (touches : before.Touches after) :
      Continues before (some .advanced) after
  | quits {after : Memory} (touches : before.Touches after) : Continues before (some .quit) after
  | jumps {middle : Memory} {address : Nat} (touches : before.Touches middle)
      (fits : address < addressCount) :
      Continues before (some .branched) { middle with pc := address }
  /-- Routines are left, but there is none to return from. -/
  | strands {middle : Memory} (count : Nat) (touches : before.Touches middle) :
      Continues before none (middle.dropFrames count)
  /-- Some routines are dropped, and one returns. -/
  | returns {middle after : Memory} {caller : Frame} {frames : List Frame} {value : UInt16}
      (count : Nat) (touches : before.Touches middle)
      (callers : (middle.dropFrames count).frames = caller :: frames)
      (stored : storeIn (middle.dropFrames count).frame.returnStore value
        ((middle.dropFrames count).backIn caller frames) = .ok () after) :
      Continues before (some (.returned value)) after
  /-- Some routines are dropped, and one returns, but its result cannot be stored. -/
  | loses {middle after : Memory} {caller : Frame} {frames : List Frame} {value : UInt16}
      {fault : Fault} (count : Nat) (touches : before.Touches middle)
      (callers : (middle.dropFrames count).frames = caller :: frames)
      (refused : storeIn (middle.dropFrames count).frame.returnStore value
        ((middle.dropFrames count).backIn caller frames) = .error fault after) :
      Continues before none after

/-- A quiet beginning does not show. -/
theorem Continues.of_touches {before middle after : Memory} {result : Option Outcome}
    (touches : before.Touches middle) (continues : middle.Continues result after) :
    before.Continues result after := by
  cases continues with
  | fails later => exact .fails (touches.trans later)
  | advances later => exact .advances (touches.trans later)
  | quits later => exact .quits (touches.trans later)
  | jumps later fits => exact .jumps (touches.trans later) fits
  | strands count later => exact .strands count (touches.trans later)
  | returns count later callers stored => exact .returns count (touches.trans later) callers stored
  | loses count later callers refused => exact .loses count (touches.trans later) callers refused

/-- What a call of the routine at a packed address does to memory once it makes a frame. -/
inductive Enters (before : Memory) (packed : UInt16) (arguments : Nat) (returnStore : Option UInt8) :
    Option Outcome → Memory → Prop where
  | completes {middle : Memory} {localCount start : Nat} (few : localCount ≤ maxLocals)
      (touches : (before.inRoutine localCount returnStore).Touches middle)
      (near : start ≤ before.unpackRoutine packed + 31) :
      Enters before packed arguments returnStore (some .called)
        { middle.setArgCount arguments with pc := start }
  /-- The initial values of the locals cannot be read. -/
  | stumbles {after : Memory} {localCount : Nat} (few : localCount ≤ maxLocals)
      (touches : (before.inRoutine localCount returnStore).Touches after) :
      Enters before packed arguments returnStore none after

end Memory

namespace Machine

variable {η : Type}

/-- An instruction goes on as `Memory.Continues` says and changes nothing else. -/
structure Continues (before : Machine η) (result : Option Outcome) (after : Machine η) : Prop where
  memory : before.memory.Continues result after.memory
  alike : before.Alike after

/-- A quiet beginning does not show in how an instruction continues. -/
theorem continues_after {α : Type} {action : MachineM η α} {next : α → MachineM η Outcome}
    (first : Keeps Quiet action) (rest : ∀ value, Leads Continues (next value)) :
    Leads Continues (action >>= next) :=
  Leads.after first rest (fun quiet => ⟨.fails quiet.memory, quiet.alike⟩)
    (fun quiet continues =>
      ⟨.of_touches quiet.memory continues.memory, quiet.alike.trans continues.alike quiet.memory⟩)

theorem continues_need {instruction : Instruction} {values : List UInt16} {index : Nat}
    {next : UInt16 → MachineM η Outcome} (rest : ∀ value, Leads Continues (next value)) :
    Leads Continues (need instruction values index >>= next) :=
  continues_after (calm_need _ _ _).quiet rest

theorem continues_inspect {α : Type} {query : Machine η → Except Fault α}
    {next : α → MachineM η Outcome} (rest : ∀ value, Leads Continues (next value)) :
    Leads Continues (inspect query >>= next) :=
  continues_after (calm_inspect _).quiet rest

theorem continues_of_calm {action : MachineM η Unit} (calm : Keeps Calm action) :
    Leads Continues (advancing action) :=
  continues_after calm.quiet fun _ machine => ⟨.advances (.refl machine.memory), .refl machine⟩

theorem continues_advanced : Leads Continues (pure .advanced : MachineM η Outcome) :=
  fun machine => ⟨.advances (.refl machine.memory), .refl machine⟩

theorem continues_throw (fault : Fault) :
    Leads Continues (throw fault : MachineM η Outcome) :=
  fun machine => ⟨.fails (.refl machine.memory), .refl machine⟩

theorem continues_ite {condition : Prop} [Decidable condition] {first second : MachineM η Outcome}
    (holds : Leads Continues first) (fails : Leads Continues second) :
    Leads Continues (if condition then first else second) := by
  split
  · exact holds
  · exact fails

theorem continues_conclude (instruction : Instruction) (value : UInt16) :
    Leads Continues (conclude instruction value : MachineM η Outcome) :=
  continues_after (quiet_storeResult instruction value) fun _ => continues_advanced

theorem conclude_eq_ok {instruction : Instruction} {value : UInt16} {outcome : Outcome}
    {machine after : Machine η} :
    conclude instruction value machine = .ok outcome after ↔
      outcome = .advanced ∧
        ∃ memory, Memory.storeIn instruction.store value machine.memory = .ok () memory ∧
          after = { machine with memory } := by
  have applied : storeResult instruction value machine =
      onMemory (Memory.storeIn instruction.store value) machine := by
    unfold storeResult Memory.storeIn
    cases instruction.store <;> rfl
  rw [conclude, bind_eq_ok, applied]
  constructor
  · rintro ⟨_, middle, stored, same⟩
    cases same
    exact ⟨rfl, onMemory_eq_ok.mp stored⟩
  · rintro ⟨rfl, stored⟩
    exact ⟨(), after, onMemory_eq_ok.mpr stored, rfl⟩

theorem continues_jumpTo {address : Nat} (fits : address < addressCount) :
    Leads Continues (do
      jumpTo address
      return .branched : MachineM η Outcome) :=
  fun machine =>
    ⟨.jumps (.refl machine.memory) fits, rfl, rfl, rfl, rfl, Or.inl rfl, rfl, rfl, rfl, id⟩

/-- Returning pops a frame, goes back to where the call said, and stores the result. -/
theorem returnValue_apply (value : UInt16) (machine : Machine η) :
    returnValue value machine =
      match machine.memory.frames with
      | [] => .error .noFrame machine
      | caller :: frames =>
        match Memory.storeIn machine.memory.frame.returnStore value
            (machine.memory.backIn caller frames) with
        | .ok _ memory => .ok (.returned value) { machine with memory }
        | .error fault memory => .error fault { machine with memory } := by
  cases callers : machine.memory.frames with
  | nil =>
      have stuck : Memory.popFrame machine.memory = .error .noFrame machine.memory := by
        rw [Memory.popFrame, callers]
      exact bind_of_error (onMemory_of_error stuck)
  | cons caller frames =>
      have left : Memory.popFrame machine.memory =
          .ok machine.memory.frame { machine.memory with frame := caller, frames } := by
        rw [Memory.popFrame, callers]
      have back : returnValue value machine = (do
          onMemory (Memory.storeIn machine.memory.frame.returnStore value)
          return .returned value : MachineM η Outcome)
          { machine with memory := machine.memory.backIn caller frames } := by
        unfold returnValue
        rw [bind_of_ok (onMemory_of_ok left), jumpTo, bind_modify]
        cases machine.memory.frame.returnStore with
        | none => rfl
        | some name => rfl
      rw [back]
      dsimp only
      cases stored : Memory.storeIn machine.memory.frame.returnStore value
          (machine.memory.backIn caller frames) with
      | ok _ memory => exact bind_of_ok (onMemory_of_ok stored)
      | error fault memory => exact bind_of_error (onMemory_of_error stored)

/-- Leaving `count` routines and then returning from one more. -/
theorem continues_returnValue {before machine : Machine η} (count : Nat) (value : UInt16)
    (dropped : machine.memory = before.memory.dropFrames count) (alike : before.Alike machine) :
    before.Continues (valueOf (returnValue value) machine)
      (stateAfter (returnValue value) machine) := by
  have other : ∀ memory, before.Alike { machine with memory } := fun memory =>
    ⟨alike.decoder, alike.codec, alike.abbreviations, alike.objects, alike.dictionary,
      alike.archive, alike.settings, alike.instructionCount, alike.tables⟩
  unfold valueOf stateAfter
  rw [returnValue_apply]
  cases callers : machine.memory.frames with
  | nil =>
      refine ⟨?_, alike⟩
      simp only [dropped]
      exact .strands count (.refl before.memory)
  | cons caller frames =>
      rw [dropped] at callers
      simp only [dropped]
      cases stored : Memory.storeIn (before.memory.dropFrames count).frame.returnStore value
          ((before.memory.dropFrames count).backIn caller frames) with
      | ok _ memory => exact ⟨.returns count (.refl before.memory) callers stored, other memory⟩
      | error fault memory =>
          exact ⟨.loses count (.refl before.memory) callers stored, other memory⟩

theorem continues_return (value : UInt16) :
    Leads Continues (returnValue value : MachineM η Outcome) :=
  fun machine => continues_returnValue 0 value rfl (.refl machine)

theorem continues_throwTo (value : UInt16) (depth : Nat) :
    Leads Continues (throwTo value depth : MachineM η Outcome) := by
  intro machine
  unfold valueOf stateAfter throwTo
  by_cases deeper : machine.memory.frameDepth < depth
  · have refused : Memory.unwindTo depth machine.memory = .error .noFrame machine.memory := by
      rw [Memory.unwindTo, if_pos deeper]
    rw [bind_of_error (onMemory_of_error refused)]
    exact ⟨.fails (.refl machine.memory), .refl machine⟩
  · have unwound : Memory.unwindTo depth machine.memory =
        .ok () (machine.memory.dropFrames (machine.memory.frameDepth - depth)) := by
      rw [Memory.unwindTo, if_neg deeper]
    rw [bind_of_ok (onMemory_of_ok unwound)]
    exact continues_returnValue (machine.memory.frameDepth - depth) value rfl
      ⟨rfl, rfl, rfl, rfl, Or.inl rfl, rfl, rfl, rfl, id⟩

theorem continues_branchIf {instruction : Instruction} (fits : instruction.Fits)
    (condition : Bool) : Leads Continues (branchIf instruction condition : MachineM η Outcome) := by
  unfold branchIf
  cases present : instruction.branch with
  | none => exact continues_advanced
  | some branch =>
      refine continues_ite continues_advanced ?_
      cases target : branch.target with
      | returnFalse => exact continues_return 0
      | returnTrue => exact continues_return 1
      | address address => exact continues_jumpTo (fits branch address present target)

theorem continues_jumpBy (offset : Int) : Leads Continues (jumpBy offset : MachineM η Outcome) := by
  refine continues_inspect fun pc => continues_jumpTo ?_
  unfold addressBy addressCount
  omega

/-- The last part of a call, in the frame that has just been made. -/
theorem enters_of_writeArguments {memory middle : Memory} {packed : UInt16} {localCount start : Nat}
    {returnStore : Option UInt8} (arguments : List UInt16) (few : localCount ≤ Memory.maxLocals)
    (near : start ≤ memory.unpackRoutine packed + 31)
    (touches : (memory.inRoutine localCount returnStore).Touches middle) :
    match (do
        writeArguments localCount 1 arguments
        modify fun memory => { memory.setArgCount arguments.length with pc := start } :
        MemoryM Unit) middle with
    | .ok _ after => memory.Enters packed arguments.length returnStore (some .called) after
    | .error _ after => after = memory ∨ memory.Enters packed arguments.length returnStore none after
    := by
  have writes := touches_writeArguments localCount 1 arguments
  cases run : writeArguments localCount 1 arguments middle with
  | ok _ last =>
      rw [bind_of_ok run]
      exact .completes few (touches.trans (writes.of_ok run)) near
  | error fault last =>
      rw [bind_of_error run]
      exact Or.inr (.stumbles few (touches.trans (writes.of_error run)))

/-- Entering a routine makes a frame and fills its locals, or fails before or after making the
frame. -/
theorem enters_of_enterRoutine (memory : Memory) (packed : UInt16) (arguments : List UInt16)
    (returnStore : Option UInt8) :
    match enterRoutine (memory.unpackRoutine packed) arguments returnStore memory with
    | .ok _ after => memory.Enters packed arguments.length returnStore (some .called) after
    | .error _ after => after = memory ∨ memory.Enters packed arguments.length returnStore none after
    := by
  unfold enterRoutine
  cases fetched : memory.fetchByte (memory.unpackRoutine packed) with
  | error fault =>
      have failure : Memory.inspect (·.fetchByte (memory.unpackRoutine packed)) memory =
          .error fault memory := by
        rw [Memory.inspect, fetched]
      rw [bind_of_error failure]
      exact Or.inl rfl
  | ok count =>
      have success : Memory.inspect (·.fetchByte (memory.unpackRoutine packed)) memory =
          .ok count memory := by
        rw [Memory.inspect, fetched]
      rw [bind_of_ok success]
      by_cases many : Memory.maxLocals < count.toNat
      · have refused : Memory.pushFrame memory.pc count.toNat returnStore memory =
            .error (.illegalVariable count.toNat Memory.maxLocals) memory := by
          rw [Memory.pushFrame, if_pos many]
        rw [bind_get, bind_of_error refused]
        exact Or.inl rfl
      · have few : count.toNat ≤ Memory.maxLocals := Nat.le_of_not_lt many
        have pushed : Memory.pushFrame memory.pc count.toNat returnStore memory =
            .ok () (memory.inRoutine count.toNat returnStore) := by
          rw [Memory.pushFrame, if_neg many]
          rfl
        rw [bind_get, bind_of_ok pushed]
        simp only
        by_cases hasInitials : memory.version ≤ 4
        · simp only [hasInitials, if_true]
          have reads := touches_readInitials count.toNat 1 (memory.unpackRoutine packed + 1)
          cases run : readInitials count.toNat 1 (memory.unpackRoutine packed + 1)
              (memory.inRoutine count.toNat returnStore) with
          | ok _ middle =>
              rw [bind_of_ok run]
              refine enters_of_writeArguments arguments few ?_ (reads.of_ok run)
              simp only [Memory.maxLocals] at few
              omega
          | error fault middle =>
              rw [bind_of_error run]
              exact Or.inr (.stumbles few (reads.of_error run))
        · simp only [hasInitials, if_false]
          exact enters_of_writeArguments arguments few (by omega) (.refl _)

/-- How an instruction proceeds that does not deal with the state of play as a whole: it continues
in the routines that there are, or it enters a new one. -/
structure Proceeds (instruction : Instruction) (values : List UInt16) (before : Machine η)
    (result : Option Outcome) (after : Machine η) : Prop where
  memory : before.memory.Continues result after.memory ∨
    ∃ packed, before.memory.Enters packed values.tail.length instruction.store result after.memory
  alike : before.Alike after

theorem proceeds_of_continues {action : MachineM η Outcome} (continues : Leads Continues action)
    (instruction : Instruction) (values : List UInt16) :
    Leads (Proceeds instruction values) action :=
  fun machine => ⟨Or.inl (continues machine).memory, (continues machine).alike⟩

theorem proceeds_callRoutine (instruction : Instruction) (values : List UInt16) (packed : UInt16) :
    Leads (Proceeds instruction values)
      (callRoutine packed values.tail instruction.store : MachineM η Outcome) := by
  intro machine
  unfold callRoutine
  by_cases zero : packed = 0
  · have stored : Leads Continues (do
        match instruction.store with
        | none => pure ()
        | some name => onMemory (Memory.writeVariable name 0)
        return .advanced : MachineM η Outcome) := by
      cases instruction.store with
      | none => exact continues_after (Keeps.pure ()) fun _ => continues_advanced
      | some name =>
          exact continues_after (quiet_onMemory (Memory.touches_writeVariable name 0))
            fun _ => continues_advanced
    rw [if_pos zero]
    exact proceeds_of_continues stored instruction values machine
  · rw [if_neg zero]
    unfold valueOf stateAfter
    rw [bind_view]
    have entered := enters_of_enterRoutine machine.memory packed values.tail instruction.store
    cases run : enterRoutine (machine.memory.unpackRoutine packed) values.tail instruction.store
        machine.memory with
    | ok _ memory =>
        rw [run] at entered
        rw [bind_of_ok (onMemory_of_ok run)]
        exact ⟨Or.inr ⟨packed, entered⟩, rfl, rfl, rfl, rfl, Or.inl rfl, rfl, rfl, rfl, id⟩
    | error fault memory =>
        rw [run] at entered
        rw [bind_of_error (onMemory_of_error run)]
        refine ⟨?_, rfl, rfl, rfl, rfl, Or.inl rfl, rfl, rfl, rfl, id⟩
        rcases entered with unchanged | entered
        · subst unchanged
          exact Or.inl (.fails (.refl machine.memory))
        · exact Or.inr ⟨packed, entered⟩

theorem proceeds_call (instruction : Instruction) (values : List UInt16) :
    Leads (Proceeds instruction values) (do
      let packed ← need instruction values 0
      callRoutine packed values.tail instruction.store : MachineM η Outcome) := by
  intro machine
  unfold need
  cases values[0]? with
  | none => exact proceeds_of_continues (continues_throw _) instruction values machine
  | some packed => exact proceeds_callRoutine instruction values packed machine

/-- Carries an operation out whose operands have been fetched. -/
def perform [Host η] (instruction : Instruction) (opcode : Opcode) (values : List UInt16) :
    MachineM η Outcome :=
  match opcode.family? with
  | some .arithmetic => arithmetic instruction opcode values
  | some .table => table instruction opcode values
  | some .object => world instruction opcode values
  | some .routine => routine instruction opcode values
  | some .exchange => exchange instruction opcode values
  | none => unsupported instruction

section Families

variable {instruction : Instruction} (fits : instruction.Fits) (values : List UInt16)

theorem continues_combine (instruction : Instruction) (operation : UInt16 → UInt16 → UInt16) :
    Leads Continues (combine instruction values operation : MachineM η Outcome) :=
  continues_need fun _ => continues_need fun _ =>
    continues_conclude _ _

theorem continues_combineNonzero (instruction : Instruction)
    (operation : UInt16 → UInt16 → UInt16) :
    Leads Continues (combineNonzero instruction values operation : MachineM η Outcome) :=
  continues_need fun _ => continues_need fun _ =>
    continues_ite (continues_throw _) (continues_conclude _ _)

theorem continues_count (instruction : Instruction) (change : UInt16 → UInt16) :
    Leads Continues (count instruction values change : MachineM η Outcome) :=
  continues_need fun _ =>
    continues_after (quiet_updateVariable _ _) fun _ => continues_advanced

theorem continues_pull (instruction : Instruction) :
    Leads Continues (pull instruction values : MachineM η Outcome) := by
  refine continues_ite (continues_ite ?_ (continues_throw _)) ?_
  · exact continues_after (quiet_onMemory Memory.touches_pop) fun _ => continues_conclude _ _
  · refine continues_need fun _ => ?_
    refine continues_after (quiet_onMemory Memory.touches_pop) fun _ => ?_
    exact continues_after (quiet_onMemory (Memory.touches_pokeVariable _ _)) fun _ =>
      continues_advanced

theorem continues_changeObjects {change : ObjectTable → MemoryM Unit}
    (writes : ∀ objects, Keeps Memory.Writes (change objects)) :
    Leads Continues (changeObjects change : MachineM η Outcome) :=
  continues_inspect fun objects => continues_of_calm (calm_onMemory (writes objects))

include fits

theorem continues_compare (relation : UInt16 → UInt16 → Bool) :
    Leads Continues (compare instruction values relation : MachineM η Outcome) :=
  continues_need fun _ => continues_need fun _ =>
    continues_branchIf fits _

theorem continues_countAndCompare (change : UInt16 → UInt16) (relation : Int → Int → Bool) :
    Leads Continues (countAndCompare instruction values change relation : MachineM η Outcome) :=
  continues_need fun _ => continues_need fun _ =>
    continues_after (quiet_updateVariable _ _) fun _ => continues_branchIf fits _

theorem continues_followLink (link : Link) :
    Leads Continues (followLink instruction values link : MachineM η Outcome) :=
  continues_need fun _ => continues_after (calm_askObject _ _ _).quiet fun _ =>
    continues_after (quiet_storeResult _ _) fun _ => continues_branchIf fits _

theorem continues_arithmetic [Host η] (opcode : Opcode) :
    Leads Continues (arithmetic instruction opcode values : MachineM η Outcome) := by
  unfold arithmetic
  split
  · exact continues_need fun _ => continues_need fun _ =>
      continues_branchIf fits _
  · exact continues_compare fits values _
  · exact continues_compare fits values _
  · exact continues_need fun _ => continues_branchIf fits _
  · exact continues_compare fits values _
  · exact continues_combine values instruction _
  · exact continues_combine values instruction _
  · exact continues_need fun _ => continues_conclude _ _
  · exact continues_combine values instruction _
  · exact continues_combine values instruction _
  · exact continues_combine values instruction _
  · exact continues_combine values instruction _
  · exact continues_combine values instruction _
  · exact continues_combineNonzero values instruction _
  · exact continues_combineNonzero values instruction _
  · exact continues_count values instruction _
  · exact continues_count values instruction _
  · exact continues_countAndCompare fits values _ _
  · exact continues_countAndCompare fits values _ _
  · exact continues_need fun _ =>
      continues_after (calm_randomNumber _).quiet fun _ => continues_conclude _ _
  · exact continues_throw _

theorem continues_table (opcode : Opcode) :
    Leads Continues (table instruction opcode values : MachineM η Outcome) := by
  unfold table
  split
  · exact continues_need fun _ => continues_inspect fun _ =>
      continues_conclude _ _
  · refine continues_need fun _ => continues_need fun _ => ?_
    exact continues_after (quiet_onMemory (Memory.touches_pokeVariable _ _)) fun _ =>
      continues_advanced
  · refine continues_need fun _ => continues_need fun _ => ?_
    exact continues_inspect fun _ => continues_conclude _ _
  · refine continues_need fun _ => continues_need fun _ => ?_
    exact continues_inspect fun _ => continues_conclude _ _
  · refine continues_need fun _ => continues_need fun _ => ?_
    refine continues_need fun _ => ?_
    exact continues_of_calm (calm_onMemory (Memory.writes_writeWord _ _))
  · refine continues_need fun _ => continues_need fun _ => ?_
    refine continues_need fun _ => ?_
    exact continues_of_calm (calm_onMemory (Memory.writes_writeByte _ _))
  · refine continues_need fun _ => continues_need fun _ => ?_
    refine continues_need fun _ => ?_
    exact continues_of_calm (calm_onMemory (Memory.writes_copyTable _ _ _))
  · refine continues_need fun _ => continues_need fun _ => ?_
    refine continues_need fun _ => continues_inspect fun _ => ?_
    exact continues_after (quiet_storeResult _ _) fun _ => continues_branchIf fits _
  · exact continues_throw _

theorem continues_world [Host η] (opcode : Opcode) :
    Leads Continues (world instruction opcode values : MachineM η Outcome) := by
  unfold world
  split
  · exact continues_need fun _ =>
      continues_after (calm_askObject _ _ _).quiet fun _ => continues_conclude _ _
  · exact continues_followLink fits values _
  · exact continues_followLink fits values _
  · refine continues_need fun _ => continues_need fun _ => ?_
    exact continues_after (calm_askObject _ _ _).quiet fun _ => continues_branchIf fits _
  · refine continues_need fun _ => continues_need fun _ => ?_
    exact continues_after (calm_askObject _ _ _).quiet fun _ => continues_branchIf fits _
  · refine continues_need fun _ => continues_need fun _ => ?_
    exact continues_changeObjects fun objects => objects.writes_writeAttribute _ _ _
  · refine continues_need fun _ => continues_need fun _ => ?_
    exact continues_changeObjects fun objects => objects.writes_writeAttribute _ _ _
  · refine continues_need fun _ => continues_need fun _ => ?_
    exact continues_changeObjects fun objects => objects.writes_insert _ _
  · refine continues_need fun _ => continues_ite continues_advanced ?_
    exact continues_changeObjects fun objects => objects.writes_remove _
  · refine continues_need fun _ => ?_
    refine continues_after (calm_needProperty _ _).quiet fun _ => ?_
    exact continues_inspect fun _ => continues_conclude _ _
  · refine continues_need fun _ => ?_
    refine continues_after (calm_needProperty _ _).quiet fun _ => ?_
    exact continues_after (calm_askObject _ _ _).quiet fun _ => continues_conclude _ _
  · refine continues_need fun _ => ?_
    exact continues_inspect fun _ => continues_conclude _ _
  · refine continues_need fun _ => ?_
    refine continues_after (calm_needProperty _ _).quiet fun _ => ?_
    exact continues_inspect fun _ => continues_conclude _ _
  · refine continues_need fun _ => ?_
    refine continues_after (calm_needProperty _ _).quiet fun _ => ?_
    refine continues_need fun _ => ?_
    exact continues_changeObjects fun objects => objects.writes_setProperty _ _ _
  · refine continues_need fun _ => continues_ite continues_advanced ?_
    refine continues_inspect fun _ => ?_
    exact continues_of_calm (calm_outputText _)
  · exact continues_throw _

theorem continues_exchange [Host η] {opcode : Opcode} (ordinary : opcode.managesPlay = false) :
    Leads Continues (exchange instruction opcode values : MachineM η Outcome) := by
  unfold exchange
  split
  · exact continues_of_calm (calm_printing _ _ _)
  · exact continues_of_calm (calm_printing _ _ _)
  · exact continues_of_calm (calm_printing _ _ _)
  · exact continues_of_calm (calm_printing _ _ _)
  · exact continues_of_calm (calm_printing _ _ _)
  · exact continues_of_calm (calm_printing _ _ _)
  · exact continues_of_calm (calm_printing _ _ _)
  · exact continues_of_calm (calm_printing _ _ _)
  · exact continues_of_calm (calm_printing _ _ _)
  · exact continues_need fun _ => continues_conclude _ _
  · refine continues_need fun _ => ?_
    exact continues_after (calm_readLine _ _).quiet fun _ => continues_conclude _ _
  · exact continues_after calm_readKey.quiet fun _ => continues_conclude _ _
  · refine continues_need fun _ => continues_need fun _ => ?_
    exact continues_of_calm (calm_tokenise _ _ _ _)
  · refine continues_need fun _ => continues_need fun _ => ?_
    refine continues_need fun _ => continues_need fun _ => ?_
    exact continues_of_calm (calm_encodeText _ _ _ _)
  · exact continues_need fun _ => continues_of_calm (calm_selectStream _ _)
  · exact continues_need fun _ => continues_advanced
  · simp [Opcode.managesPlay] at ordinary
  · simp [Opcode.managesPlay] at ordinary
  · simp [Opcode.managesPlay] at ordinary
  · simp [Opcode.managesPlay] at ordinary
  · simp [Opcode.managesPlay] at ordinary
  · exact fun machine => ⟨.quits (.refl machine.memory), .refl machine⟩
  · exact continues_inspect fun _ => continues_branchIf fits _
  · exact continues_branchIf fits true
  · exact continues_advanced
  · exact continues_need fun _ => continues_conclude _ _
  · exact continues_of_calm (calm_screenModel _ _ _)

theorem proceeds_routine [Host η] (opcode : Opcode) :
    Leads (Proceeds instruction values)
      (routine instruction opcode values : MachineM η Outcome) := by
  unfold routine
  split
  · exact proceeds_call instruction values
  · exact proceeds_call instruction values
  · exact proceeds_call instruction values
  · exact proceeds_call instruction values
  · exact proceeds_call instruction values
  · exact proceeds_call instruction values
  · exact proceeds_call instruction values
  · exact proceeds_call instruction values
  all_goals apply proceeds_of_continues
  · exact continues_need fun _ => continues_return _
  · exact continues_return 1
  · exact continues_return 0
  · exact continues_after (quiet_onMemory Memory.touches_pop) fun _ => continues_return _
  · have rest : Leads Continues (do
        outputNewLine
        returnValue 1 : MachineM η Outcome) :=
      continues_after calm_outputNewLine.quiet fun _ => continues_return 1
    cases instruction.text with
    | none => exact rest
    | some text => exact continues_after (calm_outputText text).quiet fun _ => rest
  · refine continues_need fun value => ?_
    exact continues_after (quiet_onMemory (Memory.touches_push value)) fun _ => continues_advanced
  · exact continues_pull values instruction
  · exact continues_after (quiet_onMemory Memory.touches_pop) fun _ => continues_advanced
  · exact continues_inspect fun _ => continues_conclude _ _
  · refine continues_need fun _ => continues_need fun _ => ?_
    exact continues_throwTo _ _
  · refine continues_need fun _ => continues_inspect fun _ => ?_
    exact continues_branchIf fits _
  · exact continues_need fun _ => continues_jumpBy _
  · exact continues_throw _

/-- Every operation that does not manage the state of play proceeds from where the operands were
fetched. -/
theorem proceeds_perform [Host η] {opcode : Opcode} (ordinary : opcode.managesPlay = false) :
    Leads (Proceeds instruction values)
      (perform instruction opcode values : MachineM η Outcome) := by
  unfold perform
  split
  · exact proceeds_of_continues (continues_arithmetic fits values opcode) instruction values
  · exact proceeds_of_continues (continues_table fits values opcode) instruction values
  · exact proceeds_of_continues (continues_world fits values opcode) instruction values
  · exact proceeds_routine fits values opcode
  · exact proceeds_of_continues (continues_exchange fits values ordinary) instruction values
  · exact proceeds_of_continues (continues_throw _) instruction values

end Families

end Machine

end ZMachine
