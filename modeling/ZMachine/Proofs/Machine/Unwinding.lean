import ZMachine.Proofs.Machine.Isolation
import ZMachine.Proofs.Machine.Saving
import ZMachine.Proofs.Memory.Balance

/-!
# Throwing to the routine that caught

A routine that catches notes how many routines are suspended below it, and a later throw leaves
routines until that number is reached. As long as the catching routine has not been left, its frame
is the one that is found there: the call that it serves stays in progress whatever it calls, and the
frames of its callers stay at the bottom of the stack of frames.

The number is kept as a word. Beyond 65535 suspended routines it names another, outer routine.
-/

namespace ZMachine

/-- Catching stores a result, and nothing follows it. -/
theorem Opcode.catalog_catches : ∀ row ∈ catalog, row.opcode = .catchFrame →
    row.stores = true ∧ row.branches = false ∧ row.carriesText = false := by
  decide +kernel

namespace Memory

/-- Leaving the running routine again and again, until `depth` routines are suspended. -/
inductive Unwinds (depth : Nat) : Memory → Memory → Prop where
  | reached {memory : Memory} (there : memory.frameDepth = depth) : Unwinds depth memory memory
  | leaves {memory middle after : Memory} {left : Frame} (elsewhere : memory.frameDepth ≠ depth)
      (popped : popFrame memory = .ok left middle) (rest : Unwinds depth middle after) :
      Unwinds depth memory after

section Leaving

variable {memory after : Memory} {depth : Nat}

theorem popFrame_eq_ok {left : Frame} :
    popFrame memory = .ok left after ↔
      ∃ caller frames, memory.frames = caller :: frames ∧ left = memory.frame ∧
        after = { memory with frame := caller, frames } := by
  unfold popFrame
  cases memory.frames with
  | nil => simp
  | cons caller frames =>
      constructor
      · intro success
        cases success
        exact ⟨caller, frames, rfl, rfl, rfl⟩
      · rintro ⟨_, _, same, rfl, rfl⟩
        cases same
        rfl

theorem unwindTo_eq_ok :
    unwindTo depth memory = .ok () after ↔
      depth ≤ memory.frameDepth ∧ after = memory.dropFrames (memory.frameDepth - depth) := by
  unfold unwindTo
  by_cases deeper : memory.frameDepth < depth
  · rw [if_pos deeper]
    constructor
    · intro impossible
      cases impossible
    · rintro ⟨few, _⟩
      omega
  · rw [if_neg deeper]
    constructor
    · intro success
      cases success
      exact ⟨by omega, rfl⟩
    · rintro ⟨_, rfl⟩
      rfl

/-- The number of suspended routines, counted around one frame. -/
theorem frameDepth_of_calls {inner callers : List Frame} {callee : Frame}
    (shape : memory.calls = inner ++ callee :: callers) :
    memory.frameDepth = inner.length + callers.length := by
  have lengths := congrArg List.length shape
  simp only [calls, List.length_cons, List.length_append] at lengths
  rw [Memory.frameDepth]
  omega

/-- Leaving as many routines as run above a frame brings it back with its callers, and changes
nothing else. -/
theorem dropFrames_of_calls {inner callers : List Frame} {callee : Frame}
    (shape : memory.calls = inner ++ callee :: callers) :
    memory.dropFrames inner.length = { memory with frame := callee, frames := callers } := by
  induction inner generalizing memory with
  | nil =>
      simp only [calls, List.nil_append, List.cons.injEq] at shape
      rcases shape with ⟨rfl, rfl⟩
      rfl
  | cons running inner ih =>
      simp only [calls, List.cons_append, List.cons.injEq] at shape
      rcases shape with ⟨rfl, below⟩
      rw [List.length_cons, dropFrames]
      cases callers' : memory.frames with
      | nil => simp [callers'] at below
      | cons caller frames =>
          rw [callers'] at below
          exact ih below

/-- Unwinding is leaving the running routine as long as the depth is not reached. -/
theorem unwindTo_iff_unwinds :
    unwindTo depth memory = .ok () after ↔ memory.Unwinds depth after := by
  rw [unwindTo_eq_ok]
  constructor
  · rintro ⟨few, rfl⟩
    induction left : memory.frameDepth - depth generalizing memory with
    | zero => exact .reached (by omega)
    | succ count ih =>
        have elsewhere : memory.frameDepth ≠ depth := by omega
        cases callers : memory.frames with
        | nil => simp [frameDepth, callers] at left
        | cons caller frames =>
            have popped := popFrame_eq_ok.mpr ⟨caller, frames, callers, rfl, rfl⟩
            rw [frameDepth, callers, List.length_cons] at few left
            rw [dropFrames, callers]
            exact .leaves elsewhere popped (ih (by simp only [frameDepth]; omega)
              (by simp only [frameDepth]; omega))
  · intro unwinds
    induction unwinds with
    | @reached memory there =>
        refine ⟨by omega, ?_⟩
        rw [there, Nat.sub_self, dropFrames]
    | @leaves memory middle after left elsewhere popped _ ih =>
        rcases popFrame_eq_ok.mp popped with ⟨caller, frames, callers, _, rfl⟩
        rcases ih with ⟨few, rfl⟩
        have deeper : memory.frameDepth = frames.length + 1 := by
          rw [frameDepth, callers, List.length_cons]
        simp only [frameDepth] at few ⊢
        have one : memory.frames.length - depth = frames.length - depth + 1 := by
          rw [callers, List.length_cons]
          omega
        refine ⟨by rw [callers, List.length_cons]; omega, ?_⟩
        rw [one, dropFrames, callers]

theorem Unwinds.frameDepth (unwinds : memory.Unwinds depth after) : after.frameDepth = depth := by
  induction unwinds with
  | reached there => exact there
  | leaves _ _ _ ih => exact ih

theorem unwindTo_succeeds (few : depth ≤ memory.frameDepth) :
    ∃ after, unwindTo depth memory = .ok () after ∧ after.frameDepth = depth := by
  have success := unwindTo_eq_ok.mpr ⟨few, rfl⟩
  exact ⟨_, success, (unwindTo_iff_unwinds.mp success).frameDepth⟩

/-- Unwinding finds the frame of a call in progress above its callers. -/
theorem Serves.unwindTo {callers : List Frame} {returnPc : Nat} {returnStore : Option UInt8}
    (serves : memory.Serves callers returnPc returnStore) :
    ∃ callee : Frame, callee.returnPc = returnPc ∧ callee.returnStore = returnStore ∧
      Memory.unwindTo callers.length memory =
        .ok () { memory with frame := callee, frames := callers } := by
  rcases serves with ⟨inner, callee, shape, pc, store⟩
  have depth := frameDepth_of_calls shape
  refine ⟨callee, pc, store, unwindTo_eq_ok.mpr ⟨by omega, ?_⟩⟩
  rw [depth, Nat.add_sub_cancel, dropFrames_of_calls shape]

end Leaving

end Memory

namespace Machine

variable {η : Type}

/-- The next step does not replace the state of play, and leaves at least `depth` routines
suspended. -/
def KeepsDepth [Host η] (depth : Nat) (machine : Machine η) : Prop :=
  ¬ machine.ReplacesNext ∧ depth ≤ machine.next.memory.frameDepth

/-- What a throw comes to when it returns `value` from the routine that ran in `catching`. -/
structure ReturnsFrom [Host η] (catching : Memory) (value : UInt16) (last thrown : Machine η) :
    Prop where
  /-- The step is a return in a frame that goes back to where the frame of the routine did. -/
  ownFrame : ∃ own : Frame, own.returnPc = catching.frame.returnPc ∧
    own.returnStore = catching.frame.returnStore ∧
    step last = tolerating (returnValue value)
      { thrown with memory := { thrown.memory with frame := own, frames := catching.frames } }
  depth : last.next.memory.frameDepth + 1 = catching.frameDepth
  pc : last.next.memory.pc = catching.frame.returnPc
  /-- Nothing but the result is stored in the frame of the caller. -/
  resumed : ∃ caller, catching.frames = caller :: last.next.memory.frames ∧
    step last = tolerating (do
      onMemory (Memory.storeIn catching.frame.returnStore value)
      return .returned value)
      { thrown with
        memory :=
          { thrown.memory with
            pc := catching.frame.returnPc
            frame := caller
            frames := last.next.memory.frames } }

section Operations

variable {machine : Machine η} {value : UInt16}

theorem tolerating_congr {first second : MachineM η Outcome} {other : Machine η}
    (same : first machine = second other) :
    tolerating first machine = tolerating second other := by
  rw [tolerating, tolerating, same]

theorem throwTo_of_deeper {depth : Nat} (deeper : machine.memory.frameDepth < depth) :
    throwTo value depth machine = .error .noFrame machine := by
  have refused : Memory.unwindTo depth machine.memory = .error .noFrame machine.memory := by
    rw [Memory.unwindTo, if_pos deeper]
  exact bind_of_error (onMemory_of_error refused)

theorem throwTo_of_unwound {depth : Nat} {memory : Memory}
    (unwound : Memory.unwindTo depth machine.memory = .ok () memory) :
    throwTo value depth machine = returnValue value { machine with memory } :=
  bind_of_ok (onMemory_of_ok unwound)

/-- A return stores its result once the caller is back. -/
theorem returnValue_of_frames {caller : Frame} {frames : List Frame}
    (callers : machine.memory.frames = caller :: frames) :
    returnValue value machine = (do
      onMemory (Memory.storeIn machine.memory.frame.returnStore value)
      return .returned value : MachineM η Outcome)
      { machine with memory := machine.memory.backIn caller frames } := by
  rw [returnValue_apply, callers]
  dsimp only
  cases stored : Memory.storeIn machine.memory.frame.returnStore value
      (machine.memory.backIn caller frames) with
  | ok _ memory => exact Eq.symm (bind_of_ok (onMemory_of_ok stored))
  | error fault memory => exact Eq.symm (bind_of_error (onMemory_of_error stored))

variable {ready : Machine η} {instruction : Instruction} {values rest : List UInt16}

/-- Getting ready for an operation leaves the frames of the callers alone. -/
theorem Performs.frames {opcode : Opcode}
    (performs : machine.Performs instruction opcode values ready) :
    ready.memory.frames = machine.memory.frames :=
  performs.touches.frames

theorem Performs.frameDepth {opcode : Opcode}
    (performs : machine.Performs instruction opcode values ready) :
    ready.memory.frameDepth = machine.memory.frameDepth :=
  congrArg List.length performs.frames

variable [Host η]

theorem perform_throwTo {number : UInt16} :
    perform instruction .throwTo (value :: number :: rest) ready =
      throwTo value number.toNat ready :=
  rfl

theorem perform_catchFrame :
    perform instruction .catchFrame values ready =
      conclude instruction (UInt16.ofNat ready.memory.frameDepth) ready :=
  rfl

/-- Catching stores the depth in a variable. -/
theorem next_of_catches (performs : machine.Performs instruction .catchFrame values ready) :
    ∃ name, instruction.store = some name ∧
      machine.next =
        stateAfter (onMemory (Memory.writeVariable name (UInt16.ofNat machine.memory.frameDepth)))
          ready := by
  have depth := performs.frameDepth
  have next := performs.next
  rcases performs with ⟨named, decoder, _, decoded, _, _⟩
  rcases Decoder.entry_of_opcode named with ⟨entry, listed, isCatch⟩
  rcases Opcode.catalog_catches entry (Decoder.row_of_decode decoded listed).1 isCatch with
    ⟨stores, branchless, textless⟩
  have store := Decoder.store_of_decode decoded listed stores branchless textless
  refine ⟨_, store, ?_⟩
  rw [next, stateAfter, perform_catchFrame, depth, ← stateAfter, conclude, storeResult, store]
  exact stateAfter_bind_pure _ _ _

end Operations

section Runs

variable [Host η] {machine ready : Machine η} {instruction : Instruction}
  {values rest : List UInt16} {value : UInt16}

/-- A call stays in progress while no fewer routines are suspended than when it was made. -/
theorem serves_of_run {first last : Machine η} {callers : List Frame} {returnPc : Nat}
    {returnStore : Option UInt8} (serves : first.memory.Serves callers returnPc returnStore)
    (run : Run (KeepsDepth callers.length) first last) :
    last.memory.Serves callers returnPc returnStore := by
  refine run.keeps (fun running => running.memory.Serves callers returnPc returnStore) serves ?_
  rintro running ⟨ordinary, deep⟩ serves
  exact serves_next serves ordinary (Nat.lt_succ_of_le deep)

/-- The call that a catching routine serves is in progress after it has caught. -/
theorem serves_of_catches (performs : machine.Performs instruction .catchFrame values ready) :
    machine.next.memory.Serves machine.memory.frames machine.memory.frame.returnPc
      machine.memory.frame.returnStore := by
  have own : machine.memory.Serves machine.memory.frames machine.memory.frame.returnPc
      machine.memory.frame.returnStore :=
    ⟨[], machine.memory.frame, rfl, rfl, rfl⟩
  rcases next_of_catches performs with ⟨name, _, caught⟩
  rw [caught, stateAfter_onMemory]
  exact ((own.withPc _).of_touches performs.touches).of_touches (Memory.touches_writeVariable _ _ _)

/-- Throwing to a depth that is reached is returning from the routine there. -/
theorem step_of_unwound {number : UInt16} {memory : Memory}
    (performs : machine.Performs instruction .throwTo (value :: number :: rest) ready)
    (unwound : Memory.unwindTo number.toNat ready.memory = .ok () memory) :
    step machine = tolerating (returnValue value) { ready with memory } := by
  rw [performs.step]
  exact tolerating_congr (perform_throwTo.trans (throwTo_of_unwound unwound))

/-- While the call that a catching routine serves is in progress, a throw to its depth returns from
it. -/
theorem returnsFrom_of_serves {catching : Memory} {number : UInt16}
    (performs : machine.Performs instruction .throwTo (value :: number :: rest) ready)
    (serves : machine.memory.Serves catching.frames catching.frame.returnPc
      catching.frame.returnStore)
    (deep : 1 ≤ catching.frameDepth) (names : number.toNat = catching.frameDepth) :
    ReturnsFrom catching value machine ready := by
  rcases ((serves.withPc _).of_touches performs.touches).unwindTo with ⟨own, pc, store, unwound⟩
  have left := step_of_unwound performs (by rwa [names])
  cases callers : catching.frames with
  | nil => simp [Memory.frameDepth, callers] at deep
  | cons caller frames =>
      rw [callers] at left
      have back : step machine = tolerating (do
          onMemory (Memory.storeIn catching.frame.returnStore value)
          return .returned value)
          { ready with
            memory := { ready.memory with pc := catching.frame.returnPc, frame := caller, frames } }
          := by
        rw [left]
        apply tolerating_congr
        rw [returnValue_of_frames rfl]
        simp only [Memory.backIn, pc, store]
      have next : machine.next.memory =
          stateAfter (Memory.storeIn catching.frame.returnStore value)
            { ready.memory with pc := catching.frame.returnPc, frame := caller, frames } := by
        rw [Machine.next, stateAfter, back, ← stateAfter, stateAfter_tolerating,
          stateAfter_bind_pure, stateAfter_onMemory]
      have storing := Memory.touches_storeIn catching.frame.returnStore value
        { ready.memory with pc := catching.frame.returnPc, frame := caller, frames }
      rw [← next] at storing
      have below : machine.next.memory.frames = frames := storing.frames
      refine ⟨⟨own, pc, store, ?_⟩, ?_, storing.pc, ⟨caller, ?_, ?_⟩⟩
      · rw [callers]
        exact left
      · rw [Memory.frameDepth, Memory.frameDepth, below, callers, List.length_cons]
      · rw [below, callers]
      · rw [below]
        exact back

/-- The frames below a catching routine are those of the call that entered it, since the routine is
the only one above its callers. -/
theorem frames_of_called {calling entered : Machine η}
    (called : step calling = .ok .called entered)
    (inside : calling.memory.frameDepth + 1 = machine.memory.frameDepth)
    (run : Run (KeepsDepth machine.memory.frameDepth) entered machine) :
    ∃ call opcode arguments prepared, calling.Performs call opcode arguments prepared ∧
      machine.memory.frames = prepared.memory.frame :: calling.memory.frames ∧
      machine.memory.frame.returnPc = calling.memory.pc + call.size ∧
      machine.memory.frame.returnStore = call.store := by
  rcases serves_of_called called with ⟨call, opcode, arguments, prepared, performs, serves⟩
  have depth : (prepared.memory.frame :: calling.memory.frames).length =
      machine.memory.frameDepth := by
    rw [List.length_cons]
    exact inside
  rcases serves_of_run serves (depth ▸ run) with ⟨inner, callee, shape, pc, store⟩
  have alone : inner = [] := by
    have above := Memory.frameDepth_of_calls shape
    rw [depth] at above
    exact List.eq_nil_of_length_eq_zero (by omega)
  subst alone
  simp only [Memory.calls, List.nil_append, List.cons.injEq] at shape
  rcases shape with ⟨rfl, below⟩
  exact ⟨call, opcode, arguments, prepared, performs, below, pc, store⟩

omit [Host η] in
/-- Getting ready for a throw takes its operands off the evaluation stack and changes nothing else,
apart from the program counter. -/
theorem memory_of_throws {values : List UInt16}
    (performs : machine.Performs instruction .throwTo values ready) :
    ready.memory = (machine.memory.withPc (machine.memory.pc + instruction.size)).popped
      (instruction.operands.countP Operand.isStacked) := by
  rcases performs.memory with ⟨count, _, same⟩
  rcases performs with ⟨_, decoder, memory, decoded, fetched, rfl⟩
  have balanced := balanced_operandValues (Decoder.named_of_decode decoded) fetched
  rcases balanced with ⟨_, pushed, remaining, stack, none, kept | ⟨impossible, _⟩⟩
  · obtain rfl := List.eq_nil_of_length_eq_zero none
    simp only [List.nil_append, Opcode.takesVariable, Bool.false_eq_true, if_false,
      List.drop_zero, advance] at stack kept
    rw [kept] at stack
    have popped := congrArg (·.frame.stack) same
    simp only [Memory.popped, Memory.withPc] at popped same ⊢
    rw [same, ← popped, stack]
  · exact impossible.elim

end Runs

/-- A routine that is called catches, and whatever runs then without leaving it, a throw to the
identifier that it stored leaves routines until the noted number is suspended. If the number fits
into a word, this returns from the routine that caught: to the frames and to the place that it was
called from. A throw to a greater number than there are suspended routines fails, and has done
nothing but fetch its operands. Leaving routines up to a depth is leaving them one by one. -/
theorem throw_returns_from_catcher [Host η] :
    (∀ (machine ready last thrown : Machine η) (instruction thrower : Instruction)
        (values rest : List UInt16) (value : UInt16),
      machine.Performs instruction .catchFrame values ready → 1 ≤ machine.memory.frameDepth →
      Run (KeepsDepth machine.memory.frameDepth) machine.next last →
      last.Performs thrower .throwTo
        (value :: UInt16.ofNat machine.memory.frameDepth :: rest) thrown →
      (∃ name, instruction.store = some name ∧
        machine.next =
          stateAfter (onMemory (Memory.writeVariable name (UInt16.ofNat machine.memory.frameDepth)))
            ready) ∧
      (∃ memory, Memory.unwindTo (machine.memory.frameDepth % 65536) thrown.memory = .ok () memory ∧
        memory.frameDepth = machine.memory.frameDepth % 65536 ∧
        step last = tolerating (returnValue value) { thrown with memory }) ∧
      (machine.memory.frameDepth ≤ 65535 → ReturnsFrom machine.memory value last thrown) ∧
      (∀ calling entered : Machine η, step calling = .ok .called entered →
        calling.memory.frameDepth + 1 = machine.memory.frameDepth →
        Run (KeepsDepth machine.memory.frameDepth) entered machine →
        ∃ call opcode arguments prepared, calling.Performs call opcode arguments prepared ∧
          machine.memory.frames = prepared.memory.frame :: calling.memory.frames ∧
          machine.memory.frame.returnPc = calling.memory.pc + call.size ∧
          machine.memory.frame.returnStore = call.store)) ∧
    (∀ (machine thrown : Machine η) (thrower : Instruction) (rest : List UInt16)
        (value number : UInt16),
      machine.Performs thrower .throwTo (value :: number :: rest) thrown →
      machine.memory.frameDepth < number.toNat →
      step machine = .error .noFrame thrown ∧
        thrown.memory = (machine.memory.withPc (machine.memory.pc + thrower.size)).popped
          (thrower.operands.countP Operand.isStacked)) ∧
    ∀ (memory : Memory) (depth : Nat), depth ≤ memory.frameDepth →
      ∃ after, Memory.unwindTo depth memory = .ok () after ∧ after.frameDepth = depth ∧
        ∀ other, memory.Unwinds depth other ↔ other = after := by
  refine ⟨?_, ?_, ?_⟩
  · intro machine ready last thrown instruction thrower values rest value catches deep run throws
    have serves := serves_of_run (serves_of_catches catches) run
    have prepared := (serves.withPc _).of_touches throws.touches
    have names : (UInt16.ofNat machine.memory.frameDepth).toNat =
        machine.memory.frameDepth % 65536 :=
      UInt16.toNat_ofNat'
    refine ⟨next_of_catches catches, ?_, ?_, fun calling entered => frames_of_called⟩
    · have few : machine.memory.frameDepth % 65536 ≤ thrown.memory.frameDepth := by
        rcases prepared with ⟨inner, callee, shape, _⟩
        have deeper : thrown.memory.frameDepth = inner.length + machine.memory.frameDepth :=
          Memory.frameDepth_of_calls shape
        have small := Nat.mod_le machine.memory.frameDepth 65536
        omega
      rcases Memory.unwindTo_succeeds few with ⟨memory, unwound, depth⟩
      exact ⟨memory, unwound, depth, step_of_unwound throws (names ▸ unwound)⟩
    · intro word
      exact returnsFrom_of_serves throws serves deep (names.trans (Nat.mod_eq_of_lt (by omega)))
  · intro machine thrown thrower rest value number throws deeper
    refine ⟨?_, memory_of_throws throws⟩
    rw [← throws.frameDepth] at deeper
    have failed : perform thrower .throwTo (value :: number :: rest) thrown =
        .error .noFrame thrown :=
      perform_throwTo.trans (throwTo_of_deeper deeper)
    rw [throws.step, tolerating, failed]
    rfl
  · intro memory depth few
    rcases Memory.unwindTo_succeeds few with ⟨after, success, reached⟩
    refine ⟨after, success, reached, fun other => ?_⟩
    rw [← Memory.unwindTo_iff_unwinds, success]
    simp [eq_comm]

theorem exists_performs {machine : Machine η} {opcode : Opcode} {values : List UInt16}
    (found : machine.prepared?.map (fun found => (found.2.1, found.2.2.1)) =
      some (opcode, values)) :
    ∃ instruction ready, machine.Performs instruction opcode values ready := by
  rcases Option.map_eq_some_iff.mp found with ⟨⟨instruction, _, _, ready⟩, prepared, same⟩
  cases same
  exact ⟨instruction, ready, performs_iff.mpr prepared⟩

/-- A routine that is called catches and hands what it caught to another routine, which throws 77 to
it. Where nothing is called, there is no frame to throw to. -/
theorem throw_returns_from_catcher_nested :
    let calling := sample 5 [0xE0, 0x3F, 0, 22, 16, 0xBA, 0, 0, 0, 0xB9, 0, 0xF9, 0x2F, 0, 25, 0,
      0xB1, 0, 0, 0, 1, 0x3C, 77, 1] .absent
    let last := calling.next.next.next
    let idle := sample 5 [0x1C, 77, 9] .absent
    (∃ thrown, ReturnsFrom calling.next.memory 77 last thrown) ∧
      (∃ caller, calling.next.memory.frames = caller :: calling.memory.frames) ∧
      last.memory.frameDepth = 2 ∧ last.next.memory.readCell 16 = .ok 77 ∧
      (∃ thrown, step idle = .error .noFrame thrown) ∧
      ∃ outermost, Memory.unwindTo 0 last.memory = .ok () outermost := by
  intro calling last idle
  have called : valueOf step calling = some .called := by decide +kernel
  have caught : calling.next.prepared?.map (fun found => (found.2.1, found.2.2.1)) =
      some (.catchFrame, []) := by decide +kernel
  have threw : last.prepared?.map (fun found => (found.2.1, found.2.2.1)) =
      some (.throwTo, [77, 1]) := by decide +kernel
  have stranded : idle.prepared?.map (fun found => (found.2.1, found.2.2.1)) =
      some (.throwTo, [77, 9]) := by decide +kernel
  have ordinary : ¬ calling.next.next.ReplacesNext :=
    not_replacesNext (by decide +kernel) (by decide +kernel) (by decide +kernel)
  have outside : calling.memory.frameDepth = 0 := by decide +kernel
  have inside : calling.next.memory.frameDepth = 1 := by decide +kernel
  have deep : last.memory.frameDepth = 2 := by decide +kernel
  have shallow : idle.memory.frameDepth = 0 := by decide +kernel
  have stored : (last.next.memory.readCell 16).toOption = some 77 := by decide +kernel
  have run : Run (KeepsDepth 1) calling.next.next last :=
    .step .refl ⟨ordinary, deep.symm ▸ (by decide)⟩
  clear_value idle last calling
  rcases exists_performs caught with ⟨catcher, ready, catches⟩
  rcases exists_performs threw with ⟨thrower, thrown, throws⟩
  rcases exists_performs stranded with ⟨idler, idling, idles⟩
  rcases @throw_returns_from_catcher Recorded _ with ⟨catching, stranding, unwinding⟩
  rcases catching calling.next ready last thrown catcher thrower [] [] 77 catches
    (Nat.le_of_eq inside.symm) (by rwa [inside]) (by rwa [inside]) with ⟨_, _, returns, entered⟩
  rcases entered calling calling.next (eq_ok_of_valueOf called) (by rw [inside, outside]) .refl with
    ⟨_, _, _, prepared, _, frames, _⟩
  rcases unwinding last.memory 0 (Nat.zero_le _) with ⟨outermost, unwound, _⟩
  exact ⟨⟨thrown, returns (by rw [inside]; decide)⟩, ⟨_, frames⟩, deep, eq_ok_of_toOption stored,
    ⟨idling, (stranding idle idling idler [] 77 9 idles (by rw [shallow]; decide)).1⟩,
    outermost, unwound⟩

end Machine

end ZMachine
