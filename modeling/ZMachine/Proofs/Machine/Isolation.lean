import ZMachine.Proofs.Machine.Run

/-!
# Calls are isolated

A routine that is called cannot get at its callers: when it returns, in whatever way, the caller goes
on with the frame that it had when it made the call. What carries this over arbitrary steps is that
the frames of the callers stay at the bottom of the stack of frames, right below a frame that
remembers where the call came from and where its result goes.
-/

namespace ZMachine

namespace Memory

/-- The frames of all routines that have been called and not left, the innermost first. -/
def calls (memory : Memory) : List Frame :=
  memory.frame :: memory.frames

/-- A call made by the routines of `callers` is in progress, which will go back to `returnPc` with a
result for `returnStore`. -/
def Serves (memory : Memory) (callers : List Frame) (returnPc : Nat) (returnStore : Option UInt8) :
    Prop :=
  ∃ inner callee, memory.calls = inner ++ callee :: callers ∧ callee.returnPc = returnPc ∧
    callee.returnStore = returnStore

/-- Leaving routines takes frames off the top of the stack. -/
theorem calls_dropFrames (count : Nat) (memory : Memory) :
    ∃ dropped, (memory.dropFrames count).calls = memory.calls.drop dropped := by
  induction count generalizing memory with
  | zero => exact ⟨0, rfl⟩
  | succ count ih =>
      unfold dropFrames
      split
      · exact ⟨0, rfl⟩
      · rename_i caller frames present
        rcases ih { memory with frame := caller, frames } with ⟨dropped, left⟩
        refine ⟨dropped + 1, ?_⟩
        rw [left]
        simp only [calls, present, List.drop_succ_cons]

section Serving

variable {callers : List Frame} {returnPc : Nat} {returnStore : Option UInt8}

/-- Where the running routine stands does not matter. -/
theorem Serves.withPc {memory : Memory} (serves : memory.Serves callers returnPc returnStore)
    (pc : Nat) : (memory.withPc pc).Serves callers returnPc returnStore :=
  serves

theorem Serves.of_touches {before after : Memory}
    (serves : before.Serves callers returnPc returnStore) (touches : before.Touches after) :
    after.Serves callers returnPc returnStore := by
  rcases serves with ⟨inner, callee, shape, pc, store⟩
  cases inner with
  | nil =>
      simp only [calls, List.nil_append, List.cons.injEq] at shape
      rcases shape with ⟨rfl, rfl⟩
      refine ⟨[], after.frame, ?_, ?_, ?_⟩
      · simp only [calls, touches.frames, List.nil_append]
      · rw [touches.frame.returnPc, pc]
      · rw [touches.frame.returnStore, store]
  | cons first inner =>
      simp only [calls, List.cons_append, List.cons.injEq] at shape
      refine ⟨after.frame :: inner, callee, ?_, pc, store⟩
      simp only [calls, touches.frames, shape.2, List.cons_append]

/-- The call is still in progress as long as more frames are left than those of the callers. -/
theorem Serves.of_drop {before after : Memory} {dropped : Nat}
    (serves : before.Serves callers returnPc returnStore)
    (left : after.calls = before.calls.drop dropped) (deep : callers.length < after.calls.length) :
    after.Serves callers returnPc returnStore := by
  rcases serves with ⟨inner, callee, shape, pc, store⟩
  rw [shape] at left
  have few : dropped ≤ inner.length := by
    rw [left, List.length_drop, List.length_append, List.length_cons] at deep
    omega
  rw [List.drop_append_of_le_length few] at left
  exact ⟨inner.drop dropped, callee, left, pc, store⟩

theorem Serves.of_push {before after : Memory}
    (serves : before.Serves callers returnPc returnStore) (pushed : after.frames = before.calls) :
    after.Serves callers returnPc returnStore := by
  rcases serves with ⟨inner, callee, shape, pc, store⟩
  refine ⟨after.frame :: inner, callee, ?_, pc, store⟩
  rw [calls, pushed, shape, List.cons_append]

/-- A change of the program counter and of what a routine works with does not show in a call. -/
theorem length_calls_of_touches {before after : Memory} (touches : before.Touches after) :
    after.calls.length = before.calls.length := by
  simp only [calls, touches.frames, List.length_cons]

/-- Leaving some routines and returning from one more takes frames off the top, too. -/
theorem Serves.of_backIn {before middle : Memory} {caller : Frame} {frames : List Frame} {count : Nat}
    (serves : before.Serves callers returnPc returnStore) (touches : before.Touches middle)
    (present : (middle.dropFrames count).frames = caller :: frames)
    (deep : callers.length < ((middle.dropFrames count).backIn caller frames).calls.length) :
    ((middle.dropFrames count).backIn caller frames).Serves callers returnPc returnStore := by
  rcases calls_dropFrames count middle with ⟨dropped, left⟩
  have popped : ((middle.dropFrames count).backIn caller frames).calls =
      middle.calls.drop (dropped + 1) := by
    rw [← List.drop_drop, ← left]
    simp only [calls, backIn, present, List.drop_succ_cons, List.drop_zero]
  exact (serves.of_touches touches).of_drop popped deep

theorem Serves.of_continues {before after : Memory} {result : Option Outcome}
    (serves : before.Serves callers returnPc returnStore)
    (continues : before.Continues result after) (deep : callers.length < after.calls.length) :
    after.Serves callers returnPc returnStore := by
  cases continues with
  | fails touches => exact serves.of_touches touches
  | advances touches => exact serves.of_touches touches
  | quits touches => exact serves.of_touches touches
  | jumps touches _ => exact (serves.of_touches touches).withPc _
  | @strands middle count touches =>
      rcases calls_dropFrames count middle with ⟨dropped, left⟩
      exact (serves.of_touches touches).of_drop left deep
  | returns count touches present stored =>
      have storing := (touches_storeIn _ _).of_ok stored
      rw [length_calls_of_touches storing] at deep
      exact (serves.of_backIn touches present deep).of_touches storing
  | loses count touches present refused =>
      have storing := (touches_storeIn _ _).of_error refused
      rw [length_calls_of_touches storing] at deep
      exact (serves.of_backIn touches present deep).of_touches storing

theorem Serves.of_enters {before after : Memory} {packed : UInt16} {arguments : Nat}
    {store : Option UInt8} {result : Option Outcome}
    (serves : before.Serves callers returnPc returnStore)
    (enters : before.Enters packed arguments store result after) :
    after.Serves callers returnPc returnStore := by
  cases enters with
  | completes _ touches _ => exact serves.of_push touches.frames
  | stumbles _ touches => exact serves.of_push touches.frames

/-- The step that goes back to the callers goes back to where the call came from: exactly one frame
stands above the callers, so it is the frame of the callee. -/
theorem Serves.returned {before after : Memory} {value : UInt16}
    (serves : before.Serves callers returnPc returnStore)
    (continues : before.Continues (some (.returned value)) after)
    (back : after.calls.length = callers.length) :
    ∃ resumed : Memory, resumed.calls = callers ∧ resumed.pc = returnPc ∧
      storeIn returnStore value resumed = .ok () after := by
  cases continues with
  | @returns middle _ caller frames _ count touches present stored =>
      have storing := (touches_storeIn _ _).of_ok stored
      rw [length_calls_of_touches storing] at back
      rcases calls_dropFrames count middle with ⟨dropped, left⟩
      have deep : callers.length < (middle.dropFrames count).calls.length := by
        rw [← back]
        simp only [calls, backIn, present, List.length_cons]
        omega
      rcases (serves.of_touches touches).of_drop left deep with ⟨inner, callee, shape, pc, store⟩
      have alone : inner = [] := by
        have lengths := congrArg List.length shape
        simp only [calls, backIn, present, List.length_cons, List.length_append] at lengths back
        exact List.eq_nil_of_length_eq_zero (by omega)
      subst alone
      simp only [calls, present, List.nil_append, List.cons.injEq] at shape
      rcases shape with ⟨running, below⟩
      rw [running, store] at stored
      refine ⟨_, ?_, ?_, stored⟩
      · simp only [calls, backIn, below]
      · simp only [backIn, running, pc]

end Serving

end Memory

namespace Machine

variable {η : Type}

/-- The next step replaces the state of play by a saved one or by the loaded story. -/
def ReplacesNext (machine : Machine η) : Prop :=
  ∃ instruction opcode values ready, machine.Performs instruction opcode values ready ∧
    ready.Replaces opcode

section Steps

variable [Host η] {machine : Machine η} {callers : List Frame} {returnPc : Nat}
  {returnStore : Option UInt8}

/-- A step that does not replace the state of play keeps a call in progress, as long as it does not
go back to the callers. -/
theorem serves_next (serves : machine.memory.Serves callers returnPc returnStore)
    (ordinary : ¬ machine.ReplacesNext) (deep : callers.length < machine.next.memory.calls.length) :
    machine.next.memory.Serves callers returnPc returnStore := by
  cases machine.steps with
  | undecoded same _ =>
      rw [same]
      exact serves
  | unfetched _ quiet _ => exact (serves.withPc _).of_touches quiet.memory
  | @performed instruction opcode values ready performs =>
      have prepared := (serves.withPc _).of_touches performs.touches
      rcases performs.leads with ⟨_, managed⟩ | ⟨_, proceeds⟩
      · generalize machine.next = after at managed deep ⊢
        cases managed with
        | continues continues => exact prepared.of_continues continues.memory deep
        | resumes replaces => exact absurd ⟨_, _, _, _, performs, replaces⟩ ordinary
        | restarts restarting =>
            subst restarting
            exact absurd ⟨_, _, _, _, performs, trivial⟩ ordinary
      · rcases proceeds.memory with continues | ⟨packed, enters⟩
        · exact prepared.of_continues continues deep
        · exact prepared.of_enters enters

/-- A step with a result other than going on performs an operation with that result. -/
theorem performs_of_step {outcome : Outcome} {after : Machine η}
    (stepped : step machine = .ok outcome after) (notable : outcome ≠ .advanced) :
    ∃ instruction opcode values ready, machine.Performs instruction opcode values ready ∧
      perform instruction opcode values ready = .ok outcome after := by
  cases machine.steps with
  | undecoded _ failed =>
      rw [valueOf_of_ok stepped] at failed
      cases failed
  | unfetched _ _ skipped =>
      rw [valueOf_of_ok stepped] at skipped
      rcases skipped with none | advanced
      · cases none
      · cases advanced
        exact absurd rfl notable
  | @performed instruction opcode values ready performs =>
      rw [performs.step] at stepped
      rcases of_tolerating stepped with success | advanced
      · exact ⟨instruction, opcode, values, ready, performs, success⟩
      · exact absurd advanced notable

/-- A call puts a frame on top that remembers where the call came from. -/
theorem serves_of_called {entered : Machine η} (called : step machine = .ok .called entered) :
    ∃ instruction opcode values ready, machine.Performs instruction opcode values ready ∧
      entered.memory.Serves (ready.memory.frame :: machine.memory.frames)
        (machine.memory.pc + instruction.size) instruction.store := by
  rcases performs_of_step called (by simp) with
    ⟨instruction, opcode, values, ready, performs, success⟩
  refine ⟨instruction, opcode, values, ready, performs, ?_⟩
  have leads := performs.leads
  rw [valueOf_of_ok success, performs.next, stateAfter_of_ok success] at leads
  rcases leads with ⟨_, managed⟩ | ⟨_, proceeds⟩
  · cases managed with
    | continues continues => cases continues.memory
    | resumes _ _ _ _ _ _ reports => simp at reports
    | restarts _ _ reports => simp at reports
  · rcases proceeds.memory with continues | ⟨packed, enters⟩
    · cases continues
    · generalize entered.memory = memory at enters
      cases enters with
      | @completes middle localCount start few touches near =>
          refine ⟨[], { middle.frame with argCount := values.tail.length }, ?_, ?_, ?_⟩
          · have below : middle.frames = ready.memory.frame :: machine.memory.frames :=
              touches.frames.trans (congrArg (ready.memory.frame :: ·) performs.touches.frames)
            simp only [Memory.calls, Memory.setArgCount, below, List.nil_append]
          · exact touches.frame.returnPc.trans performs.touches.pc
          · exact touches.frame.returnStore

theorem returned_of_serves {final : Machine η} {value : UInt16}
    (serves : machine.memory.Serves callers returnPc returnStore)
    (returned : step machine = .ok (.returned value) final)
    (back : final.memory.calls.length = callers.length) :
    ∃ resumed : Memory, resumed.calls = callers ∧ resumed.pc = returnPc ∧
      Memory.storeIn returnStore value resumed = .ok () final.memory := by
  rcases performs_of_step returned (by simp) with
    ⟨instruction, opcode, values, ready, performs, success⟩
  have prepared := (serves.withPc _).of_touches performs.touches
  have leads := performs.leads
  rw [valueOf_of_ok success, performs.next, stateAfter_of_ok success] at leads
  rcases leads with ⟨_, managed⟩ | ⟨_, proceeds⟩
  · cases managed with
    | continues continues => exact prepared.returned continues.memory back
    | resumes _ _ _ _ _ _ reports => simp at reports
    | restarts _ _ reports => simp at reports
  · rcases proceeds.memory with continues | ⟨packed, enters⟩
    · exact prepared.returned continues back
    · generalize final.memory = memory at enters
      cases enters

/-- Take a call that is made and any steps inside the routine that it enters, of which none replaces
the state of play. When the routine is left for its caller, in whatever way, the suspended routines
are those at the call, the program counter stands just after the call, and the caller goes on with
the frame that it had once the operands of the call were fetched, into which only the result has been
stored. -/
theorem call_return_isolated {entered last final : Machine η} {value : UInt16}
    (called : step machine = .ok .called entered)
    (run : Run (fun running => ¬ running.ReplacesNext ∧
      machine.memory.frameDepth < running.next.memory.frameDepth) entered last)
    (returned : step last = .ok (.returned value) final)
    (back : final.memory.frameDepth = machine.memory.frameDepth) :
    ∃ instruction opcode values ready, machine.Performs instruction opcode values ready ∧
      final.memory.frames = machine.memory.frames ∧
      final.memory.pc = machine.memory.pc + instruction.size ∧
      ∃ resumed : Memory,
        resumed.frame = ready.memory.frame ∧ resumed.frames = machine.memory.frames ∧
        resumed.pc = machine.memory.pc + instruction.size ∧
        Memory.storeIn instruction.store value resumed = .ok () final.memory := by
  rcases serves_of_called called with ⟨instruction, opcode, values, ready, performs, serves⟩
  have inside : last.memory.Serves (ready.memory.frame :: machine.memory.frames)
      (machine.memory.pc + instruction.size) instruction.store := by
    refine run.keeps (fun running => running.memory.Serves _ _ _) serves ?_
    rintro running ⟨ordinary, deep⟩ serves
    exact serves_next serves ordinary (Nat.succ_lt_succ deep)
  rcases returned_of_serves inside returned (congrArg Nat.succ back) with
    ⟨resumed, calls, pc, stored⟩
  have storing := (Memory.touches_storeIn instruction.store value).of_ok stored
  simp only [Memory.calls, List.cons.injEq] at calls
  refine ⟨instruction, opcode, values, ready, performs, ?_, ?_, resumed, calls.1, calls.2, pc, stored⟩
  · rw [storing.frames, calls.2]
  · rw [storing.pc, pc]

end Steps

/-- Only three operations can replace the state of play. -/
theorem not_replacesNext {machine : Machine η} (notRestart : ¬ machine.PerformsNext .restart)
    (notRestore : ¬ machine.PerformsNext .restore)
    (notUndo : ¬ machine.PerformsNext .restoreUndo) : ¬ machine.ReplacesNext := by
  rintro ⟨instruction, opcode, values, ready, performs, replaces⟩
  unfold Replaces at replaces
  split at replaces
  · exact notRestart ⟨instruction, values, ready, performs⟩
  · exact notRestore ⟨instruction, values, ready, performs⟩
  · exact notUndo ⟨instruction, values, ready, performs⟩
  · exact replaces

/-- A routine that does nothing and then returns 1 for the evaluation stack of its caller. -/
theorem call_return_isolated_sample :
    let machine := sample 3 [0xE0, 0x3F, 0, 43, 0, 0, 0, 0xB4, 0xB0] .absent
    valueOf step machine = some .called ∧
      valueOf step machine.next.next = some (.returned 1) ∧
      machine.next.next.next.memory.frame.stack = [1] ∧
      machine.next.next.next.memory.frames = machine.memory.frames := by
  intro machine
  have called : valueOf step machine = some .called := by decide +kernel
  have returned : valueOf step machine.next.next = some (.returned 1) := by decide +kernel
  have ordinary : ¬ machine.next.ReplacesNext :=
    not_replacesNext (by decide +kernel) (by decide +kernel) (by decide +kernel)
  have deep : machine.memory.frameDepth < machine.next.next.memory.frameDepth := by decide +kernel
  have back : machine.next.next.next.memory.frameDepth = machine.memory.frameDepth := by
    decide +kernel
  refine ⟨called, returned, by decide +kernel, ?_⟩
  clear_value machine
  rcases call_return_isolated (eq_ok_of_valueOf called) (.step .refl ⟨ordinary, deep⟩)
    (eq_ok_of_valueOf returned) back with ⟨instruction, opcode, values, ready, performs, frames, _⟩
  exact frames

end Machine

end ZMachine
