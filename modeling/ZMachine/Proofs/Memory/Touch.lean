import ZMachine.Machine.Step
import ZMachine.Proofs.Action
import ZMachine.Proofs.Image

/-!
# What ordinary memory operations touch

Apart from calls, returns, jumps and the restoring of a state of play, an operation on memory
changes bytes of dynamic memory, the locals that the running routine has, and its evaluation stack.
`Memory.Touches` says that nothing else changes. Operations that work on bytes alone leave locals
and stack as they are, which is `Memory.Writes`. Both are preorders, so they hold of a sequence of
operations if they hold of each.

The operations are taken in the order in which the machine is built: single bytes and words,
variables, then objects, parse buffers, text buffers, tables and operands.
-/

namespace ZMachine

/-- The second frame belongs to the same call as the first: only locals that the routine has and
its evaluation stack differ, and the stack has not outgrown its limit. -/
structure Frame.Touches (before after : Frame) : Prop where
  returnPc : after.returnPc = before.returnPc
  returnStore : after.returnStore = before.returnStore
  localCount : after.localCount = before.localCount
  argCount : after.argCount = before.argCount
  unused : ∀ number, before.localCount < number → after.getLocal number = before.getLocal number
  stack : before.stack.length ≤ Memory.stackLimit → after.stack.length ≤ Memory.stackLimit

namespace Frame.Touches

theorem refl (frame : Frame) : frame.Touches frame :=
  ⟨rfl, rfl, rfl, rfl, fun _ _ => rfl, id⟩

theorem trans {first second third : Frame} (earlier : first.Touches second)
    (later : second.Touches third) : first.Touches third where
  returnPc := later.returnPc.trans earlier.returnPc
  returnStore := later.returnStore.trans earlier.returnStore
  localCount := later.localCount.trans earlier.localCount
  argCount := later.argCount.trans earlier.argCount
  unused := by
    intro number unused
    rw [later.unused number (earlier.localCount ▸ unused), earlier.unused number unused]
  stack := later.stack ∘ earlier.stack

theorem of_stack {frame : Frame} {stack : List UInt16}
    (fits : frame.stack.length ≤ Memory.stackLimit → stack.length ≤ Memory.stackLimit) :
    frame.Touches { frame with stack } :=
  ⟨rfl, rfl, rfl, rfl, fun _ _ => rfl, fits⟩

theorem setLocal {frame : Frame} {number : Nat} (positive : 0 < number)
    (exists_ : number ≤ frame.localCount) (value : UInt16) :
    frame.Touches (frame.setLocal number value) where
  returnPc := rfl
  returnStore := rfl
  localCount := rfl
  argCount := rfl
  unused := by
    intro other unused
    have different : number - 1 ≠ other - 1 := by omega
    simp [Frame.getLocal, Frame.setLocal, Vector.getElem?_setIfInBounds_ne different]
  stack := id

end Frame.Touches

/-- The second memory differs from the first only in dynamic memory and in what the running routine
works with. -/
structure Memory.Touches (before after : Memory) : Prop where
  header : after.header = before.header
  pristine : after.pristine = before.pristine
  size : after.bytes.size = before.bytes.size
  fixed : ∀ address, before.header.staticBase ≤ address →
    after.bytes.byteAt address = before.bytes.byteAt address
  pc : after.pc = before.pc
  frame : before.frame.Touches after.frame
  frames : after.frames = before.frames

namespace Memory

namespace Touches

theorem refl (memory : Memory) : memory.Touches memory :=
  ⟨rfl, rfl, rfl, fun _ _ => rfl, rfl, Frame.Touches.refl _, rfl⟩

theorem trans {first second third : Memory} (earlier : first.Touches second)
    (later : second.Touches third) : first.Touches third where
  header := later.header.trans earlier.header
  pristine := later.pristine.trans earlier.pristine
  size := later.size.trans earlier.size
  fixed := by
    intro address static
    rw [later.fixed address (earlier.header ▸ static), earlier.fixed address static]
  pc := later.pc.trans earlier.pc
  frame := earlier.frame.trans later.frame
  frames := later.frames.trans earlier.frames

instance : IsPreorder Memory Touches where
  refl := refl
  trans := fun _ _ _ => trans

theorem of_frame {memory : Memory} {frame : Frame} (touches : memory.frame.Touches frame) :
    memory.Touches { memory with frame } :=
  ⟨rfl, rfl, rfl, fun _ _ => rfl, rfl, touches, rfl⟩

end Touches

/-- The second memory differs from the first in bytes of dynamic memory only. -/
structure Writes (before after : Memory) : Prop where
  same : after = { before with bytes := after.bytes }
  size : after.bytes.size = before.bytes.size
  fixed : ∀ address, before.header.staticBase ≤ address →
    after.bytes.byteAt address = before.bytes.byteAt address

namespace Writes

theorem refl (memory : Memory) : memory.Writes memory :=
  ⟨rfl, rfl, fun _ _ => rfl⟩

theorem frame {before after : Memory} (writes : before.Writes after) :
    after.frame = before.frame := by
  rw [writes.same]

theorem header {before after : Memory} (writes : before.Writes after) :
    after.header = before.header := by
  rw [writes.same]

theorem trans {first second third : Memory} (earlier : first.Writes second)
    (later : second.Writes third) : first.Writes third where
  same := by rw [later.same, earlier.same]
  size := later.size.trans earlier.size
  fixed := by
    intro address static
    rw [later.fixed address (earlier.header ▸ static), earlier.fixed address static]

instance : IsPreorder Memory Writes where
  refl := refl
  trans := fun _ _ _ => trans

theorem touches {before after : Memory} (writes : before.Writes after) : before.Touches after where
  header := writes.header
  pristine := by rw [writes.same]
  size := writes.size
  fixed := writes.fixed
  pc := by rw [writes.same]
  frame := writes.frame ▸ Frame.Touches.refl _
  frames := by rw [writes.same]

end Writes

end Memory

theorem Keeps.touches {α : Type} {action : MemoryM α} (writes : Keeps Memory.Writes action) :
    Keeps Memory.Touches action :=
  writes.mono Memory.Writes.touches

namespace Memory

theorem stateAfter_inspect {α : Type} (query : Memory → Except Fault α) (memory : Memory) :
    stateAfter (inspect query) memory = memory := by
  unfold stateAfter inspect
  cases query memory with
  | ok value => rfl
  | error fault => rfl

theorem writes_inspect {α : Type} (query : Memory → Except Fault α) :
    Keeps Writes (inspect query) := by
  intro memory
  rw [stateAfter_inspect]
  exact Writes.refl memory

theorem touches_push (value : UInt16) : Keeps Touches (push value) := by
  intro memory
  unfold stateAfter push
  by_cases full : stackLimit ≤ memory.frame.stack.length
  · rw [if_pos full]
    exact Touches.refl memory
  · rw [if_neg full]
    apply Touches.of_frame
    apply Frame.Touches.of_stack
    intro _
    simp only [List.length_cons]
    omega

theorem touches_pop : Keeps Touches pop := by
  intro memory
  unfold stateAfter pop
  cases shape : memory.frame.stack with
  | nil => exact Touches.refl memory
  | cons value stack =>
      apply Touches.of_frame
      apply Frame.Touches.of_stack
      intro fits
      simp only [shape, List.length_cons] at fits
      omega

theorem touches_poke (value : UInt16) : Keeps Touches (poke value) := by
  intro memory
  unfold stateAfter poke
  cases shape : memory.frame.stack with
  | nil => exact Touches.refl memory
  | cons old stack =>
      apply Touches.of_frame
      apply Frame.Touches.of_stack
      intro fits
      simpa only [shape, List.length_cons] using fits

theorem writes_writeByte (address : Nat) (value : UInt8) :
    Keeps Writes (writeByte address value) := by
  intro memory
  unfold stateAfter writeByte
  by_cases static : memory.header.staticBase ≤ address
  · rw [if_pos static]
    exact Writes.refl memory
  · rw [if_neg static]
    refine ⟨rfl, by simp, ?_⟩
    intro other otherStatic
    exact Image.byteAt_setByte_of_ne (by omega) _ _

theorem writes_writeWord (address : Nat) (value : UInt16) :
    Keeps Writes (writeWord address value) := by
  intro memory
  unfold stateAfter writeWord
  by_cases static : memory.header.staticBase ≤ address + 1
  · rw [if_pos static]
    exact Writes.refl memory
  · rw [if_neg static]
    refine ⟨rfl, by simp, ?_⟩
    intro other otherStatic
    exact Image.byteAt_setWord_of_ne (by omega) (by omega) _ _

/-- Variable 0 is not a cell, and counting it as a local would reach another one. -/
theorem touches_writeCell {name : UInt8} (notStack : name ≠ 0) (value : UInt16) :
    Keeps Touches (writeCell name value) := by
  intro memory
  unfold stateAfter writeCell
  by_cases isLocal : name < 16
  · by_cases missing : memory.frame.localCount < name.toNat
    · simp only [isLocal, missing, if_true]
      exact Touches.refl memory
    · simp only [isLocal, missing, if_true, if_false]
      apply Touches.of_frame
      apply Frame.Touches.setLocal
      · exact Nat.pos_of_ne_zero fun zero => notStack (UInt8.toNat_inj.mp zero)
      · omega
  · simp only [isLocal, if_false]
    exact (writes_writeWord (memory.globalAddress name) value memory).touches

theorem touches_readVariable (name : UInt8) : Keeps Touches (readVariable name) :=
  Keeps.ite touches_pop (writes_inspect _).touches

theorem touches_writeVariable (name : UInt8) (value : UInt16) :
    Keeps Touches (writeVariable name value) := by
  unfold writeVariable
  split
  · exact touches_push value
  · exact touches_writeCell ‹_› value

theorem touches_pokeVariable (name : UInt8) (value : UInt16) :
    Keeps Touches (pokeVariable name value) := by
  unfold pokeVariable
  split
  · exact touches_poke value
  · exact touches_writeCell ‹_› value

theorem writes_writeBytes (address : Nat) (values : List UInt8) :
    Keeps Writes (writeBytes address values) := by
  induction values generalizing address with
  | nil => exact Keeps.pure ()
  | cons value values ih =>
      refine (writes_writeByte address value).bind fun _ => ?_
      exact ih (address + 1)

end Memory

open Memory

namespace ObjectTable

theorem writes_storeLink (table : ObjectTable) (address value : Nat) :
    Keeps Writes (table.storeLink address value) :=
  Keeps.ite (Keeps.ite (Keeps.throw _) (writes_writeByte _ _)) (writes_writeWord _ _)

theorem writes_setLink (table : ObjectTable) (object : Nat) (link : Link) (value : Nat) :
    Keeps Writes (table.setLink object link value) :=
  (writes_inspect _).bind fun address => table.writes_storeLink address value

theorem writes_closeGap (table : ObjectTable) (object parent next : Nat) :
    Keeps Writes (table.closeGap object parent next) := by
  refine (writes_inspect _).bind fun first => Keeps.ite (table.writes_setLink _ _ _) ?_
  refine (writes_inspect _).bind fun found => ?_
  cases found with
  | none => exact Keeps.pure ()
  | some elder => exact table.writes_setLink elder .sibling next

theorem writes_remove (table : ObjectTable) (object : Nat) :
    Keeps Writes (table.remove object) := by
  refine (writes_inspect _).bind fun parent => Keeps.ite (Keeps.pure ()) ?_
  refine (writes_inspect _).bind fun next => ?_
  refine (table.writes_closeGap object parent next).bind fun _ => ?_
  refine (table.writes_setLink object .parent 0).bind fun _ => ?_
  exact table.writes_setLink object .sibling 0

theorem writes_insert (table : ObjectTable) (object parent : Nat) :
    Keeps Writes (table.insert object parent) := by
  refine Keeps.ite (Keeps.throw _) ?_
  refine (table.writes_remove object).bind fun _ => ?_
  refine (writes_inspect _).bind fun first => ?_
  refine (table.writes_setLink object .sibling first).bind fun _ => ?_
  refine (table.writes_setLink parent .child object).bind fun _ => ?_
  exact table.writes_setLink object .parent parent

theorem writes_writeAttribute (table : ObjectTable) (object index : Nat) (value : Bool) :
    Keeps Writes (table.writeAttribute object index value) := by
  refine (writes_inspect _).bind fun entry => ?_
  refine (writes_inspect _).bind fun _ => ?_
  refine (writes_inspect _).bind fun byte => ?_
  exact writes_writeByte _ _

theorem writes_storeProperty (object : Nat) (property : Property) (value : UInt16) :
    Keeps Writes (storeProperty object property value) :=
  Keeps.ite (writes_writeByte _ _) (Keeps.ite (writes_writeWord _ _) (Keeps.throw _))

theorem writes_setProperty (table : ObjectTable) (object number : Nat) (value : UInt16) :
    Keeps Writes (table.setProperty object number value) := by
  refine (writes_inspect _).bind fun found => ?_
  cases found with
  | none => exact Keeps.throw _
  | some property => exact writes_storeProperty object property value

end ObjectTable

namespace ParseBuffer

theorem writes_writeSlot (slot offset : Nat) (word : ParsedWord) :
    Keeps Writes (writeSlot slot offset word) := by
  refine (writes_writeWord _ _).bind fun _ => ?_
  refine (writes_writeByte _ _).bind fun _ => ?_
  exact writes_writeByte _ _

theorem writes_writeSlots (offset : Nat) (skipUnknown : Bool) (slot : Nat)
    (words : List ParsedWord) : Keeps Writes (writeSlots offset skipUnknown slot words) := by
  induction words generalizing slot with
  | nil => exact Keeps.pure ()
  | cons word words ih =>
      refine Keeps.ite ?_ ?_
      · exact (Keeps.pure ()).bind fun _ => ih (slot + 4)
      · exact (writes_writeSlot slot offset word).bind fun _ => ih (slot + 4)

theorem writes_fill (buffer : Nat) (skipUnknown : Bool) (words : List ParsedWord) :
    Keeps Writes (fill buffer skipUnknown words) := by
  refine (writes_inspect _).bind fun capacity => ?_
  refine (writes_writeByte _ _).bind fun _ => ?_
  refine (writes_inspect _).bind fun offset => ?_
  exact (writes_writeSlots _ _ _ _).bind fun _ => Keeps.pure _

end ParseBuffer

namespace Memory

theorem writes_copyForward (count source target : Nat) :
    Keeps Writes (copyForward count source target) := by
  induction count generalizing source target with
  | zero => exact Keeps.pure ()
  | succ count ih =>
      refine (writes_inspect _).bind fun byte => ?_
      exact (writes_writeByte target byte).bind fun _ => ih (source + 1) (target + 1)

theorem writes_clearBytes (count address : Nat) : Keeps Writes (clearBytes count address) := by
  induction count generalizing address with
  | zero => exact Keeps.pure ()
  | succ count ih => exact (writes_writeByte address 0).bind fun _ => ih (address + 1)

theorem writes_copyTable (source target : Nat) (size : Int) :
    Keeps Writes (copyTable source target size) := by
  refine Keeps.ite (writes_clearBytes _ _) (Keeps.ite (writes_copyForward _ _ _) ?_)
  exact (writes_inspect _).bind fun bytes => writes_writeBytes target bytes

end Memory

namespace Machine

theorem writes_writeTableChars (codec : Codec) (table : Nat) (count : UInt16)
    (chars : List Char) : Keeps Writes (writeTableChars codec table count chars) := by
  induction chars generalizing count with
  | nil => exact Keeps.pure count
  | cons c rest ih => exact (writes_writeByte _ _).bind fun _ => ih (count + 1)

theorem writes_writeTable (codec : Codec) (table : Nat) (text : String) :
    Keeps Writes (writeTable codec table text) := by
  refine (writes_inspect _).bind fun count => ?_
  refine (writes_writeTableChars codec table count text.toList).bind fun count => ?_
  exact writes_writeWord table count

theorem writes_writeBuffer (version buffer : Nat) (codes : List UInt8) :
    Keeps Writes (writeBuffer version buffer codes) :=
  Keeps.ite ((writes_writeBytes _ _).bind fun _ => writes_writeByte _ _)
    ((writes_writeBytes _ _).bind fun _ => writes_writeByte _ _)

theorem writes_writeWords (address : Nat) (words : List UInt16) :
    Keeps Writes (writeWords address words) := by
  induction words generalizing address with
  | nil => exact Keeps.pure ()
  | cons word words ih => exact (writes_writeWord address word).bind fun _ => ih (address + 2)

theorem touches_operandValue (named : Bool) (operand : Operand) :
    Keeps Touches (operandValue named operand) :=
  Keeps.ite (touches_readVariable _) (Keeps.pure _)

theorem touches_operandValues (named : Bool) (operands : List Operand) :
    Keeps Touches (operandValues named operands) := by
  induction operands generalizing named with
  | nil => exact Keeps.pure []
  | cons operand operands ih =>
      refine (touches_operandValue named operand).bind fun value => ?_
      exact (ih false).bind fun values => Keeps.pure _

theorem touches_readInitials (count number address : Nat) :
    Keeps Touches (readInitials count number address) := by
  induction count generalizing number address with
  | zero => exact Keeps.pure ()
  | succ count ih =>
      refine (writes_inspect _).touches.bind fun value => ?_
      exact (touches_writeVariable _ value).bind fun _ => ih (number + 1) (address + 2)

theorem touches_writeArguments (count number : Nat) (arguments : List UInt16) :
    Keeps Touches (writeArguments count number arguments) := by
  induction count generalizing number arguments with
  | zero => exact Keeps.pure ()
  | succ count ih =>
      cases arguments with
      | nil => exact Keeps.pure ()
      | cons argument arguments =>
          exact (touches_writeVariable _ argument).bind fun _ => ih (number + 1) arguments

end Machine

end ZMachine
