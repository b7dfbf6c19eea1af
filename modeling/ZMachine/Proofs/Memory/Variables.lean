import ZMachine.Proofs.Machine.Entry
import ZMachine.Proofs.Memory.Protection

/-!
# Variables are independent cells

The numbers of variables name three kinds of places: the top of the evaluation stack, the locals of
the running routine, and words of memory from an address on that the story chooses.
`Memory.Puts` is what changing a variable in place comes to, with one case for each kind. The laws
of reading after writing go through the pairs of kinds: places of different kinds have nothing in
common, and two places of one kind are apart.

What has been stored in a global can be loaded again because dynamic memory ends before high memory
begins and before the file ends. Loading a story checks this, and no operation on memory moves the
boundaries, so it holds of every memory that can be reached.
-/

namespace ZMachine

/-- A word is not disturbed by storing another one that shares no byte with it. -/
theorem Image.wordAt_setWord_of_apart {address other : Nat}
    (apart : address + 1 < other ∨ other + 1 < address) (image : Image) (value : UInt16) :
    (image.setWord address value).wordAt other = image.wordAt other := by
  have first : (image.setWord address value).byteAt other = image.byteAt other :=
    byteAt_setWord_of_ne (by omega) (by omega) image value
  have second : (image.setWord address value).byteAt (other + 1) = image.byteAt (other + 1) :=
    byteAt_setWord_of_ne (by omega) (by omega) image value
  rw [wordAt, first, second, wordAt]

namespace Memory

/-- The operations that change a memory. -/
inductive Operation : {α : Type} → MemoryM α → Prop where
  | writeByte (address : Nat) (value : UInt8) : Operation (writeByte address value)
  | writeWord (address : Nat) (value : UInt16) : Operation (writeWord address value)
  /-- A stretch of dynamic memory is changed as a whole. -/
  | overwrite (address : Nat) (values : List UInt8) :
      Operation (do
        inspect (·.checkDynamic address values.length)
        writeBytes address values)
  | push (value : UInt16) : Operation (push value)
  | pop : Operation pop
  | readVariable (name : UInt8) : Operation (readVariable name)
  | writeVariable (name : UInt8) (value : UInt16) : Operation (writeVariable name value)
  | pokeVariable (name : UInt8) (value : UInt16) : Operation (pokeVariable name value)
  | pushFrame (returnPc localCount : Nat) (returnStore : Option UInt8) :
      Operation (pushFrame returnPc localCount returnStore)
  | popFrame : Operation popFrame
  | unwindTo (depth : Nat) : Operation (unwindTo depth)
  | setArgCount (count : Nat) : Operation (modify (·.setArgCount count))
  | setPc (pc : Nat) : Operation (modify (·.withPc pc))
  | restoreSnapshot (snapshot : Snapshot) : Operation (restoreSnapshot snapshot)
  | restart : Operation (modify restart)

/-- A memory that comes from a loaded story by operations, whether they succeed or fail. -/
inductive Reached (settings : Settings) (image : Image) : Memory → Prop where
  | loaded {memory : Memory} (loaded : load settings image = .ok memory) :
      Reached settings image memory
  | performed {α : Type} {action : MemoryM α} {memory : Memory}
      (earlier : Reached settings image memory) (operation : Operation action) :
      Reached settings image (stateAfter action memory)

/-- What can be stored can be loaded again: dynamic memory ends before high memory begins, and
before the file ends. -/
structure Arranged (memory : Memory) : Prop where
  mapped : memory.Mapped
  high : memory.header.staticBase ≤ memory.header.highBase

theorem Protects.arranged {before after : Memory} (protects : before.Protects after)
    (arranged : before.Arranged) : after.Arranged where
  mapped := protects.mapped arranged.mapped
  high := by
    rw [protects.header]
    exact arranged.high

theorem arranged_of_load {settings : Settings} {image : Image} {memory : Memory}
    (loaded : load settings image = .ok memory) : memory.Arranged := by
  rcases load_eq_ok loaded with ⟨checked, _, header, _⟩
  refine ⟨mapped_of_load loaded, ?_⟩
  rw [header, Header.read]
  exact (Header.map_of_check checked).high

/-- No operation changes the header, the length of the file or what lies above dynamic memory. -/
theorem Operation.protects {α : Type} {action : MemoryM α} (operation : Operation action)
    {memory : Memory} (mapped : memory.Mapped) : memory.Protects (stateAfter action memory) := by
  cases operation with
  | writeByte address value => exact .of_touches ((writes_writeByte address value).touches memory)
  | writeWord address value => exact .of_touches ((writes_writeWord address value).touches memory)
  | overwrite address values =>
      have writes := (writes_inspect (·.checkDynamic address values.length)).bind fun _ =>
        writes_writeBytes address values
      exact .of_touches (writes.touches memory)
  | push value => exact .of_touches (touches_push value memory)
  | pop => exact .of_touches (touches_pop memory)
  | readVariable name => exact .of_touches (touches_readVariable name memory)
  | writeVariable name value => exact .of_touches (touches_writeVariable name value memory)
  | pokeVariable name value => exact .of_touches (touches_pokeVariable name value memory)
  | pushFrame returnPc localCount returnStore =>
      unfold stateAfter Memory.pushFrame
      by_cases many : maxLocals < localCount
      · rw [if_pos many]
        exact .refl memory
      · rw [if_neg many]
        exact ⟨rfl, rfl, rfl, fun _ _ => rfl⟩
  | popFrame =>
      unfold stateAfter Memory.popFrame
      cases memory.frames with
      | nil => exact .refl memory
      | cons caller frames => exact ⟨rfl, rfl, rfl, fun _ _ => rfl⟩
  | unwindTo depth =>
      unfold stateAfter Memory.unwindTo
      by_cases deep : memory.frameDepth < depth
      · rw [if_pos deep]
        exact .refl memory
      · rw [if_neg deep]
        exact protects_dropFrames _ memory
  | setArgCount count => exact ⟨rfl, rfl, rfl, fun _ _ => rfl⟩
  | setPc pc => exact ⟨rfl, rfl, rfl, fun _ _ => rfl⟩
  | restoreSnapshot snapshot =>
      cases run : Memory.restoreSnapshot snapshot memory with
      | ok _ after =>
          rw [stateAfter_of_ok run]
          exact protects_restoreSnapshot mapped run
      | error fault after =>
          rw [stateAfter_of_error run]
          unfold Memory.restoreSnapshot at run
          split at run
          · cases run
            exact .refl memory
          · cases run
  | restart => exact protects_restart mapped

theorem Reached.arranged {settings : Settings} {image : Image} {memory : Memory}
    (reached : Reached settings image memory) : memory.Arranged := by
  induction reached with
  | loaded loaded => exact arranged_of_load loaded
  | performed _ operation ih => exact (operation.protects ih.mapped).arranged ih

section Places

variable {memory before after : Memory} {name other : UInt8} {value : UInt16}

theorem toNat_pos_of_ne_zero (notStack : name ≠ 0) : 1 ≤ name.toNat :=
  Nat.pos_of_ne_zero fun zero => notStack (UInt8.toNat_inj.mp zero)

theorem peekVariable_local (notStack : name ≠ 0) (isLocal : name < 16) :
    memory.peekVariable name =
      if memory.frame.localCount < name.toNat then
        .error (.illegalVariable name.toNat memory.frame.localCount)
      else .ok (memory.frame.getLocal name.toNat) := by
  rw [peekVariable, if_neg notStack, readCell, if_pos isLocal]

theorem peekVariable_global (isGlobal : ¬ name < 16) :
    memory.peekVariable name = memory.readWord (memory.globalAddress name) := by
  have notStack : name ≠ 0 := by
    rintro rfl
    exact isGlobal (by decide)
  rw [peekVariable, if_neg notStack, readCell, if_neg isGlobal]

theorem readWord_congr {address : Nat} (header : after.header = before.header)
    (size : after.bytes.size = before.bytes.size)
    (same : after.bytes.wordAt address = before.bytes.wordAt address) :
    after.readWord address = before.readWord address := by
  rw [readWord, header, size, same, readWord]

/-- Two globals are words that share no byte. -/
theorem globalAddress_apart (memory : Memory) (isGlobal : ¬ name < 16)
    (otherGlobal : ¬ other < 16) (different : other ≠ name) :
    memory.globalAddress name + 1 < memory.globalAddress other ∨
      memory.globalAddress other + 1 < memory.globalAddress name := by
  have first : ¬ name.toNat < 16 := isGlobal
  have second : ¬ other.toNat < 16 := otherGlobal
  have numbers : other.toNat ≠ name.toNat := fun same => different (UInt8.toNat_inj.mp same)
  unfold globalAddress
  omega

/-- The second memory is the first one with a new value in the place of a variable. -/
inductive Puts (name : UInt8) (value : UInt16) (before : Memory) : Memory → Prop where
  | top {old : UInt16} {stack : List UInt16} (isStack : name = 0)
      (shape : before.frame.stack = old :: stack) :
      Puts name value before { before with frame := { before.frame with stack := value :: stack } }
  | slot (notStack : name ≠ 0) (isLocal : name < 16)
      (present : name.toNat ≤ before.frame.localCount) :
      Puts name value before { before with frame := before.frame.setLocal name.toNat value }
  | word (isGlobal : ¬ name < 16)
      (dynamic : before.globalAddress name + 1 < before.header.staticBase) :
      Puts name value before
        { before with bytes := before.bytes.setWord (before.globalAddress name) value }

namespace Puts

/-- A load asks for less than a store, since dynamic memory ends first. -/
theorem peek_self (arranged : before.Arranged) (puts : before.Puts name value after) :
    after.peekVariable name = .ok value := by
  cases puts with
  | top isStack shape =>
      subst isStack
      rfl
  | slot notStack isLocal present =>
      have few : name.toNat < 16 := isLocal
      have positive := toNat_pos_of_ne_zero notStack
      rw [peekVariable_local notStack isLocal]
      refine (if_neg (Nat.not_lt.mpr present)).trans ?_
      rw [Frame.getLocal_setLocal positive (by omega) positive, if_pos rfl]
  | word isGlobal dynamic =>
      have high := arranged.high
      have inside := arranged.mapped.static
      rw [peekVariable_global isGlobal, readWord_eq_ok]
      refine ⟨Nat.lt_of_lt_of_le dynamic high, ?_, ?_⟩
      · rw [Image.size_setWord]
        exact Nat.lt_of_lt_of_le dynamic inside
      · exact Image.wordAt_setWord (Nat.lt_of_lt_of_le dynamic inside) value

/-- A place of another kind is not looked at, and of the same kind there is only one place for each
number. -/
theorem peek_other (puts : before.Puts name value after) (different : other ≠ name) :
    after.peekVariable other = before.peekVariable other := by
  cases puts with
  | top isStack shape =>
      have notStack : other ≠ 0 := isStack ▸ different
      rw [peekVariable, peekVariable, if_neg notStack, if_neg notStack]
      rfl
  | slot notStack isLocal present =>
      by_cases otherStack : other = 0
      · subst otherStack
        rfl
      by_cases otherLocal : other < 16
      · have few : name.toNat < 16 := isLocal
        have numbers : other.toNat ≠ name.toNat := fun same => different (UInt8.toNat_inj.mp same)
        rw [peekVariable_local otherStack otherLocal, peekVariable_local otherStack otherLocal,
          Frame.getLocal_setLocal (toNat_pos_of_ne_zero notStack) (by omega)
            (toNat_pos_of_ne_zero otherStack), if_neg numbers]
        rfl
      · rw [peekVariable_global otherLocal, peekVariable_global otherLocal]
        rfl
  | word isGlobal dynamic =>
      by_cases otherStack : other = 0
      · subst otherStack
        rfl
      by_cases otherLocal : other < 16
      · rw [peekVariable_local otherStack otherLocal, peekVariable_local otherStack otherLocal]
      · have apart := before.globalAddress_apart isGlobal otherLocal different
        have same := Image.wordAt_setWord_of_apart apart before.bytes value
        rw [peekVariable_global otherLocal, peekVariable_global otherLocal]
        exact readWord_congr rfl (Image.size_setWord ..) same

theorem stackDepth (puts : before.Puts name value after) :
    after.stackDepth = before.stackDepth := by
  cases puts with
  | top isStack shape => simp only [Memory.stackDepth, shape, List.length_cons]
  | slot _ _ _ => rfl
  | word _ _ => rfl

end Puts

/-- Of all that the second memory holds, at most what belongs to one variable differs: one value on
top of the evaluation stack, which may be put on or taken off, one local of the running routine, or
the two bytes of one global. -/
inductive AltersOnly (name : UInt8) (before : Memory) : Memory → Prop where
  | stackValue (old new rest : List UInt16) (isStack : name = 0) (oneOld : old.length ≤ 1)
      (oneNew : new.length ≤ 1) (shape : before.frame.stack = old ++ rest) :
      AltersOnly name before { before with frame := { before.frame with stack := new ++ rest } }
  | oneLocal (locals : Vector UInt16 15) (notStack : name ≠ 0) (isLocal : name < 16)
      (others : ∀ index : Fin 15, index.val + 1 ≠ name.toNat →
        locals[index] = before.frame.locals[index]) :
      AltersOnly name before { before with frame := { before.frame with locals } }
  | oneWord (bytes : Image) (isGlobal : ¬ name < 16) (size : bytes.size = before.bytes.size)
      (others : ∀ address, address ≠ before.globalAddress name →
        address ≠ before.globalAddress name + 1 →
        bytes.byteAt address = before.bytes.byteAt address) :
      AltersOnly name before { before with bytes }

theorem AltersOnly.refl (name : UInt8) (memory : Memory) : memory.AltersOnly name memory := by
  by_cases isStack : name = 0
  · exact .stackValue [] [] memory.frame.stack isStack (by simp) (by simp) rfl
  by_cases isLocal : name < 16
  · exact .oneLocal memory.frame.locals isStack isLocal fun _ _ => rfl
  · exact .oneWord memory.bytes isLocal rfl fun _ _ _ => rfl

/-- The frames of suspended routines belong to no variable. -/
theorem AltersOnly.frames (alters : before.AltersOnly name after) :
    after.frames = before.frames := by
  cases alters <;> rfl

theorem Puts.altersOnly (puts : before.Puts name value after) : before.AltersOnly name after := by
  cases puts with
  | @top old stack isStack shape =>
      exact .stackValue [old] [value] stack isStack (by simp) (by simp) shape
  | slot notStack isLocal present =>
      refine .oneLocal _ notStack isLocal fun index different => ?_
      have positive := toNat_pos_of_ne_zero notStack
      have apart : name.toNat - 1 ≠ index.val := by omega
      exact Vector.getElem_setIfInBounds_ne index.isLt apart
  | word isGlobal dynamic =>
      refine .oneWord _ isGlobal (Image.size_setWord ..) fun address first second => ?_
      exact Image.byteAt_setWord_of_ne first.symm second.symm _ value

/-- The condition decides whether the action succeeds. It leaves a memory that obeys the law, or
else the memory that it found. -/
def Decides (condition : Prop) (law : Memory → Prop) (action : MemoryM Unit) (memory : Memory) :
    Prop :=
  (condition ∧ ∃ after, action memory = .ok () after ∧ law after) ∨
    (¬ condition ∧ ∃ fault, action memory = .error fault memory)

namespace Decides

variable {condition : Prop} {law : Memory → Prop} {action : MemoryM Unit}

theorem succeeds_iff (decides : Decides condition law action memory) :
    (∃ after, action memory = .ok () after) ↔ condition := by
  rcases decides with ⟨holds, after, done, _⟩ | ⟨fails, fault, failed⟩
  · exact iff_of_true ⟨after, done⟩ holds
  · refine iff_of_false ?_ fails
    rintro ⟨after, done⟩
    rw [failed] at done
    cases done

theorem of_ok (decides : Decides condition law action memory)
    (done : action memory = .ok () after) : law after := by
  rcases decides with ⟨_, _, same, lawful⟩ | ⟨_, _, failed⟩
  · rw [done] at same
    cases same
    exact lawful
  · rw [done] at failed
    cases failed

theorem of_error (decides : Decides condition law action memory) {fault : Fault}
    (failed : action memory = .error fault after) : after = memory := by
  rcases decides with ⟨_, _, done, _⟩ | ⟨_, _, same⟩
  · rw [failed] at done
    cases done
  · rw [failed] at same
    cases same
    rfl

theorem altersOnly (decides : Decides condition law action memory)
    (alters : ∀ after, law after → memory.AltersOnly name after) :
    memory.AltersOnly name (stateAfter action memory) := by
  rcases decides with ⟨_, after, done, lawful⟩ | ⟨_, fault, failed⟩
  · rw [stateAfter_of_ok done]
    exact alters after lawful
  · rw [stateAfter_of_error failed]
    exact .refl name memory

end Decides

/-- The variable has a place that can be changed: the stack has a top, the running routine has the
local, or the global lies in dynamic memory. -/
def Changeable (memory : Memory) (name : UInt8) : Prop :=
  if name = 0 then memory.frame.stack ≠ []
  else if name < 16 then name.toNat ≤ memory.frame.localCount
  else memory.globalAddress name + 1 < memory.header.staticBase

instance : Decidable (memory.Changeable name) :=
  inferInstanceAs (Decidable (if name = 0 then _ else _))

/-- The variable can be given a value: the stack has room, or its place can be changed. -/
def Writable (memory : Memory) (name : UInt8) : Prop :=
  if name = 0 then memory.stackDepth < stackLimit else memory.Changeable name

/-- The memory with one more value on the evaluation stack. -/
def pushed (memory : Memory) (value : UInt16) : Memory :=
  { memory with frame := { memory.frame with stack := value :: memory.frame.stack } }

theorem decides_poke (memory : Memory) (value : UInt16) :
    Decides (memory.Changeable 0) (memory.Puts 0 value) (poke value) memory := by
  unfold Changeable poke
  rw [if_pos rfl]
  cases shape : memory.frame.stack with
  | nil => exact Or.inr ⟨by simp, .stackUnderflow, by simp only [shape]⟩
  | cons old stack => exact Or.inl ⟨by simp, _, by simp only [shape], .top rfl shape⟩

theorem decides_writeCell (memory : Memory) (notStack : name ≠ 0) (value : UInt16) :
    Decides (memory.Changeable name) (memory.Puts name value) (writeCell name value) memory := by
  unfold Changeable writeCell
  rw [if_neg notStack]
  by_cases isLocal : name < 16
  · rw [if_pos isLocal]
    by_cases missing : memory.frame.localCount < name.toNat
    · refine Or.inr ⟨by omega, .illegalVariable name.toNat memory.frame.localCount, ?_⟩
      simp only [isLocal, missing, if_true]
    · refine Or.inl ⟨by omega, _, ?_, .slot notStack isLocal (by omega)⟩
      simp only [isLocal, missing, if_true, if_false]
  · rw [if_neg isLocal]
    simp only [isLocal, if_false]
    by_cases static : memory.header.staticBase ≤ memory.globalAddress name + 1
    · exact Or.inr ⟨by omega, _, if_pos static⟩
    · exact Or.inl ⟨by omega, _, if_neg static, .word isLocal (by omega)⟩

theorem decides_pokeVariable (memory : Memory) (name : UInt8) (value : UInt16) :
    Decides (memory.Changeable name) (memory.Puts name value) (pokeVariable name value) memory := by
  unfold pokeVariable
  split
  · rename_i isStack
    subst isStack
    exact decides_poke memory value
  · exact decides_writeCell memory ‹_› value

/-- A variable other than the stack is written in place. -/
theorem writeVariable_eq_poke (notStack : name ≠ 0) (value : UInt16) :
    writeVariable name value = pokeVariable name value := by
  rw [writeVariable, pokeVariable, if_neg notStack, if_neg notStack]

theorem decides_push (memory : Memory) (value : UInt16) :
    Decides (memory.stackDepth < stackLimit) (· = memory.pushed value) (push value) memory := by
  unfold push stackDepth
  by_cases full : stackLimit ≤ memory.frame.stack.length
  · exact Or.inr ⟨Nat.not_lt.mpr full, _, if_pos full⟩
  · exact Or.inl ⟨Nat.not_le.mp full, _, if_neg full, rfl⟩

theorem decides_writeVariable (memory : Memory) (name : UInt8) (value : UInt16) :
    Decides (memory.Writable name)
      (fun after => if name = 0 then after = memory.pushed value else memory.Puts name value after)
      (writeVariable name value) memory := by
  unfold Writable
  by_cases isStack : name = 0
  · simp only [isStack, if_true]
    exact decides_push memory value
  · simp only [isStack, if_false, writeVariable_eq_poke isStack]
    exact decides_pokeVariable memory name value

theorem altersOnly_pushed (isStack : name = 0) (value : UInt16) :
    memory.AltersOnly name (memory.pushed value) :=
  .stackValue [] [value] memory.frame.stack isStack (by simp) (by simp) rfl

theorem altersOnly_readVariable (memory : Memory) (name : UInt8) :
    memory.AltersOnly name (stateAfter (readVariable name) memory) := by
  unfold readVariable
  split
  · rename_i isStack
    unfold stateAfter pop
    cases shape : memory.frame.stack with
    | nil => exact .refl name memory
    | cons top stack => exact .stackValue [top] [] stack isStack (by simp) (by simp) shape
  · rw [stateAfter_inspect]
    exact .refl name memory

end Places

/-- Variables are independent cells in every memory that can be reached. Changing one in place
succeeds exactly if it has a place that can be changed; its new value is then found in it, the stack
keeps its depth, and every other variable gives the value or the fault that it gave before. A change
that fails changes nothing. Writing differs from that for the stack only, which gains a value as
long as there is room, and reading it takes the value off and restores the memory. Whatever becomes
of an operation, it alters what belongs to its variable and nothing else, and the frames of
suspended routines belong to none. -/
theorem variables_are_cells {settings : Settings} {image : Image} {memory : Memory}
    (reached : Reached settings image memory) (name : UInt8) (value : UInt16) :
    ((∃ after, pokeVariable name value memory = .ok () after) ↔ memory.Changeable name) ∧
    (∀ after, pokeVariable name value memory = .ok () after →
      after.peekVariable name = .ok value ∧ after.stackDepth = memory.stackDepth ∧
      ∀ other, other ≠ name → after.peekVariable other = memory.peekVariable other) ∧
    (∀ fault after, pokeVariable name value memory = .error fault after → after = memory) ∧
    ((∃ after, writeVariable name value memory = .ok () after) ↔ memory.Writable name) ∧
    (∀ after, writeVariable name value memory = .ok () after →
      after.peekVariable name = .ok value ∧
      (name = 0 → readVariable 0 after = .ok value memory)) ∧
    (name ≠ 0 → writeVariable name value memory = pokeVariable name value memory) ∧
    ∀ after, after = stateAfter (pokeVariable name value) memory ∨
        after = stateAfter (writeVariable name value) memory ∨
        after = stateAfter (readVariable name) memory →
      memory.AltersOnly name after ∧ after.frames = memory.frames := by
  have arranged := reached.arranged
  have pokes := decides_pokeVariable memory name value
  have writes := decides_writeVariable memory name value
  refine ⟨pokes.succeeds_iff, ?_, fun _ _ => pokes.of_error, writes.succeeds_iff, ?_, ?_, ?_⟩
  · intro after done
    have puts := pokes.of_ok done
    exact ⟨puts.peek_self arranged, puts.stackDepth, fun other => puts.peek_other⟩
  · intro after done
    have wrote := writes.of_ok done
    split at wrote
    · rename_i isStack
      subst isStack
      subst wrote
      exact ⟨rfl, fun _ => rfl⟩
    · exact ⟨wrote.peek_self arranged, fun isStack => absurd isStack ‹_›⟩
  · intro notStack
    rw [writeVariable_eq_poke notStack]
  · intro after ends
    have alters : memory.AltersOnly name after := by
      rcases ends with rfl | rfl | rfl
      · exact pokes.altersOnly fun _ puts => puts.altersOnly
      · refine writes.altersOnly fun after wrote => ?_
        split at wrote
        · exact wrote ▸ altersOnly_pushed ‹_› value
        · exact wrote.altersOnly
      · exact altersOnly_readVariable memory name
    exact ⟨alters, alters.frames⟩

/-- A routine with two locals has a value on its stack and changes the last word of dynamic memory,
which is global 23. The next global lies behind it and stays out of reach. -/
theorem variables_are_cells_last :
    let called := stateAfter (pushFrame 70 2 none) (Machine.sample 3 [0, 7] (.empty 8)).memory
    let memory := stateAfter (push 5) called
    Reached {} (.sample 3 [0, 7]) memory ∧ ¬ memory.Changeable 24 ∧
      ∃ after, pokeVariable 23 0x1234 memory = .ok () after ∧
        after.peekVariable 23 = .ok 0x1234 ∧ after.peekVariable 0 = .ok 5 ∧
        after.peekVariable 2 = .ok 0 ∧
        after.peekVariable 24 = .error (.accessViolation 80 false) := by
  intro called memory
  have loaded : load {} (.sample 3 [0, 7]) = .ok (Machine.sample 3 [0, 7] (.empty 8)).memory := rfl
  have reached : Reached {} (.sample 3 [0, 7]) memory :=
    ((Reached.loaded loaded).performed (.pushFrame 70 2 none)).performed (.push 5)
  have global : memory.globalAddress 24 = 80 := by decide +kernel
  have static : memory.header.highBase = 80 := by decide +kernel
  rcases variables_are_cells reached 23 0x1234 with ⟨changes, cell, _⟩
  rcases changes.mpr (by decide +kernel) with ⟨after, done⟩
  rcases cell after done with ⟨same, _, others⟩
  refine ⟨reached, by decide +kernel, after, done, same, ?_, ?_, ?_⟩
  · exact others 0 (by decide)
  · exact others 2 (by decide)
  · rw [others 24 (by decide), peekVariable_global (by decide), global, readWord, static]
    exact if_pos (by decide)

end Memory

end ZMachine
