import ZMachine.Proofs.Machine.Run
import ZMachine.Proofs.Memory.Region
import ZMachine.Proofs.Word

/-!
# Arithmetic of a story

The operations on numbers fetch two words, and store a third one that is computed from the integers
which the words stand for. Counting a variable up or down stores its new value in place before it is
compared. What the words are is the matter of `Proofs.Word`; here the operations are shown to store
those words, and nothing else.
-/

namespace ZMachine

namespace Machine

variable {η : Type} [Host η]

/-- The operation stores a word as its result, wherever the variable for the result can be written,
and changes nothing else. -/
def Gives (ready : Machine η) (instruction : Instruction) (opcode : Opcode) (values : List UInt16)
    (word : UInt16) : Prop :=
  ∀ name memory, instruction.store = some name →
    Memory.writeVariable name word ready.memory = .ok () memory →
    perform instruction opcode values ready = .ok .advanced { ready with memory }

/-- The operation stores an integer modulo 65536. -/
def GivesModulo (ready : Machine η) (instruction : Instruction) (opcode : Opcode)
    (values : List UInt16) (number : ℤ) : Prop :=
  ∃ word : UInt16, (word.toNat : ℤ) = number % 65536 ∧ ready.Gives instruction opcode values word

section Operations

variable {instruction : Instruction} {opcode : Opcode} {values others : List UInt16}
  {left right word : UInt16} {ready : Machine η} {number : ℤ}

theorem gives_of_conclude
    (concludes : perform instruction opcode values ready = conclude instruction word ready) :
    ready.Gives instruction opcode values word := by
  intro name memory stored written
  rw [concludes]
  refine conclude_eq_ok.mpr ⟨rfl, memory, ?_, rfl⟩
  rw [stored]
  exact written

theorem givesModulo_of_conclude (same : (word.toNat : ℤ) = number % 65536)
    (concludes : perform instruction opcode values ready = conclude instruction word ready) :
    ready.GivesModulo instruction opcode values number :=
  ⟨word, same, gives_of_conclude concludes⟩

omit [Host η] in
/-- A divisor other than 0 does not fail. -/
theorem combineNonzero_of_ne {operation : UInt16 → UInt16 → UInt16} (nonzero : right ≠ 0) :
    combineNonzero instruction (left :: right :: others) operation ready =
      conclude instruction (operation left right) ready := by
  have fetched : combineNonzero instruction (left :: right :: others) operation ready =
      (if right = 0 then throw (.divisionByZero instruction.address)
        else conclude instruction (operation left right) : MachineM η Outcome) ready := rfl
  rw [fetched, if_neg nonzero]

omit [Host η] in
/-- The variable that is counted gets its new value in place. -/
theorem updateVariable_of_ok {name : UInt8} {value : UInt16} {change : UInt16 → UInt16}
    {memory : Memory} (found : ready.memory.peekVariable name = .ok value)
    (stored : Memory.pokeVariable name (change value) ready.memory = .ok () memory) :
    updateVariable name change ready = .ok (change value) { ready with memory } := by
  have read : inspect (fun machine : Machine η => machine.memory.peekVariable name) ready =
      .ok value ready := inspect_of_ok found
  rw [updateVariable, bind_of_ok read, bind_of_ok (onMemory_of_ok stored)]
  rfl

omit [Host η] in
theorem countAndCompare_of_ok (change : UInt16 → UInt16) (relation : ℤ → ℤ → Bool)
    {value : UInt16} {memory : Memory}
    (found : ready.memory.peekVariable (Word.low left) = .ok value)
    (stored : Memory.pokeVariable (Word.low left) (change value) ready.memory = .ok () memory) :
    countAndCompare instruction (left :: right :: others) change relation ready =
      branchIf instruction (relation (Word.signed (change value)) (Word.signed right))
        { ready with memory } := by
  have counted : countAndCompare instruction (left :: right :: others) change relation ready = (do
      let value ← updateVariable (Word.low left) change
      branchIf instruction (relation (Word.signed value) (Word.signed right)) :
        MachineM η Outcome) ready := rfl
  rw [counted, bind_of_ok (updateVariable_of_ok found stored)]

end Operations

/-- The operations on numbers follow the integers that words stand for. Sums, differences and
products are stored modulo 65536. A quotient is cut off toward zero; the one that is not the reading
of a word is stored modulo 65536 too. A remainder is smaller than the divisor, has the sign of the
dividend unless it is 0, and makes up what the quotient leaves. Shifts multiply by a power of two
and drop the places after the point, for any number of places. Counting with a check compares the
new value, as it is stored, with the limit. Dividing by zero fails, and nothing is stored. -/
theorem arithmetic_follows_integers (instruction : Instruction) (left right : UInt16)
    (others : List UInt16) (ready : Machine η) :
    let values := left :: right :: others
    let dividend := Word.signed left
    let divisor := Word.signed right
    let ratio := (dividend : ℚ) / divisor
    (ready.GivesModulo instruction .add values (Word.signed left + Word.signed right) ∧
      ready.GivesModulo instruction .sub values (Word.signed left - Word.signed right) ∧
      ready.GivesModulo instruction .mul values (Word.signed left * Word.signed right)) ∧
    (right ≠ 0 → ∃ quotient remainder,
      ready.Gives instruction .div values quotient ∧
      ready.Gives instruction .mod values remainder ∧
      (quotient.toNat : ℤ) = truncated ratio % 65536 ∧
      (¬ (dividend = -32768 ∧ divisor = -1) → Word.signed quotient = truncated ratio) ∧
      (Word.signed remainder).natAbs < divisor.natAbs ∧
      (Word.signed remainder = 0 ∨ (Word.signed remainder).sign = dividend.sign) ∧
      dividend ≡ divisor * Word.signed quotient + Word.signed remainder [ZMOD 65536]) ∧
    (ready.GivesModulo instruction .logShift values ⌊(left.toNat : ℚ) * 2 ^ Word.signed right⌋ ∧
      ready.GivesModulo instruction .artShift values
        ⌊(Word.signed left : ℚ) * 2 ^ Word.signed right⌋) ∧
    (∀ value counted memory, ready.memory.peekVariable (Word.low left) = .ok value →
      Memory.pokeVariable (Word.low left) counted ready.memory = .ok () memory →
      ((counted.toNat : ℤ) = (Word.signed value + 1) % 65536 →
        perform instruction .incChk values ready =
          branchIf instruction (Word.signed right < Word.signed counted) { ready with memory }) ∧
      ((counted.toNat : ℤ) = (Word.signed value - 1) % 65536 →
        perform instruction .decChk values ready =
          branchIf instruction (Word.signed counted < Word.signed right) { ready with memory })) ∧
    (right = 0 →
      perform instruction .div values ready =
        .error (.divisionByZero instruction.address) ready ∧
      perform instruction .mod values ready =
        .error (.divisionByZero instruction.address) ready) := by
  intro values dividend divisor ratio
  refine ⟨⟨?_, ?_, ?_⟩, ?_, ⟨?_, ?_⟩, ?_, ?_⟩
  · exact givesModulo_of_conclude (Word.toNat_add_emod left right) rfl
  · exact givesModulo_of_conclude (Word.toNat_sub_emod left right) rfl
  · exact givesModulo_of_conclude (Word.toNat_mul_emod left right) rfl
  · intro nonzero
    refine ⟨Word.divide left right, Word.remainder left right, ?_, ?_, ?_, ?_, ?_, ?_, ?_⟩
    · exact gives_of_conclude (combineNonzero_of_ne nonzero)
    · exact gives_of_conclude (combineNonzero_of_ne nonzero)
    · exact Word.toNat_divide left right
    · exact Word.signed_divide left right
    · exact Word.natAbs_remainder_lt left right nonzero
    · exact Word.sign_remainder left right nonzero
    · exact Word.signed_modEq_division left right
  · exact givesModulo_of_conclude (Word.toNat_logicalShift left _) rfl
  · exact givesModulo_of_conclude (Word.toNat_arithmeticShift left _) rfl
  · intro value counted memory found stored
    have one : Word.signed 1 = 1 := by decide
    refine ⟨fun up => ?_, fun down => ?_⟩
    · have sum := Word.toNat_add_emod value 1
      rw [one] at sum
      have next : counted = value + 1 := Word.eq_of_toNat_emod up sum
      subst next
      exact countAndCompare_of_ok (· + 1) (fun value limit => value > limit) found stored
    · have difference := Word.toNat_sub_emod value 1
      rw [one] at difference
      have next : counted = value - 1 := Word.eq_of_toNat_emod down difference
      subst next
      exact countAndCompare_of_ok (· - 1) (fun value limit => value < limit) found stored
  · rintro rfl
    exact ⟨rfl, rfl⟩

/-- A sum and a quotient that are not the reading of a word, the remainder of a negative number, a
shift by more places than a word has, a variable that is counted down from 0, and a division by
zero. -/
theorem arithmetic_follows_integers_sample :
    let ready := sample 5 [] .absent
    let result := fun word : UInt16 =>
      { ready.memory with bytes := ready.memory.bytes.setWord 64 word }
    let instruction : Instruction :=
      ⟨80, .variadic, .var, 0x14, Opcode.lookup 5 .op2 0x14, [], some 16,
        some ⟨true, 22, .address 100⟩, none, 6⟩
    let gives := fun opcode values word =>
      perform instruction opcode values ready = .ok .advanced { ready with memory := result word }
    gives .add [0x8000, 0xFFFF] 0x7FFF ∧ gives .div [0x8000, 0xFFFF] 0x8000 ∧
    gives .mod [0xFFF3, 5] 0xFFFD ∧ gives .artShift [0x8000, 0xFFEF] 0xFFFF ∧
    perform instruction .decChk [16, 0] ready =
      .ok .branched { ready with memory := (result 0xFFFF).withPc 100 } ∧
    perform instruction .mod [7, 0] ready = .error (.divisionByZero 80) ready := by
  intro ready result instruction gives
  have place : ready.memory.globalAddress 16 = 64 := by decide +kernel
  have dynamic : 64 + 1 < ready.memory.header.staticBase := by decide +kernel
  have zero : ready.memory.peekVariable 16 = .ok 0 := eq_ok_of_toOption (by decide +kernel)
  have stored : ∀ word, Memory.writeVariable 16 word ready.memory = .ok () (result word) := by
    intro word
    rw [Memory.writeVariable, if_neg (by decide), Memory.writeCell, if_neg (by decide), place]
    exact Memory.writeWord_eq_ok.mpr ⟨dynamic, rfl⟩
  have poked : Memory.pokeVariable 16 0xFFFF ready.memory = .ok () (result 0xFFFF) :=
    stored 0xFFFF
  have laws := fun left right => arithmetic_follows_integers instruction left right [] ready
  clear_value ready
  refine ⟨?_, ?_, ?_, ?_, ?_, ?_⟩
  · rcases (laws 0x8000 0xFFFF).1.1 with ⟨word, value, stores⟩
    have same : word = 0x7FFF := Word.eq_of_toNat_emod value rfl
    subst same
    exact stores 16 _ rfl (stored 0x7FFF)
  · rcases (laws 0x8000 0xFFFF).2.1 (by decide) with ⟨quotient, _, stores, _, value, _⟩
    have same : quotient = 0x8000 := by
      rw [truncated_div] at value
      exact Word.eq_of_toNat_emod value rfl
    subst same
    exact stores 16 _ rfl (stored 0x8000)
  · rcases (laws 0xFFF3 5).2.1 (by decide) with
      ⟨quotient, remainder, _, stores, _, read, small, _, sum⟩
    have two : Word.signed quotient = -2 := by
      rw [read (by decide), truncated_div]
      rfl
    have operands : Word.signed 0xFFF3 = -13 ∧ Word.signed 5 = 5 := by decide
    rw [operands.1, operands.2, two] at sum
    rw [operands.2] at small
    have three : Word.signed remainder = -3 := by
      unfold Int.ModEq at sum
      omega
    have value := Word.toNat_eq_signed_emod remainder
    rw [three] at value
    have same : remainder = 0xFFFD := Word.eq_of_toNat_emod value rfl
    subst same
    exact stores 16 _ rfl (stored 0xFFFD)
  · rcases (laws 0x8000 0xFFEF).2.2.1.2 with ⟨word, value, stores⟩
    have same : word = 0xFFFF := by
      rw [floor_mul_zpow] at value
      exact Word.eq_of_toNat_emod value rfl
    subst same
    exact stores 16 _ rfl (stored 0xFFFF)
  · exact ((laws 16 0).2.2.2.1 0 0xFFFF (result 0xFFFF) zero poked).2 rfl
  · exact ((laws 7 0).2.2.2.2 rfl).2

end Machine

end ZMachine
