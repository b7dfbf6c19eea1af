import ZMachine.Proofs.Instruction.Decoding
import ZMachine.Proofs.Memory.Touch

/-!
# How the evaluation stack moves

What an operation does to the evaluation stack is summed up by how many values it takes off and how
many it puts on. All values below those that are taken stay where they are; an operation that works
on variable 0 in place may replace the top one of them. `Balanced` says this of two stacks. It is
closed under doing one thing after the other, as long as nothing is taken off again that was put on.
-/

namespace ZMachine

/-- The second stack comes from the first by taking values off and putting others on. Of the rest at
most the top value differs, and only if it is `replaceable`. -/
structure Balanced (taken given : Nat) (replaceable : Prop) (before after : List UInt16) : Prop where
  enough : taken ≤ before.length
  kept : ∃ pushed rest, after = pushed ++ rest ∧ pushed.length = given ∧
    (rest = before.drop taken ∨
      replaceable ∧ taken < before.length ∧ ∃ top, rest = top :: before.drop (taken + 1))

namespace Balanced

variable {taken given : Nat} {replaceable : Prop} {before middle after : List UInt16}

theorem refl (replaceable : Prop) (stack : List UInt16) : Balanced 0 0 replaceable stack stack :=
  ⟨by omega, [], stack, rfl, rfl, Or.inl rfl⟩

theorem mono {other : Prop} (balanced : Balanced taken given replaceable before after)
    (weakens : replaceable → other) : Balanced taken given other before after := by
  rcases balanced with ⟨enough, pushed, rest, same, count, untouched | ⟨replaced, remains⟩⟩
  · exact ⟨enough, pushed, rest, same, count, Or.inl untouched⟩
  · exact ⟨enough, pushed, rest, same, count, Or.inr ⟨weakens replaced, remains⟩⟩

theorem length (balanced : Balanced taken given replaceable before after) :
    after.length + taken = before.length + given := by
  rcases balanced with ⟨enough, pushed, rest, rfl, rfl, rfl | ⟨_, more, top, rfl⟩⟩
  · simp only [List.length_append, List.length_drop]
    omega
  · simp only [List.length_append, List.length_cons, List.length_drop]
    omega

/-- After values are taken off, more values can be taken off and others be put on. -/
theorem taking {more : Nat} (first : Balanced taken 0 False before middle)
    (second : Balanced more given replaceable middle after) :
    Balanced (taken + more) given replaceable before after := by
  rcases first with ⟨enough, pushed, rest, rfl, none, rfl | ⟨impossible, _⟩⟩
  · obtain rfl := List.eq_nil_of_length_eq_zero none
    rcases second with ⟨moreEnough, pushed, rest, same, count, kept⟩
    simp only [List.nil_append, List.length_drop, List.drop_drop] at moreEnough kept
    refine ⟨by omega, pushed, rest, same, count, ?_⟩
    rcases kept with untouched | ⟨replaced, remains, top, replacedTop⟩
    · exact Or.inl untouched
    · exact Or.inr ⟨replaced, by omega, top, replacedTop⟩
  · exact impossible.elim

/-- Putting more values on does not disturb what is below. -/
theorem giving {more : Nat} (first : Balanced taken given replaceable before middle)
    (second : Balanced 0 more False middle after) :
    Balanced taken (given + more) replaceable before after := by
  rcases first with ⟨enough, pushed, rest, rfl, count, kept⟩
  rcases second with ⟨_, later, remains, rfl, laterCount, rfl | ⟨impossible, _⟩⟩
  · refine ⟨enough, later ++ pushed, rest, ?_, ?_, kept⟩
    · rw [List.drop_zero, List.append_assoc]
    · rw [List.length_append]
      omega
  · exact impossible.elim

end Balanced

namespace Memory

variable {memory after : Memory} {value : UInt16}

theorem balanced_push (done : push value memory = .ok () after) :
    Balanced 0 1 False memory.frame.stack after.frame.stack := by
  unfold push at done
  split at done
  · cases done
  · cases done
    exact ⟨by omega, [value], memory.frame.stack, rfl, rfl, Or.inl rfl⟩

theorem balanced_pop (done : pop memory = .ok value after) :
    Balanced 1 0 False memory.frame.stack after.frame.stack := by
  unfold pop at done
  cases shape : memory.frame.stack with
  | nil => simp [shape] at done
  | cons top stack =>
      simp only [shape] at done
      cases done
      exact ⟨by simp, [], stack, rfl, rfl, Or.inl rfl⟩

theorem balanced_poke (done : poke value memory = .ok () after) :
    Balanced 0 0 True memory.frame.stack after.frame.stack := by
  unfold poke at done
  cases shape : memory.frame.stack with
  | nil => simp [shape] at done
  | cons top stack =>
      simp only [shape] at done
      cases done
      exact ⟨by omega, [], value :: stack, rfl, rfl, Or.inr ⟨trivial, by simp, value, rfl⟩⟩

theorem stack_writeCell {name : UInt8} (done : writeCell name value memory = .ok () after) :
    after.frame.stack = memory.frame.stack := by
  unfold writeCell at done
  split at done
  · split at done
    · cases done
    · cases done
      rfl
  · rw [((writes_writeWord _ _).of_ok done).frame]

/-- Variable 0 gains a value; other variables have nothing to do with the stack. -/
theorem balanced_writeVariable {name : UInt8}
    (done : writeVariable name value memory = .ok () after) :
    Balanced 0 (if name = 0 then 1 else 0) False memory.frame.stack after.frame.stack := by
  unfold writeVariable at done
  split at done
  case isTrue stack =>
      rw [if_pos stack]
      exact balanced_push done
  case isFalse other =>
      rw [if_neg other, stack_writeCell done]
      exact Balanced.refl _ _

theorem balanced_pokeVariable {name : UInt8}
    (done : pokeVariable name value memory = .ok () after) :
    Balanced 0 0 (name = 0) memory.frame.stack after.frame.stack := by
  unfold pokeVariable at done
  split at done
  case isTrue stack => exact (balanced_poke done).mono fun _ => stack
  case isFalse =>
      rw [stack_writeCell done]
      exact Balanced.refl _ _

end Memory

/-- An operand that is taken off the evaluation stack, unless it only names the variable. -/
def Operand.isStacked (operand : Operand) : Bool :=
  operand.kind = .byVariable && operand.value = 0

namespace Machine

variable {memory after : Memory}

theorem low_eq_zero {operand : Operand} (byte : operand.value.toNat < 256) :
    Word.low operand.value = 0 ↔ operand.value = 0 := by
  rw [← UInt8.toNat_inj, ← UInt16.toNat_inj, Word.low, UInt8.toNat_ofNat', UInt8.toNat_zero,
    UInt16.toNat_zero]
  omega

theorem balanced_operandValue {operand : Operand} {value : UInt16} (byte : operand.Named)
    (done : operandValue false operand memory = .ok value after) :
    Balanced (if operand.isStacked then 1 else 0) 0 False memory.frame.stack after.frame.stack := by
  unfold operandValue at done
  split at done
  case isTrue read =>
      have zero := low_eq_zero (byte read.1)
      unfold Memory.readVariable at done
      split at done
      case isTrue stack =>
          rw [if_pos (by simp [Operand.isStacked, read.1, zero.mp stack])]
          exact Memory.balanced_pop done
      case isFalse other =>
          rw [if_neg (by simp [Operand.isStacked, ← zero, other]),
            ((Memory.writes_inspect _).of_ok done).frame]
          exact Balanced.refl _ _
  case isFalse constant =>
      have other : operand.kind ≠ .byVariable := fun kind => constant ⟨kind, rfl⟩
      cases done
      rw [if_neg (by simp [Operand.isStacked, other])]
      exact Balanced.refl _ _

/-- Fetching operands takes off one value for each operand on the stack. -/
theorem balanced_operandValues {named : Bool} {operands : List Operand} {values : List UInt16}
    (bytes : ∀ operand ∈ operands, operand.Named)
    (done : operandValues named operands memory = .ok values after) :
    Balanced ((operands.drop (if named then 1 else 0)).countP Operand.isStacked) 0 False
      memory.frame.stack after.frame.stack := by
  induction operands generalizing named values memory with
  | nil =>
      cases done
      simp only [List.drop_nil, List.countP_nil]
      exact Balanced.refl _ _
  | cons operand operands ih =>
      rw [List.forall_mem_cons] at bytes
      rcases bind_eq_ok.mp done with ⟨value, middle, fetched, rest⟩
      rcases bind_eq_ok.mp rest with ⟨others, last, restFetched, same⟩
      cases same
      have others := ih bytes.2 restFetched
      cases named with
      | true =>
          rw [operandValue, if_neg (by simp)] at fetched
          cases fetched
          exact others
      | false =>
          have both := (balanced_operandValue bytes.1 fetched).taking others
          simp only [Bool.false_eq_true, if_false, List.drop_zero] at both ⊢
          rwa [List.countP_cons, Nat.add_comm]

end Machine

end ZMachine
