import ZMachine.Proofs.Memory.Holding

/-!
# Codes packed into words

Codes are packed three to a word, and the last word is marked. Packing fills the codes up to whole
words, unpacking gives them back, and words with the one mark that they should have are packed from
their own codes.
-/

namespace ZMachine

namespace Word

variable {first second third : Nat}

theorem codes_eq {word : UInt16} (second_lt : second < 32) (third_lt : third < 32)
    (value : word.toNat % 32768 = first * 1024 + second * 32 + third) :
    codes word = [first, second, third] := by
  have firstCode : word.toNat / 1024 % 32 = first := by omega
  have secondCode : word.toNat / 32 % 32 = second := by omega
  have thirdCode : word.toNat % 32 = third := by omega
  rw [codes, firstCode, secondCode, thirdCode]

theorem codes_ofCodes (first_lt : first < 32) (second_lt : second < 32) (third_lt : third < 32) :
    codes (ofCodes first second third) = [first, second, third] := by
  apply codes_eq second_lt third_lt
  simp only [ofCodes, UInt16.toNat_ofNat']
  omega

theorem codes_lastOfCodes (first_lt : first < 32) (second_lt : second < 32)
    (third_lt : third < 32) :
    codes (lastOfCodes first second third) = [first, second, third] := by
  apply codes_eq second_lt third_lt
  simp only [lastOfCodes, UInt16.toNat_ofNat']
  omega

theorem isLast_ofCodes : isLast (ofCodes first second third) = false := by
  simp only [isLast, ofCodes, UInt16.toNat_ofNat', decide_eq_false_iff_not]
  omega

theorem isLast_lastOfCodes : isLast (lastOfCodes first second third) = true := by
  simp only [isLast, lastOfCodes, UInt16.toNat_ofNat', decide_eq_true_eq]
  omega

theorem lastOfCodes_of_isLast {word : UInt16} (marked : isLast word = true) :
    lastOfCodes (word.toNat / 1024 % 32) (word.toNat / 32 % 32) (word.toNat % 32) = word := by
  have small := word.toNat_lt
  simp only [isLast, decide_eq_true_eq] at marked
  apply UInt16.toNat_inj.mp
  simp only [lastOfCodes, UInt16.toNat_ofNat']
  omega

theorem ofCodes_of_not_isLast {word : UInt16} (unmarked : isLast word = false) :
    ofCodes (word.toNat / 1024 % 32) (word.toNat / 32 % 32) (word.toNat % 32) = word := by
  simp only [isLast, decide_eq_false_iff_not] at unmarked
  apply UInt16.toNat_inj.mp
  simp only [ofCodes, UInt16.toNat_ofNat']
  omega

end Word

theorem length_packCodes (codes : List Nat) :
    (packCodes codes).length = (codes.length + 2) / 3 := by
  fun_induction packCodes codes with
  | case1 => rfl
  | case2 => simp
  | case3 => simp
  | case4 => simp
  | case5 first second third rest _ ih =>
      simp only [List.length_cons, ih]
      omega

/-- Codes filled up to whole words. -/
def filledUp (codes : List Nat) : List Nat :=
  codes ++ List.replicate ((3 - codes.length % 3) % 3) padCode

theorem length_filledUp_mod (codes : List Nat) : (filledUp codes).length % 3 = 0 := by
  simp only [filledUp, List.length_append, List.length_replicate]
  omega

theorem filledUp_cons (first second third : Nat) (rest : List Nat) :
    filledUp (first :: second :: third :: rest) = first :: second :: third :: filledUp rest := by
  have same : (rest.length + 1 + 1 + 1) % 3 = rest.length % 3 := by omega
  simp [filledUp, same]

theorem packCodes_cons (first second third : Nat) {rest : List Nat} (more : rest ≠ []) :
    packCodes (first :: second :: third :: rest) =
      Word.ofCodes first second third :: packCodes rest := by
  cases rest with
  | nil => exact absurd rfl more
  | cons code rest => simp [packCodes]

/-- Unpacking gives back what has been packed, filled up. -/
theorem unpackCodes_packCodes {codes : List Nat} (small : ∀ code ∈ codes, code < 32) :
    unpackCodes (packCodes codes) = filledUp codes := by
  have padding : padCode < 32 := by decide
  fun_induction packCodes codes with
  | case1 => rfl
  | case2 first =>
      simp only [List.forall_mem_cons] at small
      simp [unpackCodes, Word.codes_lastOfCodes small.1 padding padding, filledUp,
        List.replicate_succ]
  | case3 first second =>
      simp only [List.forall_mem_cons] at small
      simp [unpackCodes, Word.codes_lastOfCodes small.1 small.2.1 padding, filledUp]
  | case4 first second third =>
      simp only [List.forall_mem_cons] at small
      simp [unpackCodes, Word.codes_lastOfCodes small.1 small.2.1 small.2.2.1, filledUp]
  | case5 first second third rest _ ih =>
      simp only [List.forall_mem_cons] at small
      rw [filledUp_cons, ← ih small.2.2.2]
      simp [unpackCodes, Word.codes_ofCodes small.1 small.2.1 small.2.2.1]

/-- What is packed ends with its one marked word, unless there is nothing to pack. -/
theorem exists_packedText {codes : List Nat} (some : codes ≠ []) :
    ∃ text : PackedText, text.words = packCodes codes := by
  fun_induction packCodes codes with
  | case1 => exact absurd rfl some
  | case2 | case3 | case4 =>
      exact ⟨⟨[], _, by simp, Word.isLast_lastOfCodes⟩, rfl⟩
  | case5 first second third rest more ih =>
      rcases ih more with ⟨text, words⟩
      refine ⟨⟨Word.ofCodes first second third :: text.before, text.last, ?_, text.marked⟩, ?_⟩
      · simpa [Word.isLast_ofCodes] using text.unmarked
      · simpa [PackedText.words] using words

/-- The words of a packed text are packed from its codes. -/
theorem PackedText.packCodes_codes (text : PackedText) : packCodes text.codes = text.words := by
  rcases text with ⟨before, last, unmarked, marked⟩
  simp only [codes, words]
  induction before with
  | nil =>
      simp [unpackCodes, Word.codes, packCodes, Word.lastOfCodes_of_isLast marked]
  | cons word before ih =>
      simp only [List.forall_mem_cons] at unmarked
      have more : unpackCodes (before ++ [last]) ≠ [] := by
        simp [unpackCodes, Word.codes]
      rw [List.cons_append, unpackCodes, List.flatMap_cons, ← unpackCodes]
      simp only [Word.codes, List.cons_append, List.nil_append]
      rw [packCodes_cons _ _ _ more, Word.ofCodes_of_not_isLast unmarked.1, ih unmarked.2]

/-- Codes that fill their words are packed into a text from which they are read back. -/
theorem packCodes_eq_words {codes : List Nat} {count : Nat}
    (length : codes.length = 3 * (count + 1)) (small : ∀ code ∈ codes, code < 32) :
    ∃ packed : PackedText, packCodes codes = packed.words ∧ packed.words.length = count + 1 ∧
      packed.codes = codes := by
  have some : codes ≠ [] := List.ne_nil_of_length_pos (by omega)
  have full : filledUp codes = codes := by simp [filledUp, length]
  rcases exists_packedText some with ⟨packed, words⟩
  refine ⟨packed, words.symm, ?_, ?_⟩
  · rw [words, length_packCodes]
    omega
  · rw [PackedText.codes, words, unpackCodes_packCodes small, full]

/-- The mark of a word tells whether it is the last one. -/
theorem PackedText.isLast_iff (packed : PackedText) (index : Nat) (word : UInt16)
    (found : packed.words[index]? = some word) :
    Word.isLast word = true ↔ index + 1 = packed.words.length := by
  simp only [words, List.length_append, List.length_singleton, Nat.add_right_cancel_iff] at found ⊢
  rw [List.getElem?_append] at found
  split at found
  case isTrue inside =>
      have unmarked := packed.unmarked word (List.mem_of_getElem? found)
      rw [unmarked]
      constructor
      · intro impossible
        cases impossible
      · omega
  case isFalse outside =>
      obtain ⟨inside, same⟩ := List.getElem?_eq_some_iff.mp found
      simp only [List.length_singleton, List.getElem_singleton] at inside same
      rw [← same, packed.marked]
      constructor
      · omega
      · intro _
        rfl

end ZMachine
