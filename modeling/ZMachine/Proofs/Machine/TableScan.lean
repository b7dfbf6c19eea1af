import Mathlib.Data.Nat.Bitwise
import ZMachine.Proofs.Machine.TableCopy

/-!
# Searching tables

A search looks at fields that are a fixed number of bytes apart, at addresses modulo 65536. It
passes the fields that can be loaded and hold another value, and the first field that it does not
pass decides: it has the value, or it cannot be loaded.
-/

namespace ZMachine

namespace Memory

/-- Bit 7 of a form says that the fields are words. -/
def hasWords (form : UInt16) : Bool :=
  form.toNat.testBit 7

/-- The address of a field. The low bits of a form say how far apart fields are. -/
def fieldAddress (start form : UInt16) (index : Nat) : UInt16 :=
  UInt16.ofNat ((start.toNat + index * (form.toNat % 128)) % 65536)

/-- The field can be loaded. -/
def FieldLoadable (memory : Memory) (start form : UInt16) (index : Nat) : Prop :=
  memory.Loadable (fieldAddress start form index).toNat (if hasWords form then 2 else 1)

instance (memory : Memory) (start form : UInt16) (index : Nat) :
    Decidable (memory.FieldLoadable start form index) :=
  inferInstanceAs (Decidable (Below _ _ _ _))

/-- What stands in a field, a word or a byte. -/
def fieldAt (memory : Memory) (start form : UInt16) (index : Nat) : UInt16 :=
  let address := (fieldAddress start form index).toNat
  if hasWords form then memory.bytes.wordAt address else (memory.bytes.byteAt address).toUInt16

/-- The fields before an index can be loaded, and none of them has the value. -/
def Passes (memory : Memory) (value start form : UInt16) (index : Nat) : Prop :=
  ∀ earlier < index,
    memory.FieldLoadable start form earlier ∧ memory.fieldAt start form earlier ≠ value

instance (memory : Memory) (value start form : UInt16) (index : Nat) :
    Decidable (memory.Passes value start form index) :=
  inferInstanceAs (Decidable (∀ _ < _, _))

variable {memory : Memory} {value start form : UInt16} {index count : Nat}

theorem hasWords_eq (form : UInt16) : hasWords form = decide (form &&& 0x80 ≠ 0) := by
  have bit : (form &&& 0x80).toNat = (form.toNat.testBit 7).toNat * 2 ^ 7 := by
    rw [UInt16.toNat_and]
    exact Nat.and_two_pow form.toNat 7
  simp only [ne_eq, ← UInt16.toNat_inj, bit, hasWords]
  cases form.toNat.testBit 7 with
  | true => simp
  | false => simp

theorem toNat_spacing (form : UInt16) : (form &&& 0x7F).toNat = form.toNat % 128 := by
  rw [UInt16.toNat_and]
  exact Nat.and_two_pow_sub_one_eq_mod form.toNat 7

theorem fieldAddress_eq (start form : UInt16) (index : Nat) :
    fieldAddress start form index = start + UInt16.ofNat index * (form &&& 0x7F) := by
  apply UInt16.toNat_inj.mp
  rw [fieldAddress, UInt16.toNat_ofNat', UInt16.toNat_add, UInt16.toNat_mul, toNat_spacing,
    UInt16.toNat_ofNat', Nat.mod_mod, Nat.mod_mul_mod, Nat.add_mod_mod]

@[simp]
theorem fieldAddress_zero (start form : UInt16) : fieldAddress start form 0 = start := by
  rw [fieldAddress_eq]
  simp

theorem fieldAddress_succ (start form : UInt16) (index : Nat) :
    fieldAddress start form (index + 1) = fieldAddress start form index + (form &&& 0x7F) := by
  rw [fieldAddress_eq, fieldAddress_eq, UInt16.ofNat_add, UInt16.add_mul, UInt16.add_assoc]
  simp

theorem loadable_one {address : Nat} : memory.Loadable address 1 ↔
    address < memory.header.highBase ∧ address < memory.bytes.size := by
  constructor
  · intro loadable
    exact loadable 0 (by decide)
  · intro inside index small
    omega

theorem loadable_two {address : Nat} : memory.Loadable address 2 ↔
    address + 1 < memory.header.highBase ∧ address + 1 < memory.bytes.size := by
  constructor
  · intro loadable
    exact loadable 1 (by decide)
  · intro inside index small
    omega

theorem readField_of_loadable (loadable : memory.FieldLoadable start form index) :
    memory.readField (hasWords form) (fieldAddress start form index) =
      .ok (memory.fieldAt start form index) := by
  unfold FieldLoadable at loadable
  unfold readField fieldAt
  by_cases words : hasWords form = true
  · rw [if_pos words, loadable_two] at loadable
    rw [if_pos words, if_pos words]
    exact readWord_eq_ok.mpr ⟨loadable.1, loadable.2, rfl⟩
  · rw [if_neg words, loadable_one] at loadable
    rw [if_neg words, if_neg words, readByte_eq_ok.mpr ⟨loadable.1, loadable.2, rfl⟩]
    rfl

theorem readField_of_not_loadable (refused : ¬ memory.FieldLoadable start form index) :
    memory.readField (hasWords form) (fieldAddress start form index) =
      .error (.accessViolation (fieldAddress start form index).toNat false) := by
  unfold FieldLoadable at refused
  unfold readField
  by_cases words : hasWords form = true
  · rw [if_pos words, loadable_two] at refused
    rw [if_pos words, readWord, if_pos (by omega)]
  · rw [if_neg words, loadable_one] at refused
    rw [if_neg words, readByte, if_pos (by omega)]
    rfl

/-- The search for a value from a field on. -/
def scanFrom (memory : Memory) (value start form : UInt16) (index count : Nat) :
    Except Fault UInt16 :=
  memory.scanTable value (form &&& 0x7F) (hasWords form) count (fieldAddress start form index)

/-- A search goes on behind a field with another value. -/
theorem scanFrom_of_ne (loadable : memory.FieldLoadable start form index)
    (different : memory.fieldAt start form index ≠ value) :
    memory.scanFrom value start form index (count + 1) =
      memory.scanFrom value start form (index + 1) count := by
  rw [scanFrom, scanTable, readField_of_loadable loadable, scanFrom, fieldAddress_succ]
  exact if_neg different

theorem scanFrom_of_eq (loadable : memory.FieldLoadable start form index)
    (same : memory.fieldAt start form index = value) :
    memory.scanFrom value start form index (count + 1) = .ok (fieldAddress start form index) := by
  rw [scanFrom, scanTable, readField_of_loadable loadable]
  exact if_pos same

theorem scanFrom_of_not_loadable (refused : ¬ memory.FieldLoadable start form index) :
    memory.scanFrom value start form index (count + 1) =
      .error (.accessViolation (fieldAddress start form index).toNat false) := by
  rw [scanFrom, scanTable, readField_of_not_loadable refused]

/-- A search begins behind the fields that it passes. -/
theorem scanFrom_of_passes (passes : memory.Passes value start form index) (count : Nat) :
    memory.scanFrom value start form 0 (index + count) =
      memory.scanFrom value start form index count := by
  induction index generalizing count with
  | zero => rw [Nat.zero_add]
  | succ index ih =>
      have before : memory.Passes value start form index := fun earlier small =>
        passes earlier (Nat.lt_succ_of_lt small)
      rcases passes index (Nat.lt_succ_self index) with ⟨loadable, different⟩
      have shifted : index + 1 + count = index + (count + 1) := by omega
      rw [shifted, ih before, scanFrom_of_ne loadable different]

/-- The field behind those that a search passes decides, if the table has it. -/
theorem scanFrom_of_passes_lt (passes : memory.Passes value start form index)
    (inside : index < count) : ∃ rest, memory.scanFrom value start form 0 count =
      memory.scanFrom value start form index (rest + 1) := by
  refine ⟨count - (index + 1), ?_⟩
  have parts : count = index + (count - (index + 1) + 1) := by omega
  rw [← scanFrom_of_passes passes, ← parts]

end Memory

namespace Machine

variable {η : Type} [Host η]

section Scanning

variable {instruction : Instruction} {value start count found : UInt16} {others : List UInt16}
  {ready : Machine η}

theorem perform_scanTable (instruction : Instruction) (value start count : UInt16)
    (others : List UInt16) :
    (perform instruction .scanTable (value :: start :: count :: others) : MachineM η Outcome) =
      (do
        let found ← inspect fun machine => machine.memory.scanFrom value start
          (others.head?.getD defaultForm) 0 count.toNat
        storeResult instruction found
        branchIf instruction (found ≠ 0)) := by
  have form : optional (value :: start :: count :: others) 3 defaultForm =
      others.head?.getD defaultForm := by
    cases others with
    | nil => rfl
    | cons form others => rfl
  simp only [Memory.scanFrom, Memory.fieldAddress_zero, Memory.hasWords_eq, ← form]
  rfl

theorem perform_scanTable_of_ok (scanned : ready.memory.scanFrom value start
      (others.head?.getD defaultForm) 0 count.toNat = .ok found) :
    perform instruction .scanTable (value :: start :: count :: others) ready =
      (do
        storeResult instruction found
        branchIf instruction (found ≠ 0) : MachineM η Outcome) ready := by
  rw [perform_scanTable, bind_of_ok (inspect_of_ok scanned)]

theorem perform_scanTable_of_error {fault : Fault} (failed : ready.memory.scanFrom value start
      (others.head?.getD defaultForm) 0 count.toNat = .error fault) :
    perform instruction .scanTable (value :: start :: count :: others) ready =
      .error fault ready := by
  rw [perform_scanTable, bind_of_error (inspect_of_error failed)]

end Scanning

/-- A search of a table finds the first match. If the first field with the value comes after fields
that can all be loaded, its address is stored and the condition of the branch holds; only the
address 0 looks like no match. If all fields can be loaded and none has the value, 0 is stored and
the condition does not hold. A field that cannot be loaded, behind fields without the value, is
reported, and nothing is stored. Without a form, the fields are words that follow each other. -/
theorem scanTable_finds_first (instruction : Instruction) (value start count : UInt16)
    (others : List UInt16) (ready : Machine η) :
    let form := others.head?.getD 0x82
    let address := Memory.fieldAddress start form
    let passes := ready.memory.Passes value start form
    let loadable := ready.memory.FieldLoadable start form
    let result := perform instruction .scanTable (value :: start :: count :: others) ready
    let concluding := fun (word : UInt16) (condition : Bool) => (do
      storeResult instruction word
      branchIf instruction condition : MachineM η Outcome) ready
    (∀ index < count.toNat, passes index → loadable index →
      ready.memory.fieldAt start form index = value →
      (address index ≠ 0 → result = concluding (address index) true) ∧
      (address index = 0 → result = concluding 0 false)) ∧
    (passes count.toNat → result = concluding 0 false) ∧
    (∀ index < count.toNat, passes index → ¬ loadable index →
      result = .error (.accessViolation (address index).toNat false) ready) := by
  intro form address passes loadable result concluding
  refine ⟨?_, ?_, ?_⟩
  · intro index inside before readable same
    rcases Memory.scanFrom_of_passes_lt before inside with ⟨rest, scan⟩
    rw [Memory.scanFrom_of_eq readable same] at scan
    have found : result = concluding (address index) (address index ≠ 0) :=
      perform_scanTable_of_ok scan
    refine ⟨fun nonzero => ?_, fun zero => ?_⟩
    · rw [found, decide_eq_true nonzero]
    · rw [found, zero]
      rfl
  · intro all
    have scan := Memory.scanFrom_of_passes all 0
    rw [Nat.add_zero, Memory.scanFrom, Memory.scanFrom, Memory.scanTable] at scan
    exact perform_scanTable_of_ok scan
  · intro index inside before refused
    rcases Memory.scanFrom_of_passes_lt before inside with ⟨rest, scan⟩
    rw [Memory.scanFrom_of_not_loadable refused] at scan
    exact perform_scanTable_of_error scan

/-- The header of the story holds 0, 80, 0, 80 from address 4 on, and 64 at address 13. The word 80
is found in the first field, the byte 64 in the fourth of fields that are three bytes apart, and the
word 7 nowhere. The last search leaves the file of 80 bytes. -/
theorem scanTable_finds_first_sample :
    let ready := sample 5 [] .absent
    let result := fun word : UInt16 =>
      { ready.memory with bytes := ready.memory.bytes.setWord 64 word }
    let scanning : Instruction :=
      ⟨80, .variadic, .var, 0x17, Opcode.lookup 5 .var 0x17, [], some 16,
        some ⟨true, 22, .address 100⟩, none, 6⟩
    let scan := fun values => perform scanning .scanTable values ready
    scan [80, 4, 3] = .ok .branched { ready with memory := (result 4).withPc 100 } ∧
    scan [64, 4, 5, 3] = .ok .branched { ready with memory := (result 13).withPc 100 } ∧
    scan [7, 4, 3] = .ok .advanced { ready with memory := result 0 } ∧
    scan [7, 76, 3] = .error (.accessViolation 80 false) ready := by
  intro ready result scanning scan
  have place : ready.memory.globalAddress 16 = 64 := by decide +kernel
  have dynamic : 64 + 1 < ready.memory.header.staticBase := by decide +kernel
  have stored : ∀ word, Memory.writeVariable 16 word ready.memory = .ok () (result word) := by
    intro word
    rw [Memory.writeVariable, if_neg (by decide), Memory.writeCell, if_neg (by decide), place]
    exact Memory.writeWord_eq_ok.mpr ⟨dynamic, rfl⟩
  have concludes : ∀ word condition, (do
      storeResult scanning word
      branchIf scanning condition : MachineM Recorded Outcome) ready =
      branchIf scanning condition { ready with memory := result word } :=
    fun word condition => bind_of_ok (onMemory_of_ok (stored word))
  have laws := fun value start count others =>
    scanTable_finds_first scanning value start count others ready
  refine ⟨?_, ?_, ?_, ?_⟩
  · have found := (laws 80 4 3 []).1 0 (by decide) (by decide +kernel) (by decide +kernel)
      (by decide +kernel)
    exact (found.1 (by decide)).trans (concludes 4 true)
  · have found := (laws 64 4 5 [3]).1 3 (by decide) (by decide +kernel) (by decide +kernel)
      (by decide +kernel)
    exact (found.1 (by decide)).trans (concludes 13 true)
  · exact ((laws 7 4 3 []).2.1 (by decide +kernel)).trans (concludes 0 false)
  · exact (laws 7 76 3 []).2.2 2 (by decide) (by decide +kernel) (by decide +kernel)

end Machine

end ZMachine
