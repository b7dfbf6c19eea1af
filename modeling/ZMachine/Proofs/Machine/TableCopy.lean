import ZMachine.Proofs.Machine.Run
import ZMachine.Proofs.Memory.Region

/-!
# Copying tables

A table is cleared, copied as a whole, or copied byte by byte from the first to the last. The last
way differs from the second one where the target begins inside the source: bytes that have been
copied are then copied again, and the target repeats the bytes before it, as `Memory.origin` says.
In any case the target is all that changes.
-/

namespace ZMachine

namespace Memory

variable {memory before middle after : Memory} {source target count : Nat}

/-- A stretch of bytes of the file lies below an address. -/
def Below (memory : Memory) (bound address count : Nat) : Prop :=
  ∀ index < count, address + index < bound ∧ address + index < memory.bytes.size

instance (memory : Memory) (bound address count : Nat) :
    Decidable (memory.Below bound address count) :=
  inferInstanceAs (Decidable (∀ _ < _, _))

/-- All bytes of a stretch can be loaded. -/
abbrev Loadable (memory : Memory) (address count : Nat) : Prop :=
  memory.Below memory.header.highBase address count

/-- All bytes of a stretch can be stored. -/
abbrev Storable (memory : Memory) (address count : Nat) : Prop :=
  memory.Below memory.header.staticBase address count

/-- The second memory is the first one with other bytes in a stretch. -/
structure Receives (before : Memory) (target count : Nat) (value : Nat → UInt8) (after : Memory) :
    Prop where
  writes : before.Writes after
  beside : Confined (Set.Ico target (target + count)) before after
  received : ∀ index < count, after.bytes.byteAt (target + index) = value index

/-- The address of the byte that a copy from the first byte to the last puts at an index of the
target. -/
def origin (source target index : Nat) : Nat :=
  if source < target then source + index % (target - source) else source + index

theorem below_zero (memory : Memory) (bound address : Nat) : memory.Below bound address 0 :=
  fun index small => absurd small (Nat.not_lt_zero index)

theorem below_succ {bound address : Nat} : memory.Below bound address (count + 1) ↔
    (address < bound ∧ address < memory.bytes.size) ∧ memory.Below bound (address + 1) count := by
  constructor
  · intro below
    refine ⟨below 0 (by omega), fun index small => ?_⟩
    have inside := below (index + 1) (by omega)
    omega
  · rintro ⟨first, rest⟩ index small
    cases index with
    | zero => exact first
    | succ index =>
        have inside := rest index (by omega)
        omega

theorem below_of_writes {bound address : Nat} (below : before.Below bound address count)
    (writes : before.Writes after) : after.Below bound address count := by
  unfold Below
  rw [writes.size]
  exact below

theorem Loadable.of_writes (loadable : before.Loadable source count)
    (writes : before.Writes after) : after.Loadable source count := by
  rw [Loadable, writes.header]
  exact below_of_writes loadable writes

theorem Storable.of_writes (storable : before.Storable target count)
    (writes : before.Writes after) : after.Storable target count := by
  rw [Storable, writes.header]
  exact below_of_writes storable writes

namespace Receives

variable {value : Nat → UInt8}

/-- A memory is known once it is known what a stretch has received. -/
theorem unique {other : Memory} (receives : before.Receives target count value after)
    (otherwise : before.Receives target count value other) : other = after := by
  rw [otherwise.writes.same, receives.writes.same]
  congr 1
  apply Image.eq_of_byteAt
  · rw [otherwise.writes.size, receives.writes.size]
  · intro address
    by_cases inside : address ∈ Set.Ico target (target + count)
    · rcases inside with ⟨first, last⟩
      have place : target + (address - target) = address := by omega
      rw [← place, otherwise.received _ (by omega), receives.received _ (by omega)]
    · rw [otherwise.beside address inside, receives.beside address inside]

theorem congr {other : Nat → UInt8} (receives : before.Receives target count value after)
    (same : ∀ index < count, value index = other index) :
    before.Receives target count other after :=
  ⟨receives.writes, receives.beside, fun index small =>
    (receives.received index small).trans (same index small)⟩

theorem none (memory : Memory) (target : Nat) (value : Nat → UInt8) :
    memory.Receives target 0 value memory :=
  ⟨.refl memory, .refl _ memory, fun index small => absurd small (Nat.not_lt_zero index)⟩

/-- One byte is stored, and then the bytes behind it. -/
theorem cons {rest : Nat → UInt8} (fits : target < before.bytes.size)
    (first : writeByte target (value 0) before = .ok () middle)
    (behind : middle.Receives (target + 1) count rest after)
    (same : ∀ index < count, rest index = value (index + 1)) :
    before.Receives target (count + 1) value after where
  writes := ((writes_writeByte target (value 0)).of_ok first).trans behind.writes
  beside := by
    have stored : Confined (Set.Ico target (target + (count + 1))) before middle :=
      (confined_writeByte (by simp) (value 0)).of_ok first
    refine trans_of (Confined _) stored (behind.beside.mono fun address inside => ?_)
    simp only [Set.mem_Ico] at inside ⊢
    omega
  received := by
    intro index small
    cases index with
    | zero =>
        rcases writeByte_eq_ok.mp first with ⟨_, rfl⟩
        rw [Nat.add_zero, behind.beside target (by simp)]
        exact Image.byteAt_setByte fits _
    | succ index =>
        have shifted : target + (index + 1) = target + 1 + index := by omega
        rw [shifted, behind.received index (by omega), same index (by omega)]

end Receives

theorem receives_writeBytes {values : List UInt8}
    (storable : memory.Storable target values.length) :
    ∃ after, writeBytes target values memory = .ok () after ∧
      memory.Receives target values.length (fun index => values[index]?.getD 0) after := by
  induction values generalizing target memory with
  | nil => exact ⟨memory, rfl, .none memory target _⟩
  | cons value values ih =>
      rcases below_succ.mp storable with ⟨inside, behind⟩
      have first : writeByte target value memory =
          .ok () { memory with bytes := memory.bytes.setByte target value } :=
        writeByte_eq_ok.mpr ⟨inside.1, rfl⟩
      have wrote := (writes_writeByte target value).of_ok first
      rcases ih (Storable.of_writes behind wrote) with ⟨after, rest, receives⟩
      refine ⟨after, bind_eq_ok.mpr ⟨(), _, first, rest⟩, ?_⟩
      exact .cons inside.2 first receives fun index small => rfl

theorem clearBytes_eq (count address : Nat) :
    clearBytes count address = writeBytes address (List.replicate count 0) := by
  induction count generalizing address with
  | zero => rfl
  | succ count ih => simp only [clearBytes, List.replicate_succ, writeBytes, ih]

theorem receives_clearBytes (storable : memory.Storable target count) :
    ∃ after, clearBytes count target memory = .ok () after ∧
      memory.Receives target count (fun _ => 0) after := by
  have room : memory.Storable target (List.replicate count (0 : UInt8)).length := by
    rwa [List.length_replicate]
  rcases receives_writeBytes room with ⟨after, stored, receives⟩
  rw [List.length_replicate] at receives
  refine ⟨after, by rw [clearBytes_eq, stored], receives.congr fun index small => ?_⟩
  rw [List.getElem?_replicate_of_lt small, Option.getD_some]

/-- The bytes of a stretch of memory. -/
def bytesFrom (memory : Memory) (address count : Nat) : List UInt8 :=
  (List.range count).map fun index => memory.bytes.byteAt (address + index)

theorem bytesFrom_succ (memory : Memory) (address count : Nat) :
    memory.bytesFrom address (count + 1) =
      memory.bytes.byteAt address :: memory.bytesFrom (address + 1) count := by
  simp only [bytesFrom, List.range_succ_eq_map, List.map_cons, List.map_map, Nat.add_zero]
  refine congrArg _ (List.map_congr_left fun index _ => ?_)
  simp only [Function.comp_apply, Nat.succ_eq_add_one]
  rw [Nat.add_right_comm, Nat.add_assoc]

theorem bytesFrom_of_receives {value : Nat → UInt8}
    (receives : before.Receives target count value after) :
    after.bytesFrom target count = (List.range count).map value :=
  List.map_congr_left fun index listed => receives.received index (List.mem_range.mp listed)

theorem readBytes_of_loadable (loadable : memory.Loadable source count) (earlier : Array UInt8) :
    memory.readBytes count source earlier =
      .ok (earlier.toList ++ memory.bytesFrom source count) := by
  induction count generalizing source earlier with
  | zero => simp [readBytes, bytesFrom]
  | succ count ih =>
      rcases below_succ.mp loadable with ⟨inside, behind⟩
      have first : memory.readByte source = .ok (memory.bytes.byteAt source) :=
        readByte_eq_ok.mpr ⟨inside.1, inside.2, rfl⟩
      rw [readBytes, first, bytesFrom_succ]
      dsimp only
      rw [ih behind]
      simp

/-- A load that is not permitted is reported where it is first met. -/
theorem readBytes_of_not_loadable (refused : ¬ memory.Loadable source count)
    (earlier : Array UInt8) :
    ∃ index < count, memory.Loadable source index ∧ ¬ memory.Loadable source (index + 1) ∧
      memory.readBytes count source earlier = .error (.accessViolation (source + index) false) := by
  induction count generalizing source earlier with
  | zero => exact absurd (below_zero _ _ _) refused
  | succ count ih =>
      by_cases inside : source < memory.header.highBase ∧ source < memory.bytes.size
      · have first : memory.readByte source = .ok (memory.bytes.byteAt source) :=
          readByte_eq_ok.mpr ⟨inside.1, inside.2, rfl⟩
        have behind : ¬ memory.Loadable (source + 1) count := fun rest =>
          refused (below_succ.mpr ⟨inside, rest⟩)
        rcases ih behind (earlier.push (memory.bytes.byteAt source)) with
          ⟨index, small, before, here, failed⟩
        refine ⟨index + 1, by omega, below_succ.mpr ⟨inside, before⟩, ?_, ?_⟩
        · exact fun longer => here (below_succ.mp longer).2
        · have shifted : source + (index + 1) = source + 1 + index := by omega
          rw [readBytes, first, shifted]
          exact failed
      · have unread : memory.readByte source = .error (.accessViolation source false) := by
          rw [readByte, if_pos (by omega)]
        refine ⟨0, by omega, below_zero _ _ _, ?_, ?_⟩
        · exact fun longer => inside (below_succ.mp longer).1
        · rw [readBytes, unread]
          rfl

theorem origin_of_apart {index : Nat} (apart : ¬ (source < target ∧ target < source + count))
    (small : index < count) : origin source target index = source + index := by
  unfold origin
  split
  · rw [Nat.mod_eq_of_lt (by omega)]
  · rfl

theorem origin_zero (source target : Nat) : origin source target 0 = source := by
  simp [origin]

theorem origin_shift (source target index : Nat) :
    origin (source + 1) (target + 1) index = origin source target index + 1 := by
  have distance : target + 1 - (source + 1) = target - source := by omega
  unfold origin
  rw [distance]
  split
  · rw [if_pos (by omega)]
    omega
  · rw [if_neg (by omega)]
    omega

/-- The source is gone through until the target begins, and then from its first byte again. -/
theorem origin_succ (source target index : Nat) :
    origin source target (index + 1) =
      if target = origin source target index + 1 then source
      else origin source target index + 1 := by
  unfold origin
  by_cases overlaps : source < target
  · have small := Nat.mod_lt index (Nat.sub_pos_of_lt overlaps)
    rw [if_pos overlaps, if_pos overlaps, ← Nat.mod_add_mod]
    by_cases wraps : index % (target - source) + 1 = target - source
    · rw [wraps, Nat.mod_self, if_pos (by omega), Nat.add_zero]
    · rw [Nat.mod_eq_of_lt (by omega), if_neg (by omega), Nat.add_assoc]
  · rw [if_neg overlaps, if_neg overlaps, if_neg (by omega), Nat.add_assoc]

theorem receives_copyForward (loadable : memory.Loadable source count)
    (storable : memory.Storable target count) :
    ∃ after, copyForward count source target memory = .ok () after ∧
      memory.Receives target count
        (fun index => memory.bytes.byteAt (origin source target index)) after := by
  induction count generalizing source target memory with
  | zero => exact ⟨memory, rfl, .none memory target _⟩
  | succ count ih =>
      rcases below_succ.mp loadable with ⟨readable, sourceBehind⟩
      rcases below_succ.mp storable with ⟨inside, targetBehind⟩
      have read : inspect (·.readByte source) memory =
          .ok (memory.bytes.byteAt source) memory :=
        inspect_eq_ok.mpr ⟨readByte_eq_ok.mpr ⟨readable.1, readable.2, rfl⟩, rfl⟩
      have first : writeByte target (memory.bytes.byteAt source) memory =
          .ok () { memory with
            bytes := memory.bytes.setByte target (memory.bytes.byteAt source) } :=
        writeByte_eq_ok.mpr ⟨inside.1, rfl⟩
      have wrote := (writes_writeByte target (memory.bytes.byteAt source)).of_ok first
      rcases ih (Loadable.of_writes sourceBehind wrote) (Storable.of_writes targetBehind wrote) with
        ⟨after, rest, receives⟩
      refine ⟨after, ?_, ?_⟩
      · exact bind_eq_ok.mpr ⟨_, _, read, bind_eq_ok.mpr ⟨(), _, first, rest⟩⟩
      · refine .cons inside.2 (by rwa [origin_zero]) receives fun index small => ?_
        have copied := Image.byteAt_setByte_eq inside.2 (memory.bytes.byteAt source)
          (origin source target index + 1)
        dsimp only
        rw [origin_shift, copied, origin_succ]
        split
        · rfl
        · rfl

theorem copyTable_of_neg {size : Int} (present : target ≠ 0) (negative : size < 0) :
    copyTable source target size = copyForward size.natAbs source target := by
  rw [copyTable, if_neg present, if_pos negative]

theorem copyTable_of_nonneg {size : Int} (present : target ≠ 0) (positive : 0 ≤ size) :
    copyTable source target size = (do
      let bytes ← inspect (·.readBytes size.natAbs source #[])
      writeBytes target bytes) := by
  rw [copyTable, if_neg present, if_neg (by omega)]

theorem receives_copyTable {size : Int} (present : target ≠ 0) (positive : 0 ≤ size)
    (loadable : memory.Loadable source size.natAbs)
    (storable : memory.Storable target size.natAbs) :
    ∃ after, copyTable source target size memory = .ok () after ∧
      memory.Receives target size.natAbs
        (fun index => memory.bytes.byteAt (source + index)) after := by
  have length : (memory.bytesFrom source size.natAbs).length = size.natAbs := by simp [bytesFrom]
  have room : memory.Storable target (memory.bytesFrom source size.natAbs).length := by
    rwa [length]
  rcases receives_writeBytes room with ⟨after, stored, receives⟩
  have read := readBytes_of_loadable loadable #[]
  rw [length] at receives
  refine ⟨after, ?_, receives.congr fun index small => by simp [bytesFrom, small]⟩
  rw [copyTable_of_nonneg present positive]
  exact bind_eq_ok.mpr ⟨_, memory, inspect_eq_ok.mpr ⟨read, rfl⟩, stored⟩

/-- Unless the target begins inside the source, both ways of copying have the same result. -/
theorem copyTable_neg {size : Int} (present : target ≠ 0) (negative : size < 0)
    (apart : ¬ (source < target ∧ target < source + size.natAbs))
    (loadable : memory.Loadable source size.natAbs)
    (storable : memory.Storable target size.natAbs) :
    copyTable source target size memory = copyTable source target (-size) memory := by
  have turned : (-size).natAbs = size.natAbs := Int.natAbs_neg size
  rw [← turned] at loadable storable
  rcases receives_copyTable present (by omega) loadable storable with ⟨whole, copied, receives⟩
  rw [turned] at loadable storable receives
  rcases receives_copyForward loadable storable with ⟨after, forward, otherwise⟩
  have same : after = whole := receives.unique <| otherwise.congr fun index small => by
    rw [origin_of_apart apart small]
  rw [copyTable_of_neg present negative, copied, forward, same]

theorem copyTable_of_not_loadable {size : Int} (present : target ≠ 0) (positive : 0 ≤ size)
    (refused : ¬ memory.Loadable source size.natAbs) :
    ∃ index < size.natAbs, memory.Loadable source index ∧ ¬ memory.Loadable source (index + 1) ∧
      copyTable source target size memory =
        .error (.accessViolation (source + index) false) memory := by
  rcases readBytes_of_not_loadable refused #[] with ⟨index, small, before, here, failed⟩
  refine ⟨index, small, before, here, ?_⟩
  rw [copyTable_of_nonneg present positive]
  exact bind_of_error (inspect_eq_error.mpr ⟨failed, rfl⟩)

end Memory

namespace Machine

variable {η : Type} [Host η]

section Copying

variable {instruction : Instruction} {first second size : UInt16} {others : List UInt16}
  {ready : Machine η} {memory : Memory}

theorem perform_copyTable :
    (perform instruction .copyTable (first :: second :: size :: others) : MachineM η Outcome) = (do
      onMemory (Memory.copyTable first.toNat second.toNat (Word.signed size))
      return .advanced) :=
  rfl

theorem perform_copyTable_of_ok
    (copied : Memory.copyTable first.toNat second.toNat (Word.signed size) ready.memory =
      .ok () memory) :
    perform instruction .copyTable (first :: second :: size :: others) ready =
      .ok .advanced { ready with memory } := by
  rw [perform_copyTable, bind_of_ok (onMemory_of_ok copied)]
  rfl

theorem perform_copyTable_of_error {fault : Fault}
    (failed : Memory.copyTable first.toNat second.toNat (Word.signed size) ready.memory =
      .error fault memory) :
    perform instruction .copyTable (first :: second :: size :: others) ready =
      .error fault { ready with memory } := by
  rw [perform_copyTable, bind_of_error (onMemory_of_error failed)]

end Copying

/-- Copying a table works for every overlap. Without a second table, the first one is cleared. With
a size that is not negative, the second table receives the old bytes of the first one. With a
negative size it does too, and the memory is the same as for the size without its sign, unless the
second table begins inside the first: then the second one repeats the bytes between the beginnings
of the two. Nothing but the cleared or the second table changes. If a byte of the first table cannot
be loaded, a copy with a positive size fails at the first such byte, and nothing is stored. -/
theorem copyTable_respects_overlap (instruction : Instruction) (first second size : UInt16)
    (others : List UInt16) (ready : Machine η) :
    let count := (Word.signed size).natAbs
    let result := perform instruction .copyTable (first :: second :: size :: others) ready
    let old := fun index => ready.memory.bytes.byteAt (first.toNat + index)
    let overlaps := first.toNat < second.toNat ∧ second.toNat < first.toNat + count
    (second = 0 → ready.memory.Storable first.toNat count →
      ∃ memory, result = .ok .advanced { ready with memory } ∧
        ready.memory.Receives first.toNat count (fun _ => 0) memory) ∧
    (second ≠ 0 → ready.memory.Loadable first.toNat count →
      ready.memory.Storable second.toNat count →
      ∃ memory, result = .ok .advanced { ready with memory } ∧
        (0 ≤ Word.signed size → ready.memory.Receives second.toNat count old memory) ∧
        (Word.signed size < 0 → ¬ overlaps →
          ready.memory.Receives second.toNat count old memory ∧
          Memory.copyTable first.toNat second.toNat count ready.memory = .ok () memory) ∧
        (Word.signed size < 0 → overlaps →
          ready.memory.Receives second.toNat count
            (fun index => old (index % (second.toNat - first.toNat))) memory)) ∧
    (second ≠ 0 → 0 < Word.signed size → ¬ ready.memory.Loadable first.toNat count →
      ∃ index < count, ready.memory.Loadable first.toNat index ∧
        ¬ ready.memory.Loadable first.toNat (index + 1) ∧
        result = .error (.accessViolation (first.toNat + index) false) ready) := by
  intro count result old overlaps
  have present (elsewhere : second ≠ 0) : second.toNat ≠ 0 := fun zero =>
    elsewhere (UInt16.toNat_inj.mp zero)
  refine ⟨?_, ?_, ?_⟩
  · rintro rfl storable
    rcases Memory.receives_clearBytes storable with ⟨memory, cleared, receives⟩
    exact ⟨memory, perform_copyTable_of_ok cleared, receives⟩
  · intro elsewhere loadable storable
    by_cases negative : Word.signed size < 0
    · rcases Memory.receives_copyForward loadable storable with ⟨memory, copied, receives⟩
      rw [← Memory.copyTable_of_neg (present elsewhere) negative] at copied
      refine ⟨memory, perform_copyTable_of_ok copied, ?_, ?_, ?_⟩
      · intro positive
        omega
      · intro _ apart
        refine ⟨receives.congr fun index small => by rw [Memory.origin_of_apart apart small], ?_⟩
        have turned : (count : Int) = -Word.signed size := by omega
        rw [turned, ← Memory.copyTable_neg (present elsewhere) negative apart loadable storable]
        exact copied
      · intro _ inside
        refine receives.congr fun index small => ?_
        rw [Memory.origin, if_pos inside.1]
    · rcases Memory.receives_copyTable (present elsewhere) (by omega) loadable storable with
        ⟨memory, copied, receives⟩
      refine ⟨memory, perform_copyTable_of_ok copied, ?_, ?_, ?_⟩
      · exact fun _ => receives
      · exact fun impossible => absurd impossible negative
      · exact fun impossible => absurd impossible negative
  · intro elsewhere positive refused
    rcases Memory.copyTable_of_not_loadable (present elsewhere) (by omega) refused with
      ⟨index, small, before, here, failed⟩
    exact ⟨index, small, before, here, perform_copyTable_of_error failed⟩

/-- The second table begins at the third byte of the first, which holds 0, 80, 0, 80, 0 and 0. A
copy from the first byte to the last repeats 0 and 80. The last copy would begin with the last two
bytes of the file. -/
theorem copyTable_respects_overlap_sample :
    let ready := sample 5 [] .absent
    let copying : Instruction :=
      ⟨80, .variadic, .var, 0x1D, Opcode.lookup 5 .var 0x1D, [], none, none, none, 6⟩
    let copy := fun first second size => perform copying .copyTable [first, second, size] ready
    ready.memory.bytesFrom 4 6 = [0, 80, 0, 80, 0, 0] ∧
    (∃ memory, copy 4 0 6 = .ok .advanced { ready with memory } ∧
      memory.bytesFrom 4 6 = [0, 0, 0, 0, 0, 0]) ∧
    (∃ memory, copy 4 6 6 = .ok .advanced { ready with memory } ∧
      memory.bytesFrom 6 6 = [0, 80, 0, 80, 0, 0]) ∧
    (∃ memory, copy 4 6 0xFFFA = .ok .advanced { ready with memory } ∧
      memory.bytesFrom 6 6 = [0, 80, 0, 80, 0, 80]) ∧
    (∃ memory, copy 4 64 0xFFFA = .ok .advanced { ready with memory } ∧
      memory.bytesFrom 64 6 = [0, 80, 0, 80, 0, 0]) ∧
    copy 78 64 6 = .error (.accessViolation 80 false) ready := by
  intro ready copying copy
  have laws := fun first second size =>
    copyTable_respects_overlap copying first second size [] ready
  have old : ready.memory.bytesFrom 4 6 = [0, 80, 0, 80, 0, 0] := by decide +kernel
  refine ⟨old, ?_, ?_, ?_, ?_, ?_⟩
  · rcases (laws 4 0 6).1 rfl (by decide +kernel) with ⟨memory, cleared, receives⟩
    exact ⟨memory, cleared, Memory.bytesFrom_of_receives receives⟩
  · rcases (laws 4 6 6).2.1 (by decide) (by decide +kernel) (by decide +kernel) with
      ⟨memory, copied, receives, _, _⟩
    exact ⟨memory, copied, (Memory.bytesFrom_of_receives (receives (by decide))).trans old⟩
  · rcases (laws 4 6 0xFFFA).2.1 (by decide) (by decide +kernel) (by decide +kernel) with
      ⟨memory, copied, _, _, receives⟩
    have repeated : (List.range 6).map (fun index => ready.memory.bytes.byteAt (4 + index % 2)) =
        [0, 80, 0, 80, 0, 80] := by decide +kernel
    refine ⟨memory, copied, ?_⟩
    exact (Memory.bytesFrom_of_receives (receives (by decide) (by decide))).trans repeated
  · rcases (laws 4 64 0xFFFA).2.1 (by decide) (by decide +kernel) (by decide +kernel) with
      ⟨memory, copied, _, receives, _⟩
    refine ⟨memory, copied, ?_⟩
    exact (Memory.bytesFrom_of_receives (receives (by decide) (by decide)).1).trans old
  · rcases (laws 78 64 6).2.2 (by decide) (by decide) (by decide +kernel) with
      ⟨index, small, before, here, failed⟩
    have only : ∀ index < 6, ready.memory.Loadable 78 index →
        ¬ ready.memory.Loadable 78 (index + 1) → index = 2 := by decide +kernel
    cases only index small before here
    exact failed

end Machine

end ZMachine
