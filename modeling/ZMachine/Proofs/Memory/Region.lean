import Mathlib.Order.Interval.Set.Basic
import ZMachine.Proofs.Memory.Holding
import ZMachine.Proofs.Memory.Touch

/-!
# Regions of memory

A region is a set of addresses. `Memory.Confined` says where an action writes: the bytes outside a
region stay as they are, even if the action fails half way. `Memory.Repeats` says what an action
depends on: in another memory with the same bytes in a region it succeeds in the same way. An action
that is both confined to a region and repeated by it does not notice stores elsewhere.
-/

namespace ZMachine

namespace Memory

/-- Two regions have no address in common. -/
def Apart (first second : Set Nat) : Prop :=
  ∀ address ∈ first, address ∉ second

theorem Apart.symm {first second : Set Nat} (apart : Apart first second) : Apart second first :=
  fun address inside other => apart address other inside

theorem Apart.subset_compl {first second : Set Nat} (apart : Apart first second) :
    second ⊆ firstᶜ :=
  apart.symm

/-- Of the bytes of the two memories at most those in a region differ. -/
def Confined (region : Set Nat) (before after : Memory) : Prop :=
  ∀ address, address ∉ region → after.bytes.byteAt address = before.bytes.byteAt address

instance (region : Set Nat) : IsPreorder Memory (Confined region) where
  refl := fun _ _ _ => rfl
  trans := fun _ _ _ earlier later address outside =>
    (later address outside).trans (earlier address outside)

theorem Confined.refl (region : Set Nat) (memory : Memory) : Confined region memory memory :=
  fun _ _ => rfl

theorem Confined.mono {small large : Set Nat} {before after : Memory}
    (confined : Confined small before after) (included : small ⊆ large) :
    Confined large before after :=
  fun address outside => confined address fun inside => outside (included inside)

variable {region : Set Nat}

theorem confined_inspect {α : Type} (query : Memory → Except Fault α) :
    Keeps (Confined region) (inspect query) := by
  intro memory
  rw [stateAfter_inspect]
  exact Confined.refl region memory

/-- Of an action that begins in a certain memory, the first part has to stay in the region there, and
the rest anywhere. -/
theorem confined_bind {α β : Type} {memory : Memory} {action : MemoryM α} {next : α → MemoryM β}
    (first : Confined region memory (stateAfter action memory))
    (rest : ∀ value, Keeps (Confined region) (next value)) :
    Confined region memory (stateAfter (action >>= next) memory) := by
  cases run : action memory with
  | ok value middle =>
      rw [stateAfter_of_ok run] at first
      rw [stateAfter, bind_of_ok run]
      exact trans_of (Confined region) first (rest value middle)
  | error fault middle =>
      rw [stateAfter, bind_of_error run, ← stateAfter_of_error run]
      exact first

theorem confined_query {α β : Type} {memory : Memory} {query : Memory → Except Fault α}
    {next : α → MemoryM β}
    (rest : ∀ value, query memory = .ok value →
      Confined region memory (stateAfter (next value) memory)) :
    Confined region memory (stateAfter (inspect query >>= next) memory) := by
  cases found : query memory with
  | ok value =>
      have read : inspect query memory = .ok value memory := by rw [inspect, found]
      rw [stateAfter, bind_of_ok read]
      exact rest value found
  | error fault =>
      have unread : inspect query memory = .error fault memory := by rw [inspect, found]
      rw [stateAfter, bind_of_error unread]
      exact Confined.refl region memory

theorem confined_writeByte {address : Nat} (inside : address ∈ region) (value : UInt8) :
    Keeps (Confined region) (writeByte address value) := by
  intro memory other outside
  unfold stateAfter writeByte
  have different : address ≠ other := by
    rintro rfl
    exact outside inside
  by_cases static : memory.header.staticBase ≤ address
  · rw [if_pos static]
  · rw [if_neg static]
    exact Image.byteAt_setByte_of_ne different _ _

theorem confined_writeWord {address : Nat} (first : address ∈ region)
    (second : address + 1 ∈ region) (value : UInt16) :
    Keeps (Confined region) (writeWord address value) := by
  intro memory other outside
  unfold stateAfter writeWord
  have notFirst : address ≠ other := by
    rintro rfl
    exact outside first
  have notSecond : address + 1 ≠ other := by
    rintro rfl
    exact outside second
  by_cases static : memory.header.staticBase ≤ address + 1
  · rw [if_pos static]
  · rw [if_neg static]
    exact Image.byteAt_setWord_of_ne notFirst notSecond _ _

theorem confined_writeBytes (address : Nat) (values : List UInt8) :
    Keeps (Confined (Set.Ico address (address + values.length))) (writeBytes address values) := by
  induction values generalizing address with
  | nil => exact Keeps.pure ()
  | cons value values ih =>
      have first : address ∈ Set.Ico address (address + (value :: values).length) := by
        simp
      refine (confined_writeByte first value).bind fun _ => (ih (address + 1)).mono ?_
      intro before after confined
      refine confined.mono fun place inside => ?_
      simp only [Set.mem_Ico, List.length_cons] at inside ⊢
      omega

variable {memory before after : Memory} {address : Nat}

theorem inspect_eq_ok {α : Type} {query : Memory → Except Fault α} {value : α} :
    inspect query memory = .ok value after ↔ query memory = .ok value ∧ after = memory := by
  unfold inspect
  cases query memory with
  | ok found =>
      simp only [EStateM.Result.ok.injEq, Except.ok.injEq]
      exact and_congr_right fun _ => eq_comm
  | error fault => simp

theorem inspect_eq_error {α : Type} {query : Memory → Except Fault α} {fault : Fault} :
    inspect query memory = .error fault after ↔ query memory = .error fault ∧ after = memory := by
  unfold inspect
  cases query memory with
  | ok found => simp
  | error reason =>
      simp only [EStateM.Result.error.injEq, Except.error.injEq]
      exact and_congr_right fun _ => eq_comm

theorem readByte_eq_ok {byte : UInt8} :
    memory.readByte address = .ok byte ↔
      address < memory.header.highBase ∧ address < memory.bytes.size ∧
        memory.bytes.byteAt address = byte := by
  unfold readByte
  split
  · simp only [reduceCtorEq, false_iff]
    omega
  · rw [Except.ok.injEq]
    exact ⟨fun same => ⟨by omega, by omega, same⟩, fun found => found.2.2⟩

theorem readWord_eq_ok {word : UInt16} :
    memory.readWord address = .ok word ↔
      address + 1 < memory.header.highBase ∧ address + 1 < memory.bytes.size ∧
        memory.bytes.wordAt address = word := by
  unfold readWord
  split
  · simp only [reduceCtorEq, false_iff]
    omega
  · rw [Except.ok.injEq]
    exact ⟨fun same => ⟨by omega, by omega, same⟩, fun found => found.2.2⟩

theorem writeByte_eq_ok {value : UInt8} :
    writeByte address value memory = .ok () after ↔
      address < memory.header.staticBase ∧
        after = { memory with bytes := memory.bytes.setByte address value } := by
  unfold writeByte
  by_cases static : memory.header.staticBase ≤ address
  · rw [if_pos static]
    constructor
    · intro impossible
      cases impossible
    · rintro ⟨dynamic, _⟩
      omega
  · rw [if_neg static]
    constructor
    · intro success
      cases success
      exact ⟨by omega, rfl⟩
    · rintro ⟨_, rfl⟩
      rfl

theorem writeWord_eq_ok {value : UInt16} :
    writeWord address value memory = .ok () after ↔
      address + 1 < memory.header.staticBase ∧
        after = { memory with bytes := memory.bytes.setWord address value } := by
  unfold writeWord
  by_cases static : memory.header.staticBase ≤ address + 1
  · rw [if_pos static]
    constructor
    · intro impossible
      cases impossible
    · rintro ⟨dynamic, _⟩
      omega
  · rw [if_neg static]
    constructor
    · intro success
      cases success
      exact ⟨by omega, rfl⟩
    · rintro ⟨_, rfl⟩
      rfl

theorem eq_of_writeByte_error {value : UInt8} {fault : Fault}
    (refused : writeByte address value memory = .error fault after) : after = memory := by
  unfold writeByte at refused
  split at refused
  · cases refused
    rfl
  · cases refused

/-- Storing a word stores both of its bytes or none. -/
theorem eq_of_writeWord_error {value : UInt16} {fault : Fault}
    (refused : writeWord address value memory = .error fault after) : after = memory := by
  unfold writeWord at refused
  split at refused
  · cases refused
    rfl
  · cases refused

theorem held_of_byteAt {byte : UInt8} (inside : address < memory.bytes.size)
    (value : memory.bytes.byteAt address = byte) : memory.bytes[address]? = some byte := by
  simp only [Image.byteAt, Array.getElem?_eq_getElem inside, Option.getD_some] at value
  rw [Array.getElem?_eq_getElem inside, value]

/-- What is held in memory stays there if the bytes that hold it do. -/
theorem Holds.of_same {bytes : List UInt8} (holds : before.Holds address bytes)
    (size : after.bytes.size = before.bytes.size)
    (same : ∀ place, address ≤ place → place < address + bytes.length →
      after.bytes.byteAt place = before.bytes.byteAt place) : after.Holds address bytes := by
  intro index byte found
  rcases byteAt_of_held (holds index byte found) with ⟨inside, value⟩
  have short := (List.getElem?_eq_some_iff.mp found).1
  apply held_of_byteAt (by omega)
  rw [same (address + index) (by omega) (by omega), value]

theorem Holds.writeByte {bytes : List UInt8} {place : Nat} {value : UInt8}
    (holds : before.Holds address bytes)
    (beside : place < address ∨ address + bytes.length ≤ place)
    (success : Memory.writeByte place value before = .ok () after) :
    after.Holds address bytes := by
  rcases writeByte_eq_ok.mp success with ⟨_, rfl⟩
  refine holds.of_same (by simp) fun other first last => ?_
  exact Image.byteAt_setByte_of_ne (by omega) _ _

theorem held_of_writeByte {value : UInt8}
    (mapped : memory.header.staticBase ≤ memory.bytes.size)
    (success : writeByte address value memory = .ok () after) :
    after.bytes[address]? = some value := by
  rcases writeByte_eq_ok.mp success with ⟨dynamic, rfl⟩
  have inside : address < memory.bytes.size := by omega
  apply held_of_byteAt
  · rwa [Image.size_setByte]
  · exact Image.byteAt_setByte inside value

theorem holds_writeBytes {values : List UInt8}
    (mapped : memory.header.staticBase ≤ memory.bytes.size)
    (success : writeBytes address values memory = .ok () after) : after.Holds address values := by
  induction values generalizing address memory with
  | nil =>
      intro index byte found
      cases found
  | cons value values ih =>
      rcases bind_eq_ok.mp success with ⟨_, middle, first, rest⟩
      rcases byteAt_of_held (held_of_writeByte mapped first) with ⟨inside, stored⟩
      have wrote := (writes_writeByte address value).of_ok first
      refine holds_cons.mpr ⟨?_, ih (by rwa [wrote.header, wrote.size]) rest⟩
      have kept := (confined_writeBytes (address + 1) values).of_ok rest address (by simp)
      have size := ((writes_writeBytes (address + 1) values).of_ok rest).size
      exact held_of_byteAt (by omega) (kept.trans stored)

/-- Bytes can be stored if they fit into dynamic memory. -/
theorem writeBytes_succeeds {values : List UInt8} :
    (∃ after, writeBytes address values memory = .ok () after) ↔
      values = [] ∨ address + values.length ≤ memory.header.staticBase := by
  induction values generalizing address memory with
  | nil => exact ⟨fun _ => Or.inl rfl, fun _ => ⟨memory, rfl⟩⟩
  | cons value values ih =>
      simp only [List.length_cons, reduceCtorEq, false_or]
      constructor
      · rintro ⟨after, success⟩
        rcases bind_eq_ok.mp success with ⟨_, middle, first, rest⟩
        rcases writeByte_eq_ok.mp first with ⟨dynamic, rfl⟩
        rcases ih.mp ⟨after, rest⟩ with rfl | fits
        · exact dynamic
        · simp only at fits
          omega
      · intro fits
        have first : writeByte address value memory =
            .ok () { memory with bytes := memory.bytes.setByte address value } :=
          writeByte_eq_ok.mpr ⟨by omega, rfl⟩
        have behind : ∃ after, writeBytes (address + 1) values
            { memory with bytes := memory.bytes.setByte address value } = .ok () after :=
          ih.mpr (Or.inr (by simp only; omega))
        rcases behind with ⟨after, rest⟩
        exact ⟨after, bind_eq_ok.mpr ⟨(), _, first, rest⟩⟩

/-- The memories belong to stories of the same layout and have the same bytes in a region. -/
structure SameIn (region : Set Nat) (first second : Memory) : Prop where
  header : second.header = first.header
  size : second.bytes.size = first.bytes.size
  bytes : ∀ address, address ∈ region →
    second.bytes.byteAt address = first.bytes.byteAt address

/-- Where the action succeeds, it succeeds with the same value in every memory that has the same
bytes in the region, and the bytes there are the same afterwards. -/
def Repeats (region : Set Nat) {α : Type} (action : MemoryM α) : Prop :=
  ∀ ⦃first second after : Memory⦄ ⦃value : α⦄, SameIn region first second →
    action first = .ok value after → ∃ other, action second = .ok value other ∧
      SameIn region after other

theorem SameIn.mono {small large : Set Nat} {first second : Memory}
    (same : SameIn large first second) (included : small ⊆ large) : SameIn small first second :=
  ⟨same.header, same.size, fun address inside => same.bytes address (included inside)⟩

theorem SameIn.setByte {first second : Memory} (same : SameIn region first second) (place : Nat)
    (value : UInt8) :
    SameIn region { first with bytes := first.bytes.setByte place value }
      { second with bytes := second.bytes.setByte place value } := by
  refine ⟨same.header, by simpa using same.size, ?_⟩
  intro other inside
  exact Image.byteAt_setByte_congr same.size (same.bytes other inside) place value

theorem repeats_pure {α : Type} (value : α) : Repeats region (pure value : MemoryM α) := by
  intro first second after found same success
  cases success
  exact ⟨second, rfl, same⟩

theorem repeats_inspect {α : Type} {query : Memory → Except Fault α}
    (answered : ∀ {first second}, SameIn region first second → query second = query first) :
    Repeats region (inspect query) := by
  intro first second after value same success
  unfold inspect at success ⊢
  rw [answered same]
  cases found : query first with
  | error fault =>
      rw [found] at success
      cases success
  | ok value =>
      rw [found] at success
      cases success
      exact ⟨second, rfl, same⟩

theorem repeats_bind {α β : Type} {action : MemoryM α} {next : α → MemoryM β}
    (begins : Repeats region action) (rest : ∀ value, Repeats region (next value)) :
    Repeats region (action >>= next) := by
  intro first second after value same success
  rcases bind_eq_ok.mp success with ⟨found, middle, begun, ended⟩
  rcases begins same begun with ⟨otherMiddle, otherBegun, sameMiddle⟩
  rcases rest found sameMiddle ended with ⟨other, otherEnded, sameAfter⟩
  exact ⟨other, bind_eq_ok.mpr ⟨found, otherMiddle, otherBegun, otherEnded⟩, sameAfter⟩

theorem repeats_ite {α : Type} {condition : Prop} [Decidable condition] {first second : MemoryM α}
    (holds : Repeats region first) (fails : Repeats region second) :
    Repeats region (if condition then first else second) := by
  split
  · exact holds
  · exact fails

theorem repeats_writeByte (address : Nat) (value : UInt8) :
    Repeats region (writeByte address value) := by
  intro first second after found same success
  rcases writeByte_eq_ok.mp success with ⟨dynamic, rfl⟩
  exact ⟨_, writeByte_eq_ok.mpr ⟨same.header ▸ dynamic, rfl⟩, same.setByte address value⟩

theorem repeats_writeWord (address : Nat) (value : UInt16) :
    Repeats region (writeWord address value) := by
  intro first second after found same success
  rcases writeWord_eq_ok.mp success with ⟨dynamic, rfl⟩
  refine ⟨_, writeWord_eq_ok.mpr ⟨same.header ▸ dynamic, rfl⟩, ?_⟩
  exact (same.setByte address (Word.high value)).setByte (address + 1) (Word.low value)

namespace SameIn

variable {first second : Memory} (same : SameIn region first second)

include same

theorem readByte (inside : address ∈ region) :
    second.readByte address = first.readByte address := by
  unfold Memory.readByte
  rw [same.header, same.size, same.bytes address inside]

theorem fetchByte (inside : address ∈ region) :
    second.fetchByte address = first.fetchByte address := by
  unfold Memory.fetchByte
  rw [same.size, same.bytes address inside]

theorem fetchWord (high : address ∈ region) (low : address + 1 ∈ region) :
    second.fetchWord address = first.fetchWord address := by
  unfold Memory.fetchWord Image.wordAt
  rw [same.size, same.bytes address high, same.bytes (address + 1) low]

theorem fetchBytes {count : Nat} (inside : Set.Ico address (address + count) ⊆ region) :
    second.fetchBytes address count = first.fetchBytes address count := by
  have bytes : second.bytes.extract address (address + count) =
      first.bytes.extract address (address + count) := by
    apply Array.ext
    · simp only [Array.size_extract, same.size]
    · intro index inSecond inFirst
      simp only [Array.size_extract] at inSecond inFirst
      have byte := same.bytes (address + index) (inside ⟨by omega, by omega⟩)
      simp only [Image.byteAt] at byte
      rw [Array.getElem?_eq_getElem (by omega), Array.getElem?_eq_getElem (by omega)] at byte
      simpa using byte
  unfold Memory.fetchBytes
  rw [same.size, bytes]

end SameIn

end Memory

end ZMachine
