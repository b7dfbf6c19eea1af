import ZMachine.Dictionary.Lookup
import ZMachine.Proofs.Memory.Region
import ZMachine.Proofs.Zscii.Packing

/-!
# Searching a dictionary

A search compares the entries one after the other with a packed word. `Dictionary.Finds` says what
such a search has to answer: the first entry that begins with the word, or nothing, or a fault if the
file ends in the middle of a comparison. A search depends on the size of the file and on the bytes of
the entries, and on nothing else.
-/

namespace ZMachine

theorem Codec.length_encode (codec : Codec) (text : String) :
    (codec.encode text).length = if codec.version ≤ 3 then 2 else 3 := by
  have fits : ∀ length codes, (fitted length codes).length = length := by
    intro length codes
    simp only [fitted, List.length_append, List.length_take, List.length_replicate]
    omega
  rw [encode, length_packCodes, fits, resolution]
  split <;> rfl

namespace Dictionary

/-- The file has the packed words at an address. -/
def Begins (memory : Memory) (address : Nat) (packed : List UInt16) : Prop :=
  ∀ index word, packed[index]? = some word →
    address + 2 * index + 2 ≤ memory.bytes.size ∧ memory.bytes.wordAt (address + 2 * index) = word

/-- The file ends before a word at an address turns out to differ from the packed words. -/
def RunsOut (memory : Memory) (address : Nat) (packed : List UInt16) : Prop :=
  ∃ shared word rest, packed = shared ++ word :: rest ∧ Begins memory address shared ∧
    memory.bytes.size < address + 2 * shared.length + 2

/-- The entry at an address is another one. -/
def Passes (memory : Memory) (address : Nat) (packed : List UInt16) : Prop :=
  ¬Begins memory address packed ∧ ¬RunsOut memory address packed

/-- The answer of a search among `count` entries, whose addresses are given by their numbers: the
address of the first entry that begins with the packed words, or none. The search fails only if the
file ends before that. -/
inductive Finds (memory : Memory) (packed : List UInt16) (place : Nat → Nat) (count : Nat) :
    Except Fault (Option Nat) → Prop where
  | entry {index : Nat} (inside : index < count)
      (earlier : ∀ other < index, Passes memory (place other) packed)
      (begins : Begins memory (place index) packed) :
      Finds memory packed place count (.ok (some (place index)))
  | missing (all : ∀ index < count, Passes memory (place index) packed) :
      Finds memory packed place count (.ok none)
  | runsOut {index : Nat} {fault : Fault} (inside : index < count)
      (earlier : ∀ other < index, Passes memory (place other) packed)
      (ends : RunsOut memory (place index) packed) :
      Finds memory packed place count (.error fault)

section Comparison

variable {memory : Memory} {address : Nat} {word : UInt16} {words : List UInt16}

theorem begins_nil (memory : Memory) (address : Nat) : Begins memory address [] := by
  intro index word found
  cases found

theorem begins_cons : Begins memory address (word :: words) ↔
    (address + 2 ≤ memory.bytes.size ∧ memory.bytes.wordAt address = word) ∧
      Begins memory (address + 2) words := by
  constructor
  · intro begins
    refine ⟨begins 0 word rfl, ?_⟩
    intro index other found
    have next := begins (index + 1) other found
    rwa [show address + 2 * (index + 1) = address + 2 + 2 * index by omega] at next
  · rintro ⟨first, rest⟩ index other found
    cases index with
    | zero =>
        cases found
        exact first
    | succ index =>
        have next := rest index other found
        rwa [show address + 2 + 2 * index = address + 2 * (index + 1) by omega] at next

theorem runsOut_cons (fits : address + 2 ≤ memory.bytes.size) :
    RunsOut memory address (word :: words) ↔
      memory.bytes.wordAt address = word ∧ RunsOut memory (address + 2) words := by
  constructor
  · rintro ⟨shared, other, rest, split, begins, ends⟩
    cases shared with
    | nil =>
        simp only [List.length_nil] at ends
        omega
    | cons first shared =>
        rw [List.cons_append, List.cons.injEq] at split
        rcases split with ⟨rfl, split⟩
        rcases begins_cons.mp begins with ⟨same, begins⟩
        refine ⟨same.2, shared, other, rest, split, begins, ?_⟩
        rw [List.length_cons] at ends
        omega
  · rintro ⟨same, shared, other, rest, split, begins, ends⟩
    refine ⟨word :: shared, other, rest, ?_, begins_cons.mpr ⟨⟨fits, same⟩, begins⟩, ?_⟩
    · rw [split, List.cons_append]
    · rw [List.length_cons]
      omega

/-- Comparing word by word tells the three cases apart. -/
theorem wordsAt_cases (memory : Memory) (address : Nat) (packed : List UInt16) :
    match wordsAt memory address packed with
    | .ok true => Begins memory address packed
    | .ok false => Passes memory address packed
    | .error _ => RunsOut memory address packed := by
  induction packed generalizing address with
  | nil => exact begins_nil memory address
  | cons word words ih =>
      unfold wordsAt Memory.fetchWord
      by_cases short : memory.bytes.size < address + 2
      · rw [if_pos short]
        exact ⟨[], word, words, rfl, begins_nil memory address, short⟩
      · rw [if_neg short]
        have fits : address + 2 ≤ memory.bytes.size := Nat.not_lt.mp short
        dsimp only
        by_cases same : memory.bytes.wordAt address = word
        · rw [if_pos same]
          have rest := ih (address + 2)
          cases compared : wordsAt memory (address + 2) words with
          | error fault =>
              rw [compared] at rest
              exact (runsOut_cons fits).mpr ⟨same, rest⟩
          | ok equal =>
              rw [compared] at rest
              cases equal with
              | true => exact begins_cons.mpr ⟨⟨fits, same⟩, rest⟩
              | false =>
                  refine ⟨fun begins => rest.1 (begins_cons.mp begins).2, ?_⟩
                  exact fun ends => rest.2 ((runsOut_cons fits).mp ends).2
        · rw [if_neg same]
          refine ⟨fun begins => same (begins_cons.mp begins).1.2, ?_⟩
          exact fun ends => same ((runsOut_cons fits).mp ends).1

end Comparison

section Search

variable {memory : Memory} {packed : List UInt16} {place : Nat → Nat} {count : Nat}
  {found : Except Fault (Option Nat)}

/-- If the first entry is another one, the search goes on among the others. -/
theorem Finds.behind (passes : Passes memory (place 0) packed)
    (finds : Finds memory packed (fun index => place (index + 1)) count found) :
    Finds memory packed place (count + 1) found := by
  have earlier : ∀ {index}, (∀ other < index, Passes memory (place (other + 1)) packed) →
      ∀ other < index + 1, Passes memory (place other) packed := by
    intro index others other before
    cases other with
    | zero => exact passes
    | succ other => exact others other (by omega)
  cases finds with
  | @entry index inside others begins =>
      have later : index + 1 < count + 1 := by omega
      exact .entry later (earlier others) begins
  | missing all => exact .missing (earlier all)
  | @runsOut index _ inside others ends => exact .runsOut (by omega) (earlier others) ends

theorem finds_scan (memory : Memory) (packed : List UInt16) (entryLength count entry : Nat) :
    Finds memory packed (fun index => entry + index * entryLength) count
      (scan memory packed entryLength count entry) := by
  induction count generalizing entry with
  | zero => exact .missing fun index inside => absurd inside (Nat.not_lt_zero index)
  | succ count ih =>
      have first : entry + 0 * entryLength = entry := by omega
      have none : ∀ other < 0, Passes memory (entry + other * entryLength) packed :=
        fun other before => absurd before (Nat.not_lt_zero other)
      have compared := wordsAt_cases memory entry packed
      unfold scan
      cases run : wordsAt memory entry packed with
      | error fault =>
          rw [run, ← first] at compared
          exact .runsOut (Nat.succ_pos count) none compared
      | ok equal =>
          rw [run] at compared
          cases equal with
          | true =>
              rw [← first] at compared
              have finds := Finds.entry (Nat.succ_pos count) none compared
              rwa [first] at finds
          | false =>
              refine Finds.behind (by rwa [first]) ?_
              have others : (fun index => entry + (index + 1) * entryLength) =
                  fun index => entry + entryLength + index * entryLength := by
                funext index
                rw [Nat.succ_mul]
                omega
              rw [others]
              exact ih (entry + entryLength)

/-- A search gives the address of the first entry of a word, as long as addresses of entries are
words. -/
theorem finds_search (dictionary : Dictionary) (memory : Memory) (codec : Codec) (word : String)
    (addressed : ∀ index < dictionary.size, dictionary.entryAddress index < 65536) :
    ∃ found, Finds memory (codec.encode word) dictionary.entryAddress dictionary.size found ∧
      (dictionary.search memory codec word).map UInt16.toNat = found.map (·.getD 0) := by
  have finds := finds_scan memory (codec.encode word) dictionary.entryLength dictionary.size
    dictionary.entries
  refine ⟨_, finds, ?_⟩
  unfold search
  generalize scan memory (codec.encode word) dictionary.entryLength dictionary.size
    dictionary.entries = found at finds
  cases finds with
  | @entry index inside _ _ =>
      have small := addressed index inside
      have whole : (UInt16.ofNat (dictionary.entryAddress index)).toNat =
          dictionary.entryAddress index := by
        rw [UInt16.toNat_ofNat']
        exact Nat.mod_eq_of_lt small
      exact congrArg Except.ok whole
  | missing _ => rfl
  | runsOut _ _ _ => rfl

end Search

/-- Where a search looks: at the packed word that each entry begins with, however short the entries
are said to be. -/
def searched (dictionary : Dictionary) : Set Nat :=
  { address | ∃ index < dictionary.size,
    address ∈ Set.Ico (dictionary.entryAddress index) (dictionary.entryAddress index + 6) }

section Dependence

variable {region : Set Nat} {first second : Memory}

theorem wordsAt_of_same (same : first.SameIn region second) {address : Nat} {packed : List UInt16}
    (inside : Set.Ico address (address + 2 * packed.length) ⊆ region) :
    wordsAt second address packed = wordsAt first address packed := by
  induction packed generalizing address with
  | nil => rfl
  | cons word words ih =>
      simp only [List.length_cons] at inside
      have high : address ∈ region := inside ⟨by omega, by omega⟩
      have low : address + 1 ∈ region := inside ⟨by omega, by omega⟩
      have rest : Set.Ico (address + 2) (address + 2 + 2 * words.length) ⊆ region := by
        intro place within
        exact inside ⟨by have := within.1; omega, by have := within.2; omega⟩
      unfold wordsAt
      rw [same.fetchWord high low, ih rest]

theorem scan_of_same (same : first.SameIn region second) {packed : List UInt16}
    {entryLength count entry : Nat}
    (inside : ∀ index < count, Set.Ico (entry + index * entryLength)
      (entry + index * entryLength + 2 * packed.length) ⊆ region) :
    scan second packed entryLength count entry = scan first packed entryLength count entry := by
  induction count generalizing entry with
  | zero => rfl
  | succ count ih =>
      have here := inside 0 (Nat.succ_pos count)
      rw [Nat.zero_mul, Nat.add_zero] at here
      have rest : ∀ index < count, Set.Ico (entry + entryLength + index * entryLength)
          (entry + entryLength + index * entryLength + 2 * packed.length) ⊆ region := by
        intro index before
        have next := inside (index + 1) (by omega)
        rwa [Nat.succ_mul, Nat.add_comm (index * entryLength), ← Nat.add_assoc] at next
      unfold scan
      rw [wordsAt_of_same same here, ih rest]

theorem search_of_same {dictionary : Dictionary}
    (same : first.SameIn dictionary.searched second) (codec : Codec) (word : String) :
    dictionary.search second codec word = dictionary.search first codec word := by
  have short : (codec.encode word).length ≤ 3 := by
    rw [codec.length_encode]
    split <;> omega
  have inside : ∀ index < dictionary.size,
      Set.Ico (dictionary.entries + index * dictionary.entryLength)
        (dictionary.entries + index * dictionary.entryLength + 2 * (codec.encode word).length) ⊆
          dictionary.searched := by
    intro index before address within
    refine ⟨index, before, within.1, ?_⟩
    have := within.2
    simp only [entryAddress]
    omega
  unfold search
  rw [scan_of_same same inside]

end Dependence

end Dictionary

end ZMachine
