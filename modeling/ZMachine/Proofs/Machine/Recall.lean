import ZMachine.Proofs.Dictionary.Search
import ZMachine.Proofs.Machine.LineInput
import ZMachine.Proofs.Memory.Protection

/-!
# The remembered word

A dictionary remembers the answer for the word that was looked up last. While the story runs, other
instructions come between the lookups, games are restored and the story is restarted. Yet if the
dictionary lies in static memory, a remembered answer stays right: the entries cannot change, the
codec is always the one of the loaded story, and a dictionary that is read anew remembers nothing.
So a lookup answers as a search would, whatever was looked up before.
-/

namespace ZMachine

theorem Codec.version_ofMemory {memory : Memory} {codec : Codec}
    (read : Codec.ofMemory memory = .ok codec) : codec.version = memory.version := by
  have spelled : ∀ {first : Codec}, first.version = memory.version →
      (if 5 ≤ memory.version ∧ memory.header.alphabetTable ≠ 0 then
        first.withAlphabets memory memory.header.alphabetTable
      else pure first) = .ok codec → codec.version = memory.version := by
    intro first same rest
    split at rest
    · rcases query_bind_eq_ok.mp rest with ⟨codes, _, found⟩
      cases found
      exact same
    · cases rest
      exact same
  unfold ofMemory at read
  dsimp only at read
  split at read
  · exact spelled rfl read
  · rcases query_bind_eq_ok.mp read with ⟨unicode, _, rest⟩
    exact spelled rfl rest

namespace Dictionary

section Reading

variable {first second : Memory} {dictionary : Dictionary} {address : Nat}

/-- A dictionary that has just been read remembers nothing, and its entries come after its address. -/
theorem of_read (found : read first address = .ok dictionary) :
    dictionary.memo = none ∧ dictionary.address = address ∧ address ≤ dictionary.entries := by
  rcases query_bind_eq_ok.mp found with ⟨count, _, found⟩
  rcases query_bind_eq_ok.mp found with ⟨separators, _, found⟩
  rcases query_bind_eq_ok.mp found with ⟨entryLength, _, found⟩
  rcases query_bind_eq_ok.mp found with ⟨entryCount, _, found⟩
  cases found
  exact ⟨rfl, rfl, by dsimp only; omega⟩

theorem of_ofMemory (found : ofMemory? first = .ok (some dictionary)) :
    first.header.dictionary ≠ 0 ∧ read first first.header.dictionary = .ok dictionary := by
  unfold ofMemory? at found
  split at found
  · cases found
  · rename_i named
    refine ⟨named, ?_⟩
    cases run : read first first.header.dictionary with
    | error fault =>
        rw [run] at found
        cases found
    | ok other =>
        rw [run] at found
        cases found
        rfl

/-- A dictionary is the same wherever the bytes before its entries are. -/
theorem read_of_same (found : read first address = .ok dictionary)
    (same : first.SameIn (Set.Ico address dictionary.entries) second) :
    read second address = .ok dictionary := by
  rcases query_bind_eq_ok.mp found with ⟨count, counted, found⟩
  rcases query_bind_eq_ok.mp found with ⟨separators, listed, found⟩
  rcases query_bind_eq_ok.mp found with ⟨entryLength, measured, found⟩
  rcases query_bind_eq_ok.mp found with ⟨entryCount, numbered, found⟩
  have ends : dictionary.entries = address + 1 + count.toNat + 3 := by
    cases found
    rfl
  have within : ∀ {place}, address ≤ place → place < address + 1 + count.toNat + 3 →
      place ∈ Set.Ico address dictionary.entries := by
    intro place behind before
    exact ⟨behind, ends ▸ before⟩
  have between : Set.Ico (address + 1) (address + 1 + count.toNat) ⊆
      Set.Ico address dictionary.entries := by
    rintro place ⟨behind, before⟩
    exact within (by omega) (by omega)
  rw [← same.fetchByte (within (by omega) (by omega))] at counted measured
  rw [← same.fetchBytes between] at listed
  rw [← same.fetchWord (within (by omega) (by omega)) (within (by omega) (by omega))] at numbered
  refine query_bind_eq_ok.mpr ⟨count, counted, query_bind_eq_ok.mpr ⟨separators, listed, ?_⟩⟩
  exact query_bind_eq_ok.mpr ⟨entryLength, measured, query_bind_eq_ok.mpr ⟨entryCount, numbered,
    found⟩⟩

/-- The same dictionary is read from another memory of the story that has the same bytes before its
entries. -/
theorem ofMemory_of_same (found : ofMemory? first = .ok (some dictionary))
    (same : first.SameIn (Set.Ico dictionary.address dictionary.entries) second) :
    ofMemory? second = .ok (some dictionary) := by
  rcases of_ofMemory found with ⟨named, found⟩
  rcases of_read found with ⟨_, address, _⟩
  rw [address] at same
  rw [ofMemory?, same.header, if_neg named, read_of_same found same]
  rfl

end Reading

/-- The main dictionary of a loaded story, in static memory. -/
structure Fixed (story : Memory) (main : Dictionary) : Prop where
  mapped : story.Mapped
  read : ofMemory? story = .ok (some main)
  static : story.header.staticBase ≤ main.address

namespace Fixed

variable {story memory : Memory} {main : Dictionary}

theorem entries (fixed : main.Fixed story) : story.header.staticBase ≤ main.entries := by
  rcases of_read (of_ofMemory fixed.read).2 with ⟨_, address, behind⟩
  have := fixed.static
  omega

theorem forgets (fixed : main.Fixed story) : main.memo = none :=
  (of_read (of_ofMemory fixed.read).2).1

/-- As long as the story lasts, the same dictionary is read from it. -/
theorem ofMemory (fixed : main.Fixed story) (protects : story.Protects memory) :
    ofMemory? memory = .ok (some main) := by
  refine ofMemory_of_same fixed.read ⟨protects.header, protects.size, ?_⟩
  rintro address ⟨behind, _⟩
  exact protects.fixed address (Nat.le_trans fixed.static behind)

theorem search (fixed : main.Fixed story) (protects : story.Protects memory) (codec : Codec)
    (word : String) : main.search memory codec word = main.search story codec word := by
  refine search_of_same ⟨protects.header, protects.size, ?_⟩ codec word
  rintro address ⟨index, _, behind, _⟩
  apply protects.fixed
  have := fixed.entries
  simp only [entryAddress] at behind
  omega

end Fixed

/-- The answer of a lookup, without what is remembered of it. -/
def answer (dictionary : Dictionary) (memory : Memory) (codec : Codec) (word : String) :
    Except Fault UInt16 :=
  match lookup memory codec word dictionary with
  | .ok address _ => .ok address
  | .error fault _ => .error fault

/-- The dictionary after words have been looked up one after the other. -/
def afterWords (dictionary : Dictionary) (memory : Memory) (codec : Codec) (words : List String) :
    Dictionary :=
  words.foldl (fun current word => stateAfter (lookup memory codec word) current) dictionary

/-- The current dictionary is the main one, and an answer that it remembers is the one that the story
gives. -/
structure Recalls (story : Memory) (codec : Codec) (main current : Dictionary) : Prop where
  words : current.forget = main.forget
  right : ∀ word address, current.memo = some (word, address) →
    main.search story codec word = .ok address

theorem search_of_forget {first second : Dictionary} (same : second.forget = first.forget)
    (memory : Memory) (codec : Codec) (word : String) :
    second.search memory codec word = first.search memory codec word := by
  have forgotten : ∀ dictionary : Dictionary,
      dictionary.search memory codec word = dictionary.forget.search memory codec word :=
    fun _ => rfl
  rw [forgotten, same, ← forgotten]

section Recalling

variable {story memory : Memory} {codec : Codec} {main current later : Dictionary}

/-- The dictionary of the loaded story remembers nothing yet. -/
theorem Recalls.of_fixed (fixed : main.Fixed story) : Recalls story codec main main := by
  refine ⟨rfl, ?_⟩
  intro word address remembers
  rw [fixed.forgets] at remembers
  cases remembers

theorem Recalls.of_consults (recalls : Recalls story codec main current)
    (consults : current.Consults memory codec later)
    (same : ∀ word, main.search memory codec word = main.search story codec word) :
    Recalls story codec main later := by
  rcases consults with rfl | ⟨word, address, found, rfl⟩
  · exact recalls
  · refine ⟨recalls.words, ?_⟩
    intro last remembered remembers
    cases remembers
    rw [← same, ← search_of_forget recalls.words, found]

/-- A lookup gives the answer of a search, whether it is remembered or not. -/
theorem Recalls.answer (recalls : Recalls story codec main current)
    (same : ∀ word, main.search memory codec word = main.search story codec word)
    (word : String) : current.answer memory codec word = main.search memory codec word := by
  unfold Dictionary.answer lookup remembered?
  have searched := search_of_forget recalls.words memory codec word
  cases remembers : current.memo with
  | none =>
      dsimp only
      rw [searched]
      cases main.search memory codec word <;> rfl
  | some last =>
      rcases last with ⟨last, address⟩
      dsimp only
      by_cases again : last = word
      · rw [if_pos again, same, ← again, recalls.right last address remembers]
      · rw [if_neg again]
        dsimp only
        rw [searched]
        cases main.search memory codec word <;> rfl

theorem Recalls.afterWords (recalls : Recalls story codec main current)
    (same : ∀ word, main.search memory codec word = main.search story codec word)
    (words : List String) : Recalls story codec main (current.afterWords memory codec words) := by
  induction words generalizing current with
  | nil => exact recalls
  | cons word words ih =>
      have looked := consults_lookup memory codec word current
      exact ih (recalls.of_consults looked same)

end Recalling

end Dictionary

namespace Machine

variable {η : Type}

/-- The machine runs the story that was loaded, with its codec, and what its dictionary remembers is
right. -/
structure Recalls (story : Memory) (codec : Codec) (main : Dictionary) (machine : Machine η) : Prop
    where
  memory : story.Protects machine.memory
  dictionary : ∃ current, machine.dictionary = some current ∧ main.Recalls story codec current
  codec : machine.codec = codec

section Steps

variable {story : Memory} {codec : Codec} {main : Dictionary} {before after : Machine η}
  (fixed : main.Fixed story)

include fixed

/-- Words that are looked up while memory is touched are looked up in the same story. -/
theorem Recalls.of_alike (recalls : before.Recalls story codec main) (alike : before.Alike after)
    (protects : before.memory.Protects after.memory) : after.Recalls story codec main where
  memory := recalls.memory.trans protects
  dictionary := by
    rcases recalls.dictionary with ⟨current, present, right⟩
    rcases alike.dictionary with same | ⟨words, later, memory, had, has, touches, consults⟩
    · exact ⟨current, same.trans present, right⟩
    · cases present.symm.trans had
      refine ⟨later, has, ?_⟩
      rw [recalls.codec] at consults
      exact right.of_consults consults
        (fixed.search (recalls.memory.trans (.of_touches touches)) codec)
  codec := alike.codec.trans recalls.codec

/-- A state of play that replaces the present one brings no dictionary along, and a restarted story
reads the same dictionary again or keeps it, together with what it remembers. -/
theorem Recalls.manages {instruction : Instruction} {opcode : Opcode} {result : Option Outcome}
    (recalls : before.Recalls story codec main)
    (manages : Manages instruction opcode before result after) :
    after.Recalls story codec main := by
  have mapped := recalls.memory.mapped fixed.mapped
  have protects := protects_manages mapped manages
  cases manages with
  | continues continues =>
      have kept : { before with archive := before.archiveAfter instruction opcode }.Recalls story
          codec main := ⟨recalls.memory, recalls.dictionary, recalls.codec⟩
      exact kept.of_alike fixed continues.alike continues.memory.protects
  | @resumes _ memory decoder pc _ _ _ _ _ restored _ _ continues _ =>
      have replaced := Memory.protects_restoreSnapshot mapped restored
      have moved : memory.Protects { memory with pc } := ⟨rfl, rfl, rfl, fun _ _ => rfl⟩
      have kept : { before with
          memory := { memory with pc }
          decoder
          archive := before.archiveAfter instruction opcode }.Recalls story codec main :=
        ⟨(recalls.memory.trans replaced).trans moved, recalls.dictionary, recalls.codec⟩
      exact kept.of_alike fixed continues.alike continues.memory.protects
  | @restarts dictionary _ _ fresh _ =>
      have restarted := recalls.memory.trans protects
      refine ⟨restarted, ?_, recalls.codec⟩
      rcases fresh with rfl | again
      · exact recalls.dictionary
      · cases (fixed.ofMemory restarted).symm.trans again
        exact ⟨main, rfl, .of_fixed fixed⟩

/-- No step makes the dictionary remember a wrong answer. -/
theorem recalls_next [Host η] {machine : Machine η} (recalls : machine.Recalls story codec main) :
    machine.next.Recalls story codec main := by
  have advanced : ∀ instruction decoder,
      (machine.advance instruction decoder).Recalls story codec main := by
    intro instruction decoder
    have moved : machine.memory.Protects (machine.advance instruction decoder).memory :=
      ⟨rfl, rfl, rfl, fun _ _ => rfl⟩
    exact ⟨recalls.memory.trans moved, recalls.dictionary, recalls.codec⟩
  cases machine.steps with
  | undecoded same _ =>
      rw [same]
      exact recalls
  | unfetched _ quiet _ =>
      exact (advanced _ _).of_alike fixed quiet.alike (.of_touches quiet.memory)
  | @performed instruction opcode values ready performs =>
      have prepared : ready.Recalls story codec main := by
        rcases performs with ⟨_, decoder, memory, _, fetched, rfl⟩
        have touches := (touches_operandValues _ _).of_ok fetched
        have start := advanced instruction decoder
        exact ⟨start.memory.trans (.of_touches touches), start.dictionary, start.codec⟩
      rcases performs.leads with ⟨_, managed⟩ | ⟨_, proceeds⟩
      · exact prepared.manages fixed managed
      · rcases proceeds.memory with continues | ⟨packed, enters⟩
        · exact prepared.of_alike fixed proceeds.alike continues.protects
        · exact prepared.of_alike fixed proceeds.alike enters.protects

end Steps

/-- What a dictionary in static memory remembers never shows. However the story has been running, and
whatever has been looked up before, a lookup gives the answer of a search through the entries in
their order: the address of the first one that begins with the two or three words of the packed word,
or 0 if there is none. It fails only if the file ends before such an entry is found. -/
theorem lookup_ignores_memo [Host η] {settings : Settings} {image : Image} {host : η}
    {archive : Archive} {machine last : Machine η} {main : Dictionary}
    (started : start settings image host archive = .ok machine)
    (present : machine.dictionary = some main)
    (static : machine.memory.header.staticBase ≤ main.address)
    (addressed : ∀ index < main.size, main.entryAddress index < 65536)
    (run : Run (fun _ => True) machine last) :
    ∃ current, last.dictionary = some current ∧ ∀ earlier word,
      let packed := last.codec.encode word
      let answer := (current.afterWords last.memory last.codec earlier).answer last.memory last.codec
        word
      packed.length = (if last.version ≤ 3 then 2 else 3) ∧
      answer = main.search last.memory last.codec word ∧
      ∃ found, Dictionary.Finds last.memory packed main.entryAddress main.size found ∧
        answer.map UInt16.toNat = found.map (·.getD 0) := by
  have starts := starts_of_start started
  have fixed : main.Fixed machine.memory :=
    ⟨Memory.mapped_of_load starts.memory, present ▸ starts.dictionary, static⟩
  have begins : machine.Recalls machine.memory machine.codec main :=
    ⟨.refl _, ⟨main, present, .of_fixed fixed⟩, rfl⟩
  have recalls : last.Recalls machine.memory machine.codec main :=
    run.keeps _ begins fun _ _ earlier => recalls_next fixed earlier
  rcases recalls.dictionary with ⟨current, has, right⟩
  refine ⟨current, has, ?_⟩
  intro earlier word packed answer
  have same := fixed.search recalls.memory machine.codec
  have found : answer = main.search last.memory last.codec word := by
    have later := (right.afterWords same earlier).answer same word
    rwa [← recalls.codec] at later
  refine ⟨?_, found, ?_⟩
  · have version : last.codec.version = last.version := by
      rw [recalls.codec, Codec.version_ofMemory starts.codec]
      exact congrArg Header.version recalls.memory.header.symm
    rw [last.codec.length_encode, version]
  · rw [found]
    exact main.finds_search last.memory last.codec word addressed

/-- After a player has said "go up", the dictionary remembers the second word. It finds all words
as before. -/
theorem lookup_ignores_memo_spoken :
    let machine := talking [0xE4, 0x5F, 0x40, 0x48, 0x10] ["go up"]
    let last := machine.next
    start {} (.talking [0xE4, 0x5F, 0x40, 0x48, 0x10]) (talker ["go up"]) .absent = .ok machine ∧
    last.dictionary = some { Dictionary.talking with memo := some ("up", 100) } ∧
    ∃ current, last.dictionary = some current ∧ ∀ earlier,
      let later := current.afterWords last.memory last.codec earlier
      later.answer last.memory last.codec "up" = .ok 100 ∧
      later.answer last.memory last.codec "go" = .ok 93 ∧
      later.answer last.memory last.codec "down" = .ok 0 := by
  intro machine last
  have started : start {} (.talking [0xE4, 0x5F, 0x40, 0x48, 0x10]) (talker ["go up"]) .absent =
      .ok machine := rfl
  have remembers : last.dictionary = some { Dictionary.talking with memo := some ("up", 100) } := by
    decide +kernel
  have searched : ∀ entry ∈ [("up", 100), ("go", 93), ("down", 0)],
      (Dictionary.talking.search last.memory last.codec entry.1).toOption = some entry.2 := by
    decide +kernel
  have present : machine.dictionary = some .talking := rfl
  have static : machine.memory.header.staticBase ≤ Dictionary.talking.address := by decide +kernel
  have addressed : ∀ index < Dictionary.talking.size,
      Dictionary.talking.entryAddress index < 65536 := by decide
  have run : Run (fun _ => True) machine last := .step .refl trivial
  clear_value machine last
  rcases lookup_ignores_memo started present static addressed run with ⟨current, has, answers⟩
  refine ⟨started, remembers, current, has, ?_⟩
  intro earlier later
  have answered : ∀ entry ∈ [("up", 100), ("go", 93), ("down", 0)],
      later.answer last.memory last.codec entry.1 = .ok entry.2 := by
    intro entry listed
    rw [(answers earlier entry.1).2.1]
    exact eq_ok_of_toOption (searched entry listed)
  exact ⟨answered ("up", 100) (by simp), answered ("go", 93) (by simp),
    answered ("down", 0) (by simp)⟩

end Machine

end ZMachine
