import ZMachine.Proofs.Memory.Protection
import ZMachine.Proofs.Memory.Region

/-!
# Line input and its buffers

A story that reads a line names two buffers and says in their first bytes how large they are. The
line may be longer than the text buffer, and it may have more words than the parse buffer has slots.
Reading is split into entering the line into the text buffer and filling the parse buffer; each part
stays inside its own range.
-/

namespace ZMachine

open Memory

namespace ParseBuffer

/-- What the words of a line may change in a parse buffer: their number, and four bytes for each word
that fits. -/
def range (buffer capacity : Nat) : Set Nat :=
  Set.Icc (buffer + 1) (buffer + 1 + 4 * capacity)

theorem confined_writeSlot {region : Set Nat} {slot : Nat}
    (inside : Set.Ico slot (slot + 4) ⊆ region) (offset : Nat) (word : ParsedWord) :
    Keeps (Confined region) (writeSlot slot offset word) := by
  have byte : ∀ index < 4, slot + index ∈ region := fun index short =>
    inside ⟨by omega, by omega⟩
  refine (confined_writeWord (byte 0 (by omega)) (byte 1 (by omega)) _).bind fun _ => ?_
  refine (confined_writeByte (byte 2 (by omega)) _).bind fun _ => ?_
  exact confined_writeByte (byte 3 (by omega)) _

theorem confined_writeSlots {region : Set Nat} {slot : Nat} {words : List ParsedWord}
    (inside : Set.Ico slot (slot + 4 * words.length) ⊆ region) (offset : Nat)
    (skipUnknown : Bool) : Keeps (Confined region) (writeSlots offset skipUnknown slot words) := by
  induction words generalizing slot with
  | nil => exact Keeps.pure ()
  | cons word words ih =>
      have first : Set.Ico slot (slot + 4) ⊆ region := fun address within =>
        inside ⟨within.1, by have := within.2; simp only [List.length_cons]; omega⟩
      have rest : Set.Ico (slot + 4) (slot + 4 + 4 * words.length) ⊆ region :=
        fun address within =>
          inside ⟨by have := within.1; omega,
            by have := within.2; simp only [List.length_cons]; omega⟩
      refine Keeps.ite ?_ ?_
      · exact (Keeps.pure ()).bind fun _ => ih rest
      · exact (confined_writeSlot first offset word).bind fun _ => ih rest

/-- Filling a parse buffer changes no more slots than the buffer says it has. -/
theorem confined_fill (buffer : Nat) (skipUnknown : Bool) (words : List ParsedWord)
    (memory : Memory) :
    Confined (range buffer (memory.bytes.byteAt buffer).toNat) memory
      (stateAfter (fill buffer skipUnknown words) memory) := by
  unfold fill
  cases capacity : memory.readByte buffer with
  | error fault =>
      have refused : inspect (·.readByte buffer) memory = .error fault memory := by
        rw [inspect, capacity]
      rw [stateAfter, bind_of_error refused]
      exact Confined.refl _ memory
  | ok size =>
      have read : inspect (·.readByte buffer) memory = .ok size memory := by
        rw [inspect, capacity]
      have same := (readByte_eq_ok.mp capacity).2.2
      rw [stateAfter, bind_of_ok read, same]
      have few : (words.take (min words.length size.toNat)).length ≤ size.toNat := by
        simp only [List.length_take]
        omega
      refine ((confined_writeByte ?_ _).bind fun _ => ?_ :
        Keeps (Confined (range buffer size.toNat)) _) memory
      · exact ⟨by omega, by omega⟩
      · refine (confined_inspect _).bind fun offset => ?_
        refine (confined_writeSlots ?_ offset skipUnknown).bind fun _ => Keeps.pure _
        intro address within
        exact ⟨by have := within.1; omega, by have := within.2; omega⟩

end ParseBuffer

/-- Looking words up changes no memory, so that only the parse buffer is left to be filled. -/
theorem Dictionary.confined_tokeniseInto (codec : Codec) (line : String) (buffer : Nat)
    (skipUnknown : Bool) (dictionary : Dictionary) (memory : Memory) :
    Confined (ParseBuffer.range buffer (memory.bytes.byteAt buffer).toNat) memory
      (stateAfter (tokeniseInto codec line buffer skipUnknown) (dictionary, memory)).2 := by
  unfold stateAfter tokeniseInto
  dsimp only
  cases parse memory codec (dictionary.tokenize line) dictionary with
  | error fault later => exact Confined.refl _ memory
  | ok words later =>
      have confined := ParseBuffer.confined_fill buffer skipUnknown words memory
      dsimp only
      cases run : ParseBuffer.fill buffer skipUnknown words memory with
      | error fault filled => rwa [stateAfter_of_error run] at confined
      | ok count filled => rwa [stateAfter_of_ok run] at confined

namespace Machine

variable {η : Type}

/-- Reads a line into a text buffer and gives its codes. -/
def enterLine [Host η] (text : Nat) : MachineM η (List UInt8) := fun machine =>
  match showStatus machine with
  | .error fault shown => .error fault shown
  | .ok _ shown =>
    match shown.memory.readByte text with
    | .error fault => .error fault shown
    | .ok size =>
      let capacity := bufferCapacity shown.version size.toNat
      match Host.readLine capacity shown.host with
      | (.error reason, host) => .error (.input reason) { shown with host }
      | (.ok line, host) =>
        let codes := bufferCodes shown.codec capacity line
        match writeBuffer shown.version text codes shown.memory with
        | .error fault memory => .error fault { shown with host, memory }
        | .ok _ memory => .ok codes { shown with host, memory }

/-- Fills a parse buffer, unless its address is 0, with the words in the codes of a line. -/
def parseLine (parse : Nat) (codes : List UInt8) : MachineM η Unit := fun machine =>
  if parse = 0 then .ok () machine
  else
    tokeniseLine (bufferText machine.codec codes) parse false
      (onMemory (Memory.writeByte (parse + 1) 0)) machine

/-- The machines differ in their host only. -/
def Asks (before after : Machine η) : Prop :=
  after = { before with host := after.host }

instance : IsPreorder (Machine η) Asks where
  refl := fun _ => rfl
  trans := by
    intro first second third earlier later
    unfold Asks at *
    rw [later, earlier]

theorem asks_inspect {α : Type} (query : Machine η → Except Fault α) :
    Keeps Asks (inspect query) := by
  intro machine
  unfold stateAfter inspect
  cases query machine with
  | ok value => rfl
  | error fault => rfl

theorem asks_answer {α : Type} (blame : String → Fault) (request : η → Except String α × η) :
    Keeps Asks (answer blame request) := by
  intro machine
  unfold stateAfter answer
  rcases request machine.host with ⟨result, host⟩
  cases result with
  | ok value => rfl
  | error reason => rfl

/-- Showing the status line only asks the host. -/
theorem asks_showStatus [Host η] : Keeps Asks (showStatus : MachineM η Unit) := by
  have got : Keeps Asks (get : MachineM η (Machine η)) := fun _ => rfl
  refine got.bind fun machine => Keeps.ite (Keeps.pure ()) ?_
  refine (asks_inspect _).bind fun location => ?_
  refine (asks_inspect _).bind fun first => ?_
  refine (asks_inspect _).bind fun second => ?_
  refine Keeps.ite ?_ ?_
  · exact (Keeps.pure "").bind fun name => asks_answer _ _
  · exact (asks_inspect _).bind fun name => asks_answer _ _

/-- From version 4 on there is no status line to show. -/
theorem showStatus_of_late [Host η] {machine : Machine η} (late : 3 < machine.version) :
    showStatus machine = .ok () machine := by
  rw [showStatus, bind_get, if_pos late]
  rfl

/-- Reading a line is entering it and then parsing it, once the status line is shown or skipped. -/
theorem readLine_eq [Host η] (text parse : Nat) :
    (readLine text parse : MachineM η Unit) = enterLine text >>= parseLine parse := by
  funext machine
  have onwards : ∀ shown : Machine η, showStatus machine = .ok () shown → (do
      let size ← inspect fun machine : Machine η => machine.memory.readByte text
      let capacity := bufferCapacity shown.version size.toNat
      let line ← answer .input (Host.readLine capacity)
      let codec ← inspect fun machine => .ok machine.codec
      let codes := bufferCodes codec capacity line
      onMemory (writeBuffer shown.version text codes)
      if parse ≠ 0 then
        tokeniseLine (bufferText codec codes) parse false
          (onMemory (Memory.writeByte (parse + 1) 0))) shown =
      (enterLine text >>= parseLine parse) machine := by
    intro shown status
    simp only [bind, EStateM.bind, enterLine, status]
    cases read : shown.memory.readByte text with
    | error fault => simp only [inspect, read]
    | ok size =>
        simp only [inspect, read]
        generalize bufferCapacity shown.version size.toNat = capacity
        rcases asked : Host.readLine capacity shown.host with ⟨result, host⟩
        cases result with
        | error reason => simp only [answer, asked]
        | ok line =>
            simp only [answer, asked, onMemory_apply]
            cases writeBuffer shown.version text (bufferCodes shown.codec capacity line)
                shown.memory with
            | error fault memory => rfl
            | ok _ memory =>
                simp only [parseLine]
                by_cases none : parse = 0
                · simp [none, pure, EStateM.pure]
                · simp [none]
  unfold readLine
  rw [bind_view]
  by_cases early : machine.version ≤ 3
  · rw [if_pos early]
    cases status : showStatus machine with
    | error fault shown =>
        rw [bind_of_error status]
        simp only [bind, EStateM.bind, enterLine, status]
    | ok _ shown =>
        have same : shown.version = machine.version := by
          rw [asks_showStatus.of_ok status]
          rfl
        rw [bind_of_ok status, ← onwards shown status, same]
  · rw [if_neg early]
    exact onwards machine (showStatus_of_late (by omega))

/-- What a line may change in a text buffer whose first byte is `size`. Up to version 4 the zero at
the end of the line takes a byte even if there is room for nothing. -/
def textRange (version text size : Nat) : Set Nat :=
  if version ≤ 4 then Set.Icc (text + 1) (text + max size 1)
  else Set.Icc (text + 1) (text + 1 + size)

/-- What the words of a line may change in a parse buffer: nothing if there is no buffer, and only
the number of words if there is no dictionary. -/
def parseRange (hasDictionary : Bool) (parse capacity : Nat) : Set Nat :=
  if parse = 0 then ∅
  else if hasDictionary then ParseBuffer.range parse capacity
  else {parse + 1}

/-- What a line leaves in a text buffer after its first byte: up to version 4 its codes and a zero,
later the number of its codes and the codes. -/
def lineBytes (version : Nat) (codes : List UInt8) : List UInt8 :=
  if version ≤ 4 then codes ++ [0] else UInt8.ofNat codes.length :: codes

theorem length_bufferCodes (codec : Codec) (capacity : Nat) (line : String) :
    (bufferCodes codec capacity line).length ≤ capacity := by
  simp only [bufferCodes, List.length_map, List.length_take]
  omega

theorem confined_writeBuffer {version size : Nat} {codes : List UInt8}
    (fits : codes.length ≤ bufferCapacity version size) (text : Nat) :
    Keeps (Confined (textRange version text size)) (writeBuffer version text codes) := by
  unfold bufferCapacity at fits
  unfold writeBuffer textRange
  by_cases early : version ≤ 4
  · simp only [if_pos early] at fits ⊢
    refine ((confined_writeBytes _ _).mono ?_).bind fun _ => confined_writeByte ?_ _
    · intro before after confined
      refine confined.mono fun address inside => ?_
      simp only [Set.mem_Ico, Set.mem_Icc] at inside ⊢
      omega
    · simp only [Set.mem_Icc]
      omega
  · simp only [if_neg early] at fits ⊢
    refine ((confined_writeBytes _ _).mono ?_).bind fun _ => confined_writeByte ?_ _
    · intro before after confined
      refine confined.mono fun address inside => ?_
      simp only [Set.mem_Ico, Set.mem_Icc] at inside ⊢
      omega
    · simp only [Set.mem_Icc]
      omega

theorem mem_textRange {version size text place : Nat} {codes : List UInt8}
    (fits : codes.length ≤ bufferCapacity version size) (first : text + 1 ≤ place)
    (last : place < text + 1 + (lineBytes version codes).length) :
    place ∈ textRange version text size := by
  unfold bufferCapacity at fits
  unfold lineBytes at last
  unfold textRange
  by_cases early : version ≤ 4
  · simp only [if_pos early, List.length_append, List.length_singleton] at fits last
    rw [if_pos early]
    exact ⟨first, by omega⟩
  · simp only [if_neg early, List.length_cons] at fits last
    rw [if_neg early]
    exact ⟨first, by omega⟩

theorem holds_writeBuffer {version text : Nat} {codes : List UInt8} {memory after : Memory}
    (mapped : memory.header.staticBase ≤ memory.bytes.size)
    (success : writeBuffer version text codes memory = .ok () after) :
    after.Holds (text + 1) (lineBytes version codes) := by
  unfold writeBuffer at success
  unfold lineBytes
  by_cases early : version ≤ 4
  · rw [if_pos early] at success ⊢
    rcases bind_eq_ok.mp success with ⟨_, middle, written, ended⟩
    have wrote := (writes_writeBytes (text + 1) codes).of_ok written
    have held := held_of_writeByte (by rwa [wrote.header, wrote.size]) ended
    refine holds_append.mpr ⟨?_, holds_cons.mpr ⟨held, ?_⟩⟩
    · exact (holds_writeBytes mapped written).writeByte (Or.inr (le_refl _)) ended
    · intro index byte found
      cases found
  · rw [if_neg early] at success ⊢
    rcases bind_eq_ok.mp success with ⟨_, middle, written, counted⟩
    have wrote := (writes_writeBytes (text + 2) codes).of_ok written
    have held := held_of_writeByte (by rwa [wrote.header, wrote.size]) counted
    refine holds_cons.mpr ⟨held, ?_⟩
    exact (holds_writeBytes mapped written).writeByte (Or.inl (by omega)) counted

/-- Entering a line, whether it succeeds or fails, stays inside the text buffer. -/
theorem confined_enterLine [Host η] (text : Nat) (machine : Machine η) :
    Confined (textRange machine.version text (machine.memory.bytes.byteAt text).toNat)
      machine.memory (stateAfter (enterLine text) machine).memory := by
  unfold stateAfter enterLine
  cases status : showStatus machine with
  | error fault shown =>
      rw [asks_showStatus.of_error status]
      exact Confined.refl _ machine.memory
  | ok _ shown =>
      have memory : shown.memory = machine.memory := by rw [asks_showStatus.of_ok status]
      have version : shown.version = machine.version := congrArg Memory.version memory
      dsimp only
      rw [memory, version]
      cases read : machine.memory.readByte text with
      | error fault =>
          dsimp only
          rw [memory]
          exact Confined.refl _ machine.memory
      | ok size =>
          rw [(readByte_eq_ok.mp read).2.2]
          dsimp only
          rcases Host.readLine (bufferCapacity machine.version size.toNat) shown.host with
            ⟨result, host⟩
          cases result with
          | error reason => exact Confined.refl _ machine.memory
          | ok line =>
              have confined := confined_writeBuffer (length_bufferCodes shown.codec
                (bufferCapacity machine.version size.toNat) line) text
              dsimp only
              cases written : writeBuffer machine.version text (bufferCodes shown.codec
                  (bufferCapacity machine.version size.toNat) line) machine.memory with
              | error fault memory => exact confined.of_error written
              | ok _ memory => exact confined.of_ok written

/-- What a machine has done when it has entered a line. -/
theorem enterLine_eq_ok [Host η] {machine entered : Machine η} {text : Nat} {codes : List UInt8}
    (success : enterLine text machine = .ok codes entered) :
    ∃ size line,
      machine.memory.readByte text = .ok size ∧
      (Host.readLine (bufferCapacity machine.version size.toNat)
        (stateAfter showStatus machine).host).1 = .ok line ∧
      codes = bufferCodes machine.codec (bufferCapacity machine.version size.toNat) line ∧
      writeBuffer machine.version text codes machine.memory = .ok () entered.memory ∧
      entered = { machine with host := entered.host, memory := entered.memory } := by
  unfold enterLine at success
  cases status : showStatus machine with
  | error fault shown =>
      rw [status] at success
      cases success
  | ok _ shown =>
      have asked := asks_showStatus.of_ok status
      rw [stateAfter_of_ok status]
      rw [status] at success
      have memory : shown.memory = machine.memory := by rw [asked]
      have codec : shown.codec = machine.codec := by rw [asked]
      have version : shown.version = machine.version := congrArg Memory.version memory
      dsimp only at success
      rw [memory, version, codec] at success
      cases read : machine.memory.readByte text with
      | error fault =>
          rw [read] at success
          cases success
      | ok size =>
          rw [read] at success
          dsimp only at success
          rcases answered : Host.readLine (bufferCapacity machine.version size.toNat) shown.host
            with ⟨result, host⟩
          rw [answered] at success
          cases result with
          | error reason => cases success
          | ok line =>
              dsimp only at success
              cases written : writeBuffer machine.version text (bufferCodes machine.codec
                  (bufferCapacity machine.version size.toNat) line) machine.memory with
              | error fault memory =>
                  rw [written] at success
                  cases success
              | ok _ memory =>
                  rw [written] at success
                  cases success
                  exact ⟨size, line, rfl, by rw [answered], rfl, written, by rw [asked]⟩

/-- Parsing a line, whether it succeeds or fails, stays inside the parse buffer. -/
theorem confined_parseLine (parse : Nat) (codes : List UInt8) (machine : Machine η) :
    Confined (parseRange machine.dictionary.isSome parse
        (machine.memory.bytes.byteAt parse).toNat)
      machine.memory (stateAfter (parseLine parse codes) machine).memory := by
  unfold stateAfter parseLine parseRange
  by_cases zero : parse = 0
  · simp only [if_pos zero]
    exact Confined.refl _ machine.memory
  · simp only [if_neg zero, tokeniseLine]
    cases present : machine.dictionary with
    | none =>
        have confined : Keeps (Confined {parse + 1}) (Memory.writeByte (parse + 1) 0) :=
          confined_writeByte (Set.mem_singleton _) 0
        simp only [onMemory_apply]
        cases run : Memory.writeByte (parse + 1) 0 machine.memory with
        | ok _ memory => exact confined.of_ok run
        | error fault memory => exact confined.of_error run
    | some dictionary =>
        have confined := Dictionary.confined_tokeniseInto machine.codec
          (bufferText machine.codec codes) parse false dictionary machine.memory
        dsimp only
        cases run : Dictionary.tokeniseInto machine.codec (bufferText machine.codec codes) parse
            false (dictionary, machine.memory) with
        | ok _ later => rwa [stateAfter_of_ok run] at confined
        | error fault later => rwa [stateAfter_of_error run] at confined

theorem readLine_eq_ok [Host η] {machine after : Machine η} {text parse : Nat}
    (success : readLine text parse machine = .ok () after) :
    ∃ codes entered, enterLine text machine = .ok codes entered ∧
      parseLine parse codes entered = .ok () after := by
  rw [readLine_eq] at success
  exact bind_eq_ok.mp success

/-- Reading without a parse buffer ends where the line is entered. -/
theorem readLine_of_entered [Host η] {machine entered : Machine η} {text : Nat} {codes : List UInt8}
    (success : enterLine text machine = .ok codes entered) :
    readLine text 0 machine = .ok () entered := by
  rw [readLine_eq, bind_of_ok success]
  rfl

/-- Reading changes bytes of the two buffers only. The room in the parse buffer is the one that it has
once the line is entered. -/
theorem confined_readLine [Host η] (machine : Machine η) (text parse : Nat) :
    Confined
      (textRange machine.version text (machine.memory.bytes.byteAt text).toNat ∪
        parseRange machine.dictionary.isSome parse
          ((stateAfter (readLine text 0) machine).memory.bytes.byteAt parse).toNat)
      machine.memory (stateAfter (readLine text parse) machine).memory := by
  have begun := confined_enterLine text machine
  cases run : enterLine text machine with
  | error fault failed =>
      rw [stateAfter_of_error run] at begun
      have stopped : readLine text parse machine = .error fault failed := by
        rw [readLine_eq, bind_of_error run]
      rw [stateAfter_of_error stopped]
      exact begun.mono Set.subset_union_left
  | ok codes entered =>
      rw [stateAfter_of_ok run] at begun
      rcases enterLine_eq_ok run with ⟨_, _, _, _, _, _, same⟩
      have ended := confined_parseLine parse codes entered
      have dictionary : entered.dictionary = machine.dictionary := by rw [same]
      have continued : stateAfter (readLine text parse) machine =
          stateAfter (parseLine parse codes) entered := by
        rw [readLine_eq, stateAfter, bind_of_ok run, stateAfter]
      rw [continued, stateAfter_of_ok (readLine_of_entered run)]
      rw [dictionary] at ended
      exact trans_of (Confined _) (begun.mono Set.subset_union_left)
        (ended.mono Set.subset_union_right)

/-- Where the buffers do not overlap, the text buffer holds the line once it is read. -/
theorem holds_readLine [Host η] {machine after : Machine η} {text parse : Nat}
    (mapped : machine.memory.Mapped) (success : readLine text parse machine = .ok () after)
    (apart : ∀ address ∈ textRange machine.version text (machine.memory.bytes.byteAt text).toNat,
      address ∉ parseRange machine.dictionary.isSome parse
        ((stateAfter (readLine text 0) machine).memory.bytes.byteAt parse).toNat) :
    ∃ line,
      let capacity := bufferCapacity machine.version (machine.memory.bytes.byteAt text).toNat
      (Host.readLine capacity (stateAfter showStatus machine).host).1 = .ok line ∧
      after.memory.Holds (text + 1)
        (lineBytes machine.version (bufferCodes machine.codec capacity line)) := by
  rcases readLine_eq_ok success with ⟨codes, entered, begun, ended⟩
  rcases enterLine_eq_ok begun with ⟨size, line, read, answered, counted, written, same⟩
  have first : machine.memory.bytes.byteAt text = size := (readByte_eq_ok.mp read).2.2
  have dictionary : entered.dictionary = machine.dictionary := by rw [same]
  have fits : codes.length ≤ bufferCapacity machine.version size.toNat := by
    rw [counted]
    exact length_bufferCodes _ _ _
  rw [first] at apart ⊢
  rw [stateAfter_of_ok (readLine_of_entered begun)] at apart
  refine ⟨line, answered, ?_⟩
  rw [← counted]
  have parsed := confined_parseLine parse codes entered
  rw [stateAfter_of_ok ended, dictionary] at parsed
  have length : after.memory.bytes.size = entered.memory.bytes.size := by
    have whole := ((calm_readLine text parse).of_ok success).memory.size
    have part := ((calm_readLine text 0).of_ok (readLine_of_entered begun)).memory.size
    rw [whole, part]
  refine (holds_writeBuffer mapped.static written).of_same length ?_
  intro place low high
  exact parsed place (apart place (mem_textRange fits low high))

/-- Whatever line the host gives and however reading ends, no byte outside the two buffers changes.
The room in the parse buffer is the one it has once the line is entered. If reading succeeds and the
buffers do not overlap, the text buffer holds the line, with the zero after it or with its length. -/
theorem line_stays_in_buffers [Host η] (machine : Machine η) (text parse : Nat) :
    let entered := stateAfter (readLine text 0) machine
    let after := stateAfter (readLine text parse) machine
    let size := (machine.memory.bytes.byteAt text).toNat
    let letters := textRange machine.version text size
    let words := parseRange machine.dictionary.isSome parse
      (entered.memory.bytes.byteAt parse).toNat
    (∀ address, address ∉ letters → address ∉ words →
      after.memory.bytes.byteAt address = machine.memory.bytes.byteAt address) ∧
    (machine.memory.Mapped → readLine text parse machine = .ok () after →
      (∀ address ∈ letters, address ∉ words) → ∃ line,
        let capacity := bufferCapacity machine.version size
        let codes := bufferCodes machine.codec capacity line
        (Host.readLine capacity (stateAfter showStatus machine).host).1 = .ok line ∧
        if machine.version ≤ 4 then after.memory.Holds (text + 1) (codes ++ [0])
        else
          (after.memory.bytes.byteAt (text + 1)).toNat = codes.length ∧ codes.length ≤ size ∧
            after.memory.Holds (text + 2) codes) := by
  intro entered after size letters words
  refine ⟨?_, ?_⟩
  · intro address notLetters notWords
    exact confined_readLine machine text parse address fun inside =>
      inside.elim notLetters notWords
  · intro mapped success apart
    rcases holds_readLine mapped success apart with ⟨line, answered, holds⟩
    refine ⟨line, answered, ?_⟩
    by_cases early : machine.version ≤ 4
    · rw [lineBytes, if_pos early] at holds
      rw [if_pos early]
      exact holds
    · rw [lineBytes, if_neg early] at holds
      rw [if_neg early]
      rcases holds_cons.mp holds with ⟨counted, codes⟩
      have few := length_bufferCodes machine.codec (bufferCapacity machine.version size) line
      have room : bufferCapacity machine.version size = size := by rw [bufferCapacity, if_neg early]
      have byte : size < 256 := (machine.memory.bytes.byteAt text).toNat_lt
      refine ⟨?_, by omega, codes⟩
      rw [(byteAt_of_held counted).2, UInt8.toNat_ofNat']
      exact Nat.mod_eq_of_lt (lt_of_le_of_lt few (by omega))

end Machine

/-- A story of version 5 to talk to. In dynamic memory it has a text buffer for five letters at 64, a
parse buffer for two words at 72, and two global variables at 84. Static memory begins with a
dictionary of the words "go" and "up" at 88, and the code follows. -/
def Image.talking (code : List UInt8) : Image :=
  #[5, 0, 0, 0, 0, 107, 0, 107, 0, 88, 0, 0, 0, 84, 0, 88] ++ Array.replicate 48 0 ++
    #[5, 0, 0, 0, 0, 0, 0, 0, 2, 0, 0, 0, 0, 0, 0, 0, 0, 0, 0, 0, 0, 0, 0, 0] ++
    #[1, 0x2C, 7, 0, 2, 0x32, 0x85, 0x14, 0xA5, 0x94, 0xA5, 0, 0x6A, 0xA5, 0x14, 0xA5, 0x94, 0xA5, 0]
    ++ code.toArray

/-- The dictionary of the story to talk to. -/
def Dictionary.talking : Dictionary :=
  { address := 88, separators := [','], entryLength := 7, signedCount := 2, entries := 93 }

namespace Machine

/-- A player who has made up some lines. -/
def talker (lines : List String) : Recorded :=
  { script := ⟨lines⟩, chance := .dice [] }

/-- The story to talk to, loaded for a player. -/
def talking (code : List UInt8) (lines : List String) : Machine Recorded :=
  let image := Header.normalize {} (.talking code)
  let memory : Memory :=
    { bytes := image, pristine := image, header := Header.read image, pc := 107 }
  { memory
    decoder := { version := memory.version }
    codec := .standard memory.version
    abbreviations := .ofMemory memory
    objects := .ofMemory memory
    dictionary := some .talking
    host := talker lines
    archive := .absent
    settings := {} }

/-- A line of eleven letters for a buffer of five. -/
theorem line_stays_in_buffers_cut :
    let machine := talking [] ["Go UPSTAIRS"]
    let after := stateAfter (readLine 64 72) machine
    machine.memory.Mapped ∧ valueOf (readLine 64 72) machine = some () ∧
      (∀ address, address ∉ Set.Icc 65 70 → address ∉ Set.Icc 73 81 →
        after.memory.bytes.byteAt address = machine.memory.bytes.byteAt address) ∧
      (after.memory.bytes.byteAt 65).toNat = 5 ∧
      after.memory.Holds 66 [103, 111, 32, 117, 112] := by
  intro machine after
  have mapped : machine.memory.Mapped := ⟨by decide +kernel, by decide +kernel, rfl⟩
  have success : valueOf (readLine 64 72) machine = some () := by decide +kernel
  have version : machine.version = 5 := by decide +kernel
  have size : machine.memory.bytes.byteAt 64 = 5 := by decide +kernel
  have slots : (stateAfter (readLine 64 0) machine).memory.bytes.byteAt 72 = 2 := by decide +kernel
  have present : machine.dictionary = some .talking := rfl
  have said : (Host.readLine 5 machine.host).1 = .ok "Go UPSTAIRS" := rfl
  have codes : bufferCodes machine.codec 5 "Go UPSTAIRS" = [103, 111, 32, 117, 112] := by
    decide +kernel
  clear_value machine
  have letters : textRange machine.version 64 (machine.memory.bytes.byteAt 64).toNat =
      Set.Icc 65 70 := by
    rw [version, size]
    rfl
  have words : parseRange machine.dictionary.isSome 72
      ((stateAfter (readLine 64 0) machine).memory.bytes.byteAt 72).toNat = Set.Icc 73 81 := by
    rw [slots, present]
    rfl
  have room : bufferCapacity machine.version (machine.memory.bytes.byteAt 64).toNat = 5 := by
    rw [version, size]
    rfl
  have apart : ∀ address ∈ Set.Icc 65 70, address ∉ Set.Icc 73 81 := by
    intro address first second
    have := first.2
    have := second.1
    omega
  have silent : stateAfter showStatus machine = machine :=
    stateAfter_of_ok (showStatus_of_late (by omega))
  rcases line_stays_in_buffers machine 64 72 with ⟨outside, entered⟩
  rw [letters, words] at outside entered
  rcases entered mapped (eq_ok_of_valueOf success) apart with ⟨line, answered, held⟩
  rw [room, silent, said] at answered
  cases answered
  rw [if_neg (by omega), room, codes] at held
  exact ⟨mapped, success, outside, held.1, held.2.2⟩

end Machine

end ZMachine
