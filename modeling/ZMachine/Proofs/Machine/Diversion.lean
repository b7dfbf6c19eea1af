import ZMachine.Proofs.Memory.Protection
import ZMachine.Proofs.Memory.Region

/-!
# Output diverted to a table

While output is diverted, texts are added to a table in memory: first their codes, behind the codes
that the table counts already, and then the new count. `Memory.Captures` says what a table has
gained. Gains add up, so that it does not show how a text is cut into pieces. The count is written
last, so that a text that does not fit leaves the table as it was.
-/

namespace ZMachine

namespace Memory

/-- Codes have been added to a table: its count has grown by their number, they stand behind the codes
that it counted before, and nothing else has changed. -/
structure Captures (table : Nat) (codes : List UInt8) (before after : Memory) : Prop where
  same : after = { before with bytes := after.bytes }
  size : after.bytes.size = before.bytes.size
  count : (after.bytes.wordAt table).toNat = (before.bytes.wordAt table).toNat + codes.length
  held : after.Holds (table + 2 + (before.bytes.wordAt table).toNat) codes
  others : ∀ address, address ≠ table → address ≠ table + 1 →
    address ∉ Set.Ico (table + 2 + (before.bytes.wordAt table).toNat)
      (table + 2 + (before.bytes.wordAt table).toNat + codes.length) →
    after.bytes.byteAt address = before.bytes.byteAt address

namespace Captures

variable {table : Nat} {first second third : Memory} {codes more : List UInt8}

theorem refl (table : Nat) (memory : Memory) : memory.Captures table [] memory := by
  refine ⟨rfl, rfl, rfl, ?_, fun _ _ _ _ => rfl⟩
  intro index byte found
  cases found

theorem trans (earlier : first.Captures table codes second)
    (later : second.Captures table more third) : first.Captures table (codes ++ more) third where
  same := by rw [later.same, earlier.same]
  size := later.size.trans earlier.size
  count := by
    rw [later.count, earlier.count, List.length_append]
    omega
  held := by
    have behind := later.held
    rw [earlier.count, ← Nat.add_assoc] at behind
    refine holds_append.mpr ⟨?_, behind⟩
    refine earlier.held.of_same later.size fun place low high => ?_
    apply later.others place (by omega) (by omega)
    rw [earlier.count]
    simp only [Set.mem_Ico]
    omega
  others := by
    intro address notFirst notSecond outside
    simp only [List.length_append, Set.mem_Ico] at outside
    rw [later.others address notFirst notSecond, earlier.others address notFirst notSecond]
    · simp only [Set.mem_Ico]
      omega
    · rw [earlier.count]
      simp only [Set.mem_Ico]
      omega

/-- A memory and what its table captures determine the memory afterwards. -/
theorem unique (one : first.Captures table codes second) (other : first.Captures table codes third) :
    second = third := by
  have word : second.bytes.wordAt table = third.bytes.wordAt table := by
    apply UInt16.toNat_inj.mp
    rw [one.count, other.count]
  have bytes : second.bytes = third.bytes := by
    apply Image.eq_of_byteAt (one.size.trans other.size.symm)
    intro address
    by_cases isFirst : address = table
    · have high := congrArg Word.high word
      simp only [Image.wordAt, Word.high_ofBytes] at high
      rw [isFirst, high]
    · by_cases isSecond : address = table + 1
      · have low := congrArg Word.low word
        simp only [Image.wordAt, Word.low_ofBytes] at low
        rw [isSecond, low]
      · by_cases captured : address ∈ Set.Ico (table + 2 + (first.bytes.wordAt table).toNat)
            (table + 2 + (first.bytes.wordAt table).toNat + codes.length)
        · rcases Nat.exists_eq_add_of_le captured.1 with ⟨index, rfl⟩
          have short : index < codes.length := by
            have := captured.2
            omega
          have found : codes[index]? = some codes[index] := List.getElem?_eq_getElem short
          rw [(byteAt_of_held (one.held index _ found)).2,
            (byteAt_of_held (other.held index _ found)).2]
        · rw [one.others address isFirst isSecond captured,
            other.others address isFirst isSecond captured]
  rw [one.same, other.same, bytes]

end Captures

/-- There is room for a number of codes in a table whose count can be read and written. -/
def HasRoom (memory : Memory) (table length : Nat) : Prop :=
  table + 1 < memory.header.highBase ∧ table + 1 < memory.bytes.size ∧
    table + 1 < memory.header.staticBase ∧
    (length = 0 ∨
      table + 2 + (memory.bytes.wordAt table).toNat + length ≤ memory.header.staticBase)

theorem HasRoom.le {memory : Memory} {table fewer length : Nat} (room : memory.HasRoom table length)
    (less : fewer ≤ length) : memory.HasRoom table fewer := by
  unfold HasRoom at *
  omega

/-- Room for codes is room for some of them and, once they are captured, for the rest. -/
theorem Captures.hasRoom_iff {table : Nat} {before middle : Memory} {codes : List UInt8}
    (captured : before.Captures table codes middle) (more : Nat) :
    before.HasRoom table codes.length ∧ middle.HasRoom table more ↔
      before.HasRoom table (codes.length + more) := by
  have header : middle.header = before.header := by rw [captured.same]
  unfold HasRoom
  rw [header, captured.size, captured.count]
  omega

end Memory

namespace Codec

/-- The code that stands for a character in a table: the low byte of its code, 13 for a line end, and
a question mark for a character without a code. -/
def tableCode (codec : Codec) (c : Char) : UInt8 :=
  if c = '\n' then 13
  else
    match codec.zsciiOfChar c with
    | some code => UInt8.ofNat code
    | none => 63

/-- The codes that stand for characters in a table. -/
def tableCodes (codec : Codec) (chars : List Char) : List UInt8 :=
  chars.map codec.tableCode

theorem ofNat_zsciiOrMark (codec : Codec) (c : Char) :
    UInt8.ofNat (codec.zsciiOrMark c) = codec.tableCode c := by
  unfold zsciiOrMark tableCode
  by_cases lineEnd : c = '\n'
  · rw [if_pos lineEnd, zsciiOfChar, if_pos lineEnd]
    rfl
  · rw [if_neg lineEnd]
    cases codec.zsciiOfChar c <;> rfl

end Codec

namespace Machine

open Memory

section Table

variable {codec : Codec} {table : Nat} {memory after : Memory} {text : String}

/-- The address of a code never overflows its count: dynamic memory ends before. -/
theorem writeTableChars_eq (codec : Codec) (table : Nat) (count : UInt16) (chars : List Char)
    (small : memory.header.staticBase < 65536) :
    writeTableChars codec table count chars memory =
      match writeBytes (table + 2 + count.toNat) (codec.tableCodes chars) memory with
      | .ok _ after => .ok (count + UInt16.ofNat chars.length) after
      | .error fault after => .error fault after := by
  induction chars generalizing count memory with
  | nil => simp [writeTableChars, Codec.tableCodes, writeBytes, pure, EStateM.pure]
  | cons c rest ih =>
      simp only [writeTableChars, Codec.tableCodes, List.map_cons, writeBytes,
        Codec.ofNat_zsciiOrMark]
      cases first : Memory.writeByte (table + 2 + count.toNat) (codec.tableCode c) memory with
      | error fault failed => rw [bind_of_error first, bind_of_error first]
      | ok _ middle =>
          rw [bind_of_ok first, bind_of_ok first]
          have dynamic := (writeByte_eq_ok.mp first).1
          have header := ((writes_writeByte _ _).of_ok first).header
          have counted : (count + 1).toNat = count.toNat + 1 := by
            rw [UInt16.toNat_add]
            exact Nat.mod_eq_of_lt (by simp only [UInt16.reduceToNat]; omega)
          have total : count + 1 + UInt16.ofNat rest.length =
              count + UInt16.ofNat (c :: rest).length := by
            rw [List.length_cons, UInt16.ofNat_add, UInt16.add_assoc,
              UInt16.add_comm (UInt16.ofNat rest.length)]
            rfl
          have onwards := ih (count + 1) (header ▸ small)
          rwa [counted, total] at onwards

/-- Adding a text is reading the count, storing the codes behind it, and storing the new count. -/
theorem writeTable_eq (small : memory.header.staticBase < 65536) (text : String) :
    writeTable codec table text memory =
      match memory.readWord table with
      | .error fault => .error fault memory
      | .ok count =>
        match writeBytes (table + 2 + count.toNat) (codec.tableCodes text.toList) memory with
        | .error fault middle => .error fault middle
        | .ok _ middle =>
          writeWord table (count + UInt16.ofNat text.toList.length) middle := by
  unfold writeTable
  cases read : memory.readWord table with
  | error fault =>
      have refused : Memory.inspect (·.readWord table) memory = .error fault memory := by
        rw [Memory.inspect, read]
      exact bind_of_error refused
  | ok count =>
      have found : Memory.inspect (·.readWord table) memory = .ok count memory := by
        rw [Memory.inspect, read]
      have chars := writeTableChars_eq codec table count text.toList small
      rw [bind_of_ok found]
      dsimp only
      cases written : writeBytes (table + 2 + count.toNat) (codec.tableCodes text.toList) memory with
      | error fault middle =>
          rw [written] at chars
          exact bind_of_error chars
      | ok _ middle =>
          rw [written] at chars
          exact bind_of_ok chars

theorem writeTable_eq_ok (small : memory.header.staticBase < 65536) :
    writeTable codec table text memory = .ok () after ↔
      ∃ count middle, memory.readWord table = .ok count ∧
        writeBytes (table + 2 + count.toNat) (codec.tableCodes text.toList) memory = .ok () middle ∧
        writeWord table (count + UInt16.ofNat text.toList.length) middle = .ok () after := by
  rw [writeTable_eq small]
  constructor
  · intro success
    cases read : memory.readWord table with
    | error fault =>
        rw [read] at success
        cases success
    | ok count =>
        rw [read] at success
        dsimp only at success
        cases written : writeBytes (table + 2 + count.toNat) (codec.tableCodes text.toList)
            memory with
        | error fault middle =>
            rw [written] at success
            cases success
        | ok _ middle =>
            rw [written] at success
            exact ⟨count, middle, rfl, written, success⟩
  · rintro ⟨count, middle, read, written, counted⟩
    rw [read]
    dsimp only
    rw [written]
    exact counted

/-- The codes of a text that is written to a table lie in dynamic memory, which is too small for the
count to overflow. -/
theorem captures_writeTable (mapped : memory.Mapped) (small : memory.header.staticBase < 65536)
    (success : writeTable codec table text memory = .ok () after) :
    memory.Captures table (codec.tableCodes text.toList) after := by
  rcases (writeTable_eq_ok small).mp success with ⟨count, middle, read, written, counted⟩
  have word : memory.bytes.wordAt table = count := (readWord_eq_ok.mp read).2.2
  have length : (codec.tableCodes text.toList).length = text.toList.length := List.length_map _
  have wrote := (writes_writeBytes _ _).of_ok written
  have confined := (confined_writeBytes _ _).of_ok written
  have holds := holds_writeBytes mapped.static written
  rcases writeWord_eq_ok.mp counted with ⟨dynamic, rfl⟩
  have inside : table + 1 < middle.bytes.size := by
    have static := mapped.static
    rw [wrote.header] at dynamic
    rw [wrote.size]
    omega
  have total : (count + UInt16.ofNat text.toList.length).toNat =
      count.toNat + text.toList.length := by
    have below : count.toNat + text.toList.length < 65536 := by
      have word := count.toNat_lt
      rcases writeBytes_succeeds.mp ⟨middle, written⟩ with empty | fits
      · rw [empty] at length
        simp only [List.length_nil] at length
        omega
      · omega
    rw [UInt16.toNat_add, UInt16.toNat_ofNat']
    omega
  refine ⟨?_, ?_, ?_, ?_, ?_⟩
  · rw [wrote.same]
  · rw [Image.size_setWord, wrote.size]
  · rw [Image.wordAt_setWord inside, total, word, length]
  · rw [word]
    refine holds.of_same (by simp) fun place low high => ?_
    exact Image.byteAt_setWord_of_ne (by omega) (by omega) _ _
  · intro address notFirst notSecond outside
    rw [word] at outside
    rw [Image.byteAt_setWord_of_ne (Ne.symm notFirst) (Ne.symm notSecond)]
    exact confined address outside

theorem writeTable_succeeds (small : memory.header.staticBase < 65536) :
    (∃ after, writeTable codec table text memory = .ok () after) ↔
      memory.HasRoom table text.toList.length := by
  have length : (codec.tableCodes text.toList).length = text.toList.length := List.length_map _
  have empty : codec.tableCodes text.toList = [] ↔ text.toList.length = 0 := by
    rw [← length, List.length_eq_zero_iff]
  unfold HasRoom
  constructor
  · rintro ⟨after, success⟩
    rcases (writeTable_eq_ok small).mp success with ⟨count, middle, read, written, counted⟩
    rcases readWord_eq_ok.mp read with ⟨high, inside, word⟩
    have dynamic := (writeWord_eq_ok.mp counted).1
    rw [((writes_writeBytes _ _).of_ok written).header] at dynamic
    have fits := writeBytes_succeeds.mp ⟨middle, written⟩
    rw [empty, length, ← word] at fits
    exact ⟨high, inside, dynamic, fits⟩
  · rintro ⟨high, inside, dynamic, fits⟩
    rw [← empty, ← length] at fits
    rcases writeBytes_succeeds.mpr fits with ⟨middle, written⟩
    have counted := ((writes_writeBytes _ _).of_ok written).header ▸ dynamic
    exact ⟨_, (writeTable_eq_ok small).mpr ⟨_, middle, readWord_eq_ok.mpr ⟨high, inside, rfl⟩,
      written, writeWord_eq_ok.mpr ⟨counted, rfl⟩⟩⟩

/-- A text that cannot be added leaves everything before the end of the table alone. -/
theorem confined_of_refused {fault : Fault} (small : memory.header.staticBase < 65536)
    (refused : writeTable codec table text memory = .error fault after) :
    Confined (Set.Ici (table + 2 + (memory.bytes.wordAt table).toNat)) memory after := by
  rw [writeTable_eq small] at refused
  cases read : memory.readWord table with
  | error fault =>
      rw [read] at refused
      cases refused
      exact Confined.refl _ memory
  | ok count =>
      rw [read] at refused
      rw [(readWord_eq_ok.mp read).2.2]
      dsimp only at refused
      have confined := confined_writeBytes (table + 2 + count.toNat)
        (codec.tableCodes text.toList) memory
      have behind := confined.mono fun address inside => Set.mem_Ici.mpr inside.1
      cases written : writeBytes (table + 2 + count.toNat) (codec.tableCodes text.toList) memory with
      | error fault middle =>
          rw [stateAfter_of_error written] at behind
          rw [written] at refused
          cases refused
          exact behind
      | ok _ middle =>
          rw [stateAfter_of_ok written] at behind
          rw [written] at refused
          rw [eq_of_writeWord_error refused]
          exact behind

end Table

end Machine

/-- A piece of output. -/
inductive Output where
  | text (text : String)
  | newLine
deriving Repr, DecidableEq

namespace Output

/-- The text of a piece of output. -/
def string : Output → String
  | .text line => line
  | .newLine => "\n"

/-- The characters of a piece of output. -/
def chars (output : Output) : List Char :=
  output.string.toList

/-- Sends a piece of output to where output goes. -/
def send {η : Type} [Host η] : Output → MachineM η Unit
  | .text line => Machine.outputText line
  | .newLine => Machine.outputNewLine

end Output

namespace Machine

variable {η : Type} [Host η]

/-- Sends pieces of output one after the other. -/
def sendAll : List Output → MachineM η Unit
  | [] => pure ()
  | output :: outputs => do
    output.send
    sendAll outputs

section Diverted

variable {machine after : Machine η} {table : Nat} {outer : List Nat}

theorem send_of_diverted (diverted : machine.streams.tables = table :: outer) (output : Output) :
    output.send machine = onMemory (writeTable machine.codec table output.string) machine := by
  have texts : ∀ text, outputText text machine =
      onMemory (writeTable machine.codec table text) machine := by
    intro text
    rw [outputText, bind_get, diverted]
  cases output with
  | text line => exact texts line
  | newLine =>
      rw [Output.send, outputNewLine, bind_view, diverted]
      exact texts "\n"

theorem protects_send {output : Output} (success : output.send machine = .ok () after) :
    machine.memory.Protects after.memory := by
  have calm : Keeps Calm (output.send : MachineM η Unit) := by
    cases output with
    | text line => exact calm_outputText line
    | newLine => exact calm_outputNewLine
  exact .of_touches (calm.of_ok success).memory.touches

theorem captures_send (mapped : machine.memory.Mapped)
    (small : machine.memory.header.staticBase < 65536)
    (diverted : machine.streams.tables = table :: outer) {output : Output}
    (success : output.send machine = .ok () after) :
    after = { machine with memory := after.memory } ∧
      machine.memory.Captures table (machine.codec.tableCodes output.chars) after.memory := by
  rw [send_of_diverted diverted] at success
  rcases onMemory_eq_ok.mp success with ⟨memory, written, rfl⟩
  exact ⟨rfl, captures_writeTable mapped small written⟩

theorem captures_sendAll (mapped : machine.memory.Mapped)
    (small : machine.memory.header.staticBase < 65536)
    (diverted : machine.streams.tables = table :: outer) {outputs : List Output}
    (success : sendAll outputs machine = .ok () after) :
    after = { machine with memory := after.memory } ∧
      machine.memory.Captures table (machine.codec.tableCodes (outputs.flatMap Output.chars))
        after.memory := by
  induction outputs generalizing machine with
  | nil =>
      cases success
      exact ⟨rfl, .refl table _⟩
  | cons output outputs ih =>
      rcases bind_eq_ok.mp success with ⟨_, middle, first, rest⟩
      rcases captures_send mapped small diverted first with ⟨same, captured⟩
      have protects := protects_send first
      have codec : middle.codec = machine.codec := by rw [same]
      have streams : middle.streams = machine.streams := by rw [same]
      rcases ih (protects.mapped mapped) (protects.header ▸ small) (streams ▸ diverted) rest with
        ⟨ended, gained⟩
      rw [codec] at gained
      refine ⟨by rw [ended, same], ?_⟩
      rw [List.flatMap_cons, Codec.tableCodes, List.map_append]
      exact captured.trans gained

theorem send_succeeds (small : machine.memory.header.staticBase < 65536)
    (diverted : machine.streams.tables = table :: outer) {output : Output} :
    (∃ after, output.send machine = .ok () after) ↔
      machine.memory.HasRoom table output.chars.length := by
  rw [send_of_diverted diverted, Output.chars, ← writeTable_succeeds small]
  constructor
  · rintro ⟨after, success⟩
    rcases onMemory_eq_ok.mp success with ⟨memory, written, _⟩
    exact ⟨memory, written⟩
  · rintro ⟨memory, written⟩
    exact ⟨_, onMemory_of_ok written⟩

/-- At least one piece of output can be sent if there is room for all characters together. -/
theorem sendAll_succeeds (mapped : machine.memory.Mapped)
    (small : machine.memory.header.staticBase < 65536)
    (diverted : machine.streams.tables = table :: outer) {outputs : List Output}
    (nonempty : outputs ≠ []) :
    (∃ after, sendAll outputs machine = .ok () after) ↔
      machine.memory.HasRoom table (outputs.flatMap Output.chars).length := by
  induction outputs generalizing machine with
  | nil => exact absurd rfl nonempty
  | cons output outputs ih =>
      have length : ∀ codec : Codec, (codec.tableCodes output.chars).length = output.chars.length :=
        fun _ => List.length_map _
      have rests : ∀ middle, output.send machine = .ok () middle →
          ((∃ after, sendAll outputs middle = .ok () after) ↔
            middle.memory.HasRoom table (outputs.flatMap Output.chars).length) := by
        intro middle first
        rcases captures_send mapped small diverted first with ⟨same, captured⟩
        have protects := protects_send first
        have streams : middle.streams = machine.streams := by rw [same]
        by_cases more : outputs = []
        · have room := (send_succeeds small diverted).mp ⟨middle, first⟩
          rw [← length machine.codec, ← Nat.add_zero (List.length _)] at room
          subst more
          exact ⟨fun _ => ((captured.hasRoom_iff 0).mpr room).2, fun _ => ⟨middle, rfl⟩⟩
        · exact ih (protects.mapped mapped) (protects.header ▸ small) (streams ▸ diverted) more
      rw [List.flatMap_cons, List.length_append, ← length machine.codec]
      constructor
      · rintro ⟨after, success⟩
        rcases bind_eq_ok.mp success with ⟨_, middle, first, rest⟩
        have captured := (captures_send mapped small diverted first).2
        have room := (send_succeeds small diverted).mp ⟨middle, first⟩
        rw [← length machine.codec] at room
        exact (captured.hasRoom_iff _).mp ⟨room, (rests middle first).mp ⟨after, rest⟩⟩
      · intro room
        have begins := room.le (Nat.le_add_right _ _)
        rw [length] at begins
        rcases (send_succeeds small diverted).mpr begins with ⟨middle, first⟩
        have captured := (captures_send mapped small diverted first).2
        rcases (rests middle first).mpr ((captured.hasRoom_iff _).mpr room).2 with ⟨after, rest⟩
        exact ⟨after, bind_eq_ok.mpr ⟨(), middle, first, rest⟩⟩

/-- A piece of output that cannot be sent changes neither the count of the innermost table nor the
codes that are counted. -/
theorem counted_of_refused (small : machine.memory.header.staticBase < 65536)
    (diverted : machine.streams.tables = table :: outer) {output : Output} {fault : Fault}
    (refused : output.send machine = .error fault after) :
    after = { machine with memory := after.memory } ∧
    after.memory.bytes.wordAt table = machine.memory.bytes.wordAt table ∧
    ∀ address ∈ Set.Ico (table + 2) (table + 2 + (machine.memory.bytes.wordAt table).toNat),
      after.memory.bytes.byteAt address = machine.memory.bytes.byteAt address := by
  rw [send_of_diverted diverted] at refused
  rcases onMemory_eq_error refused with ⟨memory, written, rfl⟩
  have confined := confined_of_refused small written
  refine ⟨rfl, ?_, ?_⟩
  · rw [Image.wordAt, Image.wordAt, confined table, confined (table + 1)]
    · simp only [Set.mem_Ici]
      omega
    · simp only [Set.mem_Ici]
      omega
  · intro address counted
    exact confined address (Nat.not_le.mpr counted.2)

/-- The same characters in other pieces can be sent just as well, and with the same effect. The
exception is to send something rather than nothing at all: only then is the table looked at. -/
theorem sendAll_of_same_chars (mapped : machine.memory.Mapped)
    (small : machine.memory.header.staticBase < 65536)
    (diverted : machine.streams.tables = table :: outer) {outputs others : List Output}
    (success : sendAll outputs machine = .ok () after) (fewer : outputs = [] → others = [])
    (chars : others.flatMap Output.chars = outputs.flatMap Output.chars) :
    sendAll others machine = .ok () after := by
  rcases captures_sendAll mapped small diverted success with ⟨same, captured⟩
  by_cases none : others = []
  · rw [← chars, none] at captured
    have memory := captured.unique (.refl table _)
    rw [none, same, memory]
    rfl
  · have some : outputs ≠ [] := fun empty => none (fewer empty)
    have room := (sendAll_succeeds mapped small diverted some).mp ⟨after, success⟩
    rw [← chars] at room
    rcases (sendAll_succeeds mapped small diverted none).mpr room with ⟨other, sent⟩
    rcases captures_sendAll mapped small diverted sent with ⟨alike, gained⟩
    rw [chars] at gained
    rw [sent, alike, gained.unique captured, ← same]

/-- While output is diverted, all that is sent goes to the innermost table: no request reaches the
host, and the diversion stays as it is. The table captures the codes of all characters in order, and
its count grows by their number. Cutting the same characters into other pieces makes no difference,
and a piece that does not fit changes neither the count nor the codes that are counted. -/
theorem diverted_output_captured (mapped : machine.memory.Mapped)
    (small : machine.memory.header.staticBase < 65536)
    (diverted : machine.streams.tables = table :: outer) {outputs : List Output}
    (success : sendAll outputs machine = .ok () after) :
    after = { machine with memory := after.memory } ∧
    machine.memory.Captures table (machine.codec.tableCodes (outputs.flatMap Output.chars))
      after.memory ∧
    (∀ others : List Output, (outputs = [] → others = []) →
      others.flatMap Output.chars = outputs.flatMap Output.chars →
      sendAll others machine = .ok () after) ∧
    ∀ (output : Output) (fault : Fault) (failed : Machine η),
      output.send after = .error fault failed →
      failed = { after with memory := failed.memory } ∧
      failed.memory.bytes.wordAt table = after.memory.bytes.wordAt table ∧
      ∀ address ∈ Set.Ico (table + 2) (table + 2 + (after.memory.bytes.wordAt table).toNat),
        failed.memory.bytes.byteAt address = after.memory.bytes.byteAt address := by
  rcases captures_sendAll mapped small diverted success with ⟨same, captured⟩
  refine ⟨same, captured, ?_, ?_⟩
  · intro others fewer chars
    exact sendAll_of_same_chars mapped small diverted success fewer chars
  · intro output fault failed refused
    have header : after.memory.header = machine.memory.header := by rw [captured.same]
    have streams : after.streams = machine.streams := by rw [same]
    exact counted_of_refused (header ▸ small) (streams ▸ diverted) refused

end Diverted

/-- A table at 64 captures two texts and a line end between them, in any pieces. The last letter has
no code. Ten more letters do not fit in dynamic memory, which ends at 80. -/
theorem diverted_output_captured_sample :
    let machine := { sample 5 [] .absent with streams := { tables := [64, 40] } }
    let outputs := [Output.text "Hi", .newLine, .text "é€"]
    let after := stateAfter (sendAll outputs) machine
    let failed := stateAfter (Output.text "overflowed").send after
    machine.memory.Captures 64 [72, 105, 13, 170, 63] after.memory ∧
      after.streams.tables = [64, 40] ∧ after.host = machine.host ∧
      sendAll [.text "Hi\né", .text "", .text "€"] machine = .ok () after ∧
      valueOf (Output.text "overflowed").send after = none ∧
      failed.memory.bytes.wordAt 64 = 5 := by
  intro machine outputs after failed
  have mapped : machine.memory.Mapped := ⟨by decide +kernel, by decide +kernel, rfl⟩
  have small : machine.memory.header.staticBase < 65536 := by decide +kernel
  have diverted : machine.streams.tables = [64, 40] := rfl
  have codes : machine.codec.tableCodes (outputs.flatMap Output.chars) = [72, 105, 13, 170, 63] := by
    decide +kernel
  have sent : valueOf (sendAll outputs) machine = some () := by decide +kernel
  have count : after.memory.bytes.wordAt 64 = 5 := by decide +kernel
  have refused : valueOf (Output.text "overflowed").send after = none := by decide +kernel
  have pieces : [Output.text "Hi\né", .text "", .text "€"].flatMap Output.chars =
      outputs.flatMap Output.chars := by
    decide +kernel
  have success : sendAll outputs machine = .ok () after := eq_ok_of_valueOf sent
  clear_value machine after
  rcases diverted_output_captured mapped small diverted success with ⟨same, captured, cuts, keeps⟩
  rw [codes] at captured
  refine ⟨captured, ?_, ?_, cuts _ (by simp [outputs]) pieces, refused, ?_⟩
  · rw [same, diverted]
  · rw [same]
  · cases ended : (Output.text "overflowed").send after with
    | ok value other =>
        rw [valueOf_of_ok ended] at refused
        cases refused
    | error fault other =>
        have kept := (keeps _ fault other ended).2.1
        rw [show failed = other from stateAfter_of_error ended, kept, count]

end Machine

end ZMachine
