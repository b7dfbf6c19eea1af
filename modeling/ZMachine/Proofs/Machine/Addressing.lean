import ZMachine.Proofs.Machine.Play
import ZMachine.Proofs.Memory.Tables

/-!
# Addresses in instructions

Whatever an instruction does, an address that it cannot reach has 32 bits. Most addresses of an
instruction are its operands, which are words, or lie a few bytes behind one. The rows of a printed
table may be far apart, and there it matters that rows without characters are the only ones that can
lie outside the story.

The parts of instructions come first, then output and input, routines and branches, and last the
families of operations, which are put together from all of these.
-/

namespace ZMachine.Machine

variable {η : Type}

/-- The story is bounded, and so are the places that the machine knows. -/
structure Bounded (machine : Machine η) : Prop where
  memory : machine.memory.Bounded
  abbreviations : machine.abbreviations.address < 65536
  objects : machine.objects.address < 65536
  dictionary : ∀ dictionary ∈ machine.dictionary, dictionary.Fits
  tables : ∀ table ∈ machine.streams.tables, table < 65536

theorem Bounded.of_memory {machine : Machine η} {memory : Memory} (bounded : machine.Bounded)
    (same : memory.Bounded) : ({ machine with memory } : Machine η).Bounded :=
  ⟨same, bounded.abbreviations, bounded.objects, bounded.dictionary, bounded.tables⟩

/-- A word that is an operand is far from the end of the range of addresses. -/
theorem fits_word (value : UInt16) : value.toNat + 1 < addressCount := by
  have small := value.toNat_lt
  exact lt_addressCount (by omega)

theorem ensures_inspect {α : Type} {law : α → Prop} {query : Machine η → Except Fault α}
    (answers : ∀ machine : Machine η, machine.Bounded → Answers law (query machine)) :
    Ensures Bounded law (inspect query) := by
  intro machine bounded
  rcases (answers machine bounded).cases with ⟨value, found, lawful⟩ | ⟨fault, found, fits⟩
  · rw [inspect_of_ok found]
    exact ⟨lawful, bounded⟩
  · rw [inspect_of_error found]
    exact fits

/-- A look at the machine never fails. -/
theorem ensures_view {α : Type} (view : Machine η → α) :
    Ensures Bounded (fun _ => True) (inspect fun machine => .ok (view machine)) :=
  ensures_inspect fun _ _ => trivial

/-- A query about which nothing needs to be known, and what comes after it. -/
theorem ensures_inspect_bind {α β : Type} {goal : β → Prop} {query : Machine η → Except Fault α}
    {next : α → MachineM η β}
    (answers : ∀ machine : Machine η, machine.Bounded → Answers (fun _ => True) (query machine))
    (rest : ∀ value, Ensures Bounded goal (next value)) :
    Ensures Bounded goal (inspect query >>= next) :=
  (ensures_inspect answers).bind fun value _ => rest value

theorem ensures_onMemory {α : Type} {law : α → Prop} {action : MemoryM α}
    (ensures : Ensures Memory.Bounded law action) :
    Ensures Bounded law (onMemory action : MachineM η α) := by
  intro machine bounded
  rcases ensures.cases machine.memory bounded.memory with
    ⟨value, memory, run, lawful, kept⟩ | ⟨fault, memory, run, fits⟩
  · rw [onMemory_of_ok run]
    exact ⟨lawful, bounded.of_memory kept⟩
  · rw [onMemory_of_error run]
    exact fits

theorem ensures_get : Ensures Bounded Bounded (get : MachineM η (Machine η)) :=
  fun _ bounded => ⟨bounded, bounded⟩

theorem ensures_answer {α : Type} {blame : String → Fault} (request : η → Except String α × η)
    (blames : ∀ reason, (blame reason).Addressable) :
    Ensures Bounded (fun _ => True) (answer blame request) := by
  intro machine bounded
  unfold answer
  rcases request machine.host with ⟨found, host⟩
  cases found with
  | ok value =>
      exact ⟨trivial, bounded.memory, bounded.abbreviations, bounded.objects, bounded.dictionary,
        bounded.tables⟩
  | error reason => exact blames reason

theorem ensures_display [Host η] (request : Request) :
    Ensures Bounded (fun _ => True) (display request : MachineM η Unit) :=
  ensures_answer _ fun _ => trivial

theorem ensures_input {α : Type} (request : η → Except String α × η) :
    Ensures Bounded (fun _ => True) (answer .input request) :=
  ensures_answer request fun _ => trivial

theorem ensures_storeResult (instruction : Instruction) (value : UInt16) :
    Ensures Bounded (fun _ => True) (storeResult instruction value : MachineM η Unit) := by
  unfold storeResult
  cases instruction.store with
  | none => exact Ensures.pure trivial
  | some name => exact ensures_onMemory (Memory.ensures_writeVariable name value)

theorem ensures_conclude (instruction : Instruction) (value : UInt16) :
    Ensures Bounded (fun _ => True) (conclude instruction value : MachineM η Outcome) :=
  (ensures_storeResult instruction value).bind fun _ _ => Ensures.pure trivial

theorem ensures_need (instruction : Instruction) (values : List UInt16) (index : Nat) :
    Ensures Bounded (fun _ => True) (need instruction values index : MachineM η UInt16) := by
  unfold need
  cases values[index]? with
  | none => exact Ensures.throw trivial
  | some value => exact Ensures.pure trivial

theorem ensures_setStreams {change : Streams → Streams}
    (fits : ∀ streams : Streams, (∀ table ∈ streams.tables, table < 65536) →
      ∀ table ∈ (change streams).tables, table < 65536) :
    Ensures Bounded (fun _ => True) (setStreams change : MachineM η Unit) :=
  fun machine bounded => ⟨trivial, bounded.memory, bounded.abbreviations, bounded.objects,
    bounded.dictionary, fits machine.streams bounded.tables⟩

theorem ensures_jumpTo (address : Nat) :
    Ensures Bounded (fun _ => True) (jumpTo address : MachineM η Unit) :=
  fun _ bounded => ⟨trivial, bounded.of_memory (bounded.memory.of_same rfl rfl)⟩

theorem ensures_writeTableChars (codec : Codec) {table : Nat} (small : table < 65536) (count : UInt16)
    (text : List Char) :
    Ensures Memory.Bounded (fun _ => True) (writeTableChars codec table count text) := by
  induction text generalizing count with
  | nil => exact Ensures.pure trivial
  | cons c rest ih =>
      have word := count.toNat_lt
      refine (Memory.ensures_writeByte _ ?_).bind fun _ _ => ih (count + 1)
      exact lt_addressCount (by omega)

theorem ensures_writeTable (codec : Codec) {table : Nat} (small : table < 65536) (text : String) :
    Ensures Memory.Bounded (fun _ => True) (writeTable codec table text) := by
  have fits : table + 1 < addressCount := lt_addressCount (by omega)
  have counted : Ensures Memory.Bounded (fun _ => True) (Memory.inspect (·.readWord table)) :=
    Memory.ensures_inspect fun _ _ => Memory.answers_readWord fits
  refine counted.bind fun count _ => ?_
  refine (ensures_writeTableChars codec small count text.toList).bind fun count _ => ?_
  exact (Memory.ensures_writeWord count fits).mono fun _ _ => trivial

section Output

variable [Host η]

theorem ensures_outputText (text : String) :
    Ensures Bounded (fun _ => True) (outputText text : MachineM η Unit) := by
  refine ensures_get.bind fun machine bounded => ?_
  cases shape : machine.streams.tables with
  | nil => exact Ensures.ite (fun _ => Ensures.pure trivial) fun _ => ensures_display _
  | cons table outer =>
      have small := bounded.tables table (by rw [shape]; exact List.mem_cons_self ..)
      exact ensures_onMemory (ensures_writeTable _ small text)

theorem ensures_outputNewLine :
    Ensures Bounded (fun _ => True) (outputNewLine : MachineM η Unit) := by
  refine (ensures_view _).bind fun streams _ => ?_
  exact Ensures.ite (fun _ => ensures_outputText _) fun _ => ensures_display _

theorem ensures_setTranscript (enabled : Bool) :
    Ensures Bounded (fun _ => True) (setTranscript enabled : MachineM η Unit) := by
  have fits : Header.flags2Address + 1 < addressCount := by decide
  have switched : Ensures Bounded (fun _ => True)
      (setStreams ({ · with transcript := enabled }) : MachineM η Unit) :=
    ensures_setStreams fun _ => id
  refine switched.bind fun _ _ => ?_
  refine ensures_inspect_bind (fun _ _ => Memory.answers_readWord fits) fun flags => ?_
  refine (ensures_onMemory (Memory.ensures_writeWord _ fits)).bind fun _ _ => ?_
  exact ensures_display _

omit [Host η] in
theorem ensures_openTable {table : Nat} (small : table < 65536) :
    Ensures Bounded (fun _ => True) (openTable table : MachineM η Unit) := by
  refine (ensures_view _).bind fun streams _ => ?_
  refine Ensures.ite (fun _ => Ensures.throw trivial) fun _ => ?_
  have fits : table + 1 < addressCount := lt_addressCount (by omega)
  refine (ensures_onMemory (Memory.ensures_writeWord 0 fits)).bind fun _ _ => ?_
  apply ensures_setStreams
  intro streams words other member
  rcases List.mem_cons.mp member with rfl | older
  · exact small
  · exact words other older

theorem ensures_selectStream (stream : Int) (table : Option UInt16) :
    Ensures Bounded (fun _ => True) (selectStream stream table : MachineM η Unit) := by
  refine Ensures.ite (fun _ => ensures_setStreams fun _ => id) fun _ => ?_
  refine Ensures.ite (fun _ => ensures_setStreams fun _ => id) fun _ => ?_
  refine Ensures.ite (fun _ => ensures_setTranscript true) fun _ => ?_
  refine Ensures.ite (fun _ => ensures_setTranscript false) fun _ => ?_
  apply Ensures.ite
  · intro _
    cases table with
    | none => exact Ensures.throw trivial
    | some table => exact ensures_openTable table.toNat_lt
  · intro _
    refine Ensures.ite (fun _ => ?_) fun _ => Ensures.pure trivial
    apply ensures_setStreams
    intro streams words table member
    exact words table (List.mem_of_mem_tail member)

theorem ensures_printString {address : Nat} (fits : address < addressCount) :
    Ensures Bounded (fun _ => True) (printString address : MachineM η Unit) := by
  refine ensures_inspect_bind ?_ fun found => ensures_outputText _
  intro machine bounded
  exact AbbreviationTable.answers_stringAt bounded.abbreviations bounded.memory _ fits

/-- The rows of a table that are still to be printed. Rows with characters begin below high memory, or
printing stops there. Rows without any may begin anywhere, but they are less than a word apart. -/
structure RowsFit (width stride count address : Nat) : Prop where
  near : stride < 131072
  first : address + 1 < addressCount
  empty : width = 0 → address + count * stride + 1 < addressCount

omit [Host η] in
theorem rowsFit_of_words (start width skip height : UInt16) :
    RowsFit width.toNat (width.toNat + skip.toNat) height.toNat start.toNat := by
  have startSmall := start.toNat_lt
  have widthSmall := width.toNat_lt
  have skipSmall := skip.toNat_lt
  have heightSmall := height.toNat_lt
  refine ⟨by omega, fits_word start, fun none => ?_⟩
  have far : height.toNat * (width.toNat + skip.toNat) ≤ 65535 * 65535 :=
    Nat.mul_le_mul (by omega) (by omega)
  unfold addressCount
  omega

omit [Host η] in
theorem RowsFit.next {width stride count address : Nat}
    (rows : RowsFit width stride (count + 1) address) (inside : 0 < width → address < 65536) :
    RowsFit width stride count (address + stride) := by
  have near := rows.near
  have empty := rows.empty
  rw [Nat.succ_mul] at empty
  by_cases none : width = 0
  · have far := empty none
    exact ⟨near, by omega, fun _ => by omega⟩
  · have small := inside (Nat.pos_of_ne_zero none)
    exact ⟨near, lt_addressCount (by omega), fun no => absurd no none⟩

omit [Host η] in
theorem ensures_readRow (width : Nat) {address : Nat} (fits : address + 1 < addressCount) :
    Ensures Bounded (fun _ => 0 < width → address < 65536)
      (inspect fun machine : Machine η => machine.memory.readText machine.codec width address "") := by
  apply ensures_inspect
  intro machine bounded
  refine (Memory.answers_readText bounded.memory _ _ _ fits).mono fun _ inside some => ?_
  exact Nat.lt_trans (inside some) bounded.memory.high

theorem ensures_printRows {width stride count address : Nat} (first : Bool)
    (rows : RowsFit width stride count address) :
    Ensures Bounded (fun _ => True) (printRows width stride count address first : MachineM η Unit) :=
    by
  induction count generalizing address first with
  | zero => exact Ensures.pure trivial
  | succ count ih =>
      have rest : ∀ _ : Unit, True → Ensures Bounded (fun _ => True) (do
          let text ← inspect fun machine : Machine η =>
            machine.memory.readText machine.codec width address ""
          outputText text
          printRows width stride count (address + stride) false) := by
        intro _ _
        refine (ensures_readRow width rows.first).bind fun text inside => ?_
        refine (ensures_outputText text).bind fun _ _ => ?_
        exact ih false (rows.next inside)
      unfold printRows
      split
      · exact ensures_outputNewLine.bind rest
      · exact rest () trivial

end Output

theorem ensures_readCell (name : UInt8) : Ensures Bounded (fun _ => True)
    (inspect fun machine : Machine η => machine.memory.readCell name) :=
  ensures_inspect fun _ bounded => Memory.answers_readCell bounded.memory name

theorem ensures_readByte {address : Nat} (fits : address + 1 < addressCount) :
    Ensures Bounded (fun _ => True)
      (inspect fun machine : Machine η => machine.memory.readByte address) :=
  ensures_inspect fun _ _ => (Memory.answers_readByte fits).mono fun _ _ => trivial

theorem ensures_readText (count : Nat) {address : Nat} (fits : address + 1 < addressCount) :
    Ensures Bounded (fun _ => True)
      (inspect fun machine : Machine η =>
        machine.memory.readText machine.codec count address "") :=
  (ensures_readRow count fits).mono fun _ _ => trivial

theorem ensures_showStatus [Host η] :
    Ensures Bounded (fun _ => True) (showStatus : MachineM η Unit) := by
  refine ensures_get.bind fun machine _ => ?_
  refine Ensures.ite (fun _ => Ensures.pure trivial) fun _ => ?_
  refine (ensures_readCell 16).bind fun location _ => ?_
  refine (ensures_readCell 17).bind fun first _ => ?_
  refine (ensures_readCell 18).bind fun second _ => ?_
  dsimp only
  split
  · exact ensures_display _
  · refine ensures_inspect_bind ?_ fun name => ensures_display _
    intro machine bounded
    exact ObjectTable.answers_shortName bounded.objects bounded.memory _ bounded.abbreviations _

theorem ensures_tokeniseLine (line : String) {parse : Nat} (skipUnknown : Bool)
    {otherwise : MachineM η Unit} (small : parse < 65536)
    (ensures : Ensures Bounded (fun _ => True) otherwise) :
    Ensures Bounded (fun _ => True) (tokeniseLine line parse skipUnknown otherwise) := by
  intro machine bounded
  unfold tokeniseLine
  cases present : machine.dictionary with
  | none => exact ensures machine bounded
  | some dictionary =>
      have fits := bounded.dictionary dictionary (by rw [present]; rfl)
      have tokenised := Dictionary.ensures_tokeniseInto machine.codec line skipUnknown small
      rcases tokenised.cases (dictionary, machine.memory) ⟨fits, bounded.memory⟩ with
        ⟨count, ⟨later, memory⟩, run, _, still⟩ | ⟨fault, later, run, addressable⟩
      · dsimp only
        rw [run]
        refine ⟨trivial, still.2, bounded.abbreviations, bounded.objects, ?_, bounded.tables⟩
        intro other member
        cases member
        exact still.1
      · dsimp only
        rw [run]
        exact addressable

theorem ensures_writeBuffer (version : Nat) {buffer : Nat} (codes : List UInt8)
    (small : buffer < 65536) (few : codes.length < 256) :
    Ensures Memory.Bounded (fun _ => True) (writeBuffer version buffer codes) := by
  apply Ensures.ite
  · intro _
    refine (Memory.ensures_writeBytes codes (lt_addressCount (by omega))).bind fun _ _ => ?_
    exact (Memory.ensures_writeByte _ (lt_addressCount (by omega))).mono fun _ _ => trivial
  · intro _
    refine (Memory.ensures_writeBytes codes (lt_addressCount (by omega))).bind fun _ _ => ?_
    exact (Memory.ensures_writeByte _ (lt_addressCount (by omega))).mono fun _ _ => trivial

theorem length_bufferCodes_lt (codec : Codec) (version : Nat) (size : UInt8) (line : String) :
    (bufferCodes codec (bufferCapacity version size.toNat) line).length < 256 := by
  have byte := size.toNat_lt
  have capacity : bufferCapacity version size.toNat ≤ size.toNat := by
    unfold bufferCapacity
    split
    · omega
    · omega
  simp only [bufferCodes, List.length_map, List.length_take]
  omega

theorem ensures_readLine [Host η] {text parse : Nat} (textSmall : text < 65536)
    (parseSmall : parse < 65536) :
    Ensures Bounded (fun _ => True) (readLine text parse : MachineM η Unit) := by
  refine (ensures_view _).bind fun version _ => ?_
  have rest : Ensures Bounded (fun _ => True) (do
      let size ← inspect fun machine : Machine η => machine.memory.readByte text
      let capacity := bufferCapacity version size.toNat
      let line ← answer .input (Host.readLine capacity)
      let codec ← inspect fun machine => .ok machine.codec
      let codes := bufferCodes codec capacity line
      onMemory (writeBuffer version text codes)
      if parse ≠ 0 then
        tokeniseLine (bufferText codec codes) parse false
          (onMemory (Memory.writeByte (parse + 1) 0))) := by
    refine (ensures_readByte (lt_addressCount (by omega))).bind fun size _ => ?_
    refine (ensures_input _).bind fun line _ => ?_
    refine (ensures_view _).bind fun codec _ => ?_
    have few := length_bufferCodes_lt codec version size line
    refine (ensures_onMemory (ensures_writeBuffer version _ textSmall few)).bind fun _ _ => ?_
    refine Ensures.ite (fun _ => ?_) fun _ => Ensures.pure trivial
    refine ensures_tokeniseLine _ _ parseSmall (ensures_onMemory ?_)
    exact (Memory.ensures_writeByte _ (lt_addressCount (by omega))).mono fun _ _ => trivial
  dsimp only
  split
  · exact ensures_showStatus.bind fun _ _ => rest
  · exact rest

theorem ensures_readKey [Host η] :
    Ensures Bounded (fun _ => True) (readKey : MachineM η UInt16) := by
  refine (ensures_input _).bind fun key _ => ?_
  refine (ensures_view _).bind fun codec _ => ?_
  exact Ensures.ite (fun _ => Ensures.pure trivial) fun _ => Ensures.pure trivial

theorem ensures_tokenise {text parse dictionary : Nat} (skipUnknown : Bool)
    (textSmall : text < 65536) (parseSmall : parse < 65536) (dictionarySmall : dictionary < 65536) :
    Ensures Bounded (fun _ => True)
      (tokenise text parse dictionary skipUnknown : MachineM η Unit) := by
  refine (ensures_readByte (lt_addressCount (by omega))).bind fun length _ => ?_
  refine (ensures_readText _ (lt_addressCount (by omega))).bind fun line _ => ?_
  apply Ensures.ite
  · intro _
    exact ensures_tokeniseLine line skipUnknown parseSmall (Ensures.pure trivial)
  · intro _
    have opened : Ensures Bounded Dictionary.Fits
        (inspect fun machine : Machine η => Dictionary.read machine.memory dictionary) :=
      ensures_inspect fun _ bounded => Dictionary.answers_read bounded.memory dictionarySmall
    refine opened.bind fun words fits => ?_
    refine (ensures_view _).bind fun codec _ => ensures_onMemory ?_
    intro memory bounded
    have tokenised := Dictionary.ensures_tokeniseInto codec line skipUnknown parseSmall
    rcases tokenised.cases (words, memory) ⟨fits, bounded⟩ with
      ⟨count, ⟨later, after⟩, run, _, still⟩ | ⟨fault, later, run, addressable⟩
    · dsimp only
      rw [run]
      exact ⟨trivial, still.2⟩
    · dsimp only
      rw [run]
      exact addressable

theorem ensures_writeWords {address : Nat} (words : List UInt16) (fits : address + 1 < addressCount) :
    Ensures Memory.Bounded (fun _ => True) (writeWords address words) := by
  induction words generalizing address with
  | nil => exact Ensures.pure trivial
  | cons word words ih =>
      refine (Memory.ensures_writeWord word fits).bind fun _ small => ih ?_
      exact lt_addressCount (by omega)

theorem ensures_encodeText {text length start target : Nat} (textSmall : text < 65536)
    (startSmall : start < 65536) (targetSmall : target < 65536) :
    Ensures Bounded (fun _ => True) (encodeText text length start target : MachineM η Unit) := by
  refine (ensures_readText _ (lt_addressCount (by omega))).bind fun word _ => ?_
  refine (ensures_view _).bind fun codec _ => ?_
  exact ensures_onMemory (ensures_writeWords _ (lt_addressCount (by omega)))

theorem ensures_returnValue (value : UInt16) :
    Ensures Bounded (fun _ => True) (returnValue value : MachineM η Outcome) := by
  have popped : Ensures Memory.Bounded (fun _ => True) Memory.popFrame := by
    intro memory bounded
    unfold Memory.popFrame
    cases memory.frames with
    | nil => trivial
    | cons caller frames => exact ⟨trivial, bounded.of_same rfl rfl⟩
  refine (ensures_onMemory popped).bind fun frame _ => ?_
  refine (ensures_jumpTo frame.returnPc).bind fun _ _ => ?_
  dsimp only
  cases frame.returnStore with
  | none => exact Ensures.pure trivial
  | some name =>
      refine (ensures_onMemory (Memory.ensures_writeVariable name value)).bind fun _ _ => ?_
      exact Ensures.pure trivial

theorem ensures_branchIf (instruction : Instruction) (condition : Bool) :
    Ensures Bounded (fun _ => True) (branchIf instruction condition : MachineM η Outcome) := by
  unfold branchIf
  cases instruction.branch with
  | none => exact Ensures.pure trivial
  | some branch =>
      refine Ensures.ite (fun _ => Ensures.pure trivial) fun _ => ?_
      cases branch.target with
      | returnFalse => exact ensures_returnValue 0
      | returnTrue => exact ensures_returnValue 1
      | address address =>
          exact (ensures_jumpTo address).bind fun _ _ => Ensures.pure trivial

theorem ensures_jumpBy (offset : Int) :
    Ensures Bounded (fun _ => True) (jumpBy offset : MachineM η Outcome) := by
  refine (ensures_view _).bind fun pc _ => ?_
  exact (ensures_jumpTo _).bind fun _ _ => Ensures.pure trivial

theorem ensures_throwTo (value : UInt16) (depth : Nat) :
    Ensures Bounded (fun _ => True) (throwTo value depth : MachineM η Outcome) := by
  have dropped : ∀ (count : Nat) (memory : Memory), memory.Bounded →
      (memory.dropFrames count).Bounded := by
    intro count
    induction count with
    | zero => exact fun memory bounded => bounded
    | succ count ih =>
        intro memory bounded
        unfold Memory.dropFrames
        cases memory.frames with
        | nil => exact bounded
        | cons caller frames => exact ih _ (bounded.of_same rfl rfl)
  have unwound : Ensures Memory.Bounded (fun _ => True) (Memory.unwindTo depth) := by
    intro memory bounded
    unfold Memory.unwindTo
    by_cases deep : memory.frameDepth < depth
    · rw [if_pos deep]
      trivial
    · rw [if_neg deep]
      exact ⟨trivial, dropped _ memory bounded⟩
  exact (ensures_onMemory unwound).bind fun _ _ => ensures_returnValue value

theorem ensures_readInitials {count number address : Nat} (fits : address < addressCount) :
    Ensures Memory.Bounded (fun _ => True) (readInitials count number address) := by
  induction count generalizing number address with
  | zero => exact Ensures.pure trivial
  | succ count ih =>
      have fetched : Ensures Memory.Bounded (fun _ => address < 524288)
          (Memory.inspect (·.fetchWord address)) := by
        apply Memory.ensures_inspect
        intro memory bounded
        refine (Memory.answers_fetchWord fits).mono fun _ inside => ?_
        have size := bounded.size
        omega
      refine fetched.bind fun value near => ?_
      refine (Memory.ensures_writeVariable _ value).bind fun _ _ => ih ?_
      exact lt_addressCount (by omega)

theorem ensures_writeArguments (count number : Nat) (arguments : List UInt16) :
    Ensures Memory.Bounded (fun _ => True) (writeArguments count number arguments) := by
  induction count generalizing number arguments with
  | zero => exact Ensures.pure trivial
  | succ count ih =>
      cases arguments with
      | nil => exact Ensures.pure trivial
      | cons argument arguments =>
          refine (Memory.ensures_writeVariable _ argument).bind fun _ _ => ?_
          exact ih (number + 1) arguments

theorem ensures_enterRoutine {address : Nat} (arguments : List UInt16) (returnStore : Option UInt8)
    (fits : address + 1 < addressCount) :
    Ensures Memory.Bounded (fun _ => True) (enterRoutine address arguments returnStore) := by
  have counted : Ensures Memory.Bounded (fun _ => True) (Memory.inspect (·.fetchByte address)) := by
    apply Memory.ensures_inspect
    intro memory _
    exact (Memory.answers_fetchByte (Nat.lt_of_succ_lt fits)).mono fun _ _ => trivial
  refine counted.bind fun count _ => ?_
  have looked : Ensures Memory.Bounded (fun _ => True) (get : MemoryM Memory) :=
    fun _ bounded => ⟨trivial, bounded⟩
  refine looked.bind fun before _ => ?_
  have pushed : Ensures Memory.Bounded (fun _ => True)
      (Memory.pushFrame before.pc count.toNat returnStore) := by
    intro memory bounded
    unfold Memory.pushFrame
    by_cases many : Memory.maxLocals < count.toNat
    · rw [if_pos many]
      trivial
    · rw [if_neg many]
      exact ⟨trivial, bounded.of_same rfl rfl⟩
  refine pushed.bind fun _ _ => ?_
  have rest : ∀ start, Ensures Memory.Bounded (fun _ => True) (do
      writeArguments count.toNat 1 arguments
      modify fun memory => { memory.setArgCount arguments.length with pc := start }) := by
    intro start
    refine (ensures_writeArguments _ _ arguments).bind fun _ _ => ?_
    exact fun _ bounded => ⟨trivial, bounded.of_same rfl rfl⟩
  dsimp only
  split
  · exact (ensures_readInitials fits).bind fun _ _ => rest _
  · exact rest _

theorem unpack_lt (version packed : Nat) {offset : Nat} (small : packed < 65536)
    (near : offset < 65536) : Memory.unpack version packed offset < 1048576 := by
  unfold Memory.unpack
  split
  · omega
  · split
    · omega
    · split
      · omega
      · omega

theorem ensures_callRoutine (packed : UInt16) (arguments : List UInt16) (returnStore : Option UInt8) :
    Ensures Bounded (fun _ => True)
      (callRoutine packed arguments returnStore : MachineM η Outcome) := by
  apply Ensures.ite
  · intro _
    cases returnStore with
    | none => exact Ensures.pure trivial
    | some name =>
        refine (ensures_onMemory (Memory.ensures_writeVariable name 0)).bind fun _ _ => ?_
        exact Ensures.pure trivial
  · intro _
    have unpacked : Ensures Bounded (· < 1048576)
        (inspect fun machine : Machine η => .ok (machine.memory.unpackRoutine packed)) :=
      ensures_inspect fun machine bounded =>
        unpack_lt _ _ packed.toNat_lt bounded.memory.routines
    refine unpacked.bind fun address near => ?_
    have fits : address + 1 < addressCount := lt_addressCount (by omega)
    refine (ensures_onMemory (ensures_enterRoutine arguments returnStore fits)).bind fun _ _ => ?_
    exact Ensures.pure trivial

theorem ensures_pull (instruction : Instruction) (values : List UInt16) :
    Ensures Bounded (fun _ => True) (pull instruction values : MachineM η Outcome) := by
  apply Ensures.ite
  · intro _
    refine Ensures.ite (fun _ => ?_) fun _ => Ensures.throw trivial
    exact (ensures_onMemory Memory.ensures_pop).bind fun value _ => ensures_conclude _ _
  · intro _
    refine (ensures_need _ _ _).bind fun name _ => ?_
    refine (ensures_onMemory Memory.ensures_pop).bind fun value _ => ?_
    refine (ensures_onMemory (Memory.ensures_pokeVariable _ _)).bind fun _ _ => ?_
    exact Ensures.pure trivial

section Families

variable (instruction : Instruction) (values : List UInt16)

theorem ensures_combine (operation : UInt16 → UInt16 → UInt16) :
    Ensures Bounded (fun _ => True) (combine instruction values operation : MachineM η Outcome) := by
  refine (ensures_need _ _ _).bind fun left _ => (ensures_need _ _ _).bind fun right _ => ?_
  exact ensures_conclude _ _

theorem ensures_combineNonzero (operation : UInt16 → UInt16 → UInt16) :
    Ensures Bounded (fun _ => True)
      (combineNonzero instruction values operation : MachineM η Outcome) := by
  refine (ensures_need _ _ _).bind fun left _ => (ensures_need _ _ _).bind fun right _ => ?_
  exact Ensures.ite (fun _ => Ensures.throw trivial) fun _ => ensures_conclude _ _

theorem ensures_compare (relation : UInt16 → UInt16 → Bool) :
    Ensures Bounded (fun _ => True) (compare instruction values relation : MachineM η Outcome) := by
  refine (ensures_need _ _ _).bind fun left _ => (ensures_need _ _ _).bind fun right _ => ?_
  exact ensures_branchIf _ _

theorem ensures_updateVariable (name : UInt8) (change : UInt16 → UInt16) :
    Ensures Bounded (fun _ => True) (updateVariable name change : MachineM η UInt16) := by
  refine ensures_inspect_bind ?_ fun value => ?_
  · exact fun _ bounded => Memory.answers_peekVariable bounded.memory name
  · refine (ensures_onMemory (Memory.ensures_pokeVariable _ _)).bind fun _ _ => ?_
    exact Ensures.pure trivial

theorem ensures_count (change : UInt16 → UInt16) :
    Ensures Bounded (fun _ => True) (count instruction values change : MachineM η Outcome) := by
  refine (ensures_need _ _ _).bind fun name _ => ?_
  exact (ensures_updateVariable _ _).bind fun _ _ => Ensures.pure trivial

theorem ensures_countAndCompare (change : UInt16 → UInt16) (relation : Int → Int → Bool) :
    Ensures Bounded (fun _ => True)
      (countAndCompare instruction values change relation : MachineM η Outcome) := by
  refine (ensures_need _ _ _).bind fun name _ => (ensures_need _ _ _).bind fun limit _ => ?_
  exact (ensures_updateVariable _ _).bind fun value _ => ensures_branchIf _ _

theorem ensures_randomNumber [Host η] (range : Int) :
    Ensures Bounded (fun _ => True) (randomNumber range : MachineM η UInt16) := by
  intro machine bounded
  have other : ∀ host : η, ({ machine with host } : Machine η).Bounded := fun host =>
    ⟨bounded.memory, bounded.abbreviations, bounded.objects, bounded.dictionary, bounded.tables⟩
  unfold randomNumber
  by_cases positive : 0 < range
  · rw [if_pos positive]
    exact ⟨trivial, other _⟩
  · rw [if_neg positive]
    by_cases negative : range < 0
    · rw [if_pos negative]
      exact ⟨trivial, other _⟩
    · rw [if_neg negative]
      exact ⟨trivial, other _⟩

theorem ensures_arithmetic [Host η] (opcode : Opcode) :
    Ensures Bounded (fun _ => True) (arithmetic instruction opcode values : MachineM η Outcome) := by
  unfold arithmetic
  split
  · refine (ensures_need _ _ _).bind fun value _ => (ensures_need _ _ _).bind fun _ _ => ?_
    exact ensures_branchIf _ _
  · exact ensures_compare _ _ _
  · exact ensures_compare _ _ _
  · exact (ensures_need _ _ _).bind fun value _ => ensures_branchIf _ _
  · exact ensures_compare _ _ _
  · exact ensures_combine _ _ _
  · exact ensures_combine _ _ _
  · exact (ensures_need _ _ _).bind fun value _ => ensures_conclude _ _
  · exact ensures_combine _ _ _
  · exact ensures_combine _ _ _
  · exact ensures_combine _ _ _
  · exact ensures_combine _ _ _
  · exact ensures_combine _ _ _
  · exact ensures_combineNonzero _ _ _
  · exact ensures_combineNonzero _ _ _
  · exact ensures_count _ _ _
  · exact ensures_count _ _ _
  · exact ensures_countAndCompare _ _ _ _
  · exact ensures_countAndCompare _ _ _ _
  · refine (ensures_need _ _ _).bind fun range _ => ?_
    exact (ensures_randomNumber _).bind fun number _ => ensures_conclude _ _
  · exact Ensures.throw trivial

theorem ensures_table (opcode : Opcode) :
    Ensures Bounded (fun _ => True) (table instruction opcode values : MachineM η Outcome) := by
  unfold table
  split
  · refine (ensures_need _ _ _).bind fun name _ => ?_
    refine ensures_inspect_bind ?_ fun value => ensures_conclude _ _
    exact fun _ bounded => Memory.answers_peekVariable bounded.memory _
  · refine (ensures_need _ _ _).bind fun name _ => (ensures_need _ _ _).bind fun value _ => ?_
    refine (ensures_onMemory (Memory.ensures_pokeVariable _ _)).bind fun _ _ => ?_
    exact Ensures.pure trivial
  · refine (ensures_need _ _ _).bind fun start _ => (ensures_need _ _ _).bind fun index _ => ?_
    refine ensures_inspect_bind ?_ fun value => ensures_conclude _ _
    exact fun _ _ => Memory.answers_readWord (fits_word _)
  · refine (ensures_need _ _ _).bind fun start _ => (ensures_need _ _ _).bind fun index _ => ?_
    exact (ensures_readByte (fits_word _)).bind fun value _ => ensures_conclude _ _
  · refine (ensures_need _ _ _).bind fun start _ => (ensures_need _ _ _).bind fun index _ => ?_
    refine (ensures_need _ _ _).bind fun value _ => ?_
    refine (ensures_onMemory (Memory.ensures_writeWord _ (fits_word _))).bind fun _ _ => ?_
    exact Ensures.pure trivial
  · refine (ensures_need _ _ _).bind fun start _ => (ensures_need _ _ _).bind fun index _ => ?_
    refine (ensures_need _ _ _).bind fun value _ => ?_
    refine (ensures_onMemory (Memory.ensures_writeByte _ (fits_word _))).bind fun _ _ => ?_
    exact Ensures.pure trivial
  · refine (ensures_need _ _ _).bind fun source _ => (ensures_need _ _ _).bind fun target _ => ?_
    refine (ensures_need _ _ _).bind fun size _ => ?_
    have copied := Memory.ensures_copyTable (Word.signed size) (fits_word source) (fits_word target)
    exact (ensures_onMemory copied).bind fun _ _ => Ensures.pure trivial
  · refine (ensures_need _ _ _).bind fun value _ => (ensures_need _ _ _).bind fun start _ => ?_
    refine (ensures_need _ _ _).bind fun count _ => ?_
    refine ensures_inspect_bind (fun _ _ => Memory.answers_scanTable _ _ _ _ _) fun found => ?_
    exact (ensures_storeResult _ _).bind fun _ _ => ensures_branchIf _ _
  · exact Ensures.throw trivial

theorem ensures_askObject {α : Type} (object : UInt16) (nothing : α)
    {question : ObjectTable → Memory → Nat → Except Fault α}
    (answers : ∀ (objects : ObjectTable) (memory : Memory), objects.address < 65536 →
      memory.Bounded → Answers (fun _ => True) (question objects memory object.toNat)) :
    Ensures Bounded (fun _ => True) (askObject object nothing question : MachineM η α) := by
  refine Ensures.ite (fun _ => Ensures.pure trivial) fun _ => ?_
  exact ensures_inspect fun machine bounded => answers _ _ bounded.objects bounded.memory

theorem ensures_changeObjects {change : ObjectTable → MemoryM Unit}
    (ensures : ∀ objects : ObjectTable, objects.address < 65536 →
      Ensures Memory.Bounded (fun _ => True) (change objects)) :
    Ensures Bounded (fun _ => True) (changeObjects change : MachineM η Outcome) := by
  have looked : Ensures Bounded (fun objects : ObjectTable => objects.address < 65536)
      (inspect fun machine : Machine η => .ok machine.objects) :=
    ensures_inspect fun _ bounded => bounded.objects
  refine looked.bind fun objects word => ?_
  exact (ensures_onMemory (ensures objects word)).bind fun _ _ => Ensures.pure trivial

theorem ensures_followLink (link : Link) :
    Ensures Bounded (fun _ => True) (followLink instruction values link : MachineM η Outcome) := by
  refine (ensures_need _ _ _).bind fun object _ => ?_
  have followed : Ensures Bounded (fun _ => True) (askObject object 0 fun objects memory object =>
      objects.follow memory object link : MachineM η Nat) :=
    ensures_askObject _ _ fun _ memory word _ => ObjectTable.answers_follow word memory _ _
  refine followed.bind fun related _ => ?_
  exact (ensures_storeResult _ _).bind fun _ _ => ensures_branchIf _ _

theorem ensures_needProperty :
    Ensures Bounded (fun _ => True) (needProperty instruction values : MachineM η Nat) :=
  (ensures_need _ _ _).bind fun _ _ => Ensures.pure trivial

theorem ensures_world [Host η] (opcode : Opcode) :
    Ensures Bounded (fun _ => True) (world instruction opcode values : MachineM η Outcome) := by
  unfold world
  split
  · refine (ensures_need _ _ _).bind fun object _ => ?_
    refine (ensures_askObject _ _ ?_).bind fun parent _ => ensures_conclude _ _
    exact fun _ memory word _ => ObjectTable.answers_follow word memory _ _
  · exact ensures_followLink _ _ _
  · exact ensures_followLink _ _ _
  · refine (ensures_need _ _ _).bind fun object _ => (ensures_need _ _ _).bind fun container _ => ?_
    refine (ensures_askObject _ _ ?_).bind fun inside _ => ensures_branchIf _ _
    intro objects memory word _
    exact (ObjectTable.answers_follow word memory _ _).map fun _ _ => trivial
  · refine (ensures_need _ _ _).bind fun object _ => (ensures_need _ _ _).bind fun index _ => ?_
    refine (ensures_askObject _ _ ?_).bind fun has _ => ensures_branchIf _ _
    exact fun _ memory word _ => ObjectTable.answers_hasAttribute word memory _ _
  · refine (ensures_need _ _ _).bind fun object _ => (ensures_need _ _ _).bind fun index _ => ?_
    exact ensures_changeObjects fun _ word => ObjectTable.ensures_writeAttribute word _ _ _
  · refine (ensures_need _ _ _).bind fun object _ => (ensures_need _ _ _).bind fun index _ => ?_
    exact ensures_changeObjects fun _ word => ObjectTable.ensures_writeAttribute word _ _ _
  · refine (ensures_need _ _ _).bind fun object _ => (ensures_need _ _ _).bind fun target _ => ?_
    exact ensures_changeObjects fun _ word => ObjectTable.ensures_insert word _ _
  · refine (ensures_need _ _ _).bind fun object _ => ?_
    refine Ensures.ite (fun _ => Ensures.pure trivial) fun _ => ?_
    exact ensures_changeObjects fun _ word => ObjectTable.ensures_remove word _
  · refine (ensures_need _ _ _).bind fun object _ => ?_
    refine (ensures_needProperty _ _).bind fun number _ => ?_
    refine ensures_inspect_bind ?_ fun value => ensures_conclude _ _
    exact fun _ bounded => ObjectTable.answers_propertyValue bounded.objects bounded.memory _ _
  · refine (ensures_need _ _ _).bind fun object _ => ?_
    refine (ensures_needProperty _ _).bind fun number _ => ?_
    refine (ensures_askObject _ _ ?_).bind fun address _ => ensures_conclude _ _
    exact fun _ memory word bounded => ObjectTable.answers_propertyAddress word bounded _ _
  · refine (ensures_need _ _ _).bind fun address _ => ?_
    refine ensures_inspect_bind ?_ fun length => ensures_conclude _ _
    exact fun _ _ => ObjectTable.answers_propertyLength _ address.toNat_lt
  · refine (ensures_need _ _ _).bind fun object _ => ?_
    refine (ensures_needProperty _ _).bind fun number _ => ?_
    refine ensures_inspect_bind ?_ fun next => ensures_conclude _ _
    exact fun _ bounded => ObjectTable.answers_nextProperty bounded.objects bounded.memory _ _
  · refine (ensures_need _ _ _).bind fun object _ => ?_
    refine (ensures_needProperty _ _).bind fun number _ => (ensures_need _ _ _).bind fun value _ => ?_
    exact ensures_changeObjects fun _ word => ObjectTable.ensures_setProperty word _ _ _
  · refine (ensures_need _ _ _).bind fun object _ => ?_
    refine Ensures.ite (fun _ => Ensures.pure trivial) fun _ => ?_
    refine ensures_inspect_bind ?_ fun name => ?_
    · exact fun _ bounded =>
        ObjectTable.answers_shortName bounded.objects bounded.memory _ bounded.abbreviations _
    · exact (ensures_outputText name).bind fun _ _ => Ensures.pure trivial
  · exact Ensures.throw trivial

theorem ensures_call :
    Ensures Bounded (fun _ => True) (do
      let packed ← need instruction values 0
      callRoutine packed values.tail instruction.store : MachineM η Outcome) :=
  (ensures_need _ _ _).bind fun packed _ => ensures_callRoutine packed _ _

theorem ensures_routine [Host η] (opcode : Opcode) :
    Ensures Bounded (fun _ => True) (routine instruction opcode values : MachineM η Outcome) := by
  unfold routine
  split
  · exact ensures_call _ _
  · exact ensures_call _ _
  · exact ensures_call _ _
  · exact ensures_call _ _
  · exact ensures_call _ _
  · exact ensures_call _ _
  · exact ensures_call _ _
  · exact ensures_call _ _
  · exact (ensures_need _ _ _).bind fun value _ => ensures_returnValue value
  · exact ensures_returnValue 1
  · exact ensures_returnValue 0
  · exact (ensures_onMemory Memory.ensures_pop).bind fun value _ => ensures_returnValue value
  · have rest : Ensures Bounded (fun _ => True) (do
        outputNewLine
        returnValue 1 : MachineM η Outcome) :=
      ensures_outputNewLine.bind fun _ _ => ensures_returnValue 1
    cases instruction.text with
    | none => exact rest
    | some text => exact (ensures_outputText text).bind fun _ _ => rest
  · refine (ensures_need _ _ _).bind fun value _ => ?_
    exact (ensures_onMemory (Memory.ensures_push value)).bind fun _ _ => Ensures.pure trivial
  · exact ensures_pull _ _
  · exact (ensures_onMemory Memory.ensures_pop).bind fun _ _ => Ensures.pure trivial
  · exact (ensures_view _).bind fun depth _ => ensures_conclude _ _
  · refine (ensures_need _ _ _).bind fun value _ => (ensures_need _ _ _).bind fun depth _ => ?_
    exact ensures_throwTo _ _
  · refine (ensures_need _ _ _).bind fun number _ => ?_
    exact (ensures_view _).bind fun given _ => ensures_branchIf _ _
  · exact (ensures_need _ _ _).bind fun offset _ => ensures_jumpBy _
  · exact Ensures.throw trivial

theorem ensures_advancing {action : MachineM η Unit}
    (ensures : Ensures Bounded (fun _ => True) action) :
    Ensures Bounded (fun _ => True) (advancing action) :=
  ensures.bind fun _ _ => Ensures.pure trivial

theorem ensures_printTable [Host η] :
    Ensures Bounded (fun _ => True) (do
      let start ← need instruction values 0
      let width ← need instruction values 1
      let height := optional values 2 1
      let skip := optional values 3 0
      printRows width.toNat (width.toNat + skip.toNat) height.toNat start.toNat true :
        MachineM η Unit) := by
  refine (ensures_need _ _ _).bind fun start _ => (ensures_need _ _ _).bind fun width _ => ?_
  exact ensures_printRows true (rowsFit_of_words _ _ _ _)

theorem ensures_printing [Host η] (opcode : Opcode) :
    Ensures Bounded (fun _ => True) (printing instruction opcode values : MachineM η Unit) := by
  unfold printing
  split
  · cases instruction.text with
    | none => exact Ensures.pure trivial
    | some text => exact ensures_outputText text
  · refine (ensures_need _ _ _).bind fun address _ => ?_
    exact ensures_printString (Nat.lt_of_succ_lt (fits_word address))
  · refine (ensures_need _ _ _).bind fun packed _ => ?_
    have unpacked : Ensures Bounded (· < 1048576)
        (inspect fun machine : Machine η => .ok (machine.memory.unpackString packed)) :=
      ensures_inspect fun machine bounded => unpack_lt _ _ packed.toNat_lt bounded.memory.strings
    exact unpacked.bind fun address near => ensures_printString (lt_addressCount (by omega))
  · refine (ensures_need _ _ _).bind fun zscii _ => (ensures_view _).bind fun codec _ => ?_
    cases codec.charOfZscii zscii.toNat with
    | none => exact Ensures.pure trivial
    | some c => exact ensures_outputText _
  · exact (ensures_need _ _ _).bind fun number _ => ensures_outputText _
  · exact (ensures_need _ _ _).bind fun code _ => ensures_outputText _
  · exact ensures_printTable _ _
  · exact ensures_outputNewLine
  · exact ensures_showStatus
  · exact Ensures.throw trivial

theorem ensures_screenModel [Host η] (opcode : Opcode) :
    Ensures Bounded (fun _ => True) (screenModel instruction opcode values : MachineM η Unit) := by
  unfold screenModel
  split
  · exact (ensures_need _ _ _).bind fun lines _ => ensures_display _
  · exact (ensures_need _ _ _).bind fun window _ => ensures_display _
  · exact (ensures_need _ _ _).bind fun window _ => ensures_display _
  · exact (ensures_need _ _ _).bind fun value _ => ensures_display _
  · refine (ensures_need _ _ _).bind fun line _ => (ensures_need _ _ _).bind fun column _ => ?_
    exact ensures_display _
  · refine (ensures_need _ _ _).bind fun table _ => ?_
    have small := table.toNat_lt
    have asked : Ensures Bounded (fun _ => True) (answer .display Host.cursor : MachineM η Cursor) :=
      ensures_answer _ fun _ => trivial
    refine asked.bind fun cursor _ => ?_
    refine (ensures_onMemory (Memory.ensures_writeWord _ (fits_word table))).bind fun _ _ => ?_
    refine ensures_onMemory ?_
    exact (Memory.ensures_writeWord _ (lt_addressCount (by omega))).mono fun _ _ => trivial
  · exact (ensures_need _ _ _).bind fun style _ => ensures_display _
  · exact (ensures_need _ _ _).bind fun flag _ => ensures_display _
  · refine (ensures_need _ _ _).bind fun front _ => (ensures_need _ _ _).bind fun back _ => ?_
    exact ensures_display _
  · exact Ensures.pure trivial
  · exact ensures_display _
  · exact Ensures.throw trivial

theorem ensures_exchange [Host η] {opcode : Opcode} (ordinary : opcode.managesPlay = false) :
    Ensures Bounded (fun _ => True) (exchange instruction opcode values : MachineM η Outcome) := by
  unfold exchange
  split
  · exact ensures_advancing (ensures_printing _ _ _)
  · exact ensures_advancing (ensures_printing _ _ _)
  · exact ensures_advancing (ensures_printing _ _ _)
  · exact ensures_advancing (ensures_printing _ _ _)
  · exact ensures_advancing (ensures_printing _ _ _)
  · exact ensures_advancing (ensures_printing _ _ _)
  · exact ensures_advancing (ensures_printing _ _ _)
  · exact ensures_advancing (ensures_printing _ _ _)
  · exact ensures_advancing (ensures_printing _ _ _)
  · exact (ensures_need _ _ _).bind fun code _ => ensures_conclude _ _
  · refine (ensures_need _ _ _).bind fun text _ => ?_
    have read := ensures_readLine (η := η) text.toNat_lt (optional values 1 0).toNat_lt
    exact read.bind fun _ _ => ensures_conclude _ _
  · exact ensures_readKey.bind fun code _ => ensures_conclude _ _
  · refine (ensures_need _ _ _).bind fun text _ => (ensures_need _ _ _).bind fun parse _ => ?_
    apply ensures_advancing
    exact ensures_tokenise _ text.toNat_lt parse.toNat_lt (optional values 2 0).toNat_lt
  · refine (ensures_need _ _ _).bind fun text _ => (ensures_need _ _ _).bind fun length _ => ?_
    refine (ensures_need _ _ _).bind fun start _ => (ensures_need _ _ _).bind fun target _ => ?_
    exact ensures_advancing (ensures_encodeText text.toNat_lt start.toNat_lt target.toNat_lt)
  · refine (ensures_need _ _ _).bind fun stream _ => ?_
    exact ensures_advancing (ensures_selectStream _ _)
  · exact (ensures_need _ _ _).bind fun _ _ => Ensures.pure trivial
  · simp [Opcode.managesPlay] at ordinary
  · simp [Opcode.managesPlay] at ordinary
  · simp [Opcode.managesPlay] at ordinary
  · simp [Opcode.managesPlay] at ordinary
  · simp [Opcode.managesPlay] at ordinary
  · exact Ensures.pure trivial
  · exact (ensures_view _).bind fun valid _ => ensures_branchIf _ _
  · exact ensures_branchIf _ true
  · exact Ensures.pure trivial
  · exact (ensures_need _ _ _).bind fun font _ => ensures_conclude _ _
  · exact ensures_advancing (ensures_screenModel _ _ _)

theorem ensures_perform [Host η] {opcode : Opcode} (ordinary : opcode.managesPlay = false) :
    Ensures Bounded (fun _ => True) (perform instruction opcode values : MachineM η Outcome) := by
  unfold perform
  split
  · exact ensures_arithmetic _ _ _
  · exact ensures_table _ _ _
  · exact ensures_world _ _ _
  · exact ensures_routine _ _ _
  · exact ensures_exchange _ _ ordinary
  · exact Ensures.throw trivial

end Families

end ZMachine.Machine
