import ZMachine.Proofs.Dictionary.Search
import ZMachine.Proofs.Machine.LineInput

/-!
# Reading and tokenising

From version 5 on a story can read a line first and ask for its words later. The words are then taken
from the text buffer instead of the line that the player gave. Reading with a parse buffer and reading
without one, followed by tokenising, come to the same. The line is found again as it was entered, and
storing the result of reading in between does not matter, because it is stored beside everything that
tokenising looks at.
-/

namespace ZMachine

open Memory

namespace ParseBuffer

variable {region : Set Nat}

theorem repeats_writeSlot (slot offset : Nat) (word : ParsedWord) :
    Repeats region (writeSlot slot offset word) :=
  repeats_bind (repeats_writeWord _ _) fun _ =>
    repeats_bind (repeats_writeByte _ _) fun _ => repeats_writeByte _ _

theorem repeats_writeSlots (offset : Nat) (skipUnknown : Bool) (slot : Nat)
    (words : List ParsedWord) : Repeats region (writeSlots offset skipUnknown slot words) := by
  induction words generalizing slot with
  | nil => exact repeats_pure ()
  | cons word words ih =>
      refine repeats_ite ?_ ?_
      · exact repeats_bind (repeats_pure ()) fun _ => ih (slot + 4)
      · exact repeats_bind (repeats_writeSlot slot offset word) fun _ => ih (slot + 4)

/-- Filling a parse buffer depends on its first byte only. -/
theorem repeats_fill {buffer : Nat} (inside : buffer ∈ region) (skipUnknown : Bool)
    (words : List ParsedWord) : Repeats region (fill buffer skipUnknown words) := by
  refine repeats_bind (repeats_inspect fun same => same.readByte inside) fun capacity => ?_
  refine repeats_bind (repeats_writeByte _ _) fun _ => ?_
  have offset : Repeats region
      (Memory.inspect fun memory => .ok (textOffset memory.version)) := by
    refine repeats_inspect fun same => ?_
    rw [Memory.version, same.header]
    rfl
  refine repeats_bind offset fun offset => ?_
  exact repeats_bind (repeats_writeSlots _ _ _ _) fun _ => repeats_pure _

end ParseBuffer

namespace Dictionary

variable {first second : Memory} {dictionary : Dictionary}

/-- Looking the words of a line up depends on the entries only. -/
theorem parse_of_same (same : first.SameIn dictionary.searched second) (codec : Codec)
    (tokens : List Token) :
    parse second codec tokens dictionary = parse first codec tokens dictionary := by
  induction tokens generalizing dictionary with
  | nil => rfl
  | cons token tokens ih =>
      have looked : lookup second codec token.text dictionary =
          lookup first codec token.text dictionary := by
        unfold lookup
        rw [search_of_same same]
      unfold parse
      cases run : lookup first codec token.text dictionary with
      | error fault later => rw [bind_of_error run, bind_of_error (looked.trans run)]
      | ok address later =>
          have forgotten := ((consults_lookup first codec token.text).of_ok run).forget
          have searched : later.searched = dictionary.searched := by
            change later.forget.searched = dictionary.forget.searched
            rw [forgotten]
          have rest := ih (searched ▸ same)
          rw [bind_of_ok run, bind_of_ok (looked.trans run)]
          simp only [bind, EStateM.bind, rest]

end Dictionary

/-- A change of an image that leaves a region alone and treats every byte outside by itself. -/
structure Image.Beside (region : Set Nat) (change : Image → Image) : Prop where
  size : ∀ image, (change image).size = image.size
  inside : ∀ image, ∀ address ∈ region, (change image).byteAt address = image.byteAt address
  outside : ∀ {first second : Image} {address : Nat}, second.size = first.size →
    second.byteAt address = first.byteAt address →
    (change second).byteAt address = (change first).byteAt address

theorem Image.beside_setWord {region : Set Nat} {place : Nat} (first : place ∉ region)
    (second : place + 1 ∉ region) (value : UInt16) :
    Beside region (·.setWord place value) where
  size := fun image => size_setWord image place value
  inside := by
    intro image address inside
    have notFirst : place ≠ address := by
      rintro rfl
      exact first inside
    have notSecond : place + 1 ≠ address := by
      rintro rfl
      exact second inside
    exact byteAt_setWord_of_ne notFirst notSecond image value
  outside := fun size same => byteAt_setWord_congr size same place value

namespace Memory

variable {region : Set Nat} {store : Option UInt8} {value : UInt16}

/-- A variable is outside of a region: it is no global, or the two bytes of the global are. -/
def StoresBeside (memory : Memory) (store : Option UInt8) (region : Set Nat) : Prop :=
  ∀ name, store = some name → 16 ≤ name.toNat →
    memory.globalAddress name ∉ region ∧ memory.globalAddress name + 1 ∉ region

theorem StoresBeside.of_header {memory other : Memory} (beside : memory.StoresBeside store region)
    (header : other.header = memory.header) : other.StoresBeside store region := by
  unfold StoresBeside globalAddress
  rw [header]
  exact beside

/-- Storing a value beside a region changes the frame or the bytes of a global variable, whatever the
bytes in memory are. -/
theorem storeIn_eq_ok {memory after : Memory} (beside : memory.StoresBeside store region)
    (success : storeIn store value memory = .ok () after) :
    ∃ frame change, Image.Beside region change ∧ ∀ bytes,
      storeIn store value { memory with bytes } = .ok () { memory with bytes := change bytes, frame }
    := by
  have same : Image.Beside region id := ⟨fun _ => rfl, fun _ _ _ => rfl, fun _ same => same⟩
  cases store with
  | none => exact ⟨memory.frame, id, same, fun _ => rfl⟩
  | some name =>
      simp only [storeIn, writeVariable] at success ⊢
      by_cases stack : name = 0
      · simp only [if_pos stack] at success ⊢
        unfold push at success ⊢
        by_cases full : stackLimit ≤ memory.frame.stack.length
        · rw [if_pos full] at success
          cases success
        · refine ⟨{ memory.frame with stack := value :: memory.frame.stack }, id, same, ?_⟩
          intro bytes
          exact if_neg full
      · simp only [if_neg stack] at success ⊢
        unfold writeCell at success ⊢
        by_cases inFrame : name < 16
        · simp only [if_pos inFrame] at success ⊢
          by_cases missing : memory.frame.localCount < name.toNat
          · rw [if_pos missing] at success
            cases success
          · refine ⟨memory.frame.setLocal name.toNat value, id, same, ?_⟩
            intro bytes
            exact if_neg missing
        · simp only [if_neg inFrame] at success ⊢
          have global : 16 ≤ name.toNat := by
            rw [UInt8.lt_iff_toNat_lt] at inFrame
            exact Nat.not_lt.mp inFrame
          rcases beside name rfl global with ⟨first, second⟩
          refine ⟨memory.frame, (·.setWord (memory.globalAddress name) value),
            Image.beside_setWord first second value, ?_⟩
          intro bytes
          exact writeWord_eq_ok.mpr ⟨(writeWord_eq_ok.mp success).1, rfl⟩

/-- A store beside a region may come before an action that stays in the region, instead of after it:
inside the region the store does not count, and outside of it the action does not. -/
theorem storeIn_before {α : Type} {action : MemoryM α} {memory middle after : Memory} {result : α}
    (repeats : Repeats region action) (writes : Keeps Writes action)
    (confined : ∀ {first last : Memory}, SameIn region memory first →
      action first = .ok result last → Confined region first last)
    (beside : memory.StoresBeside store region) (done : action memory = .ok result middle)
    (stored : storeIn store value middle = .ok () after) :
    ∃ early, storeIn store value memory = .ok () early ∧ SameIn region memory early ∧
      action early = .ok result after := by
  have wrote := writes.of_ok done
  have header : middle.header = memory.header := by rw [wrote.same]
  rcases storeIn_eq_ok (beside.of_header header) stored with ⟨frame, change, kept, stores⟩
  have late : after = { middle with bytes := change middle.bytes, frame } := by
    have again := stored.symm.trans (stores middle.bytes)
    cases again
    rfl
  have soon := stores memory.bytes
  have back : { middle with bytes := memory.bytes } = memory := by rw [wrote.same]
  rw [back] at soon
  have same : SameIn region memory { middle with bytes := change memory.bytes, frame } :=
    ⟨header, kept.size _, kept.inside _⟩
  refine ⟨_, soon, same, ?_⟩
  rcases repeats same done with ⟨other, again, agrees⟩
  have wroteAgain := writes.of_ok again
  have bytes : other.bytes = after.bytes := by
    apply Image.eq_of_byteAt
    · rw [wroteAgain.size, late, kept.size, kept.size, wrote.size]
    · intro address
      by_cases inside : address ∈ region
      · rw [agrees.bytes address inside, late, kept.inside _ address inside]
      · have unchanged := confined ⟨rfl, rfl, fun _ _ => rfl⟩ done address inside
        rw [confined same again address inside, late]
        exact (kept.outside wrote.size unchanged).symm
  rw [again, wroteAgain.same, bytes, late]

theorem readText_of_holds {memory : Memory} {codec : Codec} {address : Nat} {codes : List UInt8}
    (holds : memory.Holds address codes) (below : address + codes.length ≤ memory.header.highBase)
    (before : String) :
    memory.readText codec codes.length address before =
      .ok (before ++ Machine.bufferText codec codes) := by
  induction codes generalizing address before with
  | nil => simp [readText, Machine.bufferText]
  | cons code codes ih =>
      rcases holds_cons.mp holds with ⟨held, rest⟩
      rcases byteAt_of_held held with ⟨inside, value⟩
      simp only [List.length_cons] at below
      have read : memory.readByte address = .ok code :=
        readByte_eq_ok.mpr ⟨by omega, inside, value⟩
      simp only [List.length_cons, readText, read]
      cases found : codec.charOfZscii code.toNat with
      | none =>
          rw [ih rest (by omega)]
          simp [Machine.bufferText, found]
      | some c =>
          rw [ih rest (by omega), Except.ok.injEq, ← String.toList_inj]
          simp [Machine.bufferText, found]

end Memory

namespace Machine

variable {η : Type}

theorem writeBuffer_fits {version text : Nat} {codes : List UInt8} {memory after : Memory}
    (late : 4 < version) (success : writeBuffer version text codes memory = .ok () after) :
    text + 2 + codes.length ≤ memory.header.staticBase := by
  unfold writeBuffer at success
  rw [if_neg (by omega)] at success
  rcases bind_eq_ok.mp success with ⟨_, middle, written, counted⟩
  have header := ((writes_writeBytes _ _).of_ok written).header
  have first := (writeByte_eq_ok.mp counted).1
  rw [header] at first
  rcases writeBytes_succeeds.mp ⟨middle, written⟩ with rfl | fits
  · simp only [List.length_nil]
    omega
  · exact fits

/-- Tokenising finds the line in the text buffer that was entered there. -/
theorem tokenise_of_entered {machine : Machine η} {text parse : Nat} {codes : List UInt8}
    (holds : machine.memory.Holds (text + 1) (UInt8.ofNat codes.length :: codes))
    (few : codes.length < 256) (below : text + 2 + codes.length ≤ machine.memory.header.highBase) :
    tokenise text parse 0 false machine =
      tokeniseLine (bufferText machine.codec codes) parse false (pure ()) machine := by
  rcases holds_cons.mp holds with ⟨counted, held⟩
  rcases byteAt_of_held counted with ⟨inside, value⟩
  have read : machine.memory.readByte (text + 1) = .ok (UInt8.ofNat codes.length) :=
    readByte_eq_ok.mpr ⟨by omega, inside, value⟩
  have length : (UInt8.ofNat codes.length).toNat = codes.length := by
    rw [UInt8.toNat_ofNat']
    exact Nat.mod_eq_of_lt few
  have line : machine.memory.readText machine.codec codes.length (text + 2) "" =
      .ok ("" ++ bufferText machine.codec codes) := readText_of_holds held (by omega) ""
  unfold tokenise
  rw [bind_of_ok (inspect_of_ok read), length, bind_of_ok (inspect_of_ok line), if_pos rfl]
  simp

theorem tokeniseLine_eq_ok {machine after : Machine η} {dictionary : Dictionary} {line : String}
    {parse : Nat} {skipUnknown : Bool} {otherwise : MachineM η Unit}
    (present : machine.dictionary = some dictionary) :
    tokeniseLine line parse skipUnknown otherwise machine = .ok () after ↔
      ∃ words later count memory,
        Dictionary.parse machine.memory machine.codec (dictionary.tokenize line) dictionary =
          .ok words later ∧
        ParseBuffer.fill parse skipUnknown words machine.memory = .ok count memory ∧
        after = { machine with memory, dictionary := some later } := by
  unfold tokeniseLine Dictionary.tokeniseInto
  rw [present]
  dsimp only
  constructor
  · intro success
    cases parsed : Dictionary.parse machine.memory machine.codec (dictionary.tokenize line)
        dictionary with
    | error fault later =>
        rw [parsed] at success
        cases success
    | ok words later =>
        rw [parsed] at success
        dsimp only at success
        cases filled : ParseBuffer.fill parse skipUnknown words machine.memory with
        | error fault memory =>
            rw [filled] at success
            cases success
        | ok count memory =>
            rw [filled] at success
            cases success
            exact ⟨words, later, count, memory, rfl, filled, rfl⟩
  · rintro ⟨words, later, count, memory, parsed, filled, rfl⟩
    rw [parsed]
    dsimp only
    rw [filled]

/-- Words that are stored in a parse buffer before the result of reading are found and stored in the
same way after it. -/
theorem tokenise_of_parsed {entered filled : Machine η} {text parse : Nat}
    {codes : List UInt8} {dictionary : Dictionary} {region : Set Nat} {store : Option UInt8}
    {value : UInt16} {last : Memory} (present : entered.dictionary = some dictionary)
    (parsing : parse ≠ 0)
    (holds : entered.memory.Holds (text + 1) (UInt8.ofNat codes.length :: codes))
    (few : codes.length < 256) (below : text + 2 + codes.length ≤ entered.memory.header.highBase)
    (letters : Set.Ico (text + 1) (text + 2 + codes.length) ⊆ region)
    (slots : Set.Icc parse (parse + 1 + 4 * (entered.memory.bytes.byteAt parse).toNat) ⊆ region)
    (entries : dictionary.searched ⊆ region) (beside : entered.memory.StoresBeside store region)
    (parsed : parseLine parse codes entered = .ok () filled)
    (stored : storeIn store value filled.memory = .ok () last) :
    ∃ early, storeIn store value entered.memory = .ok () early ∧
      tokenise text parse 0 false { entered with memory := early } =
        .ok () { filled with memory := last } := by
  rw [parseLine, if_neg parsing] at parsed
  rcases (tokeniseLine_eq_ok present).mp parsed with ⟨words, later, count, memory, found, wrote, rfl⟩
  have buffer : parse ∈ region := slots ⟨by omega, by omega⟩
  have confined : ∀ {first last : Memory}, SameIn region entered.memory first →
      ParseBuffer.fill parse false words first = .ok count last → Confined region first last := by
    intro first last same again
    have inside := ParseBuffer.confined_fill parse false words first
    rw [stateAfter_of_ok again, same.bytes parse buffer] at inside
    refine inside.mono fun address within => slots ⟨?_, within.2⟩
    have := within.1
    omega
  rcases storeIn_before (ParseBuffer.repeats_fill buffer false words)
    (ParseBuffer.writes_fill parse false words) confined beside wrote stored with
    ⟨early, storedEarly, same, again⟩
  refine ⟨early, storedEarly, ?_⟩
  have held : early.Holds (text + 1) (UInt8.ofNat codes.length :: codes) := by
    refine holds.of_same same.size fun place low high => ?_
    simp only [List.length_cons] at high
    exact same.bytes place (letters ⟨low, by omega⟩)
  rw [tokenise_of_entered held few (by rw [same.header]; exact below)]
  have presentEarly : { entered with memory := early }.dictionary = some dictionary := present
  refine (tokeniseLine_eq_ok presentEarly).mpr ⟨words, later, count, last, ?_, again, rfl⟩
  rw [Dictionary.parse_of_same (same.mono entries)]
  exact found

theorem operandValues_of_constant {operands : List Operand}
    (constant : ∀ operand ∈ operands, operand.kind ≠ .byVariable) (named : Bool) (memory : Memory) :
    operandValues named operands memory = .ok (operands.map (·.value)) memory := by
  induction operands generalizing named with
  | nil => rfl
  | cons operand operands ih =>
      have first : operandValue named operand memory = .ok operand.value memory := by
        rw [operandValue, if_neg fun both => constant operand List.mem_cons_self both.1]
        rfl
      have rest := ih (fun other member => constant other (List.mem_cons_of_mem _ member)) false
      rw [operandValues, bind_of_ok first, bind_of_ok rest]
      rfl

end Machine

/-- The instruction orders an operation, and its operands are constants. -/
structure Instruction.Orders (instruction : Instruction) (opcode : Opcode) (values : List UInt16) :
    Prop where
  named : instruction.opcode? = some opcode
  constant : ∀ operand ∈ instruction.operands, operand.kind ≠ .byVariable
  values : instruction.operands.map (·.value) = values

namespace Machine

variable {η : Type} [Host η] {instruction : Instruction} {machine after : Machine η}
  {text parse : UInt16} {outcome : Outcome}

theorem execute_of_orders {opcode : Opcode} {values : List UInt16}
    (orders : instruction.Orders opcode values) (machine : Machine η) :
    execute instruction machine = perform instruction opcode values machine := by
  have fetched := operandValues_of_constant orders.constant opcode.takesVariable machine.memory
  rw [orders.values] at fetched
  exact execute_of_named orders.named fetched

theorem execute_sread_eq_ok {timed : List UInt16}
    (orders : instruction.Orders .sread (text :: parse :: timed)) :
    execute instruction machine = .ok outcome after ↔
      ∃ middle, readLine text.toNat parse.toNat machine = .ok () middle ∧ outcome = .advanced ∧
        ∃ memory, storeIn instruction.store returnCode middle.memory = .ok () memory ∧
          after = { middle with memory } := by
  have performed : execute instruction machine =
      (readLine text.toNat parse.toNat >>= fun _ => conclude instruction returnCode) machine := by
    rw [execute_of_orders orders]
    rfl
  rw [performed, bind_eq_ok]
  constructor
  · rintro ⟨_, middle, read, concluded⟩
    exact ⟨middle, read, conclude_eq_ok.mp concluded⟩
  · rintro ⟨middle, read, concluded⟩
    exact ⟨(), middle, read, conclude_eq_ok.mpr concluded⟩

theorem execute_tokenise {zeros : List UInt16}
    (orders : instruction.Orders .tokenise (text :: parse :: zeros))
    (zero : ∀ value ∈ zeros, value = 0)
    (success : tokenise text.toNat parse.toNat 0 false machine = .ok () after) :
    execute instruction machine = .ok .advanced after := by
  have omitted : ∀ index, optional (text :: parse :: zeros) (index + 2) 0 = 0 := by
    intro index
    simp only [optional, List.getElem?_cons_succ]
    cases found : zeros[index]? with
    | none => rfl
    | some value => exact zero value (List.mem_of_getElem? found)
  have performed : execute instruction machine =
      advancing (tokenise text.toNat parse.toNat (optional (text :: parse :: zeros) 2 0).toNat
        (optional (text :: parse :: zeros) 3 0 ≠ 0)) machine := by
    rw [execute_of_orders orders]
    rfl
  rw [performed, omitted 0, omitted 1]
  exact bind_of_ok success

/-- What reading a line has to do with: the text buffer, the parse buffer with the room that it has
once the line is entered, and the packed words in the dictionary. Of a dictionary that has been read
nothing else is looked at. -/
def lineRegion (machine : Machine η) (text parse : Nat) (dictionary : Dictionary) : Set Nat :=
  let entered := stateAfter (readLine text 0) machine
  Set.Icc text (text + 1 + (machine.memory.bytes.byteAt text).toNat) ∪
    Set.Icc parse (parse + 1 + 4 * (entered.memory.bytes.byteAt parse).toNat) ∪
    dictionary.searched

/-- Reading a line with a parse buffer is the same as reading it without one and tokenising it
afterwards, if the result is stored beside the buffers and the dictionary: whenever the first
succeeds, so do the other two, and they leave the very same machine. -/
theorem tokenise_after_reading {reading alone words : Instruction} {dictionary : Dictionary}
    {timed untimed zeros : List UInt16} (mapped : machine.memory.Mapped)
    (high : machine.memory.header.staticBase ≤ machine.memory.header.highBase)
    (late : 5 ≤ machine.version) (present : machine.dictionary = some dictionary)
    (parsing : parse ≠ 0) (reads : reading.Orders .sread (text :: parse :: timed))
    (readsAlone : alone.Orders .sread (text :: 0 :: untimed)) (stores : alone.store = reading.store)
    (tokenises : words.Orders .tokenise (text :: parse :: zeros))
    (zero : ∀ value ∈ zeros, value = 0)
    (beside : machine.memory.StoresBeside reading.store
      (machine.lineRegion text.toNat parse.toNat dictionary))
    (success : execute reading machine = .ok outcome after) :
    outcome = .advanced ∧ ∃ middle, execute alone machine = .ok .advanced middle ∧
      execute words middle = .ok .advanced after := by
  rcases (execute_sread_eq_ok reads).mp success with
    ⟨filled, read, advanced, memory, stored, rfl⟩
  rcases readLine_eq_ok read with ⟨codes, entered, begun, parsed⟩
  rcases enterLine_eq_ok begun with ⟨size, line, room, _, counted, written, same⟩
  have readAlone := readLine_of_entered begun
  have first : machine.memory.bytes.byteAt text.toNat = size := (readByte_eq_ok.mp room).2.2
  have fits := writeBuffer_fits (by omega) written
  have few : codes.length ≤ size.toNat := by
    have capacity := length_bufferCodes machine.codec (bufferCapacity machine.version size.toNat) line
    rw [← counted, bufferCapacity, if_neg (by omega)] at capacity
    exact capacity
  have small : codes.length < 256 := lt_of_le_of_lt few size.toNat_lt
  have holds := holds_writeBuffer mapped.static written
  rw [lineBytes, if_neg (by omega)] at holds
  have header : entered.memory.header = machine.memory.header :=
    ((calm_readLine text.toNat 0).of_ok readAlone).memory.header
  have dictionaries : entered.dictionary = some dictionary := by rw [same, present]
  have number : parse.toNat ≠ 0 := by
    intro none
    exact parsing (UInt16.toNat_inj.mp none)
  unfold lineRegion at beside
  dsimp only at beside
  rw [stateAfter_of_ok readAlone, first] at beside
  have letters : Set.Ico (text.toNat + 1) (text.toNat + 2 + codes.length) ⊆
      Set.Icc text.toNat (text.toNat + 1 + size.toNat) := by
    intro place inside
    exact ⟨by have := inside.1; omega, by have := inside.2; omega⟩
  rcases tokenise_of_parsed dictionaries number holds small (by rw [header]; omega)
    (letters.trans (Set.subset_union_left.trans Set.subset_union_left))
    (Set.subset_union_right.trans Set.subset_union_left) Set.subset_union_right
    (beside.of_header header) parsed stored with ⟨early, storedEarly, tokenised⟩
  refine ⟨advanced, { entered with memory := early }, ?_, execute_tokenise tokenises zero tokenised⟩
  refine (execute_sread_eq_ok readsAlone).mpr ⟨entered, readAlone, rfl, early, ?_, rfl⟩
  rw [stores]
  exact storedEarly

end Machine

/-- An instruction of version 5 whose operands are small constants. -/
def Instruction.withConstants (number : Nat) (values : List UInt16) (store : Option UInt8) :
    Instruction :=
  { address := 107
    form := .variadic
    opcodeClass := .var
    number
    entry := Opcode.lookup 5 .var number
    operands := values.map (⟨.smallConstant, ·⟩)
    store
    branch := none
    text := none
    size := 2 + values.length + store.toList.length }

namespace Machine

/-- A player says three words, two of which fit into the parse buffer. The result of reading goes to
the first global variable, at 84. -/
theorem tokenise_after_reading_spoken :
    let machine := talking [] ["Up,go"]
    let reading := Instruction.withConstants 0x04 [64, 72] (some 16)
    let alone := Instruction.withConstants 0x04 [64, 0] (some 16)
    let words := Instruction.withConstants 0x1B [64, 72] none
    let after := stateAfter (execute reading) machine
    after.memory.bytes.extract 72 86 = #[2, 2, 0, 100, 2, 2, 0, 0, 1, 4, 0, 0, 0, 13] ∧
      after.dictionary = some { Dictionary.talking with memo := some ("go", 93) } ∧
      ∃ middle, execute alone machine = .ok .advanced middle ∧
        execute words middle = .ok .advanced after := by
  intro machine reading alone words after
  have mapped : machine.memory.Mapped := ⟨by decide +kernel, by decide +kernel, rfl⟩
  have high : machine.memory.header.staticBase ≤ machine.memory.header.highBase := by
    decide +kernel
  have late : 5 ≤ machine.version := by decide +kernel
  have present : machine.dictionary = some .talking := rfl
  have reads : reading.Orders .sread [64, 72] := ⟨rfl, by decide, rfl⟩
  have readsAlone : alone.Orders .sread [64, 0] := ⟨rfl, by decide, rfl⟩
  have tokenises : words.Orders .tokenise [64, 72] := ⟨rfl, by decide, rfl⟩
  have size : machine.memory.bytes.byteAt 64 = 5 := by decide +kernel
  have slots : (stateAfter (readLine 64 0) machine).memory.bytes.byteAt 72 = 2 := by decide +kernel
  have first : machine.memory.globalAddress 16 = 84 := by decide +kernel
  have beside : machine.memory.StoresBeside (some 16) (machine.lineRegion 64 72 .talking) := by
    have outside : ∀ address, 82 ≤ address → address < 93 →
        address ∉ machine.lineRegion 64 72 .talking := by
      intro address low less
      rw [lineRegion, size, slots]
      rintro ((letter | slot) | ⟨index, _, entry, _⟩)
      · have := letter.2
        simp only [UInt8.reduceToNat] at this
        omega
      · have := slot.2
        simp only [UInt8.reduceToNat] at this
        omega
      · simp only [Dictionary.entryAddress, Dictionary.talking] at entry
        omega
    intro name named _
    cases named
    rw [first]
    exact ⟨outside 84 (by omega) (by omega), outside 85 (by omega) (by omega)⟩
  have done : valueOf (execute reading) machine = some .advanced := by decide +kernel
  have filled : after.memory.bytes.extract 72 86 =
      #[2, 2, 0, 100, 2, 2, 0, 0, 1, 4, 0, 0, 0, 13] := by decide +kernel
  have remembers : after.dictionary = some { Dictionary.talking with memo := some ("go", 93) } := by
    decide +kernel
  have both := tokenise_after_reading mapped high late present (by decide) reads readsAlone rfl
    tokenises (by simp) beside (eq_ok_of_valueOf done)
  exact ⟨filled, remembers, both.2⟩

end Machine

end ZMachine
