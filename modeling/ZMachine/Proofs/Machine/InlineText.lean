import ZMachine.Proofs.Abbreviation
import ZMachine.Proofs.Machine.Isolation
import ZMachine.Proofs.Machine.Pristine

/-!
# The alphabet between inline texts

An instruction that prints carries its text, and the decoder hands the alphabet that is locked in at
the end of one such text over to the next. From version 3 on nothing can be locked in, and a story
that was started keeps to small letters over any run (`Machine.unlocked_of_run`). In versions 1 and
2 the texts of a run decode like one long text, as long as each of them ends behind a character and
no state of play is replaced (`Machine.decode_of_narrates`).
-/

namespace ZMachine

/-- An instruction with a text consists of its opcode and the text. -/
theorem Opcode.catalog_tells : ∀ row ∈ catalog, row.carriesText = true →
    row.opcodeClass = .op0 ∧ row.stores = false ∧ row.branches = false := by
  decide +kernel

/-- The opcode of an instruction without operands is one byte. -/
theorem Opening.after_of_read {memory : Memory} {version address after : Nat} {opening : Opening}
    (read : Opening.read version memory address = .ok (opening, after))
    (bare : opening.opcodeClass = .op0) : after = address + 1 := by
  rcases Fetching.bind_reads.mp read with ⟨first, second, firstRead, read⟩
  rcases Fetching.byte_eq_ok.mp firstRead with ⟨_, _, rfl⟩
  split at read
  · rcases Fetching.bind_reads.mp read with ⟨number, _, _, same⟩
    cases same
    cases bare
  · cases read
    rfl

namespace Decoder

variable {decoder later : Decoder} {memory : Memory} {codec : Codec}
  {abbreviations : AbbreviationTable} {address : Nat} {instruction : Instruction}

/-- An instruction carries no text and leaves the alphabet alone, or its text follows its opcode and
is read from the alphabet that is locked in. -/
theorem text_of_decode
    (decoded : decoder.decode memory codec abbreviations address = .ok (instruction, later)) :
    instruction.text = none ∧ later = decoder ∨
      ∃ text length codes, instruction.text = some text ∧
        memory.readCodes (address + 1) none = .ok (length, codes) ∧
        codec.decode (abbreviations.expand memory codec) decoder.alphabet codes =
          .ok ⟨text, later.alphabet⟩ := by
  rcases decode_eq_ok.mp decoded with ⟨alphabet, after, reads, rfl⟩
  cases reads with
  | @parts opening kinds operands store branch said _ _ _ _ _ _ openingRead kindsRead operandsRead
      storeRead branchRead textRead =>
      cases carries : (Opcode.lookup decoder.version opening.opcodeClass opening.number).any
          (·.carriesText) with
      | false =>
          rw [carries] at textRead
          cases textRead
          exact Or.inl ⟨rfl, rfl⟩
      | true =>
          rw [carries] at textRead
          rcases (Option.any_eq_true _ _).mp carries with ⟨row, found, tells⟩
          have listed := (Opcode.row_of_lookup found).1
          rcases Opcode.catalog_tells row listed tells with ⟨bareClass, storeless, branchless⟩
          rw [(Opcode.class_of_lookup found).1] at bareClass
          rcases Opening.bare_of_read openingRead bareClass with ⟨form, noKinds⟩
          have start := Opening.after_of_read openingRead bareClass
          simp only [Opening.readKinds, form, noKinds] at kindsRead
          cases kindsRead
          cases operandsRead
          simp only [found, Option.any_some, storeless, branchless] at storeRead branchRead
          cases storeRead
          cases branchRead
          rcases Fetching.onlyIf_true.mp textRead with ⟨text, rfl, reads⟩
          rcases query_bind_eq_ok.mp reads with ⟨⟨length, codes⟩, codesRead, rest⟩
          rcases query_bind_eq_ok.mp rest with ⟨whole, wholeRead, same⟩
          cases same
          rw [start] at codesRead
          exact Or.inr ⟨text.text, length, codes, rfl, codesRead, wholeRead⟩

/-- From version 3 on no text locks an alphabet in. -/
theorem alphabet_of_decode (late : 3 ≤ codec.version) (small : decoder.alphabet = 0)
    (decoded : decoder.decode memory codec abbreviations address = .ok (instruction, later)) :
    later.alphabet = 0 := by
  rcases text_of_decode decoded with ⟨_, rfl⟩ | ⟨_, _, _, _, _, read⟩
  · exact small
  · have kept := Codec.alphabet_of_decode late read
    rwa [small] at kept

end Decoder

/-- The second part of a text may start in any number that stands for the locked alphabet. -/
theorem Codec.decode_append_of_mod {codec : Codec} {expand : Expansion} {first second : List Nat}
    {alphabet locked last : Nat} {said text : String}
    (read : codec.decode expand alphabet first = .ok ⟨said, locked % 3⟩)
    (whole : codec.EndsCharacter alphabet first)
    (rest : codec.decode expand locked second = .ok ⟨text, last⟩) :
    codec.decode expand alphabet (first ++ second) = .ok ⟨said ++ text, last⟩ := by
  rw [decode_append read whole, decode_mod, rest]
  rfl

namespace Machine

variable {η : Type}

/-- The texts of the story lock no alphabet in, and none is locked in. -/
def Unlocked (machine : Machine η) : Prop :=
  3 ≤ machine.codec.version ∧ machine.decoder.alphabet = 0

/-- An action does not lock an alphabet in. -/
def StaysUnlocked (before after : Machine η) : Prop :=
  before.Unlocked → after.Unlocked

instance : IsPreorder (Machine η) StaysUnlocked where
  refl := fun _ unlocked => unlocked
  trans := fun _ _ _ earlier later unlocked => later (earlier unlocked)

section Unlocked

variable {before after : Machine η} {instruction : Instruction}

theorem Unlocked.of_alike (unlocked : before.Unlocked) (alike : before.Alike after) :
    after.Unlocked := by
  unfold Unlocked
  rw [alike.codec, alike.decoder]
  exact unlocked

theorem unlocked_of_quiet {α : Type} {action : MachineM η α} (quiet : Keeps Quiet action) :
    Keeps StaysUnlocked action :=
  fun machine unlocked => unlocked.of_alike (quiet machine).alike

theorem unlocked_of_continues {action : MachineM η Outcome} (continues : Leads Continues action) :
    Keeps StaysUnlocked action :=
  fun machine unlocked => unlocked.of_alike (continues machine).alike

theorem unlocked_onMemory {α : Type} (action : MemoryM α) :
    Keeps StaysUnlocked (onMemory action : MachineM η α) := by
  intro machine unlocked
  rw [stateAfter_onMemory]
  exact unlocked

theorem unlocked_onArchive {α : Type} (action : EStateM Fault (Archive × Memory) α) :
    Keeps StaysUnlocked (onArchive action : MachineM η α) := by
  intro machine unlocked
  unfold stateAfter onArchive
  cases action (machine.archive, machine.memory) with
  | ok value state => exact unlocked
  | error fault state => exact unlocked

/-- The saving instruction of a restored game is decoded like any other. -/
theorem unlocked_branchRestored : Keeps StaysUnlocked (branchRestored : MachineM η Unit) := by
  intro machine unlocked
  rw [stateAfter, branchRestored_apply]
  cases decoded : machine.nextInstruction with
  | error fault => exact unlocked
  | ok result =>
      rcases result with ⟨saving, decoder⟩
      have small := Decoder.alphabet_of_decode unlocked.1 unlocked.2 decoded
      have resumed : { machine with
          decoder
          memory := { machine.memory with pc := machine.memory.pc + saving.size } }.Unlocked :=
        ⟨unlocked.1, small⟩
      dsimp only
      rw [← stateAfter, stateAfter_bind_pure]
      have fits := Decoder.fits_of_decode decoded
      exact unlocked_of_continues (continues_branchIf fits true) _ resumed

theorem unlocked_restore (fits : instruction.Fits) :
    Keeps StaysUnlocked (restore instruction : MachineM η Outcome) := by
  refine (unlocked_of_quiet (calm_inspect _).quiet).bind fun archive => ?_
  refine (unlocked_onMemory _).bind fun success => ?_
  refine (unlocked_of_quiet (calm_inspect _).quiet).bind fun version => ?_
  refine Keeps.ite ?_ (Keeps.ite ?_ ?_)
  · refine Keeps.ite ?_ ?_
    · exact unlocked_branchRestored.bind fun _ => Keeps.pure _
    · exact (unlocked_of_quiet quiet_storeRestored).bind fun _ => Keeps.pure _
  · exact unlocked_of_continues (continues_branchIf fits false)
  · exact unlocked_of_continues (continues_conclude instruction 0)

theorem unlocked_restoreUndo :
    Keeps StaysUnlocked (restoreUndo instruction : MachineM η Outcome) := by
  refine (unlocked_onArchive _).bind fun success => Keeps.ite ?_ ?_
  · exact (unlocked_of_quiet quiet_storeRestored).bind fun _ => Keeps.pure _
  · exact unlocked_of_continues (continues_conclude instruction 0)

theorem unlocked_restart : Keeps StaysUnlocked (restart : MachineM η Outcome) := by
  intro machine unlocked
  rw [stateAfter, restart_apply]
  cases Dictionary.ofMemory? machine.memory.restart with
  | error fault => exact ⟨unlocked.1, rfl⟩
  | ok dictionary => exact ⟨unlocked.1, rfl⟩

theorem unlocked_save (fits : instruction.Fits) :
    Keeps StaysUnlocked (save instruction : MachineM η Outcome) := by
  intro machine unlocked
  rw [stateAfter, save_apply]
  cases machine.archive.save (machine.stateToSave instruction) with
  | error fault => exact unlocked
  | ok result => exact unlocked_of_continues (continues_report fits result.1) _ unlocked

theorem unlocked_saveUndo : Keeps StaysUnlocked (saveUndo instruction : MachineM η Outcome) := by
  intro machine unlocked
  rw [stateAfter, saveUndo_apply]
  exact unlocked_of_continues (continues_conclude instruction _) _ unlocked

theorem unlocked_perform [Host η] (fits : instruction.Fits) (opcode : Opcode)
    (values : List UInt16) :
    Keeps StaysUnlocked (perform instruction opcode values : MachineM η Outcome) := by
  cases managing : opcode.managesPlay with
  | false =>
      intro machine unlocked
      exact unlocked.of_alike (proceeds_perform fits values managing machine).alike
  | true =>
      unfold Opcode.managesPlay at managing
      split at managing
      · exact unlocked_save fits
      · exact unlocked_restore fits
      · exact unlocked_saveUndo
      · exact unlocked_restoreUndo
      · exact unlocked_restart
      · cases managing

end Unlocked

section Steps

variable [Host η]

theorem unlocked_next {machine : Machine η} (unlocked : machine.Unlocked) :
    machine.next.Unlocked := by
  cases machine.steps with
  | undecoded same _ =>
      rw [same]
      exact unlocked
  | @unfetched instruction decoder decoded quiet _ =>
      have advanced : (machine.advance instruction decoder).Unlocked :=
        ⟨unlocked.1, Decoder.alphabet_of_decode unlocked.1 unlocked.2 decoded⟩
      exact advanced.of_alike quiet.alike
  | @performed instruction opcode values ready performs =>
      have fits := performs.fits
      rw [performs.next]
      rcases performs with ⟨_, decoder, memory, decoded, _, rfl⟩
      exact unlocked_perform fits opcode values _
        ⟨unlocked.1, Decoder.alphabet_of_decode unlocked.1 unlocked.2 decoded⟩

/-- Over any run of a story of version 3 or later, no alphabet is locked in. -/
theorem unlocked_of_run {settings : Settings} {image : Image} {host : η} {archive : Archive}
    {allowed : Machine η → Prop} {machine last : Machine η}
    (started : start settings image host archive = .ok machine) (late : 3 ≤ machine.version)
    (run : Run allowed machine last) : last.Unlocked := by
  have starts := starts_of_start started
  have version : machine.codec.version = machine.version := Codec.version_ofMemory starts.codec
  have begins : machine.Unlocked := ⟨by omega, by rw [starts.decoder]⟩
  exact run.keeps Unlocked begins fun _ _ unlocked => unlocked_next unlocked

/-- Unless the state of play is replaced, an operation leaves all views of the story as they are. -/
theorem Performs.alike_next {machine ready : Machine η} {instruction : Instruction}
    {opcode : Opcode} {values : List UInt16}
    (performs : machine.Performs instruction opcode values ready)
    (ordinary : ¬ machine.ReplacesNext) : ∃ archive, { ready with archive }.Alike machine.next := by
  have remains : ¬ ready.Replaces opcode := fun replaces =>
    ordinary ⟨instruction, opcode, values, ready, performs, replaces⟩
  rcases performs.leads with ⟨_, managed⟩ | ⟨_, proceeds⟩
  · generalize machine.next = after at managed ⊢
    cases managed with
    | continues continues => exact ⟨_, continues.alike⟩
    | resumes replaces => exact absurd replaces remains
    | restarts restarting =>
        subst restarting
        exact absurd trivial remains
  · exact ⟨_, proceeds.alike⟩

/-- Unless the state of play is replaced, a step leaves the decoder that has read its instruction.
-/
theorem decoder_next {machine : Machine η} {instruction : Instruction} {decoder : Decoder}
    (decoded : machine.nextInstruction = .ok (instruction, decoder))
    (ordinary : ¬ machine.ReplacesNext) :
    machine.next.decoder = decoder ∧ machine.next.codec = machine.codec := by
  cases named : instruction.opcode? with
  | none =>
      have failed : execute instruction (machine.advance instruction decoder) =
          .error (.invalidOpcode instruction.encoding instruction.address)
            (machine.advance instruction decoder) := by
        rw [execute, named]
        rfl
      rw [next_of_decoded decoded, stateAfter_of_error failed]
      exact ⟨rfl, rfl⟩
  | some opcode =>
      cases fetched : operandValues opcode.takesVariable instruction.operands
          (machine.advance instruction decoder).memory with
      | error fault memory =>
          have failed : execute instruction (machine.advance instruction decoder) =
              .error fault { machine.advance instruction decoder with memory } := by
            rw [execute, named]
            exact bind_of_error (onMemory_of_error fetched)
          rw [next_of_decoded decoded, stateAfter_of_error failed]
          exact ⟨rfl, rfl⟩
      | ok values memory =>
          have performs : machine.Performs instruction opcode values
              { machine.advance instruction decoder with memory } :=
            ⟨named, decoder, memory, decoded, fetched, rfl⟩
          rcases performs.alike_next ordinary with ⟨archive, alike⟩
          exact ⟨alike.decoder, alike.codec⟩

/-- The next instruction carries a text; `codes` are its codes, and `decoder` has read it. -/
def Tells (machine : Machine η) (codes : List Nat) (text : String) (decoder : Decoder) : Prop :=
  ∃ instruction length, machine.nextInstruction = .ok (instruction, decoder) ∧
    instruction.text = some text ∧
    machine.memory.readCodes (machine.memory.pc + 1) none = .ok (length, codes)

omit [Host η] in
theorem tells_iff {machine : Machine η} {codes : List Nat} {text : String} {decoder : Decoder} :
    machine.Tells codes text decoder ↔
      machine.nextInstruction.toOption.map (fun read => (read.1.text, read.2)) =
          some (some text, decoder) ∧
        (machine.memory.readCodes (machine.memory.pc + 1) none).toOption.map (·.2) =
          some codes := by
  constructor
  · rintro ⟨instruction, length, decoded, carried, read⟩
    simp [decoded, carried, read, Except.toOption]
  · rintro ⟨decoded, read⟩
    rcases Option.map_eq_some_iff.mp decoded with ⟨⟨instruction, later⟩, found, same⟩
    rcases Option.map_eq_some_iff.mp read with ⟨⟨length, own⟩, codesRead, rfl⟩
    rcases Prod.mk.inj same with ⟨carried, rfl⟩
    exact ⟨instruction, length, eq_ok_of_toOption found, carried, eq_ok_of_toOption codesRead⟩

instance (machine : Machine η) (codes : List Nat) (text : String) (decoder : Decoder) :
    Decidable (machine.Tells codes text decoder) :=
  decidable_of_iff _ tells_iff.symm

/-- A run in which no state of play is replaced, with the texts of its instructions: their codes and
what they say. Each of them ends behind a character, and the abbreviations in it stand for what
`expand` says. -/
inductive Narrates (expand : Expansion) (first : Machine η) :
    List Nat → String → Machine η → Prop where
  | begins : Narrates expand first [] "" first
  | silent {codes : List Nat} {said : String} {machine : Machine η} {instruction : Instruction}
      {decoder : Decoder} (earlier : Narrates expand first codes said machine)
      (decoded : machine.nextInstruction = .ok (instruction, decoder))
      (textless : instruction.text = none) (ordinary : ¬ machine.ReplacesNext) :
      Narrates expand first codes said machine.next
  | tells {codes own : List Nat} {said text : String} {machine : Machine η} {decoder : Decoder}
      (earlier : Narrates expand first codes said machine)
      (tells : machine.Tells own text decoder)
      (whole : machine.codec.EndsCharacter machine.decoder.alphabet own)
      (same : machine.abbreviations.expand machine.memory machine.codec = expand)
      (ordinary : ¬ machine.ReplacesNext) :
      Narrates expand first (codes ++ own) (said ++ text) machine.next

section Narrates

variable {expand : Expansion} {first last machine : Machine η} {codes own : List Nat}
  {said text : String} {decoder : Decoder}

omit [Host η] in
theorem Tells.decode (tells : machine.Tells own text decoder) :
    machine.codec.decode (machine.abbreviations.expand machine.memory machine.codec)
      machine.decoder.alphabet own = .ok ⟨text, decoder.alphabet⟩ := by
  rcases tells with ⟨instruction, length, decoded, present, read⟩
  rcases Decoder.text_of_decode decoded with
    ⟨absent, _⟩ | ⟨other, _, codes, carried, found, decodes⟩
  · rw [absent] at present
    cases present
  · rw [carried] at present
    cases present
    rw [read] at found
    cases found
    exact decodes

/-- The texts of a run say what one text of all their codes would say, and lock the same alphabet
in. -/
theorem decode_of_narrates (narrates : Narrates expand first codes said last) :
    first.codec.decode expand first.decoder.alphabet codes =
        .ok ⟨said, last.decoder.alphabet % 3⟩ ∧
      first.codec.EndsCharacter first.decoder.alphabet codes ∧ last.codec = first.codec := by
  induction narrates with
  | begins => exact ⟨rfl, rfl, rfl⟩
  | @silent codes said machine instruction decoder earlier decoded textless ordinary ih =>
      rcases ih with ⟨decodes, whole, codec⟩
      rcases decoder_next decoded ordinary with ⟨later, sameCodec⟩
      rcases Decoder.text_of_decode decoded with ⟨_, rfl⟩ | ⟨text, _, _, present, _⟩
      · exact ⟨by rw [later, decodes], whole, sameCodec.trans codec⟩
      · rw [textless] at present
        cases present
  | @tells codes own said text machine decoder earlier tells whole same ordinary ih =>
      rcases ih with ⟨decodes, wholeBefore, codec⟩
      have own_decodes := tells.decode
      rw [same, codec] at own_decodes
      rw [codec] at whole
      rcases tells with ⟨instruction, _, decoded, _, _⟩
      rcases decoder_next decoded ordinary with ⟨later, sameCodec⟩
      have small : decoder.alphabet < 3 := Codec.alphabet_lt_of_decode own_decodes
      refine ⟨?_, ?_, sameCodec.trans codec⟩
      · rw [later, Nat.mod_eq_of_lt small]
        exact Codec.decode_append_of_mod decodes wholeBefore own_decodes
      · refine Codec.endsCharacter_append decodes wholeBefore ?_
        rw [Codec.EndsCharacter, Codec.start_mod]
        exact whole

/-- Nothing depends on where the last text of a run ends. -/
theorem decode_of_tells (narrates : Narrates expand first codes said last)
    (tells : last.Tells own text decoder)
    (same : last.abbreviations.expand last.memory last.codec = expand) :
    first.codec.decode expand first.decoder.alphabet (codes ++ own) =
      .ok ⟨said ++ text, decoder.alphabet⟩ := by
  rcases decode_of_narrates narrates with ⟨decodes, whole, codec⟩
  have own_decodes := tells.decode
  rw [same, codec] at own_decodes
  exact Codec.decode_append_of_mod decodes whole own_decodes

end Narrates

/-- A text can be cut between two characters: what its first part leaves for the second is the
locked alphabet, which from version 3 on is the one that the text starts in. A story of such a
version never has an alphabet locked in. In any version the inline texts of a run, of which all but
the last end behind a character, decode like one text. An abbreviation in a text says what its own
string says in small letters, whatever shift or lock stands before it, and the text goes on as if
the string held no shift or lock. -/
theorem texts_divide_at_characters :
    (∀ (codec : Codec) (expand : Expansion) (alphabet : Nat) (first second : List Nat)
      (decoded : Decoded), codec.decode expand alphabet first = .ok decoded →
      codec.EndsCharacter alphabet first →
      codec.decode expand alphabet (first ++ second) =
        (codec.decode expand decoded.alphabet second).map fun rest =>
          ⟨decoded.text ++ rest.text, rest.alphabet⟩) ∧
    (∀ (codec : Codec) (expand : Expansion) (alphabet : Nat) (codes : List Nat) (decoded : Decoded),
      3 ≤ codec.version → codec.decode expand alphabet codes = .ok decoded →
      decoded.alphabet = alphabet % 3) ∧
    (∀ (settings : Settings) (image : Image) (host : η) (archive : Archive)
      (machine last : Machine η), start settings image host archive = .ok machine →
      3 ≤ machine.version → Run (fun _ => True) machine last → last.decoder.alphabet = 0) ∧
    (∀ (expand : Expansion) (first last : Machine η) (codes : List Nat) (said : String),
      Narrates expand first codes said last →
      first.codec.decode expand first.decoder.alphabet codes =
        .ok ⟨said, last.decoder.alphabet % 3⟩ ∧
      ∀ own text decoder, last.Tells own text decoder →
        last.abbreviations.expand last.memory last.codec = expand →
        first.codec.decode expand first.decoder.alphabet (codes ++ own) =
          .ok ⟨said ++ text, decoder.alphabet⟩) ∧
    ∀ (codec : Codec) (memory : Memory) (abbreviations : AbbreviationTable)
      (alphabet table index : Nat) (before own after : List Nat) (first inner : Decoded),
      let expand := abbreviations.expand memory codec
      codec.Refers alphabet before table → codec.decode expand alphabet before = .ok first →
      abbreviations.ownCodes memory table index = .ok own →
      codec.decode Expansion.refuse 0 own = .ok inner →
      codec.decode expand alphabet (before ++ table :: index :: after) =
        (codec.decode expand first.alphabet after).map fun rest =>
          ⟨first.text ++ inner.text ++ rest.text, rest.alphabet⟩ := by
  refine ⟨?_, ?_, ?_, ?_, ?_⟩
  · intro codec expand alphabet first second decoded read whole
    exact Codec.decode_append read whole
  · intro codec expand alphabet codes decoded late read
    exact Codec.alphabet_of_decode late read
  · intro settings image host archive machine last started late run
    exact (unlocked_of_run started late run).2
  · intro expand first last codes said narrates
    exact ⟨(decode_of_narrates narrates).1, fun own text decoder => decode_of_tells narrates⟩
  · intro codec memory abbreviations alphabet table index before own after first inner expand refers
      read found tells
    have text : codec.decodeText Expansion.refuse own = .ok inner.text := by
      rw [Codec.decodeText, tells]
      rfl
    have replaced : abbreviations.expand memory codec table index = .ok inner.text := by
      rw [AbbreviationTable.expand_of_ownCodes found, text]
      rfl
    exact Codec.decode_of_refers refers read replaced

/-- A story of version 2 with one abbreviation, which locks the third alphabet in at its end. -/
def lockingStory : Memory :=
  let bytes : List UInt8 := [2] ++ List.replicate 23 0 ++ [0, 64] ++ List.replicate 38 0 ++
    [0, 33, 0xE5, 0xA5]
  let image := bytes.toArray
  { bytes := image, pristine := image, header := Header.read image, pc := 0 }

/-- The first text of a story locks capital letters in, and the second one begins with them. A later
version has no locks. The abbreviation stands after a lock and a shift. -/
theorem texts_divide_at_characters_sample :
    let codec := Codec.standard 2
    let machine := sample 2 [0xB2, 0x90, 0xC7, 0xB4, 0xB2, 0xA0, 0xA6] .absent
    let later := sample 3 [0xB2, 0x90, 0xC7] .absent
    let abbreviations := AbbreviationTable.ofMemory lockingStory
    (codec.decode Expansion.refuse 0 [4, 6] = .ok ⟨"A", 1⟩ ∧ codec.EndsCharacter 0 [4, 6] ∧
      codec.decode Expansion.refuse 0 ([4, 6] ++ [7, 3, 6]) = .ok ⟨"ABa", 1⟩) ∧
    ((Codec.standard 3).decode Expansion.refuse 4 [4, 6, 5, 8] = .ok ⟨"A0", 1⟩ ∧ 1 = 4 % 3) ∧
    (start {} (.sample 3 [0xB2, 0x90, 0xC7]) Recorded.silent .absent = .ok later ∧
      later.next.decoder.alphabet = 0) ∧
    (machine.Tells [4, 6, 7] "AB" ⟨2, 1⟩ ∧ machine.next.next.Tells [8, 5, 6] "Ca" ⟨2, 0⟩ ∧
      codec.decode (machine.abbreviations.expand machine.memory codec) 0 ([4, 6, 7] ++ [8, 5, 6]) =
        .ok ⟨"AB" ++ "Ca", 0⟩) ∧
    codec.Refers 0 [4, 6, 3] 1 ∧
    codec.decode (abbreviations.expand lockingStory codec) 0 [4, 6, 3] = .ok ⟨"A", 1⟩ ∧
    abbreviations.ownCodes lockingStory 1 0 = .ok [25, 13, 5] ∧
    codec.decode Expansion.refuse 0 [25, 13, 5] = .ok ⟨"th", 2⟩ ∧
    codec.decode (abbreviations.expand lockingStory codec) 0 [4, 6, 3, 1, 0, 7] =
      .ok ⟨"AthB", 1⟩ := by
  intro codec machine later abbreviations
  rcases texts_divide_at_characters (η := Recorded) with ⟨append, keeps, stays, joins, refers⟩
  refine ⟨?_, ?_, ?_, ?_, ?_⟩
  · have first : codec.decode Expansion.refuse 0 [4, 6] = .ok ⟨"A", 1⟩ :=
      eq_ok_of_toOption (by decide +kernel)
    have second : codec.decode Expansion.refuse 1 [7, 3, 6] = .ok ⟨"Ba", 1⟩ :=
      eq_ok_of_toOption (by decide +kernel)
    have whole : codec.EndsCharacter 0 [4, 6] := by decide
    refine ⟨first, whole, ?_⟩
    rw [append codec _ 0 [4, 6] [7, 3, 6] _ first whole, second]
    rfl
  · have read : (Codec.standard 3).decode Expansion.refuse 4 [4, 6, 5, 8] = .ok ⟨"A0", 1⟩ :=
      eq_ok_of_toOption (by decide +kernel)
    exact ⟨read, keeps _ _ 4 _ _ (by decide) read⟩
  · have started : start {} (.sample 3 [0xB2, 0x90, 0xC7]) Recorded.silent .absent =
        .ok later := rfl
    exact ⟨started, stays _ _ _ _ _ _ started (by decide) (.step .refl trivial)⟩
  · have first : machine.Tells [4, 6, 7] "AB" ⟨2, 1⟩ := by decide +kernel
    have last : machine.next.next.Tells [8, 5, 6] "Ca" ⟨2, 0⟩ := by decide +kernel
    have whole : machine.codec.EndsCharacter machine.decoder.alphabet [4, 6, 7] := by decide +kernel
    have between : machine.next.nextInstruction.toOption.map (fun read => read.1.text) =
        some none := by decide +kernel
    have ordinary : ¬ machine.ReplacesNext ∧ ¬ machine.next.ReplacesNext :=
      ⟨not_replacesNext (by decide +kernel) (by decide +kernel) (by decide +kernel),
        not_replacesNext (by decide +kernel) (by decide +kernel) (by decide +kernel)⟩
    have tables : machine.next.next.abbreviations = machine.abbreviations := by decide +kernel
    have bytes : machine.next.next.memory.bytes = machine.memory.bytes := by decide +kernel
    have begins : machine.codec = codec ∧ machine.decoder.alphabet = 0 := ⟨rfl, rfl⟩
    clear_value machine
    cases decoded : machine.next.nextInstruction with
    | error fault => simp [decoded, Except.toOption] at between
    | ok read =>
        simp only [decoded, Except.toOption, Option.map_some, Option.some.injEq] at between
        have narrates : Narrates (machine.abbreviations.expand machine.memory machine.codec) machine
            [4, 6, 7] "AB" machine.next.next :=
          .silent (.tells .begins first whole rfl ordinary.1) decoded between ordinary.2
        have same := (decode_of_narrates narrates).2.2
        have joined := (joins _ _ _ _ _ narrates).2 _ _ _ last
          (by rw [tables, same, AbbreviationTable.expand_of_sameBytes bytes])
        rw [begins.1, begins.2] at joined
        exact ⟨first, last, joined⟩
  · have refersTo : codec.Refers 0 [4, 6, 3] 1 := by decide
    have before : codec.decode (abbreviations.expand lockingStory codec) 0 [4, 6, 3] =
        .ok ⟨"A", 1⟩ := eq_ok_of_toOption (by decide +kernel)
    have own : abbreviations.ownCodes lockingStory 1 0 = .ok [25, 13, 5] :=
      eq_ok_of_toOption (by decide +kernel)
    have inner : codec.decode Expansion.refuse 0 [25, 13, 5] = .ok ⟨"th", 2⟩ :=
      eq_ok_of_toOption (by decide +kernel)
    have after : codec.decode (abbreviations.expand lockingStory codec) 1 [7] = .ok ⟨"B", 1⟩ :=
      eq_ok_of_toOption (by decide +kernel)
    have whole := refers codec lockingStory abbreviations 0 1 0 [4, 6, 3] [25, 13, 5] [7] _ _
      refersTo before own inner
    refine ⟨refersTo, before, own, inner, whole.trans ?_⟩
    rw [after]
    rfl

end Steps

end Machine

end ZMachine
