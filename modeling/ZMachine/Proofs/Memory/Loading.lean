import Mathlib.Tactic.MkIffOfInductiveProp
import ZMachine.Proofs.Memory.Protection

/-!
# Loading a story

Loading checks the header of a story, fills in what describes the interpreter, and reads the header.
The checks are a list of demands of which the first unmet one is reported. None of them depends on a
byte that is filled in, wherever the story puts its tables, so the second look at the header finds the
same story. Filling in twice is the same as filling in once: `Header.Normal` says what a header looks
like that is filled in already.
-/

namespace ZMachine

namespace Header

/-- What a story has to meet, in the order of the checks, with the fault of one that does not. -/
def demands (image : Image) : List (Prop × Fault) :=
  let version := (image.byteAt 0x00).toNat
  let limit := (if version ≤ 3 then 128 else if version ≤ 5 then 256 else 512) * 1024
  let staticBase := (image.wordAt 0x0E).toNat
  let highBase := (image.wordAt 0x04).toNat
  [(64 ≤ image.size, .storyTooSmall image.size),
    (1 ≤ version ∧ version ≤ 8, .unsupportedVersion version),
    (image.size ≤ limit, .malformedHeader (.tooLarge image.size version limit)),
    (64 ≤ staticBase ∧ staticBase ≤ image.size,
      .malformedHeader (.staticBase staticBase image.size)),
    (staticBase ≤ highBase, .malformedHeader (.highBase highBase staticBase))]

/-- The fault is that of the first demand that is not met. -/
def FirstUnmet : List (Prop × Fault) → Fault → Prop
  | [], _ => False
  | (met, blamed) :: later, fault => ¬ met ∧ fault = blamed ∨ met ∧ FirstUnmet later fault

theorem maxStorySize_eq {version : Nat} (first : 1 ≤ version) :
    maxStorySize version =
      (if version ≤ 3 then 128 else if version ≤ 5 then 256 else 512) * 1024 := by
  grind [maxStorySize]

theorem check_eq_ok {image : Image} :
    check image = .ok () ↔ ∀ demand ∈ demands image, demand.1 := by
  simp only [check, demands, Header.size, List.forall_mem_cons]
  by_cases known : 1 ≤ (image.byteAt 0x00).toNat ∧ (image.byteAt 0x00).toNat ≤ 8
  · have limit := maxStorySize_eq known.1
    grind
  · grind

theorem check_eq_error {image : Image} {fault : Fault} :
    check image = .error fault ↔ FirstUnmet (demands image) fault := by
  simp only [check, demands, FirstUnmet, Header.size]
  by_cases known : 1 ≤ (image.byteAt 0x00).toNat ∧ (image.byteAt 0x00).toNat ≤ 8
  · have limit := maxStorySize_eq known.1
    grind
  · grind

/-- Loading may rewrite the byte at this address. -/
def Rewrites (version address : Nat) : Prop :=
  address = 0x01 ∨ address = 0x32 ∨ address = 0x33 ∨
    4 ≤ version ∧ 0x1E ≤ address ∧ address ≤ 0x21 ∨
    5 ≤ version ∧ (address = 0x10 ∨ address = 0x11 ∨ 0x22 ≤ address ∧ address ≤ 0x27)

theorem Rewrites.five {version address : Nat} (rewrites : Rewrites version address) :
    Rewrites 5 address := by
  simp only [Rewrites] at rewrites ⊢
  omega

section Normalizing

variable (settings : Settings) {image : Image} {address : Nat}

theorem size_normalize (image : Image) : (normalize settings image).size = image.size := by
  simp only [normalize]
  split <;> split <;> simp

theorem byteAt_normalize (kept : ¬ Rewrites (image.byteAt 0x00).toNat address) :
    (normalize settings image).byteAt address = image.byteAt address := by
  simp only [Rewrites] at kept
  simp only [normalize, flags2Address]
  by_cases early : (image.byteAt 0x00).toNat ≤ 3
  · have notLate : ¬ 5 ≤ (image.byteAt 0x00).toNat := by omega
    simp (disch := omega) only [if_pos early, if_neg notLate, Image.byteAt_setByte_of_ne]
  · by_cases late : 5 ≤ (image.byteAt 0x00).toNat
    · simp (disch := omega) only [if_neg early, if_pos late, Image.byteAt_setByte_of_ne,
        Image.byteAt_setWord_of_ne]
    · simp (disch := omega) only [if_neg early, if_neg late, Image.byteAt_setByte_of_ne]

/-- A byte that no version rewrites is the same in all of them. -/
theorem byteAt_normalize_of_five (kept : ¬ Rewrites 5 address) :
    (normalize settings image).byteAt address = image.byteAt address := by
  apply byteAt_normalize
  intro rewrites
  exact kept rewrites.five

theorem wordAt_normalize (first : ¬ Rewrites 5 address) (second : ¬ Rewrites 5 (address + 1)) :
    (normalize settings image).wordAt address = image.wordAt address := by
  simp only [Image.wordAt, byteAt_normalize_of_five settings first,
    byteAt_normalize_of_five settings second]

theorem check_normalize (image : Image) : check (normalize settings image) = check image := by
  simp [check, size_normalize, byteAt_normalize_of_five, wordAt_normalize, Rewrites]

/-- A header that is read after filling in differs only in what is filled in, and in the Unicode
table, whose address stands in a table that the story may have put over the header. -/
theorem read_normalize {after : Header} (found : after = read (normalize settings image)) :
    after =
      { read image with
        flags1 := after.flags1
        flags2 := after.flags2
        interpreterNumber := after.interpreterNumber
        interpreterVersion := after.interpreterVersion
        screenHeight := after.screenHeight
        screenWidth := after.screenWidth
        standardRevision := after.standardRevision
        unicodeTable := after.unicodeTable } := by
  subst found
  simp [read, byteAt_normalize_of_five, wordAt_normalize, Rewrites, List.range_succ]

end Normalizing

/-- The header says what filling it in with these settings makes it say. -/
@[mk_iff]
structure Normal (settings : Settings) (image : Image) : Prop where
  flags1 : image.byteAt 0x01 &&& (if (image.byteAt 0x00).toNat ≤ 3 then 0x9F else 0x5C) =
    image.byteAt 0x01
  interpreter : 4 ≤ (image.byteAt 0x00).toNat →
    image.byteAt 0x1E = settings.interpreterNumber ∧
    image.byteAt 0x1F = settings.interpreterVersion ∧
    image.byteAt 0x20 = settings.screenHeight ∧ image.byteAt 0x21 = settings.screenWidth
  units : 5 ≤ (image.byteAt 0x00).toNat →
    image.wordAt 0x22 = settings.screenWidth.toUInt16 ∧
    image.wordAt 0x24 = settings.screenHeight.toUInt16 ∧
    image.byteAt 0x26 = 1 ∧ image.byteAt 0x27 = 1
  flags2 : 5 ≤ (image.byteAt 0x00).toNat →
    image.wordAt flags2Address &&& 0xFE57 = image.wordAt flags2Address
  revision : image.byteAt 0x32 = 1 ∧ image.byteAt 0x33 = 1

theorem normalize_of_normal {settings : Settings} {image : Image} (normal : Normal settings image) :
    normalize settings image = image := by
  rcases normal with ⟨flags1, interpreter, units, flags2, major, minor⟩
  simp only [normalize]
  by_cases early : (image.byteAt 0x00).toNat ≤ 3
  · have notLate : ¬ 5 ≤ (image.byteAt 0x00).toNat := by omega
    rw [if_pos early] at flags1
    simp only [if_pos early, if_neg notLate, flags1, major, minor, Image.setByte_of_same]
  · rcases interpreter (by omega) with ⟨number, release, height, width⟩
    rw [if_neg early] at flags1
    by_cases late : 5 ≤ (image.byteAt 0x00).toNat
    · rcases units late with ⟨columns, rows, fontWidth, fontHeight⟩
      simp only [if_neg early, if_pos late, flags1, number, release, height, width, columns, rows,
        fontWidth, fontHeight, flags2 late, major, minor, Image.setByte_of_same,
        Image.setWord_of_same]
    · simp only [if_neg early, if_neg late, flags1, number, release, height, width, major, minor,
        Image.setByte_of_same]

theorem normal_normalize (settings : Settings) {image : Image} (large : 64 ≤ image.size) :
    Normal settings (normalize settings image) := by
  have inside : ∀ address, address < 64 → address < image.size := by
    intro address small
    omega
  have version : (normalize settings image).byteAt 0x00 = image.byteAt 0x00 := by
    apply byteAt_normalize
    simp [Rewrites]
  rw [normal_iff, version]
  by_cases early : (image.byteAt 0x00).toNat ≤ 3
  · have notMiddle : ¬ 4 ≤ (image.byteAt 0x00).toNat := by omega
    have notLate : ¬ 5 ≤ (image.byteAt 0x00).toNat := by omega
    simp [normalize, early, notMiddle, notLate, Image.byteAt_setByte_eq, inside, UInt8.and_assoc]
  · have middle : 4 ≤ (image.byteAt 0x00).toNat := by omega
    by_cases late : 5 ≤ (image.byteAt 0x00).toNat
    · simp [normalize, flags2Address, Image.setWord, Image.wordAt, early, middle, late,
        Image.byteAt_setByte_eq, inside, Word.ofBytes_high_low, UInt8.and_assoc, UInt16.and_assoc]
    · simp [normalize, early, middle, late, Image.byteAt_setByte_eq, inside, UInt8.and_assoc]

end Header

namespace Memory

variable {settings : Settings} {image : Image}

/-- The memory of an image whose header is filled in. -/
def fresh (image : Image) : Memory where
  bytes := image
  pristine := image
  header := Header.read image
  pc := (Header.read image).initialPc

theorem load_of_checked (checked : Header.check image = .ok ()) :
    load settings image = .ok (fresh (Header.normalize settings image)) := by
  have again := Header.check_normalize settings image
  rw [checked] at again
  simp only [load, Header.parse, checked, again, bind, Except.bind, pure, Except.pure, fresh]

theorem load_of_refused {fault : Fault} (refused : Header.check image = .error fault) :
    load settings image = .error fault := by
  simp only [load, refused, bind, Except.bind]

theorem load_eq_ok_iff {memory : Memory} :
    load settings image = .ok memory ↔
      Header.check image = .ok () ∧ memory = fresh (Header.normalize settings image) := by
  cases checked : Header.check image with
  | ok _ => simp [load_of_checked checked, eq_comm]
  | error fault => simp [load_of_refused checked]

theorem load_eq_error_iff {fault : Fault} :
    load settings image = .error fault ↔ Header.check image = .error fault := by
  cases checked : Header.check image with
  | ok _ => simp [load_of_checked checked]
  | error fault => simp [load_of_refused checked]

/-- A story is loaded exactly if it meets all demands, and the first one that it does not meet is
reported. Of a loaded story at most the bytes that describe the interpreter are rewritten, its header
says the same about the story as before, and loading it again makes no difference. -/
theorem load_exact_and_stable (settings : Settings) (image : Image) :
    ((∃ memory, load settings image = .ok memory) ↔
      ∀ demand ∈ Header.demands image, demand.1) ∧
    (∀ fault, load settings image = .error fault ↔
      Header.FirstUnmet (Header.demands image) fault) ∧
    ∀ memory, load settings image = .ok memory →
      memory.bytes = Header.normalize settings image ∧
      memory.bytes.size = image.size ∧
      (∀ address, ¬ Header.Rewrites (image.byteAt 0x00).toNat address →
        memory.bytes.byteAt address = image.byteAt address) ∧
      (∃ first, Header.parse image = .ok first ∧ Header.parse memory.bytes = .ok memory.header ∧
        memory.header =
          { first with
            flags1 := memory.header.flags1
            flags2 := memory.header.flags2
            interpreterNumber := memory.header.interpreterNumber
            interpreterVersion := memory.header.interpreterVersion
            screenHeight := memory.header.screenHeight
            screenWidth := memory.header.screenWidth
            standardRevision := memory.header.standardRevision
            unicodeTable := memory.header.unicodeTable }) ∧
      load settings memory.bytes = .ok memory := by
  refine ⟨?_, ?_, ?_⟩
  · rw [← Header.check_eq_ok]
    simp [load_eq_ok_iff]
  · intro fault
    rw [← Header.check_eq_error]
    exact load_eq_error_iff
  · intro memory loaded
    rcases load_eq_ok_iff.mp loaded with ⟨checked, shape⟩
    have bytes : memory.bytes = Header.normalize settings image := by rw [shape, fresh]
    have header : memory.header = Header.read (Header.normalize settings image) := by
      rw [shape, fresh]
    have again : Header.check (Header.normalize settings image) = .ok () := by
      rw [Header.check_normalize, checked]
    have large : 64 ≤ image.size := by
      apply Header.check_eq_ok.mp checked (64 ≤ image.size, .storyTooSmall image.size)
      simp [Header.demands]
    refine ⟨bytes, ?_, ?_, ⟨Header.read image, ?_, ?_, Header.read_normalize settings header⟩, ?_⟩
    · rw [bytes, Header.size_normalize]
    · intro address kept
      rw [bytes, Header.byteAt_normalize settings kept]
    · simp [Header.parse, checked, bind, Except.bind, pure, Except.pure]
    · simp [Header.parse, bytes, header, again, bind, Except.bind, pure, Except.pure]
    · have normal := Header.normal_normalize settings large
      rw [bytes, load_of_checked again, Header.normalize_of_normal normal, shape]

/-- A story of version 5 that puts its header extension over the bytes that describe the interpreter.
The Unicode table then seems to be at 24, which is the height of the screen, and stays there. -/
theorem load_exact_and_stable_overlaid :
    let image := (Image.sample 5 []).setWord 0x36 0x1E
    ∃ memory, load {} image = .ok memory ∧ (Header.read image).unicodeTable = 0 ∧
      memory.header.unicodeTable = 24 ∧ load {} memory.bytes = .ok memory := by
  intro image
  have checked : Header.check image = .ok () := by
    apply eq_ok_of_toOption
    decide +kernel
  have laid : (Header.read image).unicodeTable = 0 ∧
      (Header.read (Header.normalize {} image)).unicodeTable = 24 := by
    decide +kernel
  clear_value image
  rcases load_exact_and_stable {} image with ⟨accepted, _, loads⟩
  rcases accepted.mpr (Header.check_eq_ok.mp checked) with ⟨memory, loaded⟩
  rcases loads memory loaded with ⟨_, _, _, _, stable⟩
  refine ⟨memory, loaded, laid.1, ?_, stable⟩
  rw [(load_eq_ok_iff.mp loaded).2, fresh]
  exact laid.2

end Memory

end ZMachine
