import ZMachine.Proofs.Memory.Addressing

/-!
# Addresses in the tables of a story

The header of a story names the places of its abbreviations, its objects and its dictionary, and
what is found there leads on to other places. Each such place is given by a word, by the number of
an entry, or by its distance from a byte that has been read, so it is far from the end of the range
of addresses.

The tables are gone through in the order in which they build on each other: texts, instructions,
objects, properties and dictionaries.
-/

namespace ZMachine

/-- Apart from the expansion of abbreviations, reading codes never fails. -/
theorem Codec.answers_decodeAfter (codec : Codec) {expand : Expansion}
    (expands : ∀ table index, Answers (fun _ => True) (expand table index)) (locked current : Nat)
    (text : String) (codes : List Nat) :
    Answers (fun _ => True) (codec.decodeAfter expand locked current text codes) := by
  fun_induction Codec.decodeAfter codec expand locked current text codes with
  | case1 | case4 | case12 => trivial
  | case5 _ _ _ code _ _ _ index _ fault failed =>
      have answered := expands code index
      rw [failed] at answered
      exact answered
  | _ => assumption

theorem Codec.answers_decode (codec : Codec) {expand : Expansion}
    (expands : ∀ table index, Answers (fun _ => True) (expand table index)) (alphabet : Nat)
    (codes : List Nat) : Answers (fun _ => True) (codec.decode expand alphabet codes) :=
  codec.answers_decodeAfter expands _ _ _ codes

theorem Codec.answers_decodeText (codec : Codec) {expand : Expansion}
    (expands : ∀ table index, Answers (fun _ => True) (expand table index)) (codes : List Nat) :
    Answers (fun _ => True) (codec.decodeText expand codes) :=
  (codec.answers_decode expands 0 codes).map fun _ _ => trivial

section Text

variable {memory : Memory} {abbreviations : AbbreviationTable}
  (word : abbreviations.address < 65536)

include word

theorem AbbreviationTable.answers_stringAddress (table index : Nat) :
    Answers (· < 131072) (abbreviations.stringAddress memory table index) := by
  apply Answers.ite
  · intro _
    trivial
  · intro range
    have fits : abbreviations.address + (32 * (table - 1) + index) * 2 < addressCount :=
      lt_addressCount (by omega)
    refine (Memory.answers_fetchWord fits).bind fun found _ => ?_
    have := found.toNat_lt
    show found.toNat * 2 < 131072
    omega

variable (bounded : memory.Bounded)

include bounded

theorem AbbreviationTable.answers_expand (codec : Codec) (table index : Nat) :
    Answers (fun _ => True) (abbreviations.expand memory codec table index) := by
  refine (answers_stringAddress word table index).bind fun address small => ?_
  have fits : address < addressCount := lt_addressCount (by omega)
  apply (Memory.answers_readCodes bounded none fits).bind
  rintro ⟨length, codes⟩ _
  dsimp only
  have refuses : ∀ table index, Answers (fun _ => True) (Expansion.refuse table index) :=
    fun _ _ => trivial
  have refused := codec.answers_decodeText refuses codes
  rcases refused.cases with ⟨text, decoded, _⟩ | ⟨fault, failed, addressable⟩
  · rw [decoded]
    trivial
  · rw [failed]
    unfold Except.mapError blameReference
    dsimp only
    split
    · trivial
    · exact addressable

theorem AbbreviationTable.answers_stringAt (codec : Codec) {address : Nat}
    (fits : address < addressCount) :
    Answers (fun _ => True) (abbreviations.stringAt memory codec address) := by
  apply (Memory.answers_readCodes bounded none fits).bind
  rintro ⟨length, codes⟩ _
  exact (codec.answers_decodeText (answers_expand word bounded codec) codes).bind fun _ _ => trivial

end Text

namespace Fetching

variable {α β : Type} {memory : Memory}

/-- Reading from an address that fits fails at an address that fits, or ends at one. -/
def Fits (reader : Fetching α) : Prop :=
  ∀ ⦃address⦄, address < addressCount → Answers (·.2 < addressCount) (reader address)

theorem fits_pure (value : α) : Fits (pure value) :=
  fun _ fits => fits

theorem fits_bind {reader : Fetching α} {next : α → Fetching β} (first : Fits reader)
    (rest : ∀ value, Fits (next value)) : Fits (reader >>= next) := by
  intro address fits
  exact (first fits).bind fun found later => rest found.1 later

theorem fits_map (change : α → β) {reader : Fetching α} (fits : Fits reader) :
    Fits (change <$> reader) :=
  fits_bind fits fun value => fits_pure (change value)

theorem fits_ite {condition : Prop} [Decidable condition] {first second : Fetching α}
    (holds : Fits first) (fails : Fits second) : Fits (if condition then first else second) := by
  split
  · exact holds
  · exact fails

theorem fits_onlyIf {condition : Bool} {reader : Fetching α} (fits : Fits reader) :
    Fits (onlyIf condition reader) :=
  fits_ite (fits_map some fits) (fits_pure none)

variable (bounded : memory.Bounded)

include bounded

theorem fits_byte : Fits (byte memory) := by
  intro address fits
  refine (Memory.answers_fetchByte fits).bind fun value inside => ?_
  have size := bounded.size
  show address + 1 < addressCount
  exact lt_addressCount (by omega)

theorem fits_word : Fits (word memory) := by
  intro address fits
  refine (Memory.answers_fetchWord fits).bind fun value inside => ?_
  have size := bounded.size
  show address + 2 < addressCount
  exact lt_addressCount (by omega)

end Fetching

section Instructions

open Fetching

variable {memory : Memory} (bounded : memory.Bounded)

include bounded

theorem Opening.fits_read (version : Nat) : Fits (Opening.read version memory) := by
  refine fits_bind (fits_byte bounded) fun first => fits_ite ?_ (fits_pure _)
  exact fits_bind (fits_byte bounded) fun number => fits_pure _

theorem Opening.fits_readKinds (opening : Opening) : Fits (opening.readKinds memory) := by
  refine fits_ite ?_ (fits_pure _)
  refine fits_bind (fits_byte bounded) fun first => fits_ite ?_ (fits_pure _)
  exact fits_bind (fits_byte bounded) fun second => fits_pure _

theorem Operand.fits_readAll (kinds : List OperandKind) : Fits (Operand.readAll memory kinds) := by
  induction kinds with
  | nil => exact fits_pure []
  | cons kind kinds ih =>
      unfold Operand.readAll
      have rest : ∀ value, Fits (do
          let operands ← Operand.readAll memory kinds
          return (⟨kind, value⟩ : Operand) :: operands) := fun value =>
        fits_bind ih fun operands => fits_pure _
      dsimp only
      split
      · exact fits_bind (fits_word bounded) rest
      · exact fits_bind (fits_map _ (fits_byte bounded)) rest

theorem Branch.fits_read : Fits (Branch.read memory) := by
  unfold Branch.read
  refine fits_bind (fits_byte bounded) fun first => ?_
  have rest : ∀ offset : Int, Fits (do
      let after ← get
      return (⟨decide (128 ≤ first.toNat), offset, Branch.targetOf after offset⟩ : Branch)) :=
    fun offset address fits => fits
  dsimp only
  split
  · exact fits_bind (fits_pure _) rest
  · exact fits_bind (fits_map _ (fits_byte bounded)) rest

variable {abbreviations : AbbreviationTable} (word : abbreviations.address < 65536)

include word

theorem Decoder.fits_readText (decoder : Decoder) (codec : Codec) :
    Fits (decoder.readText memory codec abbreviations) := by
  intro address fits
  apply (Memory.answers_readCodes bounded none fits).bind
  rintro ⟨length, codes⟩ ends
  have expands := AbbreviationTable.answers_expand word bounded codec
  exact (codec.answers_decode expands _ codes).bind fun _ _ => ends

/-- Decoding from an address that fits fails at an address that fits. -/
theorem Decoder.answers_decode (decoder : Decoder) (codec : Codec) {address : Nat}
    (fits : address < addressCount) :
    Answers (fun _ => True) (decoder.decode memory codec abbreviations address) := by
  have reads : Fits (decoder.read memory codec abbreviations address) := by
    refine fits_bind (Opening.fits_read bounded _) fun opening => ?_
    refine fits_bind (Opening.fits_readKinds bounded opening) fun kinds => ?_
    refine fits_bind (Operand.fits_readAll bounded _) fun operands => ?_
    refine fits_bind (fits_onlyIf (fits_byte bounded)) fun store => ?_
    refine fits_bind (fits_onlyIf (Branch.fits_read bounded)) fun branch => ?_
    refine fits_bind (fits_onlyIf (decoder.fits_readText bounded word codec)) fun decoded => ?_
    exact fun _ fits => fits
  exact (reads fits).bind fun _ _ => trivial

end Instructions

namespace ObjectTable

open Memory (Bounded)

variable {table : ObjectTable} (word : table.address < 65536)

theorem entrySize_le (table : ObjectTable) : table.entrySize ≤ 14 := by
  unfold entrySize
  split
  · omega
  · omega

theorem attributeBytes_le (table : ObjectTable) : table.attributeBytes ≤ 6 := by
  unfold attributeBytes
  split
  · omega
  · omega

theorem linkBytes_le (table : ObjectTable) : table.linkBytes ≤ 2 := by
  unfold linkBytes
  split
  · omega
  · omega

theorem defaultCount_le (table : ObjectTable) : table.defaultCount ≤ 63 := by
  unfold defaultCount
  split
  · omega
  · omega

theorem maxObject_le (table : ObjectTable) : table.maxObject ≤ 65535 := by
  unfold maxObject
  split
  · omega
  · omega

include word

theorem answers_entryAddress (object : Nat) :
    Answers (fun address => 1 ≤ object ∧ address < 1048576) (table.entryAddress object) := by
  apply Answers.ite
  · intro _
    trivial
  · intro legal
    have largest := table.maxObject_le
    have defaults := table.defaultCount_le
    have entries : (object - 1) * table.entrySize ≤ 65534 * 14 :=
      Nat.mul_le_mul (by omega) table.entrySize_le
    refine ⟨by omega, ?_⟩
    omega

theorem answers_linkAddress (object : Nat) (link : Link) :
    Answers (· < 1048676) (table.linkAddress object link) := by
  refine (answers_entryAddress word object).bind fun entry bounds => ?_
  have attributes := table.attributeBytes_le
  have places : link.place * table.linkBytes ≤ 2 * 2 := by
    refine Nat.mul_le_mul ?_ table.linkBytes_le
    cases link with
    | parent => decide
    | sibling => decide
    | child => decide
  show entry + table.attributeBytes + link.place * table.linkBytes < 1048676
  omega

theorem answers_attributeEntry (object index : Nat) :
    Answers (fun entry => entry < 1048576 ∧ index < 48) (table.attributeEntry object index) := by
  refine Answers.ite (fun _ => trivial) fun legal => ?_
  refine (answers_entryAddress word object).mono fun entry bounds => ⟨bounds.2, ?_⟩
  have attributes := table.attributeBytes_le
  unfold maxAttributes at legal
  omega

section Queries

variable (memory : Memory)

theorem answers_follow (object : Nat) (link : Link) :
    Answers (fun _ => True) (table.follow memory object link) := by
  refine (answers_linkAddress word object link).bind fun address small => ?_
  have fits : address < addressCount := lt_addressCount (by omega)
  apply Answers.ite
  · intro _
    exact (Memory.answers_fetchByte fits).bind fun _ _ => trivial
  · intro _
    exact (Memory.answers_fetchWord fits).bind fun _ _ => trivial

theorem answers_hasAttribute (object index : Nat) :
    Answers (fun _ => True) (table.hasAttribute memory object index) := by
  refine (answers_attributeEntry word object index).bind fun entry bounds => ?_
  have fits : entry < addressCount := lt_addressCount (by omega)
  exact (Memory.answers_fetchBytes _ fits).bind fun _ _ => trivial

theorem answers_elder (object steps current : Nat) :
    Answers (fun _ => True) (table.elder memory object steps current) := by
  induction steps generalizing current with
  | zero => trivial
  | succ steps ih =>
      unfold elder
      refine Answers.ite (fun _ => trivial) fun _ => ?_
      rcases (answers_follow word memory current .sibling).cases with
        ⟨following, followed, _⟩ | ⟨fault, followed, addressable⟩
      · rw [sibling, followed]
        exact Answers.ite (fun _ => trivial) fun _ => ih following
      · rw [sibling, followed]
        exact addressable

theorem answers_propertyTable (object : Nat) :
    Answers (· < 65536) (table.propertyTable memory object) := by
  refine (answers_entryAddress word object).bind fun entry bounds => ?_
  have offset : (if table.isSmall then 7 else 12) ≤ 12 := by
    split
    · omega
    · omega
  have fits : entry + (if table.isSmall then 7 else 12) < addressCount := lt_addressCount (by omega)
  exact (Memory.answers_fetchWord fits).bind fun found _ => found.toNat_lt

theorem answers_propertyDefault (number : Nat) :
    Answers (fun _ => 1 ≤ number) (table.propertyDefault memory number) := by
  apply Answers.ite
  · intro _
    trivial
  · intro legal
    have defaults := table.defaultCount_le
    have fits : table.address + (number - 1) * 2 < addressCount := lt_addressCount (by omega)
    refine (Memory.answers_fetchWord fits).mono fun _ _ => ?_
    omega

variable {memory} (bounded : memory.Bounded)

omit word in
include bounded in
/-- The data of a block begins near the byte that announces it, and so does the next block. -/
theorem answers_propertyAt {address : Nat} (fits : address < addressCount) :
    Answers (∀ property ∈ ·, property.dataAddress < 524290 ∧ property.next < 524400)
      (table.propertyAt memory address) := by
  have size := bounded.size
  refine (Memory.answers_fetchByte fits).bind fun first inside => ?_
  have byte := first.toNat_lt
  refine Answers.ite (fun _ => by simp [Answers, pure, Except.pure]) fun _ => ?_
  apply Answers.ite
  · intro _
    simp only [Answers, pure, Except.pure, Option.mem_some_iff, forall_eq', Property.next]
    omega
  · intro _
    apply Answers.ite
    · intro _
      have fitsNext : address + 1 < addressCount := lt_addressCount (by omega)
      refine (Memory.answers_fetchByte fitsNext).bind fun second _ => ?_
      have wide : wideSize second ≤ 64 := by
        unfold wideSize
        split
        · omega
        · omega
      simp only [Answers, pure, Except.pure, Option.mem_some_iff, forall_eq', Property.next]
      omega
    · intro _
      simp only [Answers, pure, Except.pure, Option.mem_some_iff, forall_eq', Property.next]
      refine ⟨by omega, ?_⟩
      split
      · omega
      · omega

omit word in
include bounded in
theorem answers_propertiesFrom {address : Nat} {before : Array Property}
    (fits : address < addressCount) (near : ∀ property ∈ before, property.dataAddress < 524290) :
    Answers (∀ property ∈ ·, property.dataAddress < 524290)
      (table.propertiesFrom memory address before) := by
  fun_induction propertiesFrom table memory address before with
  | case1 address before fault failed =>
      have answered : Answers _ (table.propertyAt memory address) := answers_propertyAt bounded fits
      rw [failed] at answered
      exact answered
  | case2 address before _ =>
      intro property member
      exact near property (Array.mem_toList_iff.mp member)
  | case3 address before property found ih =>
      have answered : Answers _ (table.propertyAt memory address) := answers_propertyAt bounded fits
      rw [found] at answered
      have bounds := answered property rfl
      apply ih
      · exact lt_addressCount (by omega)
      · intro other member
        rcases Array.mem_push.mp member with older | rfl
        · exact near other older
        · exact bounds.1

include bounded

theorem answers_properties (object : Nat) :
    Answers (∀ property ∈ ·, property.dataAddress < 524290) (table.properties memory object) := by
  refine (answers_propertyTable word memory object).bind fun address small => ?_
  have fits : address < addressCount := lt_addressCount (by omega)
  refine (Memory.answers_fetchByte fits).bind fun words _ => ?_
  have byte := words.toNat_lt
  apply answers_propertiesFrom bounded
  · exact lt_addressCount (by omega)
  · simp

theorem answers_findProperty (object number : Nat) :
    Answers (∀ property ∈ ·, property.dataAddress < 524290)
      (table.findProperty memory object number) := by
  refine (answers_properties word bounded object).bind fun list near => ?_
  intro property found
  exact near property (List.mem_of_find?_eq_some found)

theorem answers_propertyValue (object number : Nat) :
    Answers (fun _ => True) (table.propertyValue memory object number) := by
  refine (answers_findProperty word bounded object number).bind fun found near => ?_
  cases found with
  | none => exact (answers_propertyDefault word memory number).mono fun _ _ => trivial
  | some property =>
      have fits : property.dataAddress < addressCount := by
        have := near property rfl
        exact lt_addressCount (by omega)
      apply Answers.ite
      · intro _
        exact (Memory.answers_fetchByte fits).bind fun _ _ => trivial
      · intro _
        exact (Memory.answers_fetchWord fits).mono fun _ _ => trivial

theorem answers_propertyAddress (object number : Nat) :
    Answers (fun _ => True) (table.propertyAddress memory object number) := by
  refine (answers_findProperty word bounded object number).bind fun found _ => ?_
  cases found with
  | none => trivial
  | some property => trivial

theorem answers_nextProperty (object number : Nat) :
    Answers (fun _ => True) (table.nextProperty memory object number) := by
  refine (answers_properties word bounded object).bind fun list _ => ?_
  refine Answers.ite (fun _ => trivial) fun _ => ?_
  split
  · trivial
  · trivial

theorem answers_shortName (codec : Codec) {abbreviations : AbbreviationTable}
    (words : abbreviations.address < 65536) (object : Nat) :
    Answers (fun _ => True) (table.shortName memory codec abbreviations object) := by
  have named : Answers (fun _ => True) (table.nameCodes memory object) := by
    refine (answers_propertyTable word memory object).bind fun address small => ?_
    have fits : address + 1 < addressCount := lt_addressCount (by omega)
    refine (Memory.answers_fetchByte (Nat.lt_of_succ_lt fits)).bind fun count _ => ?_
    refine Answers.ite (fun _ => trivial) fun _ => ?_
    exact (Memory.answers_readCodes bounded _ fits).bind fun _ _ => trivial
  refine named.bind fun codes _ => ?_
  exact codec.answers_decodeText (AbbreviationTable.answers_expand words bounded codec) codes

omit word bounded in
/-- Only a data address other than 0 has a byte before it, and only then is that byte looked at. -/
theorem answers_propertyLength (memory : Memory) {dataAddress : Nat} (small : dataAddress < 65536) :
    Answers (fun _ => True) (table.propertyLength memory dataAddress) := by
  refine Answers.ite (fun _ => trivial) fun _ => ?_
  have fits : dataAddress - 1 < addressCount := lt_addressCount (by omega)
  refine (Memory.answers_fetchByte fits).bind fun byte _ => ?_
  refine Answers.ite (fun _ => trivial) fun _ => Answers.ite (fun _ => trivial) fun _ => ?_
  trivial

end Queries

theorem ensures_setLink (object : Nat) (link : Link) (value : Nat) :
    Ensures Bounded (fun _ => True) (table.setLink object link value) := by
  have placed : Ensures Bounded (· < 1048676)
      (Memory.inspect fun _ => table.linkAddress object link) :=
    Memory.ensures_inspect fun _ _ => answers_linkAddress word object link
  refine placed.bind fun address small => ?_
  have fits : address + 1 < addressCount := lt_addressCount (by omega)
  apply Ensures.ite
  · intro _
    refine Ensures.ite (fun _ => Ensures.throw trivial) fun _ => ?_
    exact (Memory.ensures_writeByte _ fits).mono fun _ _ => trivial
  · intro _
    exact (Memory.ensures_writeWord _ fits).mono fun _ _ => trivial

theorem ensures_follow (object : Nat) (link : Link) :
    Ensures Bounded (fun _ => True) (Memory.inspect (table.follow · object link)) :=
  Memory.ensures_inspect fun memory _ => answers_follow word memory object link

theorem ensures_closeGap (object parent next : Nat) :
    Ensures Bounded (fun _ => True) (table.closeGap object parent next) := by
  refine (ensures_follow word parent .child).bind fun first _ => ?_
  refine Ensures.ite (fun _ => ensures_setLink word _ _ _) fun _ => ?_
  have searched : Ensures Bounded (fun _ => True)
      (Memory.inspect (table.elder · object (table.maxObject + 1) first)) :=
    Memory.ensures_inspect fun memory _ => answers_elder word memory _ _ _
  refine searched.bind fun found _ => ?_
  cases found with
  | none => exact Ensures.pure trivial
  | some elder => exact ensures_setLink word _ _ _

theorem ensures_remove (object : Nat) : Ensures Bounded (fun _ => True) (table.remove object) := by
  refine (ensures_follow word object .parent).bind fun parent _ => ?_
  refine Ensures.ite (fun _ => Ensures.pure trivial) fun _ => ?_
  refine (ensures_follow word object .sibling).bind fun next _ => ?_
  refine (ensures_closeGap word object parent next).bind fun _ _ => ?_
  refine (ensures_setLink word object .parent 0).bind fun _ _ => ?_
  exact ensures_setLink word object .sibling 0

theorem ensures_insert (object parent : Nat) :
    Ensures Bounded (fun _ => True) (table.insert object parent) := by
  refine Ensures.ite (fun _ => Ensures.throw trivial) fun _ => ?_
  refine (ensures_remove word object).bind fun _ _ => ?_
  refine (ensures_follow word parent .child).bind fun first _ => ?_
  refine (ensures_setLink word object .sibling first).bind fun _ _ => ?_
  refine (ensures_setLink word parent .child object).bind fun _ _ => ?_
  exact ensures_setLink word object .parent parent

theorem ensures_writeAttribute (object index : Nat) (value : Bool) :
    Ensures Bounded (fun _ => True) (table.writeAttribute object index value) := by
  have placed : Ensures Bounded (fun entry => entry < 1048576 ∧ index < 48)
      (Memory.inspect fun _ => table.attributeEntry object index) :=
    Memory.ensures_inspect fun _ _ => answers_attributeEntry word object index
  refine placed.bind fun entry bounds => ?_
  have fits : entry + index / 8 + 1 < addressCount := lt_addressCount (by omega)
  have checked : Ensures Bounded (fun _ => True)
      (Memory.inspect (·.checkDynamic entry table.attributeBytes)) := by
    apply Memory.ensures_inspect
    intro memory _
    exact (Memory.answers_checkDynamic _ (by omega)).mono fun _ _ => trivial
  refine checked.bind fun _ _ => ?_
  have looked : Ensures Bounded (fun _ => True)
      (Memory.inspect fun memory => .ok (memory.bytes.byteAt (entry + index / 8))) :=
    Memory.ensures_inspect fun _ _ => trivial
  refine looked.bind fun byte _ => ?_
  exact (Memory.ensures_writeByte _ fits).mono fun _ _ => trivial

theorem ensures_setProperty (object number : Nat) (value : UInt16) :
    Ensures Bounded (fun _ => True) (table.setProperty object number value) := by
  have searched : Ensures Bounded (∀ property ∈ ·, property.dataAddress < 524290)
      (Memory.inspect (table.findProperty · object number)) :=
    Memory.ensures_inspect fun memory bounded => answers_findProperty word bounded object number
  refine searched.bind fun found near => ?_
  cases found with
  | none => exact Ensures.throw trivial
  | some property =>
      have fits : property.dataAddress + 1 < addressCount := by
        have := near property rfl
        exact lt_addressCount (by omega)
      apply Ensures.ite
      · intro _
        exact (Memory.ensures_writeByte _ fits).mono fun _ _ => trivial
      · intro _
        refine Ensures.ite (fun _ => ?_) fun _ => Ensures.throw trivial
        exact (Memory.ensures_writeWord _ fits).mono fun _ _ => trivial

end ObjectTable

/-- A signed word is at most 32768 away from zero. -/
theorem Word.natAbs_signed_le (word : UInt16) : (Word.signed word).natAbs ≤ 32768 := by
  have least := word.toInt16.le_toInt
  have greatest := word.toInt16.toInt_lt
  unfold Word.signed
  omega

namespace Dictionary

open Memory (Bounded)

/-- The entries of a dictionary are not too many, not too long and begin near the file. -/
structure Fits (dictionary : Dictionary) : Prop where
  entries : dictionary.entries < 1048576
  entryLength : dictionary.entryLength < 256
  size : dictionary.size ≤ 32768

variable {memory : Memory}

theorem answers_read (bounded : memory.Bounded) {address : Nat} (small : address < 65536) :
    Answers Fits (read memory address) := by
  have size := bounded.size
  refine (Memory.answers_fetchByte (lt_addressCount (by omega))).bind fun count _ => ?_
  have byte := count.toNat_lt
  refine (Memory.answers_fetchBytes _ (lt_addressCount (by omega))).bind fun separators _ => ?_
  refine (Memory.answers_fetchByte (lt_addressCount (by omega))).bind fun entryLength _ => ?_
  refine (Memory.answers_fetchWord (lt_addressCount (by omega))).bind fun entryCount _ => ?_
  refine ⟨?_, entryLength.toNat_lt, ?_⟩
  · show address + 1 + count.toNat + 3 < 1048576
    omega
  · exact Word.natAbs_signed_le entryCount

theorem answers_ofMemory (bounded : memory.Bounded) :
    Answers (fun found => ∀ dictionary ∈ found, dictionary.Fits) (ofMemory? memory) := by
  apply Answers.ite
  · intro _ dictionary none
    cases none
  · intro _
    refine (answers_read bounded bounded.dictionary).map fun dictionary fits found member => ?_
    cases member
    exact fits

theorem answers_wordsAt (bounded : memory.Bounded) {address : Nat} (words : List UInt16)
    (fits : address < addressCount) : Answers (fun _ => True) (wordsAt memory address words) := by
  induction words generalizing address with
  | nil => trivial
  | cons word words ih =>
      have fetched : Answers _ (memory.fetchWord address) := Memory.answers_fetchWord fits
      rcases fetched.cases with ⟨found, read, inside⟩ | ⟨fault, read, addressable⟩
      · rw [wordsAt, read]
        refine Answers.ite (fun _ => ih ?_) fun _ => trivial
        have size := bounded.size
        exact lt_addressCount (by omega)
      · rw [wordsAt, read]
        exact addressable

theorem answers_scan (bounded : memory.Bounded) (packed : List UInt16) {entryLength count : Nat}
    {entry : Nat} (fits : entry + count * entryLength < addressCount) :
    Answers (fun _ => True) (scan memory packed entryLength count entry) := by
  induction count generalizing entry with
  | zero => trivial
  | succ count ih =>
      rw [Nat.succ_mul] at fits
      have compared : Answers _ (wordsAt memory entry packed) :=
        answers_wordsAt bounded packed (by omega)
      rcases compared.cases with ⟨same, read, _⟩ | ⟨fault, read, addressable⟩
      · rw [scan, read]
        cases same with
        | true => trivial
        | false => exact ih (by omega)
      · rw [scan, read]
        exact addressable

theorem answers_search (bounded : memory.Bounded) {dictionary : Dictionary} (fits : dictionary.Fits)
    (codec : Codec) (word : String) :
    Answers (fun _ => True) (dictionary.search memory codec word) := by
  have entries : dictionary.size * dictionary.entryLength ≤ 32768 * 255 :=
    Nat.mul_le_mul fits.size (Nat.le_of_lt_succ fits.entryLength)
  have near := fits.entries
  refine (answers_scan bounded _ ?_).bind fun _ _ => trivial
  exact lt_addressCount (by omega)

theorem ensures_lookup (bounded : memory.Bounded) (codec : Codec) (word : String) :
    Ensures Fits (fun _ => True) (lookup memory codec word) := by
  intro dictionary fits
  unfold lookup
  cases dictionary.remembered? word with
  | some address => exact ⟨trivial, fits⟩
  | none =>
      rcases (answers_search bounded fits codec word).cases with
        ⟨address, found, _⟩ | ⟨fault, found, addressable⟩
      · rw [found]
        exact ⟨trivial, fits.entries, fits.entryLength, fits.size⟩
      · rw [found]
        exact addressable

theorem ensures_parse (bounded : memory.Bounded) (codec : Codec) (tokens : List Token) :
    Ensures Fits (fun _ => True) (parse memory codec tokens) := by
  induction tokens with
  | nil => exact Ensures.pure trivial
  | cons token tokens ih =>
      refine (ensures_lookup bounded codec token.text).bind fun address _ => ?_
      exact ih.bind fun words _ => Ensures.pure trivial

end Dictionary

namespace ParseBuffer

open Memory (Bounded)

theorem ensures_writeSlot {slot : Nat} (offset : Nat) (word : ParsedWord)
    (fits : slot + 4 < addressCount) :
    Ensures Bounded (fun _ => True) (writeSlot slot offset word) := by
  refine (Memory.ensures_writeWord _ (by omega)).bind fun _ _ => ?_
  refine (Memory.ensures_writeByte _ (by omega)).bind fun _ _ => ?_
  exact (Memory.ensures_writeByte _ fits).mono fun _ _ => trivial

theorem ensures_writeSlots {slot : Nat} (offset : Nat) (skipUnknown : Bool) (words : List ParsedWord)
    (fits : slot + 4 * words.length < addressCount) :
    Ensures Bounded (fun _ => True) (writeSlots offset skipUnknown slot words) := by
  induction words generalizing slot with
  | nil => exact Ensures.pure trivial
  | cons word words ih =>
      simp only [List.length_cons] at fits
      have rest : Ensures Bounded (fun _ => True) (writeSlots offset skipUnknown (slot + 4) words) :=
        ih (by omega)
      unfold writeSlots
      split
      · exact rest
      · exact (ensures_writeSlot offset word (by omega)).bind fun _ _ => rest

theorem ensures_fill {buffer : Nat} (skipUnknown : Bool) (words : List ParsedWord)
    (small : buffer < 65536) : Ensures Bounded (fun _ => True) (fill buffer skipUnknown words) := by
  have loaded : Ensures Bounded (fun _ => True) (Memory.inspect (·.readByte buffer)) := by
    apply Memory.ensures_inspect
    intro memory _
    exact (Memory.answers_readByte (lt_addressCount (by omega))).mono fun _ _ => trivial
  refine loaded.bind fun capacity _ => ?_
  have byte := capacity.toNat_lt
  refine (Memory.ensures_writeByte _ (lt_addressCount (by omega))).bind fun _ _ => ?_
  have looked : Ensures Bounded (fun _ => True)
      (Memory.inspect fun memory => .ok (textOffset memory.version)) :=
    Memory.ensures_inspect fun _ _ => trivial
  refine looked.bind fun offset _ => ?_
  refine (ensures_writeSlots offset skipUnknown _ ?_).bind fun _ _ => Ensures.pure trivial
  apply lt_addressCount
  rw [List.length_take]
  omega

end ParseBuffer

theorem Dictionary.ensures_tokeniseInto (codec : Codec) (line : String) {buffer : Nat}
    (skipUnknown : Bool) (small : buffer < 65536) :
    Ensures (fun state : Dictionary × Memory => state.1.Fits ∧ state.2.Bounded) (fun _ => True)
      (tokeniseInto codec line buffer skipUnknown) := by
  rintro ⟨dictionary, memory⟩ ⟨fits, bounded⟩
  unfold tokeniseInto
  dsimp only
  rcases (ensures_parse bounded codec (dictionary.tokenize line)).cases dictionary fits with
    ⟨words, later, parsed, _, still⟩ | ⟨fault, later, failed, addressable⟩
  · rw [parsed]
    dsimp only
    rcases (ParseBuffer.ensures_fill skipUnknown words small).cases memory bounded with
      ⟨count, filled, done, _, kept⟩ | ⟨fault, filled, failed, addressable⟩
    · rw [done]
      exact ⟨trivial, still, kept⟩
    · rw [failed]
      exact addressable
  · rw [failed]
    exact addressable

end ZMachine
