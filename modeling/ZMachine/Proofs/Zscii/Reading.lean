import Mathlib.Data.List.Forall2
import ZMachine.Proofs.Action
import ZMachine.Proofs.Memory.Tables
import ZMachine.Zscii.Decode

/-!
# Texts read code by code

The decoder takes one, two or three codes at a time, because a reference or an escape takes up
several. Here a text is read one code at a time. What a code means depends on the codes before it
through a small state only: the alphabet that is locked in, and what the next code is expected to
be. `Codec.scan` gives the pieces that a text consists of, in which references to abbreviations
still stand as such, and `Piece.fill` replaces them.

The decoder does both at once (`Codec.decode_eq_scan`). Since states are handed over between codes,
a text can be cut anywhere (`Codec.scan_append`), and where it is cut between two characters the
locked alphabet is all of the state (`Codec.decode_append`).
-/

namespace ZMachine

/-- What a text consists of. -/
inductive Piece where
  | letter (c : Char)
  /-- A complete reference to an abbreviation. -/
  | reference (table index : Nat)
deriving Repr, DecidableEq

/-- What the next code of a text is expected to be. -/
inductive Awaited where
  /-- The first code of a character. -/
  | character
  /-- The first code of the one character that a shift to an alphabet is meant for. -/
  | shifted (alphabet : Nat)
  /-- The second half of a reference. -/
  | index (table : Nat)
  /-- The upper half of the ZSCII code of an escape. -/
  | high
  /-- The lower half of the ZSCII code of an escape. -/
  | low (high : Nat)
deriving Repr, DecidableEq

/-- How far the reading of a text has come. -/
structure Standing where
  /-- The alphabet that holds until changed. -/
  locked : Nat
  awaited : Awaited
deriving Repr, DecidableEq

namespace Standing

/-- At the beginning of a text. -/
def start (alphabet : Nat) : Standing :=
  ⟨alphabet % 3, .character⟩

/-- Behind a character. -/
def settled (standing : Standing) : Standing :=
  { standing with awaited := .character }

end Standing

namespace Codec

/-- Reads a code that is not part of a reference or an escape that has begun. -/
def readFirst (codec : Codec) (locked current code : Nat) : Option Piece × Standing :=
  if code = 0 then (some (.letter ' '), ⟨locked, .character⟩)
  else if code = 1 ∧ codec.version = 1 then (some (.letter '\n'), ⟨locked, .character⟩)
  else if code ≤ 3 ∧ (3 ≤ codec.version ∨ code = 1) then (none, ⟨locked, .index code⟩)
  else if code ≤ 3 then (none, ⟨locked, .shifted ((locked + code - 1) % 3)⟩)
  else if code ≤ 5 ∧ codec.version < 3 then (none, ⟨(locked + code - 3) % 3, .character⟩)
  else if code ≤ 5 then (none, ⟨locked, .shifted (code - 3)⟩)
  else if code = 6 ∧ current = 2 then (none, ⟨locked, .high⟩)
  else (some (.letter (codec.letter current code)), ⟨locked, .character⟩)

/-- Reads the next code of a text. -/
def readCode (codec : Codec) (standing : Standing) (code : Nat) : Option Piece × Standing :=
  match standing.awaited with
  | .character => codec.readFirst standing.locked standing.locked code
  | .shifted alphabet => codec.readFirst standing.locked alphabet code
  | .index table => (some (.reference table code), standing.settled)
  | .high => (none, { standing with awaited := .low code })
  | .low high => ((codec.charOfZscii (high * 32 + code)).map .letter, standing.settled)

/-- Reads codes one after the other: the pieces of text, and how far the reading has come then. -/
def scan (codec : Codec) : Standing → List Nat → List Piece × Standing
  | standing, [] => ([], standing)
  | standing, code :: codes =>
    let (piece, next) := codec.readCode standing code
    let (pieces, last) := codec.scan next codes
    (piece.toList ++ pieces, last)

/-- The codes of a text that starts in an alphabet end behind a character: no reference and no
escape is cut off, and no shift waits for its character. -/
def EndsCharacter (codec : Codec) (alphabet : Nat) (codes : List Nat) : Prop :=
  (codec.scan (.start alphabet) codes).2.awaited = .character

/-- After these codes of a text that starts in an alphabet, the code `table` begins a reference. -/
def Refers (codec : Codec) (alphabet : Nat) (before : List Nat) (table : Nat) : Prop :=
  (codec.scan (.start alphabet) (before ++ [table])).2.awaited = .index table

instance (codec : Codec) (alphabet : Nat) (codes : List Nat) :
    Decidable (codec.EndsCharacter alphabet codes) :=
  inferInstanceAs (Decidable (_ = _))

instance (codec : Codec) (alphabet : Nat) (before : List Nat) (table : Nat) :
    Decidable (codec.Refers alphabet before table) :=
  inferInstanceAs (Decidable (_ = _))

end Codec

namespace Piece

/-- The text of a piece. -/
def text (expand : Expansion) : Piece → Except Fault String
  | .letter c => .ok (String.singleton c)
  | .reference table index => expand table index

/-- The text of pieces; the first reference that cannot be replaced fails. -/
def fill (expand : Expansion) : List Piece → Except Fault String
  | [] => .ok ""
  | piece :: pieces => do
    let first ← piece.text expand
    let rest ← fill expand pieces
    return first ++ rest

variable {expand : Expansion} {pieces before after : List Piece} {said : String} {fault : Fault}

theorem fill_cons {piece : Piece} (said_piece : piece.text expand = .ok said) :
    fill expand (piece :: pieces) = (fill expand pieces).map (said ++ ·) := by
  rw [fill, said_piece]
  cases fill expand pieces with
  | error fault => rfl
  | ok rest => rfl

theorem fill_cons_of_error {piece : Piece} (failed : piece.text expand = .error fault) :
    fill expand (piece :: pieces) = .error fault := by
  rw [fill, failed]
  rfl

/-- The text of pieces is that of each of them, joined. -/
theorem fill_eq_ok :
    fill expand pieces = .ok said ↔
      ∃ parts, List.Forall₂ (fun piece part => piece.text expand = .ok part) pieces parts ∧
        said = String.join parts := by
  induction pieces generalizing said with
  | nil =>
      constructor
      · intro filled
        cases filled
        exact ⟨[], .nil, rfl⟩
      · rintro ⟨parts, none, rfl⟩
        cases none
        rfl
  | cons piece pieces ih =>
      constructor
      · intro filled
        rcases query_bind_eq_ok.mp filled with ⟨first, begun, more⟩
        rcases query_bind_eq_ok.mp more with ⟨rest, filledRest, done⟩
        cases done
        rcases ih.mp filledRest with ⟨parts, each, rfl⟩
        exact ⟨first :: parts, .cons begun each, String.join_cons.symm⟩
      · rintro ⟨parts, all, rfl⟩
        cases all with
        | cons begun each =>
            have rest := ih.mpr ⟨_, each, rfl⟩
            refine query_bind_eq_ok.mpr ⟨_, begun, query_bind_eq_ok.mpr ⟨_, rest, ?_⟩⟩
            rw [String.join_cons]
            rfl

theorem text_of_mem (filled : fill expand pieces = .ok said) {piece : Piece}
    (member : piece ∈ pieces) : ∃ part, piece.text expand = .ok part := by
  induction pieces generalizing said with
  | nil => cases member
  | cons first pieces ih =>
      rcases query_bind_eq_ok.mp filled with ⟨part, begun, more⟩
      rcases query_bind_eq_ok.mp more with ⟨rest, filledRest, _⟩
      rcases List.mem_cons.mp member with rfl | later
      · exact ⟨part, begun⟩
      · exact ih filledRest later

theorem fill_append (filled : fill expand before = .ok said) :
    fill expand (before ++ after) = (fill expand after).map (said ++ ·) := by
  induction before generalizing said with
  | nil =>
      cases filled
      rw [List.nil_append]
      cases fill expand after with
      | error fault => rfl
      | ok rest => simp [Except.map]
  | cons piece before ih =>
      rcases query_bind_eq_ok.mp filled with ⟨first, begun, more⟩
      rcases query_bind_eq_ok.mp more with ⟨rest, filledRest, done⟩
      cases done
      rw [List.cons_append, fill_cons begun, ih filledRest]
      cases fill expand after with
      | error fault => rfl
      | ok last => simp [Except.map, String.append_assoc]

/-- A reference that cannot be replaced fails a text if what stands before it does not. -/
theorem fill_append_of_error {table index : Nat} (filled : fill expand before = .ok said)
    (failed : expand table index = .error fault) :
    fill expand (before ++ .reference table index :: after) = .error fault := by
  have refused : (reference table index).text expand = .error fault := failed
  rw [fill_append filled, fill_cons_of_error refused]
  rfl

/-- A text fails because of one of its references. -/
theorem fill_eq_error (failed : fill expand pieces = .error fault) :
    ∃ table index, .reference table index ∈ pieces ∧ expand table index = .error fault := by
  induction pieces with
  | nil => cases failed
  | cons piece pieces ih =>
      cases begun : piece.text expand with
      | error reason =>
          rw [fill_cons_of_error begun] at failed
          cases failed
          cases piece with
          | letter c => cases begun
          | reference table index => exact ⟨table, index, List.mem_cons_self, begun⟩
      | ok first =>
          rw [fill_cons begun] at failed
          cases filled : fill expand pieces with
          | ok rest =>
              rw [filled] at failed
              cases failed
          | error reason =>
              rw [filled] at failed
              cases failed
              rcases ih filled with ⟨table, index, member, refused⟩
              exact ⟨table, index, List.mem_cons_of_mem _ member, refused⟩

end Piece

namespace Codec

variable {codec : Codec} {expand : Expansion} {standing : Standing} {codes first second : List Nat}

/-- What is read of two parts of a text is read of the whole, if the second part is read on from
where the first one has come. -/
theorem scan_append :
    codec.scan standing (first ++ second) =
      ((codec.scan standing first).1 ++ (codec.scan (codec.scan standing first).2 second).1,
        (codec.scan (codec.scan standing first).2 second).2) := by
  induction first generalizing standing with
  | nil => rfl
  | cons code first ih => simp only [List.cons_append, scan, ih, List.append_assoc]

theorem scan_cons (standing : Standing) (code : Nat) (codes : List Nat) :
    codec.scan standing (code :: codes) =
      ((codec.readCode standing code).1.toList ++
          (codec.scan (codec.readCode standing code).2 codes).1,
        (codec.scan (codec.readCode standing code).2 codes).2) :=
  rfl

/-- Only locks change the locked alphabet, which version 3 does away with. -/
theorem locked_readFirst (locked current code : Nat) :
    (codec.readFirst locked current code).2.locked = locked ∨
      codec.version < 3 ∧ (codec.readFirst locked current code).2.locked < 3 := by
  unfold readFirst
  grind

theorem locked_readCode (code : Nat) :
    (codec.readCode standing code).2.locked = standing.locked ∨
      codec.version < 3 ∧ (codec.readCode standing code).2.locked < 3 := by
  unfold readCode
  split
  · exact codec.locked_readFirst _ _ code
  · exact codec.locked_readFirst _ _ code
  · exact Or.inl rfl
  · exact Or.inl rfl
  · exact Or.inl rfl

theorem locked_scan (standing : Standing) (codes : List Nat) :
    (codec.scan standing codes).2.locked = standing.locked ∨
      codec.version < 3 ∧ (codec.scan standing codes).2.locked < 3 := by
  induction codes generalizing standing with
  | nil => exact Or.inl rfl
  | cons code codes ih =>
      rw [scan_cons]
      rcases ih (codec.readCode standing code).2 with kept | locks
      · rw [kept]
        exact codec.locked_readCode code
      · exact Or.inr locks

theorem locked_start_lt (alphabet : Nat) (codes : List Nat) :
    (codec.scan (.start alphabet) codes).2.locked < 3 := by
  rcases codec.locked_scan (.start alphabet) codes with kept | ⟨_, small⟩
  · rw [kept]
    exact Nat.mod_lt _ (by decide)
  · exact small

/-- Reads codes after the text `text`, one at a time. -/
def decodeByCode (codec : Codec) (expand : Expansion) (standing : Standing) (text : String)
    (codes : List Nat) : Except Fault Decoded :=
  (Piece.fill expand (codec.scan standing codes).1).map fun said =>
    ⟨text ++ said, (codec.scan standing codes).2.locked⟩

section ByCode

variable {next : Standing} {code : Nat} {piece : Piece} {text said : String} {fault : Fault}

theorem decodeByCode_nil :
    codec.decodeByCode expand standing text [] = .ok ⟨text, standing.locked⟩ := by
  simp [decodeByCode, scan, Piece.fill, Except.map]

theorem decodeByCode_of_none (read : codec.readCode standing code = (none, next)) :
    codec.decodeByCode expand standing text (code :: codes) =
      codec.decodeByCode expand next text codes := by
  rw [decodeByCode, scan_cons, read]
  rfl

theorem decodeByCode_of_some (read : codec.readCode standing code = (some piece, next))
    (tells : piece.text expand = .ok said) :
    codec.decodeByCode expand standing text (code :: codes) =
      codec.decodeByCode expand next (text ++ said) codes := by
  rw [decodeByCode, scan_cons, read]
  dsimp only [Option.toList_some, List.singleton_append]
  rw [Piece.fill_cons tells, decodeByCode]
  cases Piece.fill expand (codec.scan next codes).1 with
  | error fault => rfl
  | ok rest => simp [Except.map, String.append_assoc]

theorem decodeByCode_of_error (read : codec.readCode standing code = (some piece, next))
    (failed : piece.text expand = .error fault) :
    codec.decodeByCode expand standing text (code :: codes) = .error fault := by
  rw [decodeByCode, scan_cons, read]
  dsimp only [Option.toList_some, List.singleton_append]
  rw [Piece.fill_cons_of_error failed]
  rfl

theorem decodeByCode_of_letter {c : Char}
    (read : codec.readCode standing code = (some (.letter c), next)) :
    codec.decodeByCode expand standing text (code :: codes) =
      codec.decodeByCode expand next (text.push c) codes := by
  rw [decodeByCode_of_some read rfl, String.append_singleton]

end ByCode

/-- The decoder reads like that, wherever it takes up a text. -/
theorem decodeAfter_eq_decodeByCode {locked current : Nat} {text : String}
    (same : standing.locked = locked)
    (reads : codec.readCode standing = codec.readFirst locked current) :
    codec.decodeAfter expand locked current text codes =
      codec.decodeByCode expand standing text codes := by
  fun_induction decodeAfter codec expand locked current text codes generalizing standing with
  | case1 locked current text => rw [decodeByCode_nil, same]
  | case2 locked current text rest ih =>
      have read : codec.readCode standing 0 = (some (.letter ' '), ⟨locked, .character⟩) := by
        rw [reads, readFirst, if_pos rfl]
      rw [decodeByCode_of_letter read]
      exact ih rfl rfl
  | case3 locked current text code rest notZero isBreak ih =>
      have read : codec.readCode standing code = (some (.letter '\n'), ⟨locked, .character⟩) := by
        rw [reads, readFirst, if_neg notZero, if_pos isBreak]
      rw [decodeByCode_of_letter read]
      exact ih rfl rfl
  | case4 locked current text code notZero notBreak isReference =>
      have read : codec.readCode standing code = (none, ⟨locked, .index code⟩) := by
        rw [reads, readFirst, if_neg notZero, if_neg notBreak, if_pos isReference]
      rw [decodeByCode_of_none read, decodeByCode_nil]
  | case5 locked current text code notZero notBreak isReference index rest fault failed =>
      have read : codec.readCode standing code = (none, ⟨locked, .index code⟩) := by
        rw [reads, readFirst, if_neg notZero, if_neg notBreak, if_pos isReference]
      have refused : (Piece.reference code index).text expand = .error fault := failed
      rw [decodeByCode_of_none read, decodeByCode_of_error rfl refused]
  | case6 locked current text code notZero notBreak isReference index rest expansion expanded ih =>
      have read : codec.readCode standing code = (none, ⟨locked, .index code⟩) := by
        rw [reads, readFirst, if_neg notZero, if_neg notBreak, if_pos isReference]
      have replaced : (Piece.reference code index).text expand = .ok expansion := expanded
      rw [decodeByCode_of_none read, decodeByCode_of_some rfl replaced]
      exact ih rfl rfl
  | case7 locked current text code rest notZero notBreak notReference isShift ih =>
      have read : codec.readCode standing code =
          (none, ⟨locked, .shifted ((locked + code - 1) % 3)⟩) := by
        rw [reads, readFirst, if_neg notZero, if_neg notBreak, if_neg notReference, if_pos isShift]
      rw [decodeByCode_of_none read]
      exact ih rfl rfl
  | case8 locked current text code rest notZero notBreak notReference notShift isLock ih =>
      have read : codec.readCode standing code =
          (none, ⟨(locked + code - 3) % 3, .character⟩) := by
        rw [reads, readFirst, if_neg notZero, if_neg notBreak, if_neg notReference,
          if_neg notShift, if_pos isLock]
      rw [decodeByCode_of_none read]
      exact ih rfl rfl
  | case9 locked current text rest notZero notBreak notReference notShift notLock ih =>
      have read : codec.readCode standing 4 = (none, ⟨locked, .shifted 1⟩) := by
        rw [reads, readFirst, if_neg notZero, if_neg notBreak, if_neg notReference,
          if_neg notShift, if_neg notLock, if_pos (by decide)]
      rw [decodeByCode_of_none read]
      exact ih rfl rfl
  | case10 locked current text rest notZero notBreak notReference notShift notLock notFour ih =>
      have read : codec.readCode standing 5 = (none, ⟨locked, .shifted 2⟩) := by
        rw [reads, readFirst, if_neg notZero, if_neg notBreak, if_neg notReference,
          if_neg notShift, if_neg notLock, if_pos (by decide)]
      rw [decodeByCode_of_none read]
      exact ih rfl rfl
  | case11 locked current text code notZero notBreak notReference notShift notLock notFour notFive
      isEscape high low rest longer =>
      rename_i ih
      have read : codec.readCode standing code = (none, ⟨locked, .high⟩) := by
        rw [reads, readFirst, if_neg notZero, if_neg notBreak, if_neg notReference,
          if_neg notShift, if_neg notLock, if_neg (by omega), if_pos isEscape]
      rw [decodeByCode_of_none read, decodeByCode_of_none rfl]
      cases stands : codec.charOfZscii (high * 32 + low) with
      | none =>
          have read : codec.readCode ⟨locked, .low high⟩ low = (none, ⟨locked, .character⟩) := by
            simp only [readCode, stands, Option.map_none, Standing.settled]
          rw [decodeByCode_of_none read]
          simpa only [longer, stands] using ih rfl rfl
      | some c =>
          have read : codec.readCode ⟨locked, .low high⟩ low =
              (some (.letter c), ⟨locked, .character⟩) := by
            simp only [readCode, stands, Option.map_some, Standing.settled]
          rw [decodeByCode_of_letter read]
          simpa only [longer, stands] using ih rfl rfl
  | case12 locked current text code rest notZero notBreak notReference notShift notLock notFour
      notFive isEscape short =>
      have read : codec.readCode standing code = (none, ⟨locked, .high⟩) := by
        rw [reads, readFirst, if_neg notZero, if_neg notBreak, if_neg notReference,
          if_neg notShift, if_neg notLock, if_neg (by omega), if_pos isEscape]
      rw [decodeByCode_of_none read]
      cases rest with
      | nil => rw [decodeByCode_nil]
      | cons high rest =>
          cases rest with
          | nil => rw [decodeByCode_of_none rfl, decodeByCode_nil]
          | cons low rest => exact absurd rfl (short high low rest)
  | case13 locked current text code rest notZero notBreak notReference notShift notLock notFour
      notFive notEscape ih =>
      have read : codec.readCode standing code =
          (some (.letter (codec.letter current code)), ⟨locked, .character⟩) := by
        rw [reads, readFirst, if_neg notZero, if_neg notBreak, if_neg notReference,
          if_neg notShift, if_neg notLock, if_neg (by omega), if_neg notEscape]
      rw [decodeByCode_of_letter read]
      exact ih rfl rfl

theorem decode_eq_scan {alphabet : Nat} :
    codec.decode expand alphabet codes =
      (Piece.fill expand (codec.scan (.start alphabet) codes).1).map fun said =>
        ⟨said, (codec.scan (.start alphabet) codes).2.locked⟩ := by
  have read : codec.decode expand alphabet codes =
      codec.decodeByCode expand (.start alphabet) "" codes := decodeAfter_eq_decodeByCode rfl rfl
  rw [read, decodeByCode]
  simp only [String.empty_append]

theorem decode_eq_ok {alphabet : Nat} {decoded : Decoded} :
    codec.decode expand alphabet codes = .ok decoded ↔
      Piece.fill expand (codec.scan (.start alphabet) codes).1 = .ok decoded.text ∧
        (codec.scan (.start alphabet) codes).2.locked = decoded.alphabet := by
  rw [decode_eq_scan]
  cases Piece.fill expand (codec.scan (.start alphabet) codes).1 with
  | error fault => simp [Except.map]
  | ok said =>
      rcases decoded with ⟨text, locked⟩
      simp [Except.map]

theorem alphabet_lt_of_decode {alphabet : Nat} {decoded : Decoded}
    (read : codec.decode expand alphabet codes = .ok decoded) : decoded.alphabet < 3 := by
  rw [← (decode_eq_ok.mp read).2]
  exact codec.locked_start_lt alphabet codes

/-- Behind a character, the alphabet that is locked in is all there is to know. -/
theorem reached_of_decode {alphabet : Nat} {decoded : Decoded}
    (read : codec.decode expand alphabet first = .ok decoded)
    (whole : codec.EndsCharacter alphabet first) :
    (codec.scan (.start alphabet) first).2 = .start decoded.alphabet := by
  have locked := (decode_eq_ok.mp read).2
  have small := alphabet_lt_of_decode read
  calc (codec.scan (.start alphabet) first).2
      = ⟨(codec.scan (.start alphabet) first).2.locked, .character⟩ :=
        congrArg (Standing.mk _) whole
    _ = .start decoded.alphabet := by rw [locked, Standing.start, Nat.mod_eq_of_lt small]

/-- Cut behind a character, a text goes on in the alphabet that is locked in by then, and nothing
else of its first part matters for the second. -/
theorem decode_append {alphabet : Nat} {decoded : Decoded}
    (read : codec.decode expand alphabet first = .ok decoded)
    (whole : codec.EndsCharacter alphabet first) :
    codec.decode expand alphabet (first ++ second) =
      (codec.decode expand decoded.alphabet second).map fun rest =>
        ⟨decoded.text ++ rest.text, rest.alphabet⟩ := by
  rw [decode_eq_scan, decode_eq_scan, scan_append, Piece.fill_append (decode_eq_ok.mp read).1,
    reached_of_decode read whole]
  cases Piece.fill expand (codec.scan (.start decoded.alphabet) second).1 with
  | error fault => rfl
  | ok rest => rfl

theorem endsCharacter_append {alphabet : Nat} {decoded : Decoded}
    (read : codec.decode expand alphabet first = .ok decoded)
    (whole : codec.EndsCharacter alphabet first)
    (wholeSecond : codec.EndsCharacter decoded.alphabet second) :
    codec.EndsCharacter alphabet (first ++ second) := by
  rw [EndsCharacter, scan_append, reached_of_decode read whole]
  exact wholeSecond

/-- The alphabet that a text starts in counts modulo 3. -/
theorem start_mod (alphabet : Nat) : Standing.start (alphabet % 3) = .start alphabet := by
  rw [Standing.start, Nat.mod_mod, Standing.start]

theorem decode_mod (alphabet : Nat) :
    codec.decode expand (alphabet % 3) codes = codec.decode expand alphabet codes := by
  rw [decode_eq_scan, decode_eq_scan, start_mod]

/-- The alphabet of a text from version 3 on is the one that it starts in. -/
theorem alphabet_of_decode (later : 3 ≤ codec.version) {alphabet : Nat} {decoded : Decoded}
    (read : codec.decode expand alphabet codes = .ok decoded) :
    decoded.alphabet = alphabet % 3 := by
  rw [← (decode_eq_ok.mp read).2]
  rcases codec.locked_scan (.start alphabet) codes with kept | ⟨early, _⟩
  · exact kept
  · omega

section References

variable {alphabet table index code : Nat} {before : List Nat}

theorem readFirst_of_index {locked current : Nat}
    (begins : (codec.readFirst locked current code).2.awaited = .index table) :
    codec.readFirst locked current code = (none, ⟨locked, .index table⟩) ∧ code = table ∧
      1 ≤ table ∧ table ≤ 3 := by
  have read (notZero : code ≠ 0) (notBreak : ¬(code = 1 ∧ codec.version = 1))
      (isReference : code ≤ 3 ∧ (3 ≤ codec.version ∨ code = 1)) :
      codec.readFirst locked current code = (none, ⟨locked, .index code⟩) := by
    rw [readFirst, if_neg notZero, if_neg notBreak, if_pos isReference]
  unfold readFirst at begins
  split_ifs at begins with notZero notBreak isReference
  cases begins
  exact ⟨read notZero notBreak isReference, rfl, by omega, isReference.1⟩

/-- A code that begins a reference is the number of the table. -/
theorem readCode_of_index
    (begins : (codec.readCode standing code).2.awaited = .index table) :
    codec.readCode standing code = (none, ⟨standing.locked, .index table⟩) ∧ code = table ∧
      1 ≤ table ∧ table ≤ 3 := by
  unfold readCode at begins ⊢
  split at begins
  · exact readFirst_of_index begins
  · exact readFirst_of_index begins
  · cases begins
  · cases begins
  · cases begins

theorem reference_of_readCode
    (tells : (codec.readCode standing code).1 = some (.reference table index)) :
    standing.awaited = .index table ∧ code = index := by
  have none_first (current : Nat) :
      (codec.readFirst standing.locked current code).1 ≠ some (.reference table index) := by
    unfold readFirst
    split_ifs <;> simp
  unfold readCode at tells
  split at tells
  · exact absurd tells (none_first _)
  · exact absurd tells (none_first _)
  · rename_i begun
    cases tells
    exact ⟨begun, rfl⟩
  · cases tells
  · rcases Option.map_eq_some_iff.mp tells with ⟨c, _, impossible⟩
    cases impossible

/-- Where a reference is complete, it is a piece of the text, and the text goes on in the locked
alphabet. -/
theorem scan_of_refers (refers : codec.Refers alphabet before table) (index : Nat) :
    codec.scan (.start alphabet) (before ++ [table, index]) =
      ((codec.scan (.start alphabet) before).1 ++ [.reference table index],
        (codec.scan (.start alphabet) before).2.settled) := by
  rw [Refers, scan_append] at refers
  rcases readCode_of_index refers with ⟨read, _⟩
  rw [scan_append, scan_cons, read]
  rfl

/-- A reference stands for its text, wherever it begins. A shift before it is spent on it, and
behind it the locked alphabet is the same as before. -/
theorem decode_of_refers {after : List Nat} {decoded : Decoded} {said : String}
    (refers : codec.Refers alphabet before table)
    (read : codec.decode expand alphabet before = .ok decoded)
    (replaced : expand table index = .ok said) :
    codec.decode expand alphabet (before ++ table :: index :: after) =
      (codec.decode expand decoded.alphabet after).map fun rest =>
        ⟨decoded.text ++ said ++ rest.text, rest.alphabet⟩ := by
  rcases decode_eq_ok.mp read with ⟨filled, locked⟩
  have scanned := scan_of_refers refers index
  have told : Piece.fill expand [.reference table index] = .ok said := by
    have text : (Piece.reference table index).text expand = .ok said := replaced
    rw [Piece.fill_cons text, Piece.fill, Except.map, String.append_empty]
  have completed : codec.decode expand alphabet (before ++ [table, index]) =
      .ok ⟨decoded.text ++ said, decoded.alphabet⟩ := by
    refine decode_eq_ok.mpr ⟨?_, ?_⟩
    · rw [scanned, Piece.fill_append filled, told]
      rfl
    · rw [scanned]
      exact locked
  have whole : codec.EndsCharacter alphabet (before ++ [table, index]) := by
    rw [EndsCharacter, scanned]
    rfl
  have split : before ++ table :: index :: after = (before ++ [table, index]) ++ after := by simp
  rw [split, decode_append completed whole]

end References

/-- The pieces of a text that starts with small letters. -/
def pieces (codec : Codec) (codes : List Nat) : List Piece :=
  (codec.scan (.start 0) codes).1

theorem decodeText_eq_fill :
    codec.decodeText expand codes = Piece.fill expand (codec.pieces codes) := by
  rw [decodeText, decode_eq_scan, pieces]
  cases Piece.fill expand (codec.scan (.start 0) codes).1 with
  | error fault => rfl
  | ok said => rfl

/-- A reference is a piece between those before and those after it. -/
theorem pieces_of_refers {table index : Nat} {before after : List Nat}
    (refers : codec.Refers 0 before table) :
    ∃ rest, codec.pieces (before ++ table :: index :: after) =
      codec.pieces before ++ .reference table index :: rest := by
  have split : before ++ table :: index :: after = (before ++ [table, index]) ++ after := by simp
  refine ⟨(codec.scan (codec.scan (.start 0) before).2.settled after).1, ?_⟩
  rw [split, pieces, scan_append, scan_of_refers refers, pieces, List.append_assoc]
  rfl

/-- The codes of a text name no other tables than the three, and all codes may be an index. -/
theorem reference_bounds {table index : Nat} (small : ∀ code ∈ codes, code < 32)
    (known : ∀ table, standing.awaited = .index table → 1 ≤ table ∧ table ≤ 3)
    (member : .reference table index ∈ (codec.scan standing codes).1) :
    1 ≤ table ∧ table ≤ 3 ∧ index < 32 := by
  induction codes generalizing standing with
  | nil => cases member
  | cons code codes ih =>
      rw [scan_cons, List.mem_append] at member
      rcases member with here | later
      · have piece := Option.mem_toList.mp here
        rcases reference_of_readCode (Option.mem_def.mp piece) with ⟨begun, same⟩
        have bounds := known table begun
        exact ⟨bounds.1, bounds.2, same ▸ small code List.mem_cons_self⟩
      · refine ih (fun other inside => small other (List.mem_cons_of_mem _ inside)) ?_ later
        intro other begins
        exact (readCode_of_index begins).2.2

end Codec

end ZMachine
