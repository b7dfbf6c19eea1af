import Mathlib.Logic.ExistsUnique
import ZMachine.Dictionary.Basic

/-!
# The words of a line

A line has one segmentation into words. A word is a separator, or a run of letters that could not be
longer on either side, where a letter is whatever is neither a separator nor a blank; and nothing but
blanks is left between words. `Segments` says so without saying how the words are found.

Two words that share a place are the same, so the conditions leave no choice. That splitting meets
them is shown along the line: `Collected` describes the word that has been begun when the line is
read up to some place, and `SegmentsFrom` the words from there on.
-/

namespace ZMachine

namespace Token

/-- The place behind a word. -/
def stop (token : Token) : Nat :=
  token.position + token.text.length

/-- The word takes up a place of the line. -/
def Covers (token : Token) (place : Nat) : Prop :=
  token.position ≤ place ∧ place < token.stop

section Segmentation

variable (isSeparator isBlank : Char → Bool) (chars : List Char)

/-- Neither a separator nor a blank. -/
def IsLetter (c : Char) : Prop :=
  isSeparator c = false ∧ isBlank c = false

/-- The text of a token is what stands in the line at its position. -/
def IsSlice (token : Token) : Prop :=
  token.text.toList = (chars.drop token.position).take token.text.length

/-- No letter stands just before a place. -/
def Begins (place : Nat) : Prop :=
  ∀ previous c, previous + 1 = place → chars[previous]? = some c → ¬IsLetter isSeparator isBlank c

/-- No letter stands at a place. -/
def Ends (place : Nat) : Prop :=
  ∀ c, chars[place]? = some c → ¬IsLetter isSeparator isBlank c

/-- One letter or more, one behind the other. -/
structure IsRun (token : Token) : Prop where
  nonempty : 0 < token.text.length
  letters : ∀ c ∈ token.text.toList, IsLetter isSeparator isBlank c

/-- What a token of a line can be: a separator by itself, or as many letters as there are. -/
inductive Kind (token : Token) : Prop where
  | separator {c : Char} (single : token.text.toList = [c]) (separates : isSeparator c = true)
  | run (run : IsRun isSeparator isBlank token)
      (begins : Begins isSeparator isBlank chars token.position)
      (ends : Ends isSeparator isBlank chars token.stop)

/-- A word of a line. -/
structure IsWord (token : Token) : Prop where
  slice : IsSlice chars token
  kind : Kind isSeparator isBlank chars token

/-- The words of a line: they follow each other without overlap, and every character that is a
separator or no blank belongs to exactly one of them. -/
structure Segments (tokens : List Token) : Prop where
  increasing : tokens.Pairwise fun earlier later => earlier.position < later.position
  apart : tokens.Pairwise fun earlier later => earlier.stop ≤ later.position
  words : ∀ token ∈ tokens, IsWord isSeparator isBlank chars token
  covered : ∀ place c, chars[place]? = some c → isSeparator c = true ∨ isBlank c = false →
    ∃! token, token ∈ tokens ∧ token.Covers place

end Segmentation

variable {isSeparator isBlank : Char → Bool} {chars : List Char} {token other : Token}
  {tokens others : List Token} {place position : Nat} {c : Char}

theorem length_pos_of_kind (kind : Kind isSeparator isBlank chars token) :
    0 < token.text.length := by
  cases kind with
  | separator single _ => simp [← String.length_toList, single]
  | run run _ _ => exact run.nonempty

/-- A place that a token takes up has a character of its text. -/
theorem IsSlice.mem_of_covers (slice : IsSlice chars token) (covers : token.Covers place) :
    ∃ c ∈ token.text.toList, chars[place]? = some c := by
  rcases covers with ⟨first, last⟩
  unfold stop at last
  have short : place - token.position < token.text.toList.length := by
    rw [String.length_toList]
    omega
  refine ⟨token.text.toList[place - token.position], List.getElem_mem short, ?_⟩
  have here : token.text.toList[place - token.position]? = chars[place]? := by
    rw [slice, List.getElem?_take_of_lt (by omega), List.getElem?_drop,
      Nat.add_sub_cancel' first]
  rw [← here, List.getElem?_eq_getElem short]

theorem IsSlice.eq_of_position (slice : IsSlice chars token) (otherSlice : IsSlice chars other)
    (begins : token.position = other.position) (ends : token.stop = other.stop) :
    token = other := by
  have lengths : token.text.length = other.text.length := by
    unfold stop at ends
    omega
  have texts : token.text = other.text := by
    apply String.toList_inj.mp
    rw [slice, otherSlice, begins, lengths]
  cases token
  cases other
  simp_all

/-- A run cannot begin before a maximal one that it meets, nor end behind it. -/
theorem IsRun.within (run : IsRun isSeparator isBlank token) (slice : IsSlice chars token)
    (begins : Begins isSeparator isBlank chars other.position)
    (ends : Ends isSeparator isBlank chars other.stop) (covers : token.Covers place)
    (otherCovers : other.Covers place) :
    other.position ≤ token.position ∧ token.stop ≤ other.stop := by
  rcases covers with ⟨first, last⟩
  rcases otherCovers with ⟨otherFirst, otherLast⟩
  constructor
  · apply Nat.le_of_not_lt
    intro early
    have covered : token.Covers (other.position - 1) := ⟨by omega, by omega⟩
    rcases slice.mem_of_covers covered with ⟨c, member, here⟩
    exact begins _ c (by omega) here (run.letters c member)
  · apply Nat.le_of_not_lt
    intro late
    have covered : token.Covers other.stop := ⟨by omega, late⟩
    rcases slice.mem_of_covers covered with ⟨c, member, here⟩
    exact ends c here (run.letters c member)

/-- A separator belongs to no run, and takes up one place by itself. -/
theorem eq_of_separator {separator : Char} (slice : IsSlice chars token)
    (single : token.text.toList = [separator]) (separates : isSeparator separator = true)
    (word : IsWord isSeparator isBlank chars other) (covers : token.Covers place)
    (otherCovers : other.Covers place) : token = other := by
  have length : token.text.length = 1 := by
    rw [← String.length_toList, single, List.length_singleton]
  rcases slice.mem_of_covers covers with ⟨c, member, here⟩
  rcases word.slice.mem_of_covers otherCovers with ⟨d, otherMember, otherHere⟩
  rw [here, Option.some.injEq] at otherHere
  subst otherHere
  rw [single, List.mem_singleton] at member
  subst member
  cases word.kind with
  | separator otherSingle _ =>
      have otherLength : other.text.length = 1 := by
        rw [← String.length_toList, otherSingle, List.length_singleton]
      unfold Covers stop at covers otherCovers
      apply slice.eq_of_position word.slice
      · omega
      · unfold stop
        omega
  | run run _ _ =>
      have letter := run.letters c otherMember
      simp [IsLetter, separates] at letter

/-- Two words that share a place are the same. -/
theorem eq_of_covers (word : IsWord isSeparator isBlank chars token)
    (otherWord : IsWord isSeparator isBlank chars other) (covers : token.Covers place)
    (otherCovers : other.Covers place) : token = other := by
  cases word.kind with
  | separator single separates =>
      exact eq_of_separator word.slice single separates otherWord covers otherCovers
  | run run begins ends =>
      cases otherWord.kind with
      | separator single separates =>
          exact (eq_of_separator otherWord.slice single separates word otherCovers covers).symm
      | run otherRun otherBegins otherEnds =>
          have inside := run.within word.slice otherBegins otherEnds covers otherCovers
          have around := otherRun.within otherWord.slice begins ends otherCovers covers
          apply word.slice.eq_of_position otherWord.slice
          · omega
          · omega

namespace Segments

/-- Each word of one segmentation is one of any other. -/
theorem mem_of_mem (segments : Segments isSeparator isBlank chars tokens)
    (again : Segments isSeparator isBlank chars others) (member : token ∈ tokens) :
    token ∈ others := by
  have word := segments.words token member
  have covers : token.Covers token.position :=
    ⟨Nat.le_refl _, Nat.lt_add_of_pos_right (length_pos_of_kind word.kind)⟩
  rcases word.slice.mem_of_covers covers with ⟨c, inText, here⟩
  have visible : isSeparator c = true ∨ isBlank c = false := by
    cases word.kind with
    | separator single separates =>
        rw [single, List.mem_singleton] at inText
        exact Or.inl (inText ▸ separates)
    | run run _ _ => exact Or.inr (run.letters c inText).2
  rcases again.covered _ c here visible with ⟨found, ⟨foundMember, foundCovers⟩, _⟩
  rwa [eq_of_covers word (again.words found foundMember) covers foundCovers]

theorem unique (segments : Segments isSeparator isBlank chars tokens)
    (again : Segments isSeparator isBlank chars others) : tokens = others := by
  have distinct : ∀ {list : List Token}, Segments isSeparator isBlank chars list → list.Nodup :=
    fun segments => segments.increasing.imp fun before same => by simp [same] at before
  have same : tokens.Perm others :=
    (List.perm_ext_iff_of_nodup (distinct segments) (distinct again)).mpr fun token =>
      ⟨segments.mem_of_mem again, again.mem_of_mem segments⟩
  apply same.eq_of_pairwise _ segments.increasing again.increasing
  intro first second _ _ before behind
  omega

end Segments

section Splitting

variable {current : Option Token} {start : Nat}

variable (isSeparator isBlank chars) in
/-- The words of a line from a place on. -/
structure SegmentsFrom (start : Nat) (tokens : List Token) : Prop where
  words : ∀ token ∈ tokens, IsWord isSeparator isBlank chars token ∧ start ≤ token.position
  apart : tokens.Pairwise fun earlier later => earlier.stop ≤ later.position
  covered : ∀ place c, start ≤ place → chars[place]? = some c →
    isSeparator c = true ∨ isBlank c = false → ∃ token ∈ tokens, token.Covers place

namespace SegmentsFrom

theorem nil (finished : chars.length ≤ start) :
    SegmentsFrom isSeparator isBlank chars start [] where
  words := by simp
  apart := .nil
  covered := by
    intro place c behind here
    rw [List.getElem?_eq_none (by omega)] at here
    cases here

/-- A blank that is no separator may stand between words. -/
theorem skip (here : chars[start]? = some c) (unseparated : isSeparator c = false)
    (blank : isBlank c = true) (rest : SegmentsFrom isSeparator isBlank chars (start + 1) tokens) :
    SegmentsFrom isSeparator isBlank chars start tokens where
  words := fun token member => ⟨(rest.words token member).1, by
    have := (rest.words token member).2
    omega⟩
  apart := rest.apart
  covered := by
    intro place d behind there visible
    rcases Nat.eq_or_lt_of_le behind with rfl | later
    · rw [here, Option.some.injEq] at there
      subst there
      simp [unseparated, blank] at visible
    · exact rest.covered place d later there visible

theorem cons (word : IsWord isSeparator isBlank chars token)
    (rest : SegmentsFrom isSeparator isBlank chars token.stop tokens) :
    SegmentsFrom isSeparator isBlank chars token.position (token :: tokens) where
  words := by
    intro later member
    rcases List.mem_cons.mp member with rfl | member
    · exact ⟨word, Nat.le_refl _⟩
    · rcases rest.words later member with ⟨laterWord, behind⟩
      exact ⟨laterWord, Nat.le_trans (Nat.le_add_right _ _) behind⟩
  apart := .cons (fun later member => (rest.words later member).2) rest.apart
  covered := by
    intro place c behind here visible
    by_cases inside : place < token.stop
    · exact ⟨token, List.mem_cons_self, behind, inside⟩
    · rcases rest.covered place c (Nat.le_of_not_lt inside) here visible with
        ⟨later, member, covers⟩
      exact ⟨later, List.mem_cons_of_mem _ member, covers⟩

/-- From the beginning of a line on, its words are a segmentation. -/
theorem segments (whole : SegmentsFrom isSeparator isBlank chars 0 tokens) :
    Segments isSeparator isBlank chars tokens where
  increasing := by
    refine whole.apart.imp_of_mem fun {earlier later} earlierMember _ apart => ?_
    have positive := length_pos_of_kind (whole.words earlier earlierMember).1.kind
    unfold stop at apart
    omega
  apart := whole.apart
  words := fun token member => (whole.words token member).1
  covered := by
    intro place c here visible
    rcases whole.covered place c (Nat.zero_le place) here visible with ⟨token, member, covers⟩
    refine ⟨token, ⟨member, covers⟩, ?_⟩
    rintro other ⟨otherMember, otherCovers⟩
    exact eq_of_covers (whole.words other otherMember).1 (whole.words token member).1 otherCovers
      covers

end SegmentsFrom

variable (isSeparator isBlank chars) in
/-- What has been collected when the line is read up to a position: nothing, if no letter stands just
before it, or otherwise all letters that stand there. -/
inductive Collected (position : Nat) : Option Token → Prop where
  | nothing (begins : Begins isSeparator isBlank chars position) : Collected position none
  | word {token : Token} (slice : IsSlice chars token) (run : IsRun isSeparator isBlank token)
      (begins : Begins isSeparator isBlank chars token.position) (stops : token.stop = position) :
      Collected position (some token)

/-- Where the word being collected begins, or where the next one can. -/
def startOf (current : Option Token) (position : Nat) : Nat :=
  (current.map (·.position)).getD position

theorem isSlice_singleton (here : chars[position]? = some c) :
    IsSlice chars ⟨String.singleton c, position⟩ := by
  rcases List.getElem?_eq_some_iff.mp here with ⟨inside, rfl⟩
  simp only [IsSlice, String.toList_singleton, String.length_singleton]
  rw [List.drop_eq_getElem_cons inside, List.take_succ_cons, List.take_zero]

theorem isWord_separator (here : chars[position]? = some c) (separates : isSeparator c = true) :
    IsWord isSeparator isBlank chars ⟨String.singleton c, position⟩ where
  slice := isSlice_singleton here
  kind := .separator (by simp) separates

/-- Where no letter follows, the word being collected is finished. -/
theorem SegmentsFrom.finish (collected : Collected isSeparator isBlank chars position current)
    (ends : Ends isSeparator isBlank chars position)
    (rest : SegmentsFrom isSeparator isBlank chars position tokens) :
    SegmentsFrom isSeparator isBlank chars (startOf current position)
      (Token.finish current tokens) := by
  cases collected with
  | nothing _ => exact rest
  | word slice run begins stops =>
      subst stops
      exact .cons ⟨slice, .run run begins ends⟩ rest

/-- A letter makes the word being collected longer. -/
theorem Collected.extend (collected : Collected isSeparator isBlank chars position current)
    (here : chars[position]? = some c) (letter : IsLetter isSeparator isBlank c) :
    Collected isSeparator isBlank chars (position + 1)
      (some (Token.extend current c position)) := by
  cases collected with
  | nothing begins =>
      apply Collected.word
      · exact isSlice_singleton here
      · exact ⟨by simp [Token.extend], by simpa [Token.extend] using letter⟩
      · exact begins
      · simp [stop, Token.extend]
  | @word token slice run begins stops =>
      subst stops
      apply Collected.word
      · unfold IsSlice at slice ⊢
        have next : (chars.drop token.position)[token.text.length]? = some c := by
          rwa [List.getElem?_drop]
        simp only [Token.extend, String.toList_push, String.length_push]
        rw [List.take_add_one, next, ← slice]
        rfl
      · refine ⟨by simp [Token.extend], ?_⟩
        intro d member
        simp only [Token.extend, String.toList_push, List.mem_append, List.mem_singleton] at member
        rcases member with earlier | rfl
        · exact run.letters d earlier
        · exact letter
      · exact begins
      · simp only [stop, Token.extend, String.length_push]
        omega

/-- Splitting the rest of a line finds the words from the one being collected on. The induction is on
the rest: a character that is no letter ends the word before it and begins none. -/
theorem segmentsFrom_splitFrom {rest : List Char} (behind : chars.drop position = rest)
    (collected : Collected isSeparator isBlank chars position current) :
    SegmentsFrom isSeparator isBlank chars (startOf current position)
      (splitFrom isSeparator isBlank position current rest) := by
  induction rest generalizing position current with
  | nil =>
      have finished : chars.length ≤ position := List.drop_eq_nil_iff.mp behind
      refine .finish collected ?_ (.nil finished)
      intro c here
      rw [List.getElem?_eq_none finished] at here
      cases here
  | cons c rest ih =>
      have here : chars[position]? = some c := by
        rw [← Nat.add_zero position, ← List.getElem?_drop, behind, List.getElem?_cons_zero]
      have next : chars.drop (position + 1) = rest := by
        rw [← List.drop_drop, behind, List.drop_one, List.tail_cons]
      have divides : ¬IsLetter isSeparator isBlank c →
          Ends isSeparator isBlank chars position ∧
            Collected isSeparator isBlank chars (position + 1) none := by
        intro noLetter
        refine ⟨fun d there => ?_, .nothing fun previous d same there => ?_⟩
        · rw [here, Option.some.injEq] at there
          exact there ▸ noLetter
        · rw [Nat.add_right_cancel same, here, Option.some.injEq] at there
          exact there ▸ noLetter
      rw [splitFrom]
      by_cases separates : isSeparator c = true
      · rcases divides (by simp [IsLetter, separates]) with ⟨ends, fresh⟩
        rw [if_pos separates]
        refine .finish collected ends (.cons (isWord_separator here separates) ?_)
        simpa [stop, startOf] using ih next fresh
      · rw [if_neg separates]
        have unseparated := Bool.eq_false_iff.mpr separates
        by_cases blank : isBlank c = true
        · rcases divides (by simp [IsLetter, blank]) with ⟨ends, fresh⟩
          rw [if_pos blank]
          exact .finish collected ends (.skip here unseparated blank (ih next fresh))
        · rw [if_neg blank]
          have letter : IsLetter isSeparator isBlank c :=
            ⟨unseparated, Bool.eq_false_iff.mpr blank⟩
          have longer := ih next (collected.extend here letter)
          cases current with
          | none => exact longer
          | some word => exact longer

end Splitting

theorem segments_split (isSeparator isBlank : Char → Bool) (line : String) :
    Segments isSeparator isBlank line.toList (split isSeparator isBlank line) := by
  have begins : Begins isSeparator isBlank line.toList 0 := by
    intro previous c impossible
    omega
  have nothing : Collected isSeparator isBlank line.toList 0 none := .nothing begins
  exact (segmentsFrom_splitFrom List.drop_zero nothing).segments

/-- A separator that is a blank is a word all the same. -/
example : split (· == ' ') Text.isBlank "a\tb c" =
    [⟨"a", 0⟩, ⟨"b", 2⟩, ⟨" ", 3⟩, ⟨"c", 4⟩] := by
  decide

end Token

namespace Dictionary

/-- The words that a dictionary finds in a line are the segmentation of the line by its separators
and white space. The same holds with any other test for blanks. -/
theorem tokenize_eq_iff_segments (dictionary : Dictionary) (line : String) (tokens : List Token) :
    (dictionary.tokenize line = tokens ↔
      Token.Segments dictionary.isSeparator Text.isBlank line.toList tokens) ∧
    ∀ isBlank, Token.split dictionary.isSeparator isBlank line = tokens ↔
      Token.Segments dictionary.isSeparator isBlank line.toList tokens := by
  have found : ∀ isBlank, Token.split dictionary.isSeparator isBlank line = tokens ↔
      Token.Segments dictionary.isSeparator isBlank line.toList tokens := by
    intro isBlank
    have segments := Token.segments_split dictionary.isSeparator isBlank line
    constructor
    · rintro rfl
      exact segments
    · exact segments.unique
  exact ⟨found Text.isBlank, found⟩

end Dictionary

end ZMachine
