import ZMachine.Dictionary.Basic

/-!
# Looking words up

A word is in the dictionary if an entry begins with its packed form. The answer for the last word is
remembered, because a story often asks for the same word again.
-/

namespace ZMachine

/-- An operation that consults a dictionary. -/
abbrev DictionaryM := EStateM Fault Dictionary

/-- A word of a line with its place in the dictionary. -/
structure ParsedWord where
  /-- The address of the entry, 0 if the dictionary lacks the word. -/
  address : UInt16
  length : UInt8
  position : UInt8
deriving Repr, DecidableEq

namespace Dictionary

/-- Whether the words at an address are the given ones. Words after a difference are not fetched. -/
def wordsAt (memory : Memory) (address : Nat) : List UInt16 → Except Fault Bool
  | [] => .ok true
  | word :: words =>
    match memory.fetchWord address with
    | .error fault => .error fault
    | .ok found => if found = word then wordsAt memory (address + 2) words else .ok false

/-- The address of the first of `count` entries, from the address `entry` on, that begins with a
packed word. -/
def scan (memory : Memory) (packed : List UInt16) (entryLength : Nat) :
    (count entry : Nat) → Except Fault (Option Nat)
  | 0, _ => .ok none
  | count + 1, entry =>
    match wordsAt memory entry packed with
    | .error fault => .error fault
    | .ok true => .ok (some entry)
    | .ok false => scan memory packed entryLength count (entry + entryLength)

/-- The address of the entry of a word, 0 if there is none, without regard to the last word. -/
def search (dictionary : Dictionary) (memory : Memory) (codec : Codec) (word : String) :
    Except Fault UInt16 := do
  let found ←
    scan memory (codec.encode word) dictionary.entryLength dictionary.size dictionary.entries
  return UInt16.ofNat (found.getD 0)

/-- The remembered answer for a word. -/
def remembered? (dictionary : Dictionary) (word : String) : Option UInt16 :=
  match dictionary.memo with
  | some (last, address) => if last = word then some address else none
  | none => none

/-- Looks a word up. -/
def lookup (memory : Memory) (codec : Codec) (word : String) : DictionaryM UInt16 :=
  fun dictionary =>
    match dictionary.remembered? word with
    | some address => .ok address dictionary
    | none =>
      match dictionary.search memory codec word with
      | .error fault => .error fault dictionary
      | .ok address => .ok address { dictionary with memo := some (word, address) }

/-- Looks up the words of a line one after the other. -/
def parse (memory : Memory) (codec : Codec) : List Token → DictionaryM (List ParsedWord)
  | [] => pure []
  | token :: tokens => do
    let address ← lookup memory codec token.text
    let words ← parse memory codec tokens
    return ⟨address, UInt8.ofNat (min token.text.length 255),
      UInt8.ofNat (min token.position 255)⟩ :: words

end Dictionary

end ZMachine
