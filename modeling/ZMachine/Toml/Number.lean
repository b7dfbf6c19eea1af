import ZMachine.Toml.Value

/-!
# TOML numbers and times

Numbers, dates and times are runs of letters, digits and signs. Each notation is recognised on such
a run as a whole.
-/

namespace ZMachine.Toml

/-- The digits of a number with single underscores between digits taken out. -/
def plainDigits (isDigit : Char → Bool) : List Char → Option (List Char)
  | [] => none
  | [c] => if isDigit c then some [c] else none
  | c :: '_' :: rest =>
    if isDigit c then (plainDigits isDigit rest).map (c :: ·) else none
  | c :: rest => if isDigit c then (plainDigits isDigit rest).map (c :: ·) else none

/-- The value of a digit in bases up to sixteen. -/
def digitValue (c : Char) : Nat :=
  if c.isDigit then c.toNat - '0'.toNat
  else if 'a' ≤ c && c ≤ 'f' then c.toNat - 'a'.toNat + 10
  else c.toNat - 'A'.toNat + 10

/-- The number that digits denote in a base. -/
def digitsValue (base : Nat) (digits : List Char) : Nat :=
  digits.foldl (fun number c => number * base + digitValue c) 0

/-- Whether a character is a hexadecimal digit. -/
def isHexDigit (c : Char) : Bool :=
  c.isDigit || ('a' ≤ c && c ≤ 'f') || ('A' ≤ c && c ≤ 'F')

/-- A sign, if there is one, and what follows it. -/
def takeSign : List Char → Bool × List Char
  | '-' :: rest => (true, rest)
  | '+' :: rest => (false, rest)
  | rest => (false, rest)

/-- The digits of a decimal number without leading zeros. -/
def wholeDigits (text : List Char) : Option (List Char) :=
  match text with
  | ['0'] => some ['0']
  | '0' :: _ => none
  | _ => plainDigits Char.isDigit text

/-- Keeps an integer that fits into 64 bits with sign. -/
def inRange (number : Int) : Option Int :=
  if -9223372036854775808 ≤ number && number ≤ 9223372036854775807 then some number else none

/-- An integer in decimal, hexadecimal, octal or binary notation. -/
def integer? (text : List Char) : Option Int :=
  match text with
  | '0' :: 'x' :: digits =>
    (plainDigits isHexDigit digits).bind fun digits => inRange (digitsValue 16 digits)
  | '0' :: 'o' :: digits =>
    (plainDigits (fun c => '0' ≤ c && c ≤ '7') digits).bind fun digits =>
      inRange (digitsValue 8 digits)
  | '0' :: 'b' :: digits =>
    (plainDigits (fun c => c == '0' || c == '1') digits).bind fun digits =>
      inRange (digitsValue 2 digits)
  | _ =>
    let (negative, digits) := takeSign text
    (wholeDigits digits).bind fun digits =>
      let number : Int := digitsValue 10 digits
      inRange (if negative then -number else number)

/-- Whether a decimal, `mantissa` times ten to the power `exponent`, is too large for a floating
point number of 64 bits: it rounds to the value after the largest one. -/
def overflows (mantissa : Nat) (exponent : Int) : Bool :=
  let magnitude := (Nat.toDigits 10 mantissa).length + exponent
  if mantissa == 0 || magnitude < 300 then false
  else if magnitude > 320 then true
  else
    let limit := Nat.pow 2 1024 - Nat.pow 2 970
    let scale := Nat.pow 10 exponent.natAbs
    if exponent < 0 then limit * scale ≤ mantissa else limit ≤ mantissa * scale

/-- The exponent of a floating point number. -/
def exponent? (text : List Char) : Option Int :=
  let (negative, digits) := takeSign text
  (plainDigits Char.isDigit digits).map fun digits =>
    let number : Int := digitsValue 10 digits
    if negative then -number else number

/-- A finite floating point number: whole digits, then a fraction, an exponent or both. Positive
numbers that are too large are refused. -/
def isFinite (text : List Char) : Bool :=
  let (negative, text) := takeSign text
  let isMark := fun c => c == 'e' || c == 'E'
  let body := text.takeWhile (!isMark ·)
  let scale := text.dropWhile (!isMark ·)
  let whole := body.takeWhile (· != '.')
  let fraction := body.dropWhile (· != '.')
  if scale.isEmpty && fraction.isEmpty then false
  else
    let parts : Option (List Char × List Char × Int) := do
      let whole ← wholeDigits whole
      let fraction ←
        if fraction.isEmpty then some [] else plainDigits Char.isDigit (fraction.drop 1)
      let exponent ← if scale.isEmpty then some 0 else exponent? (scale.drop 1)
      return (whole, fraction, exponent)
    match parts with
    | none => false
    | some (whole, fraction, exponent) =>
      negative || !overflows (digitsValue 10 (whole ++ fraction)) (exponent - fraction.length)

/-- A floating point number, infinities and undefined results included. -/
def isFloat (text : List Char) : Bool :=
  let (_, unsigned) := takeSign text
  unsigned == "inf".toList || unsigned == "nan".toList || isFinite text

/-- A number of exactly `width` digits at the front of a text. -/
def fixedDigits (width : Nat) (text : List Char) : Option (Nat × List Char) :=
  let digits := text.take width
  if digits.length = width && digits.all Char.isDigit then
    some (digitsValue 10 digits, text.drop width)
  else none

/-- The number of days in a month. -/
def daysInMonth (year month : Nat) : Nat :=
  if month == 2 then
    if (year % 4 == 0 && year % 100 != 0) || year % 400 == 0 then 29 else 28
  else if month == 4 || month == 6 || month == 9 || month == 11 then 30
  else 31

/-- A date at the front of a text: what follows it. -/
def afterDate (text : List Char) : Option (List Char) := do
  let (year, text) ← fixedDigits 4 text
  let '-' :: text := text | none
  let (month, text) ← fixedDigits 2 text
  let '-' :: text := text | none
  let (day, text) ← fixedDigits 2 text
  if 1 ≤ month && month ≤ 12 && 1 ≤ day && day ≤ daysInMonth year month then some text else none

/-- A time of day at the front of a text: what follows it. -/
def afterTime (text : List Char) : Option (List Char) := do
  let (hour, text) ← fixedDigits 2 text
  let ':' :: text := text | none
  let (minute, text) ← fixedDigits 2 text
  let ':' :: text := text | none
  let (second, text) ← fixedDigits 2 text
  if 23 < hour || 59 < minute || 60 < second then none
  else
    match text with
    | '.' :: c :: rest => if c.isDigit then some (rest.dropWhile Char.isDigit) else none
    | '.' :: [] => none
    | _ => some text

/-- Whether a text is a time zone offset, or empty. -/
def isOffset (text : List Char) : Bool :=
  match text with
  | [] => true
  | [c] => c == 'Z' || c == 'z'
  | sign :: rest =>
    (sign == '+' || sign == '-') &&
      match fixedDigits 2 rest with
      | some (hour, ':' :: rest) =>
        match fixedDigits 2 rest with
        | some (minute, []) => hour ≤ 23 && minute ≤ 59
        | _ => false
      | _ => false

/-- Whether a text is a time of day with an optional offset. -/
def isTimeWithOffset (text : List Char) : Bool :=
  match afterTime text with
  | some rest => isOffset rest
  | none => false

/-- Whether a text is a date, a time of day, or both joined by a letter T. -/
def isMoment (text : List Char) : Bool :=
  match afterDate text with
  | some [] => true
  | some (c :: rest) => (c == 'T' || c == 't') && isTimeWithOffset rest
  | none => afterTime text == some []

/-- The value of a run of letters, digits and signs. -/
def bareValue? (text : List Char) : Option Value :=
  if text == "true".toList then some (.boolean true)
  else if text == "false".toList then some (.boolean false)
  else if isMoment text then some .moment
  else if isFloat text then some .float
  else (integer? text).map .integer

end ZMachine.Toml
