import TradingHours.Clock.Instant
/-!
Reading dates and instants in ISO 8601 notation: calendar dates and week dates, with or without
separators, any one character between date and time, `.` or `,` before a fraction of which six
digits count, and an offset from UTC or `Z`.
-/
namespace TradingHours.Reading

abbrev Bytes := List UInt8

def byte (c : Char) : UInt8 := c.toNat.toUInt8

def isDigitByte (b : UInt8) : Bool := 48 ≤ b && b ≤ 57

def takeDigits : Nat → Nat → Bytes → Option (Nat × Bytes)
  | 0, n, bytes => some (n, bytes)
  | _ + 1, _, [] => none
  | count + 1, n, b :: bytes =>
    if isDigitByte b then takeDigits count (n * 10 + (b.toNat - 48)) bytes else none

def firstMonday (year : Nat) : Int :=
  let newYear := daysBeforeYear year
  let weekday := newYear % 7
  let monday : Int := newYear - weekday
  if 3 < weekday then monday + 7 else monday

/-- The day of a week date. Week 53 exists in years that start on a Thursday, and in leap years
that start on a Wednesday. -/
def ofWeekDate? (year week day : Nat) : Option Day :=
  let weekday := daysBeforeYear year % 7
  let long := weekday = 3 || (weekday = 2 && isLeapYear year)
  if year = 0 || week = 0 || 53 < week || (week = 53 && !long) || day = 0 || 7 < day then none
  else
    let index := firstMonday year + ((week - 1) * 7 + (day - 1) : Nat)
    if index < 0 then none else Day.ofIndex? index.toNat

/-- Reads a date. What may stand behind it is not looked at: callers choose how many bytes it
gets. -/
def date? (bytes : Bytes) : Option Day := do
  let (year, rest) ← takeDigits 4 0 bytes
  let separated := rest.head? = some (byte '-')
  let rest := if separated then rest.drop 1 else rest
  if rest.head? = some (byte 'W') then
    let (week, rest) ← takeDigits 2 0 (rest.drop 1)
    if rest.isEmpty then ofWeekDate? year week 1
    else
      if separated && rest.head? ≠ some (byte '-') then none
      let (day, _) ← takeDigits 1 0 (if separated then rest.drop 1 else rest)
      ofWeekDate? year week day
  else
    let (month, rest) ← takeDigits 2 0 rest
    if separated && rest.head? ≠ some (byte '-') then none
    let (day, _) ← takeDigits 2 0 (if separated then rest.drop 1 else rest)
    (Day.ofCivil year month day).toOption

structure Fields where
  hour : Nat
  minute : Nat
  second : Nat
  micro : Nat
  more : Bool
  deriving Repr

/-- Whether a byte goes on with a text; a zero byte ends it as its end does. -/
def goesOn (b : UInt8) : Bool := b != 0

/-- Reads a fraction of a second; digits beyond the sixth are skipped. -/
def fraction? (followed : Bool) (bytes : Bytes) : Option (Nat × Bool) := do
  let count := min bytes.length 6
  let (n, rest) ← takeDigits count 0 bytes
  let more := match rest.dropWhile isDigitByte with
    | [] => followed
    | b :: _ => goesOn b
  return (n * Nat.pow 10 (6 - count), more)

/-- Reads two digits for each of the parts still to come, then perhaps a fraction. Between parts
stands a colon everywhere or nowhere; `followed` says whether something stands behind the bytes. -/
def parts? (followed : Bool) : Nat → Option Bool → Bytes → Option (List Nat × Nat × Bool)
  | 0, _, bytes => (fraction? followed bytes).map fun (micro, more) => ([], micro, more)
  | count + 1, separated, bytes => do
    let (n, rest) ← takeDigits 2 0 bytes
    match rest with
    | [] => return ([n], 0, followed)
    | [b] => return ([n], 0, goesOn b)
    | c :: tail =>
      let colons := separated.getD (c == byte ':')
      let (ns, micro, more) ←
        if colons && c == byte ':' then parts? followed count (some colons) tail
        else if c == byte '.' || c == byte ',' then parts? followed 0 (some colons) tail
        else if !colons then parts? followed count (some colons) rest
        else none
      return (n :: ns, micro, more)

def fields? (followed : Bool) (bytes : Bytes) : Option Fields := do
  let (ns, micro, more) ← parts? followed 3 none bytes
  return ⟨ns.getD 0 0, ns.getD 1 0, ns.getD 2 0, micro, more⟩

/-- Reads an offset from UTC; it is less than a day, and a fraction counts only beside whole
seconds. -/
def offset? (sign : UInt8) (bytes : Bytes) : Option Span := do
  if sign == byte 'Z' then
    if bytes.head?.any goesOn then none else some 0
  else
    let f ← fields? false bytes
    let seconds := f.hour * 3600 + f.minute * 60 + f.second
    let micros := if seconds = 0 then 0 else seconds * microsPerSecond + f.micro
    if f.more || microsPerDay ≤ micros then none
    else some (if sign == byte '-' then -(micros : Int) else micros)

def time? (bytes : Bytes) : Option (TimeOfDay × Option Span) := do
  let isSign (b : UInt8) : Bool := b == byte '+' || b == byte '-' || b == byte 'Z'
  let clock := bytes.takeWhile (!isSign ·)
  let zone := bytes.dropWhile (!isSign ·)
  let f ← fields? (!zone.isEmpty) clock
  let t ← (TimeOfDay.ofFields f.hour f.minute f.second f.micro).toOption
  match zone with
  | [] => if f.more then none else some (t, none)
  | sign :: rest => (offset? sign rest).map fun offset => (t, some offset)

/-- How many bytes of a date and time the date takes. In a week date without separators the time
comes in pairs of digits, so an odd number of them starts with the day of the week. -/
def dateLength? (bytes : Bytes) : Option Nat :=
  let size := bytes.length
  let byteAt (i : Nat) : UInt8 := bytes.getD i 0
  if size < 7 then none
  else if size = 7 then some 7
  else if byteAt 4 == byte '-' then
    if byteAt 5 == byte 'W' then
      if 8 < size && byteAt 8 == byte '-' then
        if size = 9 then none
        else if 10 < size && isDigitByte (byteAt 10) then some 8
        else some 10
      else some 8
    else some 10
  else if byteAt 4 == byte 'W' then
    let digitsEnd := 7 + ((bytes.drop 7).takeWhile isDigitByte).length
    if digitsEnd < 9 then some digitsEnd
    else if digitsEnd % 2 = 0 then some 7 else some 8
  else some 8

def characterLength (first : UInt8) : Nat :=
  if first < 0x80 then 1 else if first < 0xE0 then 2 else if first < 0xF0 then 3 else 4

def instant? (text : String) : Option Instant := do
  let bytes := text.toUTF8.toList
  let length ← dateLength? bytes
  if bytes.length < length then none
  let d ← date? (bytes.take length)
  match bytes.drop length with
  | [] => return .ofDay d .midnight none
  | separator :: rest =>
    let (t, offset) ← time? ((separator :: rest).drop (characterLength separator))
    return .ofDay d t offset

def day? (text : String) : Option Day :=
  let bytes := text.toUTF8.toList
  if bytes.length = 7 || bytes.length = 8 || bytes.length = 10 then date? bytes else none

def timeOfDay? (text : String) : Option (TimeOfDay × Option Span) :=
  time? text.toUTF8.toList

end TradingHours.Reading
