import TaintPolicy.Text.Blank

/-!
# Points in time

Seconds since the start of 1970 in universal time, written as date and time of day with the shortest
of zero, three, six or nine places that holds the fraction.
-/

namespace TaintPolicy

/-- A fraction of a second or more counts into a leap second. -/
structure Timestamp where
  seconds : Int
  nanos : Nat
deriving DecidableEq, Repr, Inhabited

namespace Timestamp

def padZeros (width n : Nat) : List Char :=
  let ds := (Nat.repr n).toList
  List.replicate (width - ds.length) '0' ++ ds

/-- Year, month and day of a count of days since the start of 1970. -/
def civil (days : Int) : Int × Nat × Nat :=
  let z := days + 719468
  let era := z.fdiv 146097
  let doe := (z - era * 146097).toNat
  let yoe := (doe - doe / 1460 + doe / 36524 - doe / 146096) / 365
  let doy := doe - (365 * yoe + yoe / 4 - yoe / 100)
  let mp := (5 * doy + 2) / 153
  let day := doy - (153 * mp + 2) / 5 + 1
  let month := if mp < 10 then mp + 3 else mp - 9
  (era * 400 + yoe + (if month ≤ 2 then 1 else 0), month, day)

/-- Days since the start of 1970. -/
def daysOf (year : Int) (month day : Nat) : Int :=
  let y := if month ≤ 2 then year - 1 else year
  let era := y.fdiv 400
  let yoe := (y - era * 400).toNat
  let mp := if month > 2 then month - 3 else month + 9
  let doy := (153 * mp + 2) / 5 + day - 1
  let doe := yoe * 365 + yoe / 4 - yoe / 100 + doy
  era * 146097 + doe - 719468

/-- A year outside the first ten thousand has a sign. -/
def yearChars (year : Int) : List Char :=
  if 0 ≤ year ∧ year ≤ 9999 then padZeros 4 year.toNat
  else (if year < 0 then '-' else '+') :: padZeros 4 year.natAbs

def fractionChars (nanos : Nat) : List Char :=
  if nanos = 0 then []
  else if nanos % 1000000 = 0 then '.' :: padZeros 3 (nanos / 1000000)
  else if nanos % 1000 = 0 then '.' :: padZeros 6 (nanos / 1000)
  else '.' :: padZeros 9 nanos

def text (t : Timestamp) : String :=
  let days := t.seconds.fdiv 86400
  let rest := (t.seconds - days * 86400).toNat
  let (year, month, day) := civil days
  String.ofList (yearChars year ++ '-' :: padZeros 2 month ++ '-' :: padZeros 2 day ++
    'T' :: padZeros 2 (rest / 3600) ++ ':' :: padZeros 2 (rest / 60 % 60) ++
    ':' :: padZeros 2 (rest % 60 + t.nanos / 1000000000) ++
    fractionChars (t.nanos % 1000000000) ++ ['Z'])

/-- The years of a calendar of 32 bits. -/
def hasYear (year : Int) : Bool := -262143 ≤ year && year ≤ 262142

/-- The time that many seconds and nanoseconds after the start of 1970, if it lies in the calendar.
Only the last second of a minute is followed by a leap second. -/
def ofUnix? (seconds : Int) (nanos : Nat) : Option Timestamp :=
  if hasYear (civil (seconds.fdiv 86400)).1 &&
      (nanos < 1000000000 || (nanos < 2000000000 && seconds.fmod 60 = 59)) then
    some ⟨seconds, nanos⟩
  else none

def skipBlanks (cs : List Char) : List Char := cs.dropWhile isBlank

def valueOf (ds : List Char) : Nat := ds.foldl (fun n d => 10 * n + (d.toNat - 48)) 0

/-- At least one and at most `width` digits. -/
def readDigits? (width : Nat) (cs : List Char) : Option (Nat × List Char) :=
  let ds := (cs.take width).takeWhile Char.isDigit
  if ds.isEmpty then none else some (valueOf ds, cs.drop ds.length)

def readPart? (width low high : Nat) (cs : List Char) : Option (Nat × List Char) := do
  let (n, rest) ← readDigits? width (skipBlanks cs)
  if low ≤ n ∧ n ≤ high then some (n, rest) else none

/-- A year of four digits, or of any number of digits after a sign. -/
def readYear? (cs : List Char) : Option (Int × List Char) :=
  match skipBlanks cs with
  | '-' :: rest => (readDigits? rest.length rest).map fun (n, rest) => (-(n : Int), rest)
  | '+' :: rest => (readDigits? rest.length rest).map fun (n, rest) => ((n : Int), rest)
  | rest => (readDigits? 4 rest).map fun (n, rest) => ((n : Int), rest)

def readMark? (mark : Char) (cs : List Char) : Option (List Char) :=
  match skipBlanks cs with
  | c :: rest => if c = mark then some rest else none
  | [] => none

/-- An optional fraction of a second in nanoseconds; further digits are skipped. -/
def readFraction? : List Char → Option (Nat × List Char)
  | '.' :: rest =>
    let ds := rest.takeWhile Char.isDigit
    if ds.isEmpty then none
    else
      let kept := ds.take 9
      some (valueOf kept * Nat.pow 10 (9 - kept.length), rest.dropWhile Char.isDigit)
  | rest => some (0, rest)

def twoDigits? : List Char → Option (Nat × List Char)
  | a :: b :: rest => if a.isDigit && b.isDigit then some (valueOf [a, b], rest) else none
  | _ => none

/-- An offset from universal time in seconds. -/
def readOffset? (cs : List Char) : Option (Int × List Char) :=
  match cs with
  | 'Z' :: rest | 'z' :: rest => some (0, rest)
  | sign :: rest =>
    if sign = '+' ∨ sign = '-' ∨ sign = '−' then do
      let (hours, rest) ← twoDigits? rest
      let (minutes, rest) ← twoDigits? (rest.dropWhile fun c => c = ':' || isBlank c)
      if hours > 23 ∨ minutes > 59 then none
      else
        let seconds : Int := hours * 3600 + minutes * 60
        some (if sign = '+' then seconds else -seconds, rest)
    else none
  | [] => none

def readZone? (cs : List Char) : Option (Int × List Char) :=
  match cs with
  | a :: b :: c :: rest =>
    if [a, b, c].map Char.toUpper = ['U', 'T', 'C'] then some (0, rest) else readOffset? cs
  | _ => readOffset? cs

def isLeapYear (year : Int) : Bool :=
  year % 4 = 0 && (year % 100 ≠ 0 || year % 400 = 0)

def daysInMonth (year : Int) (month : Nat) : Nat :=
  if month = 2 then (if isLeapYear year then 29 else 28)
  else if month = 4 ∨ month = 6 ∨ month = 9 ∨ month = 11 then 30
  else 31

/-- Reads a date, a time of day and an offset; a time of day may end in a leap second. -/
def read? (s : String) : Option Timestamp := do
  let (year, cs) ← readYear? s.toList
  let (month, cs) ← readPart? 2 1 12 (← readMark? '-' cs)
  let (day, cs) ← readPart? 2 1 31 (← readMark? '-' cs)
  let cs ← match cs with
    | c :: rest => if c = 't' ∨ c = 'T' ∨ c = ' ' then some rest else none
    | [] => none
  let (hour, cs) ← readPart? 2 0 23 cs
  let (minute, cs) ← readPart? 2 0 59 (← readMark? ':' cs)
  let (second, cs) ← readPart? 2 0 60 (← readMark? ':' cs)
  let (nanos, cs) ← readFraction? cs
  let (offset, cs) ← readZone? (skipBlanks cs)
  if !(skipBlanks cs).isEmpty || day > daysInMonth year month || !hasYear year then none
  else
    let leap : Nat := if second = 60 then 1 else 0
    let clock : Nat := hour * 3600 + minute * 60 + (second - leap)
    ofUnix? (daysOf year month day * 86400 + clock - offset) (nanos + leap * 1000000000)

end Timestamp

end TaintPolicy
