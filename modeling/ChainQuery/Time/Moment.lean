import ChainQuery.Time.Calendar
import ChainQuery.Text.Digits

/-!
# Moments in time as text

A date, a time of day and an offset from universal time, written and read in the format of
RFC 3339. Writing gives years outside 0 to 9999 a sign and at least four digits, gives a fraction
three, six or nine digits, and never writes `Z`. Reading takes exactly four digits for the year.
-/

namespace ChainQuery.Time

/-- A moment as a clock with a fixed offset shows it. The second 60 is a leap second. -/
structure Moment where
  date : Date
  hour : Nat
  minute : Nat
  second : Nat
  nanosecond : Nat
  /-- Minutes ahead of universal time. -/
  offset : Int
deriving DecidableEq, Repr

def minYear : Int := -262143

def maxYear : Int := 262142

/-- The moment so many seconds after the start of 1970, if its year is in range. -/
def Moment.ofUnix? (seconds : Int) : Option Moment :=
  let date := Date.ofDays (seconds / 86400)
  let rest := (seconds % 86400).toNat
  if minYear ≤ date.year ∧ date.year ≤ maxYear then
    some
      { date := date
        hour := rest / 3600
        minute := rest / 60 % 60
        second := rest % 60
        nanosecond := 0
        offset := 0 }
  else none

def padded (width n : Nat) : List Char :=
  let ds := Text.render 10 n
  List.replicate (width - ds.length) '0' ++ ds

def yearText (year : Int) : List Char :=
  match year with
  | .ofNat n => if n ≤ 9999 then padded 4 n else '+' :: padded 4 n
  | .negSucc n => '-' :: padded 4 (n + 1)

/-- The fraction of a second in the fewest digits out of none, three, six and nine. -/
def fractionText (nanosecond : Nat) : List Char :=
  if nanosecond = 0 then []
  else if nanosecond % 1000000 = 0 then '.' :: padded 3 (nanosecond / 1000000)
  else if nanosecond % 1000 = 0 then '.' :: padded 6 (nanosecond / 1000)
  else '.' :: padded 9 nanosecond

def offsetText (offset : Int) : List Char :=
  let n := offset.natAbs
  (if offset < 0 then '-' else '+') :: padded 2 (n / 60) ++ ':' :: padded 2 (n % 60)

def Moment.text (m : Moment) : String :=
  String.ofList <|
    yearText m.date.year ++ '-' :: padded 2 m.date.month ++ '-' :: padded 2 m.date.day ++
    'T' :: padded 2 m.hour ++ ':' :: padded 2 m.minute ++ ':' :: padded 2 m.second ++
    fractionText m.nanosecond ++ offsetText m.offset

def fixedNumber? (width : Nat) (cs : List Char) : Option (Nat × List Char) :=
  let ds := cs.take width
  if ds.length = width ∧ ds.all Char.isDigit then
    (Text.readRun? 10 ds).map fun n => (n, cs.drop width)
  else none

def mark? (allowed : List Char) : List Char → Option (List Char)
  | [] => none
  | c :: cs => if allowed.contains c then some cs else none

/-- Reads an optional fraction: a point and at least one digit, of which the tenth and later ones
are dropped. -/
def fraction? : List Char → Option (Nat × List Char)
  | '.' :: cs =>
    let ds := cs.takeWhile Char.isDigit
    let kept := ds.take 9
    (Text.readRun? 10 kept).map fun n =>
      (n * Nat.pow 10 (9 - kept.length), cs.dropWhile Char.isDigit)
  | cs => some (0, cs)

/-- Reads an offset of less than a day: `Z`, or a sign, two digits of hours, a colon and two digits of
minutes. The typographic minus counts as a sign. -/
def offset? : List Char → Option (Int × List Char)
  | [] => none
  | c :: cs =>
    if c = 'Z' ∨ c = 'z' then some (0, cs)
    else if c = '+' ∨ c = '-' ∨ c = '−' then do
      let (hours, cs) ← fixedNumber? 2 cs
      let cs ← mark? [':'] cs
      let (minutes, cs) ← fixedNumber? 2 cs
      if minutes < 60 ∧ hours < 24 then
        let size : Int := Int.ofNat (hours * 60 + minutes)
        some (if c = '+' then size else -size, cs)
      else none
    else none

def Moment.read? (s : String) : Option Moment := do
  let (year, cs) ← fixedNumber? 4 s.toList
  let cs ← mark? ['-'] cs
  let (month, cs) ← fixedNumber? 2 cs
  let cs ← mark? ['-'] cs
  let (day, cs) ← fixedNumber? 2 cs
  let cs ← mark? ['T', 't', ' '] cs
  let (hour, cs) ← fixedNumber? 2 cs
  let cs ← mark? [':'] cs
  let (minute, cs) ← fixedNumber? 2 cs
  let cs ← mark? [':'] cs
  let (second, cs) ← fixedNumber? 2 cs
  let (nanosecond, cs) ← fraction? cs
  let (offset, cs) ← offset? cs
  let date : Date := { year := Int.ofNat year, month := month, day := day }
  if cs.isEmpty && date.valid && hour < 24 && minute < 60 && second ≤ 60 then
    some
      { date := date
        hour := hour
        minute := minute
        second := second
        nanosecond := nanosecond
        offset := offset }
  else none

end ChainQuery.Time
