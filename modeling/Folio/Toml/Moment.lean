import Folio.Text.Digits
import Folio.Toml.Error

/-! Dates and times. A moment is a date, a time of day, or both with or without an offset from
universal time.
-/

namespace Folio.Toml

/-- A day of the calendar. -/
structure Date where
  year : Nat
  month : Nat
  day : Nat
deriving DecidableEq, Inhabited

/-- A time of day. The digits of its fraction of a second are kept as they are written. -/
structure Time where
  hour : Nat
  minute : Nat
  second : Option Nat
  fraction : Option String
deriving DecidableEq, Inhabited

/-- A date, a time of day, or both, and the offset from universal time in minutes. -/
structure Moment where
  date : Option Date
  time : Option Time
  offset : Option Int
deriving DecidableEq, Inhabited

namespace Moment

/-- A piece of the text of a moment: digits, or any other character. -/
inductive Token where
  | digits (s : List Char)
  | mark (c : Char)
deriving DecidableEq, Inhabited

/-- The tokens of the text of a moment. Runs of digits are not cut. -/
def tokens : List Char → List Token
  | [] => []
  | c :: rest =>
      if c.isDigit then
        match tokens rest with
        | .digits s :: later => .digits (c :: s) :: later
        | later => .digits [c] :: later
      else .mark c :: tokens rest

abbrev Tokens :=
  List Token

def expected (part : MomentPart) (text : String) : Fault :=
  .notMoment part (some text)

def takeDigits (part : MomentPart) (text : String)
    : Tokens → Except Fault (List Char × Tokens)
  | .digits s :: rest => .ok (s, rest)
  | _ => .error (expected part text)

def takeMark (mark : Char) (part : MomentPart) (text : String)
    : Tokens → Except Fault Tokens
  | .mark c :: rest => if c == mark then .ok rest else .error (expected part text)
  | _ => .error (expected part text)

/-- The number that digits write, if there are as many as there have to be. -/
def numberOf (count : Nat) (part : MomentPart) (text : String) (digits : List Char)
    : Except Fault Nat :=
  if digits.length == count then .ok ((Text.digitsNumber? 10 digits).getD 0)
  else .error (expected part text)

/-- Refuses what does not hold. -/
def check (holds : Bool) (part : MomentPart) (text : String) : Except Fault Unit :=
  if holds then .ok () else .error (expected part text)

def daysOf (year month : Nat) : Nat :=
  if month == 2 then
    if (year % 4 == 0 && year % 100 != 0) || year % 400 == 0 then 29 else 28
  else if [4, 6, 9, 11].contains month then 30
  else 31

/-- Reads a date whose year and first mark were read. -/
def readDate (year : List Char) (ts : Tokens) : Except Fault (Date × Tokens) := do
  let (month, ts) ← takeDigits .date "month" ts
  let ts ← takeMark '-' .date "\x60-\x60 (MM-DD)" ts
  let (day, ts) ← takeDigits .date "day" ts
  let year ← numberOf 4 .date "a four-digit year (YYYY)" year
  let month ← numberOf 2 .date "a two-digit month (MM)" month
  let day ← numberOf 2 .date "a two-digit day (DD)" day
  check (1 ≤ month && month ≤ 12) .date "month between 01 and 12"
  let days := daysOf year month
  check (1 ≤ day && day ≤ days) .date ("day between 01 and " ++ toString days)
  return ({ year, month, day }, ts)

/-- Reads seconds with the mark before them, if there are any, and their fraction. -/
def readSeconds (ts : Tokens)
    : Except Fault (Option (List Char) × Option (List Char) × Tokens) :=
  match ts with
  | .mark ':' :: ts => do
      let (second, ts) ← takeDigits .time "second" ts
      match ts with
      | .mark '.' :: ts =>
          let (fraction, ts) ← takeDigits .time "nanosecond" ts
          return (some second, some fraction, ts)
      | ts => return (some second, none, ts)
  | ts => .ok (none, none, ts)

def readTime (ts : Tokens) : Except Fault (Time × Tokens) := do
  let (hour, ts) ← takeDigits .time "hour" ts
  let ts ← takeMark ':' .time "\x60:\x60 (HH:MM)" ts
  let (minute, ts) ← takeDigits .time "minute" ts
  let (second, fraction, ts) ← readSeconds ts
  let hour ← numberOf 2 .time "a two-digit hour (HH)" hour
  let minute ← numberOf 2 .time "a two-digit minute (MM)" minute
  let second ← second.mapM (numberOf 2 .time "a two-digit second (SS)")
  check (hour ≤ 23) .time "hour between 00 and 23"
  check (minute ≤ 59) .time "minute between 00 and 59"
  check (second.all (· ≤ 60)) .time "second between 00 and 60"
  return ({ hour, minute, second, fraction := fraction.map String.ofList }, ts)

/-- Reads an offset whose sign was read. -/
def readOffset (sign : Int) (ts : Tokens) : Except Fault (Int × Tokens) := do
  let (hours, ts) ← takeDigits .offset "hour" ts
  let ts ← takeMark ':' .offset "\x60:\x60 (HH:MM)" ts
  let (minutes, ts) ← takeDigits .offset "minute" ts
  let hours ← numberOf 2 .offset "a two-digit hour (HH)" hours
  let minutes ← numberOf 2 .offset "a two-digit minute (MM)" minutes
  check (hours ≤ 23) .offset "hours between 00 and 23"
  check (minutes ≤ 59) .offset "minutes between 00 and 59"
  return (sign * (hours * 60 + minutes : Nat), ts)

/-- Reads the offset after a date with a time, if there is one. -/
def readOffset? (ts : Tokens) : Except Fault (Option Int × Tokens) :=
  match ts with
  | [] => .ok (none, [])
  | .mark 'Z' :: ts | .mark 'z' :: ts => .ok (some 0, ts)
  | .mark '+' :: ts => (readOffset 1 ts).map fun (minutes, ts) => (some minutes, ts)
  | .mark '-' :: ts => (readOffset (-1) ts).map fun (minutes, ts) => (some minutes, ts)
  | _ => .error (expected .offset "\x60Z\x60, +OFFSET, -OFFSET")

def readDated (year : List Char) (ts : Tokens) : Except Fault (Moment × Tokens) := do
  let (date, ts) ← readDate year ts
  match ts with
  | [] => return ({ date := some date, time := none, offset := none }, [])
  | .mark c :: ts =>
      check (['T', 't', ' '].contains c) .dateAndTime "\x60T\x60 between date and time"
      let (time, ts) ← readTime ts
      let (offset, ts) ← readOffset? ts
      return ({ date := some date, time := some time, offset }, ts)
  | _ => throw (expected .dateAndTime "\x60T\x60 between date and time")

def read (s : List Char) : Except Fault Moment := do
  let all := tokens s
  let (first, ts) ← takeDigits .moment "year or hour" all
  let (moment, ts) ←
    match ts with
    | .mark '-' :: ts => readDated first ts
    | .mark ':' :: _ =>
        let (time, ts) ← readTime all
        pure ({ date := none, time := some time, offset := none }, ts)
    | _ => throw (expected .moment "\x60-\x60 (YYYY-MM) or \x60:\x60 (HH:MM)")
  if ts.isEmpty then return moment else throw (.notMoment .moment none)

end Moment

end Folio.Toml
