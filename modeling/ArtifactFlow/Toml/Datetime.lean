import ArtifactFlow.Value.Lookup

/-!
Dates and times of TOML text: local dates, local times, and both together with or without an offset.
They have no kind of value of their own; each is a mapping of one reserved key to its normal form.
-/

namespace ArtifactFlow.Toml

/-- The reserved key under which the text of a date or time stands. -/
def datetimeKey : String := "$__toml_private_datetime"

/-- A number of exactly `n` digits, and what follows it. -/
def digits? (n : Nat) (s : List Char) : Option (Nat × List Char) := do
  let front := s.take n
  if front.length = n then return (← decimalNumber? front, s.drop n) else none

def after? (c : Char) : List Char → Option (List Char)
  | d :: rest => if d = c then some rest else none
  | [] => none

def isLeapYear (year : Nat) : Bool :=
  year % 4 == 0 && (year % 100 != 0 || year % 400 == 0)

def daysInMonth (year month : Nat) : Nat :=
  if month = 2 then (if isLeapYear year then 29 else 28)
  else if month = 4 ∨ month = 6 ∨ month = 9 ∨ month = 11 then 30
  else 31

def padded (n k : Nat) : List Char :=
  let s := Nat.toDigits 10 k
  List.replicate (n - s.length) '0' ++ s

/-- A date at the front of a text, in normal form, and what follows it. -/
def date? (s : List Char) : Option (List Char × List Char) := do
  let (year, s) ← digits? 4 s
  let (month, s) ← digits? 2 (← after? '-' s)
  let (day, s) ← digits? 2 (← after? '-' s)
  if 1 ≤ month ∧ month ≤ 12 ∧ 1 ≤ day ∧ day ≤ daysInMonth year month then
    return (padded 4 year ++ '-' :: padded 2 month ++ '-' :: padded 2 day, s)
  else none

/-- The fraction of a second in normal form: nine digits at most, without zeros at the end. -/
def fractionText (digits : List Char) : List Char :=
  let kept := ((digits.take 9).reverse.dropWhile (· == '0')).reverse
  if kept.isEmpty then ['0'] else kept

/-- The seconds of a time, if there are any. -/
def seconds? (s : List Char) : Option (List Char × List Char) :=
  match s with
  | ':' :: rest => do
      let (second, rest) ← digits? 2 rest
      if 60 < second then none
      else
        match rest with
        | '.' :: rest =>
            let fraction := rest.takeWhile Char.isDigit
            if fraction.isEmpty then none
            else
              return (':' :: padded 2 second ++ '.' :: fractionText fraction,
                rest.dropWhile Char.isDigit)
        | rest => return (':' :: padded 2 second, rest)
  | s => some ([], s)

/-- A time at the front of a text, in normal form, and what follows it. -/
def time? (s : List Char) : Option (List Char × List Char) := do
  let (hour, s) ← digits? 2 s
  let (minute, s) ← digits? 2 (← after? ':' s)
  let (seconds, s) ← seconds? s
  if hour ≤ 23 ∧ minute ≤ 59 then
    return (padded 2 hour ++ ':' :: padded 2 minute ++ seconds, s)
  else none

/-- The offset behind a date and a time, in normal form. -/
def offset? (s : List Char) : Option (List Char) :=
  match s with
  | [] => some []
  | ['Z'] | ['z'] => some ['Z']
  | sign :: rest =>
      if sign = '+' ∨ sign = '-' then do
        let (hour, rest) ← digits? 2 rest
        let (minute, rest) ← digits? 2 (← after? ':' rest)
        if hour ≤ 23 ∧ minute ≤ 59 ∧ rest.isEmpty then
          return sign :: padded 2 hour ++ ':' :: padded 2 minute
        else none
      else none

/-- A whole text as a date, a time or both, in normal form. -/
def datetime? (s : List Char) : Option (List Char) :=
  match date? s with
  | some (date, []) => some date
  | some (date, sep :: rest) =>
      if sep = 'T' ∨ sep = 't' ∨ sep = ' ' then do
        let (time, rest) ← time? rest
        return date ++ 'T' :: time ++ (← offset? rest)
      else none
  | none => do
      let (time, rest) ← time? s
      if rest.isEmpty then return time else none

end ArtifactFlow.Toml
