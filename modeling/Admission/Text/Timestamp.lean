/-! Instants as text: a date, a time of day and an offset, read in several spellings and written in
one. -/

set_option autoImplicit false

namespace Admission.Timestamp

def digits? (count : Nat) (text : List Char) (value : Nat) : Option (Nat × List Char) :=
  match count, text with
  | 0, text => some (value, text)
  | count + 1, c :: rest =>
    if c.isDigit then digits? count rest (10 * value + (c.toNat - 48)) else none
  | _ + 1, [] => none

def isLeap (year : Int) : Bool :=
  year % 4 = 0 && (year % 100 ≠ 0 || year % 400 = 0)

def monthLength (year : Int) (month : Nat) : Nat :=
  if month = 2 then (if isLeap year then 29 else 28)
  else if month = 4 || month = 6 || month = 9 || month = 11 then 30
  else 31

/-- Days from the first of January 1970. Years begin in March here, so that a leap day ends one. -/
def dayNumber (year : Int) (month day : Nat) : Int :=
  let year := if month ≤ 2 then year - 1 else year
  let month : Int := if month ≤ 2 then month + 9 else (month : Int) - 3
  let dayOfYear := (153 * month + 2) / 5 + day - 1
  365 * year + year / 4 - year / 100 + year / 400 + dayOfYear - 719468

def civil (number : Int) : Int × Int × Int :=
  let number := number + 719468
  let era := number / 146097
  let dayOfEra := number % 146097
  let yearOfEra := (dayOfEra - dayOfEra / 1460 + dayOfEra / 36524 - dayOfEra / 146096) / 365
  let dayOfYear := dayOfEra - (365 * yearOfEra + yearOfEra / 4 - yearOfEra / 100)
  let month := (5 * dayOfYear + 2) / 153
  let day := dayOfYear - (153 * month + 2) / 5 + 1
  let year := yearOfEra + era * 400
  if month < 10 then (year, month + 3, day) else (year + 1, month - 9, day)

/-- A year of four digits, or of six after a sign. -/
def year? (text : List Char) : Option (Int × List Char) :=
  match text with
  | '+' :: rest => (digits? 6 rest 0).map fun (year, rest) => ((year : Int), rest)
  | '-' :: rest =>
    (digits? 6 rest 0).bind fun (year, rest) =>
      if year = 0 then none else some (-(year : Int), rest)
  | text => (digits? 4 text 0).map fun (year, rest) => ((year : Int), rest)

/-- A date as a day number, its parts joined by hyphens or by nothing. -/
def date? (text : List Char) : Option (Int × List Char) :=
  (year? text).bind fun (year, rest) =>
    let part? (text : List Char) : Option (Nat × List Char) :=
      if rest.head? = some '-' then (if text.head? = some '-' then digits? 2 text.tail 0 else none)
      else digits? 2 text 0
    (part? rest).bind fun (month, rest) =>
      (part? rest).bind fun (day, rest) =>
        if year.natAbs ≤ 9999 && 1 ≤ month && month ≤ 12 && 1 ≤ day && day ≤ monthLength year month then
          some (dayNumber year month day, rest)
        else none

/-- A fraction of one to nine digits, which counts for nothing. -/
def skipFraction? (text : List Char) : Option (List Char) :=
  match text with
  | '.' :: rest | ',' :: rest =>
    let digits := rest.takeWhile Char.isDigit
    if digits.isEmpty || 9 < digits.length then none else some (rest.drop digits.length)
  | text => some text

/-- Hours with optional minutes and seconds, all joined by colons or by nothing, as seconds. A leap
second counts as the one before it. -/
def clock? (hours lastSecond : Nat) (text : List Char) : Option (Nat × List Char) :=
  (digits? 2 text 0).bind fun (hour, rest) =>
    let colon := rest.head? = some ':'
    let part? (text : List Char) : Option (Nat × List Char) :=
      digits? 2 (if colon then text.tail else text) 0
    let goesOn (text : List Char) : Bool :=
      text.head?.any fun c => if colon then c = ':' else c.isDigit
    if hours < hour then none
    else if !goesOn rest then some (hour * 3600, rest)
    else (part? rest).bind fun (minute, rest) =>
      if 59 < minute then none
      else if !goesOn rest then some (hour * 3600 + minute * 60, rest)
      else (part? rest).bind fun (second, rest) =>
        if lastSecond < second then none
        else (skipFraction? rest).map fun rest =>
          (hour * 3600 + minute * 60 + min second 59, rest)

def offset? (text : List Char) : Option (Int × List Char) :=
  match text with
  | 'Z' :: rest | 'z' :: rest => some (0, rest)
  | '+' :: rest => (clock? 25 59 rest).map fun (seconds, rest) => ((seconds : Int), rest)
  | '-' :: rest => (clock? 25 59 rest).map fun (seconds, rest) => (-(seconds : Int), rest)
  | _ => none

/-- Remarks in brackets such as the name of a time zone. -/
def skipRemarks (fuel : Nat) (text : List Char) : List Char :=
  match fuel, text with
  | fuel + 1, '[' :: rest =>
    match rest.dropWhile (· ≠ ']') with
    | _ :: rest => skipRemarks fuel rest
    | [] => text
  | _, text => text

def read? (text : String) : Option Int :=
  (date? text.toList).bind fun (day, rest) =>
    match rest with
    | separator :: rest =>
      if separator = 'T' || separator = 't' || separator = ' ' then
        (clock? 23 60 rest).bind fun (time, rest) =>
          (offset? rest).bind fun (offset, rest) =>
            let seconds := day * 86400 + time - offset
            if (skipRemarks rest.length rest).isEmpty && -377705023201 ≤ seconds
                && seconds ≤ 253402207200 then
              some seconds
            else none
      else none
    | [] => none

def padded (width : Nat) (value : Nat) : String :=
  let digits := Nat.toDigits 10 value
  String.ofList (List.replicate (width - digits.length) '0' ++ digits)

def write (seconds : Int) : String :=
  let (year, month, day) := civil (seconds / 86400)
  let time := (seconds % 86400).toNat
  let yearText := if year < 0 then "-" ++ padded 4 year.natAbs else padded 4 year.toNat
  yearText ++ "-" ++ padded 2 month.toNat ++ "-" ++ padded 2 day.toNat ++ "T"
    ++ padded 2 (time / 3600) ++ ":" ++ padded 2 (time / 60 % 60) ++ ":" ++ padded 2 (time % 60)
    ++ "Z"

end Admission.Timestamp
