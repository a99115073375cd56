import GraphViews.Number.Text
import GraphViews.Text.Quoted
/-!
RFC 3339 dates.

Instants are microseconds since 1970-01-01T00:00:00Z on the proleptic Gregorian calendar.

`parseInstant` reads `YYYY-MM-DD` (midnight UTC) or `YYYY-MM-DDThh:mm:ss[.fraction][offset]`,
where the separator may also be `t` or a space, the fraction is cut to microseconds, a leap
second counts as second 59, and the offset is `Z`, `z`, `+hh:mm` or `-hh:mm` (none means
UTC). A failure names the part that is wrong: `datetime`, `date`, `year`, `month`, `day`,
`time`, `hours`, `minutes`, `seconds`, `fraction` or `offset`.

`formatInstant` writes UTC with a `Z`, a four-digit year (sign included, so `-001`), and a
fraction only when the microseconds are not zero, without trailing zeros.
-/

namespace GraphViews.Time

open GraphViews.Number

/-- A text that is not an RFC 3339 date or datetime, and which part of it is wrong. -/
structure DateTimeError where
  what : String
  input : String
deriving Repr, DecidableEq

/-- The message of a date error. -/
def DateTimeError.message (e : DateTimeError) : String :=
  "invalid RFC 3339 " ++ e.what ++ ": " ++ Text.quoted e.input

def microsPerSecond : Int := 1000000
def microsPerMinute : Int := 60 * microsPerSecond
def microsPerHour : Int := 60 * microsPerMinute
def microsPerDay : Int := 24 * microsPerHour

/-- Leap years of the Gregorian calendar. -/
def isLeapYear (y : Int) : Bool := (y % 4 == 0 && y % 100 != 0) || y % 400 == 0

/-- The length of a month; zero for a month number out of range. -/
def daysInMonth (y : Int) (m : Nat) : Nat :=
  match m with
  | 1 | 3 | 5 | 7 | 8 | 10 | 12 => 31
  | 4 | 6 | 9 | 11 => 30
  | 2 => if isLeapYear y then 29 else 28
  | _ => 0

/-- Days from 1970-01-01 to a civil date; years run from March so that the leap day is last. -/
def daysFromCivil (year : Int) (month day : Nat) : Int :=
  let y := if month ≤ 2 then year - 1 else year
  let m : Int := month
  let era := y / 400
  let yoe := y - era * 400
  let mp := if m > 2 then m - 3 else m + 9
  let doy := (153 * mp + 2) / 5 + day - 1
  let doe := yoe * 365 + yoe / 4 - yoe / 100 + doy
  era * 146097 + doe - 719468

/-- The civil date of a day number, inverse to `daysFromCivil`. -/
def civilFromDays (days : Int) : Int × Nat × Nat :=
  let z := days + 719468
  let era := z / 146097
  let doe := z - era * 146097
  let yoe := (doe - doe / 1460 + doe / 36524 - doe / 146096) / 365
  let doy := doe - (365 * yoe + yoe / 4 - yoe / 100)
  let mp := (5 * doy + 2) / 153
  let day := doy - (153 * mp + 2) / 5 + 1
  let month := if mp < 10 then mp + 3 else mp - 9
  let year := yoe + era * 400 + (if month ≤ 2 then 1 else 0)
  (year, month.toNat, day.toNat)

/-- A field of ASCII digits; `what` names the part when it is empty or holds anything else. -/
def digitField (cs : List Char) (what input : String) : Except DateTimeError Nat :=
  if cs.isEmpty || !cs.all Char.isDigit then .error ⟨what, input⟩ else .ok (digitsValue cs)

/-- The characters of `cs` from position `i` up to, not including, `j`. -/
def slice (cs : List Char) (i j : Nat) : List Char := (cs.drop i).take (j - i)

/-- An offset `Z`, `z` or `±hh:mm`, in minutes east of UTC. -/
def parseOffset (cs : List Char) (input : String) : Except DateTimeError Int := do
  if cs == ['Z'] || cs == ['z'] then return 0
  if cs.length != 6 || cs[3]? != some ':' then throw ⟨"offset", input⟩
  let sign : Int ← match cs[0]? with
    | some '+' => pure 1
    | some '-' => pure (-1)
    | _ => throw ⟨"offset", input⟩
  let hours ← digitField (slice cs 1 3) "offset" input
  let minutes ← digitField (slice cs 4 6) "offset" input
  if hours > 23 || minutes > 59 then throw ⟨"offset", input⟩
  return sign * (hours * 60 + minutes)

/-- The day number of a `YYYY-MM-DD` field. -/
def parseDatePart (cs : List Char) (input : String) : Except DateTimeError Int := do
  if cs.length != 10 || cs[4]? != some '-' || cs[7]? != some '-' then throw ⟨"date", input⟩
  let year ← digitField (slice cs 0 4) "year" input
  let month ← digitField (slice cs 5 7) "month" input
  let day ← digitField (slice cs 8 10) "day" input
  if month < 1 || month > 12 then throw ⟨"month", input⟩
  if day == 0 || day > daysInMonth year month then throw ⟨"day", input⟩
  return daysFromCivil year month day

/-- The microseconds of a fraction: the digits cut or padded to six. -/
def fractionMicros (ds : List Char) : Nat :=
  digitsValue ((ds.take 6) ++ List.replicate (6 - ds.length) '0')

/-- The clock `hh:mm:ss` that opens a time part: hours, minutes and seconds, a leap second
allowed. -/
def parseClock (time : List Char) (input : String) : Except DateTimeError (Nat × Nat × Nat) := do
  if time.length < 8 || time[2]? != some ':' || time[5]? != some ':' then
    throw ⟨"time", input⟩
  let hours ← digitField (slice time 0 2) "hours" input
  let minutes ← digitField (slice time 3 5) "minutes" input
  let seconds ← digitField (slice time 6 8) "seconds" input
  if hours > 23 || minutes > 59 || seconds > 60 then throw ⟨"time", input⟩
  return (hours, minutes, seconds)

/-- An optional fraction of a second after the clock: its microseconds, and what follows it. -/
def parseFraction (rest : List Char) (input : String) : Except DateTimeError (Nat × List Char) :=
  match rest with
  | '.' :: more =>
    let (ds, after) := spanDigits more
    if ds.isEmpty then throw ⟨"fraction", input⟩ else pure (fractionMicros ds, after)
  | _ => pure (0, rest)

/-- Reads an RFC 3339 datetime, or a bare date taken as midnight UTC, as microseconds since
the epoch. -/
def parseInstant (input : String) : Except DateTimeError Int := do
  let cs := input.toList
  if input.utf8ByteSize < 10 || !cs.all (·.toNat < 128) then throw ⟨"datetime", input⟩
  let days ← parseDatePart (cs.take 10) input
  if cs.length == 10 then return days * microsPerDay
  let sep := cs[10]?
  if sep != some 'T' && sep != some 't' && sep != some ' ' then throw ⟨"datetime", input⟩
  let time := cs.drop 11
  let (hours, minutes, seconds) ← parseClock time input
  let (fraction, rest) ← parseFraction (time.drop 8) input
  let offset ← if rest.isEmpty then pure 0 else parseOffset rest input
  let wall := days * microsPerDay + hours * microsPerHour + minutes * microsPerMinute
    + (min seconds 59 : Nat) * microsPerSecond + fraction
  return wall - offset * microsPerMinute

/-- At least `width` digits, zeros in front. -/
def padded (width : Nat) (n : Nat) : String :=
  let s := digitText n
  zeros (width - s.length) ++ s

/-- A year padded to four characters, a minus sign counting as one of them. -/
def yearText (y : Int) : String :=
  if y < 0 then "-" ++ padded 3 y.natAbs else padded 4 y.natAbs

/-- Writes microseconds since the epoch as an RFC 3339 UTC datetime. -/
def formatInstant (micros : Int) : String :=
  let days := micros / microsPerDay
  let time := micros % microsPerDay
  let (year, month, day) := civilFromDays days
  let hours := (time / microsPerHour).toNat
  let minutes := ((time % microsPerHour) / microsPerMinute).toNat
  let seconds := ((time % microsPerMinute) / microsPerSecond).toNat
  let frac := (time % microsPerSecond).toNat
  let base := yearText year ++ "-" ++ padded 2 month ++ "-" ++ padded 2 day ++ "T" ++
    padded 2 hours ++ ":" ++ padded 2 minutes ++ ":" ++ padded 2 seconds
  let fracText :=
    if frac == 0 then ""
    else "." ++ String.ofList ((padded 6 frac).toList.reverse.dropWhile (· == '0')).reverse
  base ++ fracText ++ "Z"

end GraphViews.Time
