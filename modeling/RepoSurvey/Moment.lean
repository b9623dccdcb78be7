import RepoSurvey.Decimal.Layout

/-!
# RepoSurvey.Moment

Dates and times of the day, alone or together. Each has two texts: one to be read by itself, from
the largest unit to the smallest, and one that names its parts, for use inside lists.
-/

namespace RepoSurvey

structure Date where
  year : Nat
  month : Nat
  day : Nat
deriving DecidableEq, Repr

structure Clock where
  hour : Nat
  minute : Nat
  second : Nat
  microsecond : Nat
deriving DecidableEq, Repr

/-- A date, a time or both. With both there may be an offset from universal time, in minutes. -/
inductive Moment where
  | date (d : Date)
  | time (c : Clock)
  | dateTime (d : Date) (c : Clock) (offset : Option Int)
deriving DecidableEq, Repr

/-- A number with zeros in front up to some width. -/
def Moment.digits (width n : Nat) : String := String.ofList (Decimal.padded width n)

namespace Date

def daysIn (year month : Nat) : Nat :=
  if month = 2 then (if year % 4 = 0 ∧ (year % 100 ≠ 0 ∨ year % 400 = 0) then 29 else 28)
  else if month = 4 ∨ month = 6 ∨ month = 9 ∨ month = 11 then 30
  else 31

/-- Whether the calendar has a day. -/
def Exists (d : Date) : Prop :=
  1 ≤ d.year ∧ 1 ≤ d.month ∧ d.month ≤ 12 ∧ 1 ≤ d.day ∧ d.day ≤ daysIn d.year d.month

instance (d : Date) : Decidable d.Exists := by unfold Exists; infer_instance

def text (d : Date) : String :=
  Moment.digits 4 d.year ++ "-" ++ Moment.digits 2 d.month ++ "-" ++ Moment.digits 2 d.day

def parts (d : Date) : List Nat := [d.year, d.month, d.day]

end Date

namespace Clock

/-- The text of a time; a fraction is left out if it is zero. -/
def text (c : Clock) : String :=
  Moment.digits 2 c.hour ++ ":" ++ Moment.digits 2 c.minute ++ ":" ++ Moment.digits 2 c.second ++
    (if c.microsecond = 0 then "" else "." ++ Moment.digits 6 c.microsecond)

/-- The parts of a time, without zeros behind the minutes. -/
def parts (c : Clock) : List Nat :=
  [c.hour, c.minute] ++
    (if c.microsecond ≠ 0 then [c.second, c.microsecond]
    else if c.second ≠ 0 then [c.second]
    else [])

end Clock

namespace Moment

/-- The text of an offset: a sign, hours and minutes. -/
def offsetText (minutes : Int) : String :=
  (if minutes < 0 then "-" else "+") ++ digits 2 (minutes.natAbs / 60) ++ ":" ++
    digits 2 (minutes.natAbs % 60)

/-- An offset by its parts: as days and seconds, of which only the days may be negative. -/
def offsetParts (minutes : Int) : String :=
  if minutes = 0 then "datetime.timezone.utc"
  else
    let days := if minutes < 0 then "days=-1, " else ""
    let seconds := (if minutes < 0 then minutes + 1440 else minutes) * 60
    "datetime.timezone(datetime.timedelta(" ++ days ++ "seconds=" ++ toString seconds ++ "))"

def listed (ns : List Nat) : String := ", ".intercalate (ns.map toString)

def text : Moment → String
  | date d => d.text
  | time c => c.text
  | dateTime d c offset => d.text ++ " " ++ c.text ++ (offset.map offsetText).getD ""

/-- The text of a moment inside a list. -/
def inner : Moment → String
  | date d => "datetime.date(" ++ listed d.parts ++ ")"
  | time c => "datetime.time(" ++ listed c.parts ++ ")"
  | dateTime d c offset =>
    "datetime.datetime(" ++ listed (d.parts ++ c.parts) ++
      ((offset.map fun m => ", tzinfo=" ++ offsetParts m).getD "") ++ ")"

end Moment

end RepoSurvey
