/-
# Calendar stamps

A snapshot written by hand may hold a date or a moment where a text was meant.  Such a value is
kept as it is: it has a text of its own (`Stamp.text`), a longer form that names its parts
(`Stamp.shown`), and no form in JSON.
-/
namespace SchemaTypes

/-- A date, or a moment with an optional distance from universal time in minutes. -/
inductive Stamp where
  | day (year month day : Nat)
  | moment (year month day hour minute second micro : Nat) (offset : Option Int)
deriving DecidableEq, Repr, Inhabited

namespace Stamp

/-- A number with zeros in front, up to a width. -/
def padded (width n : Nat) : String :=
  let ds := Nat.toDigits 10 n
  String.ofList (List.replicate (width - ds.length) '0' ++ ds)

/-- A date as `year-month-day`. -/
def dayText (year month day : Nat) : String :=
  padded 4 year ++ "-" ++ padded 2 month ++ "-" ++ padded 2 day

/-- The distance from universal time as a sign, hours and minutes. -/
def offsetText (o : Int) : String :=
  (if o < 0 then "-" else "+") ++ padded 2 (o.natAbs / 60) ++ ":" ++ padded 2 (o.natAbs % 60)

/-- The text of a stamp; fractions of a second appear only when there are any. -/
def text : Stamp → String
  | .day y m d => dayText y m d
  | .moment y m d hh mm ss us offset =>
    dayText y m d ++ " " ++ padded 2 hh ++ ":" ++ padded 2 mm ++ ":" ++ padded 2 ss
      ++ (if us = 0 then "" else "." ++ padded 6 us)
      ++ (match offset with
          | some o => offsetText o
          | none => "")

/-- The distance from universal time with its parts named. -/
def zoneShown (o : Int) : String :=
  if o = 0 then "datetime.timezone.utc"
  else
    let days := o.fdiv 1440
    let seconds := (o.fmod 1440) * 60
    "datetime.timezone(datetime.timedelta("
      ++ (if days = 0 then "" else "days=" ++ toString days ++ ", ")
      ++ "seconds=" ++ toString seconds ++ "))"

/-- The stamp with its parts named; seconds and fractions appear only when there are any. -/
def shown : Stamp → String
  | .day y m d => "datetime.date(" ++ String.intercalate ", " ([y, m, d].map toString) ++ ")"
  | .moment y m d hh mm ss us offset =>
    let clock := if us = 0 then (if ss = 0 then [hh, mm] else [hh, mm, ss]) else [hh, mm, ss, us]
    "datetime.datetime(" ++ String.intercalate ", " (([y, m, d] ++ clock).map toString)
      ++ (match offset with
          | some o => ", tzinfo=" ++ zoneShown o
          | none => "")
      ++ ")"

end Stamp

end SchemaTypes
