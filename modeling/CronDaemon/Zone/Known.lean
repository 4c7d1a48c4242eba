import CronDaemon.Zone.Basic

/-!
# A small database of zones

Some zones with their histories of changes. Most zones that change their clocks do so by a yearly
rule: a Sunday of some month for the start of summer time and another for its end. Nothing in the
theory depends on which zones are listed here: the settings and the startup take any database, and
this one serves where a process needs one, or an example.
-/

namespace CronDaemon.Zone

open Calendar

/-- Which Sunday of a month: the given one counted from 1, or the last. -/
inductive Sunday where
  | nth (n : Nat)
  | last
  deriving DecidableEq, Repr

/-- The day of a Sunday of a month. -/
def Sunday.day (which : Sunday) (year : Int) (month : Nat) : Int :=
  match which with
  | .nth n =>
    let first := Date.toDay ⟨year, month, 1⟩
    first + (7 - weekday first : Nat) % 7 + 7 * (n - 1)
  | .last =>
    let final := Date.toDay ⟨year, month, monthLength (isLeap year) month⟩
    final - weekday final

/-- A change at a wall-clock time on a Sunday of a month. -/
structure YearlyChange where
  /-- The month of the change. -/
  month : Nat
  /-- The Sunday of the change. -/
  sunday : Sunday
  /-- The minute of the day that the clock shows when it is changed. -/
  minute : Int

/-- The second of universal time of a change, for a clock that was `offset` ahead before it. -/
def YearlyChange.second (c : YearlyChange) (offset year : Int) : Int :=
  c.sunday.day year c.month * 86400 + c.minute * 60 - offset

/-- The years for which yearly changes are listed. -/
def listedYears : List Int := (List.range 33).map fun n : Nat => 2008 + (n : Int)

/-- The changes of a zone with summer time in the given years, in order. -/
def yearlyChanges (years : List Int) (standard summer : Int) (starts ends : YearlyChange) :
    List (Int × Int) :=
  years.flatMap fun year =>
    let start := (starts.second standard year, summer)
    let stop := (ends.second summer year, standard)
    if start.1 < stop.1 then [start, stop] else [stop, start]

/-- A zone with summer time by a yearly rule. -/
def yearly (name : String) (standard summer : Int) (starts ends : YearlyChange) : Zone :=
  ⟨name, if starts.month < ends.month then standard else summer,
    yearlyChanges listedYears standard summer starts ends⟩

/-- A number of minutes in seconds. -/
def minutes (n : Int) : Int := n * 60

/-- A number of hours in seconds. -/
def hours (n : Int) : Int := n * 3600

/-- A zone with summer time from the second Sunday of March to the first of November. -/
def northAmerican (name : String) (standard : Int) : Zone :=
  yearly name standard (standard + hours 1) ⟨3, .nth 2, 120⟩ ⟨11, .nth 1, 120⟩

/-- A zone with summer time from the last Sunday of March to the last of October, which starts
at the given minute of standard time and ends at the same instant of the day. -/
def european (name : String) (standard minute : Int) : Zone :=
  yearly name standard (standard + hours 1) ⟨3, .last, minute⟩ ⟨10, .last, minute + 60⟩

/-- The second of universal time at the given minute of a date. -/
def atMinute (year : Int) (month day : Nat) (minute : Int) : Int :=
  Date.toDay ⟨year, month, day⟩ * 86400 + minute * 60

/-- The zone of São Paulo, whose summer time ended for good in 2019. -/
def saoPaulo (name : String) : Zone :=
  ⟨name, hours (-3),
    [(atMinute 2014 10 19 180, hours (-2)), (atMinute 2015 2 22 120, hours (-3)),
     (atMinute 2015 10 18 180, hours (-2)), (atMinute 2016 2 21 120, hours (-3)),
     (atMinute 2016 10 16 180, hours (-2)), (atMinute 2017 2 19 120, hours (-3)),
     (atMinute 2017 10 15 180, hours (-2)), (atMinute 2018 2 18 120, hours (-3)),
     (atMinute 2018 11 4 180, hours (-2)), (atMinute 2019 2 17 120, hours (-3))]⟩

/-- The zone of Apia, which moved over the date line at the end of 2011 and kept summer time
until 2021. -/
def apia (name : String) : Zone :=
  let starts : YearlyChange := ⟨9, .last, 180⟩
  let ends : YearlyChange := ⟨4, .nth 1, 240⟩
  ⟨name, hours (-10),
    [(atMinute 2011 4 2 840, hours (-11)), (atMinute 2011 9 24 840, hours (-10)),
     (atMinute 2011 12 30 600, hours 14), (atMinute 2012 3 31 840, hours 13)] ++
    ((List.range 9).map fun n : Nat => 2012 + (n : Int)).flatMap fun year =>
      [(starts.second (hours 13) year, hours 14), (ends.second (hours 14) (year + 1), hours 13)]⟩

/-- The zones listed here. -/
def known : Database := fun name =>
  match name with
  | "UTC" | "Etc/UTC" | "GMT" | "Zulu" => some (fixed name 0)
  | "Etc/GMT+5" => some (fixed name (hours (-5)))
  | "Asia/Tokyo" => some (fixed name (hours 9))
  | "Asia/Kolkata" | "Asia/Calcutta" => some (fixed name (minutes 330))
  | "Asia/Kathmandu" => some (fixed name (minutes 345))
  | "Pacific/Kiritimati" => some (fixed name (hours 14))
  | "Pacific/Pago_Pago" => some (fixed name (hours (-11)))
  | "America/Argentina/Buenos_Aires" => some (fixed name (hours (-3)))
  | "America/New_York" | "US/Eastern" | "EST5EDT" | "America/Port-au-Prince" =>
    some (northAmerican name (hours (-5)))
  | "America/Los_Angeles" => some (northAmerican name (hours (-8)))
  | "America/St_Johns" => some (northAmerican name (minutes (-210)))
  | "Europe/Berlin" | "CET" => some (european name (hours 1) 120)
  | "Europe/Kyiv" => some (european name (hours 2) 180)
  | "Europe/London" => some (european name 0 60)
  | "Antarctica/Troll" =>
    some (yearly name 0 (hours 2) ⟨3, .last, 60⟩ ⟨10, .last, 180⟩)
  | "Australia/Sydney" =>
    some (yearly name (hours 10) (hours 11) ⟨10, .nth 1, 120⟩ ⟨4, .nth 1, 180⟩)
  | "Australia/Lord_Howe" =>
    some (yearly name (minutes 630) (hours 11) ⟨10, .nth 1, 120⟩ ⟨4, .nth 1, 120⟩)
  | "Pacific/Chatham" =>
    some (yearly name (minutes 765) (minutes 825) ⟨9, .last, 165⟩ ⟨4, .nth 1, 225⟩)
  | "America/Sao_Paulo" => some (saoPaulo name)
  | "Pacific/Apia" => some (apia name)
  | "Asia/Pyongyang" =>
    some ⟨name, hours 9, [(atMinute 2015 8 14 900, minutes 510), (atMinute 2018 5 4 900, hours 9)]⟩
  | "America/Caracas" => some ⟨name, minutes (-270), [(atMinute 2016 5 1 420, hours (-4))]⟩
  | _ => none

end CronDaemon.Zone
