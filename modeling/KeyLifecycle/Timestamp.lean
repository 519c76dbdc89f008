/-! Instants of UTC: a day of the Gregorian calendar, a second of that day and a fraction of it.
A leap second is the 59th second of a minute with a fraction of one second or more. -/
namespace KeyLifecycle

def isLeapYear (year : Int) : Bool := year % 4 == 0 && (year % 100 != 0 || year % 400 == 0)

def daysInMonth (year : Int) (month : Nat) : Nat :=
  if month = 2 then (if isLeapYear year then 29 else 28)
  else if month = 4 ∨ month = 6 ∨ month = 9 ∨ month = 11 then 30
  else 31

def firstYear : Int := -262143
def lastYear : Int := 262142

structure Date where
  year : Int
  month : Nat
  day : Nat
  year_mem : firstYear ≤ year ∧ year ≤ lastYear
  month_mem : 1 ≤ month ∧ month ≤ 12
  day_mem : 1 ≤ day ∧ day ≤ daysInMonth year month
deriving DecidableEq

namespace Date

def of? (year : Int) (month day : Nat) : Option Date :=
  if hy : firstYear ≤ year ∧ year ≤ lastYear then
    if hm : 1 ≤ month ∧ month ≤ 12 then
      if hd : 1 ≤ day ∧ day ≤ daysInMonth year month then
        some ⟨year, month, day, hy, hm, hd⟩
      else none
    else none
  else none

def next? (d : Date) : Option Date :=
  if d.day < daysInMonth d.year d.month then of? d.year d.month (d.day + 1)
  else if d.month < 12 then of? d.year (d.month + 1) 1
  else of? (d.year + 1) 1 1

def prev? (d : Date) : Option Date :=
  if 1 < d.day then of? d.year d.month (d.day - 1)
  else if 1 < d.month then of? d.year (d.month - 1) (daysInMonth d.year (d.month - 1))
  else of? (d.year - 1) 12 31

theorem of?_self (d : Date) : of? d.year d.month d.day = some d := by
  simp [of?, d.year_mem, d.month_mem, d.day_mem]

end Date

def secondsPerDay : Nat := 86400
def nanosPerSecond : Nat := 1000000000

structure Timestamp where
  date : Date
  second : Nat
  nano : Nat
  second_lt : second < secondsPerDay
  nano_lt : nano < 2 * nanosPerSecond
  leap : nanosPerSecond ≤ nano → second % 60 = 59
deriving DecidableEq

namespace Timestamp

def of? (date : Date) (second nano : Nat) : Option Timestamp :=
  if hs : second < secondsPerDay then
    if hn : nano < 2 * nanosPerSecond then
      if hl : nanosPerSecond ≤ nano → second % 60 = 59 then some ⟨date, second, nano, hs, hn, hl⟩
      else none
    else none
  else none

theorem of?_self (t : Timestamp) : of? t.date t.second t.nano = some t := by
  simp [of?, t.second_lt, t.nano_lt, dif_pos t.leap]

def epoch : Timestamp where
  date := ⟨1970, 1, 1, by decide, by decide, by decide⟩
  second := 0
  nano := 0
  second_lt := by decide
  nano_lt := by decide
  leap := by decide

def order (a b : Timestamp) : Ordering :=
  (compare a.date.year b.date.year).then <|
  (compare a.date.month b.date.month).then <|
  (compare a.date.day b.date.day).then <|
  (compare a.second b.second).then <|
  compare a.nano b.nano

end Timestamp
end KeyLifecycle
