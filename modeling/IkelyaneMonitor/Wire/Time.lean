import IkelyaneMonitor.Wire.Text

/-!
# Times as text

* `Civil` : a date and a time of day that exist, with the offset of the zone;
* `rfc3339` : the text of a time to the second; `isDatetime` : the texts of ISO 8601 with `Z` or an offset;
* `isDatetime_rfc3339` : the former are among the latter.
-/

namespace Wire

def isLeap (year : Nat) : Bool := year % 4 == 0 && (year % 100 != 0 || year % 400 == 0)

def daysIn (year month : Nat) : Nat :=
  match month with
  | 2 => if isLeap year then 29 else 28
  | 4 | 6 | 9 | 11 => 30
  | _ => 31

structure Civil where
  year : Nat
  month : Nat
  day : Nat
  hour : Nat
  minute : Nat
  second : Nat
  /-- Seconds east of Greenwich. -/
  offset : Int
  year_lt : year < 10000
  month_le : 1 ≤ month ∧ month ≤ 12
  day_le : 1 ≤ day ∧ day ≤ daysIn year month
  hour_lt : hour < 24
  minute_lt : minute < 60
  second_lt : second < 60
  offset_lt : offset.natAbs < 24 * 3600
  deriving DecidableEq

def twoDigits (n : Nat) : List Char := [Nat.digitChar (n / 10), Nat.digitChar (n % 10)]

/-- Hours and minutes. -/
def clockText (hour minute : Nat) : List Char := twoDigits hour ++ ':' :: twoDigits minute

/-- `Z` only for the zone of Greenwich; the seconds of an offset are dropped. -/
def zoneText (offset : Int) : List Char :=
  if offset = 0 then ['Z']
  else (if offset.tdiv 60 < 0 then '-' else '+') :: clockText (offset.natAbs / 60 / 60) (offset.natAbs / 60 % 60)

def Civil.rfc3339 (t : Civil) : List Char :=
  twoDigits (t.year / 100) ++ twoDigits (t.year % 100) ++ '-' :: twoDigits t.month ++ '-' :: twoDigits t.day ++
    'T' :: clockText t.hour t.minute ++ ':' :: twoDigits t.second ++ zoneText t.offset

/-! ## The reader -/

def digitValue (c : Char) : Option Nat := if c.isDigit then some (c.toNat - '0'.toNat) else none

def readPair (a b : Char) : Option Nat := do return 10 * (← digitValue a) + (← digitValue b)

def isDate : List Char → Bool
  | [y₁, y₂, y₃, y₄, '-', m₁, m₂, '-', d₁, d₂] =>
      match readPair y₁ y₂, readPair y₃ y₄, readPair m₁ m₂, readPair d₁ d₂ with
      | some century, some year, some month, some day =>
          1 ≤ month && month ≤ 12 && 1 ≤ day && day ≤ daysIn (100 * century + year) month
      | _, _, _, _ => false
  | _ => false

def isClock : List Char → Bool
  | [h₁, h₂, ':', m₁, m₂] => (readPair h₁ h₂).any (· < 24) && (readPair m₁ m₂).any (· < 60)
  | _ => false

def isOffset : List Char → Bool
  | sign :: clock => (sign == '+' || sign == '-') && isClock clock
  | [] => false

def isZone (l : List Char) : Bool := l == ['Z'] || isOffset l

/-- What follows the fraction of a second, if there is one. -/
def skipFraction : List Char → List Char
  | '.' :: d :: rest => if d.isDigit then rest.dropWhile Char.isDigit else '.' :: d :: rest
  | l => l

/-- The seconds may be left out. -/
def isSecondsZone : List Char → Bool
  | ':' :: s₁ :: s₂ :: rest => (readPair s₁ s₂).any (· < 60) && isZone (skipFraction rest)
  | l => isZone l

def isDatetime (l : List Char) : Bool :=
  isDate (l.take 10) && (l.drop 10).head? == some 'T' && isClock ((l.drop 11).take 5) && isSecondsZone (l.drop 16)

/-! ## The text is read -/

theorem digitValue_digitChar : ∀ n < 10, digitValue (Nat.digitChar n) = some n := by decide

theorem readPair_twoDigits {n : Nat} (h : n < 100) :
    readPair (Nat.digitChar (n / 10)) (Nat.digitChar (n % 10)) = some n := by
  unfold readPair
  rw [digitValue_digitChar _ (by omega), digitValue_digitChar _ (by omega)]
  show some (10 * (n / 10) + n % 10) = some n
  rw [Nat.div_add_mod]

theorem isClock_clockText {hour minute : Nat} (hh : hour < 24) (hm : minute < 60) :
    isClock (clockText hour minute) = true := by
  show ((readPair _ _).any (· < 24) && (readPair _ _).any (· < 60)) = true
  rw [readPair_twoDigits (by omega), readPair_twoDigits (by omega)]
  simp [hh, hm]

theorem isZone_zoneText {offset : Int} (h : offset.natAbs < 24 * 3600) : isZone (zoneText offset) = true := by
  unfold zoneText
  split
  · rfl
  · have hclock : isClock (clockText (offset.natAbs / 60 / 60) (offset.natAbs / 60 % 60)) = true :=
      isClock_clockText (by omega) (by omega)
    rw [isZone, isOffset, hclock]
    split <;> simp

/-- A zone does not begin as a fraction does. -/
theorem skipFraction_zoneText (offset : Int) : skipFraction (zoneText offset) = zoneText offset := by
  unfold zoneText
  split
  · rfl
  · split <;> rfl

theorem isDatetime_rfc3339 (t : Civil) : isDatetime t.rfc3339 = true := by
  have hyear := t.year_lt
  have hmonth := t.month_le
  have hdate : isDate (t.rfc3339.take 10) = true := by
    have hday : t.day < 100 := by
      have := t.day_le.2
      unfold daysIn at this
      split at this <;> try split at this
      all_goals omega
    show isDate [_, _, _, _, '-', _, _, '-', _, _] = true
    rw [isDate, readPair_twoDigits (by omega), readPair_twoDigits (by omega), readPair_twoDigits (by omega),
      readPair_twoDigits hday]
    have hsplit : 100 * (t.year / 100) + t.year % 100 = t.year := Nat.div_add_mod t.year 100
    simp only [hsplit, hmonth, t.day_le, decide_true, Bool.and_self]
  have hclock : isClock ((t.rfc3339.drop 11).take 5) = true := isClock_clockText t.hour_lt t.minute_lt
  have hrest : isSecondsZone (t.rfc3339.drop 16) = true := by
    show ((readPair _ _).any (· < 60) && isZone (skipFraction (zoneText t.offset))) = true
    rw [readPair_twoDigits (by have := t.second_lt; omega), skipFraction_zoneText, isZone_zoneText t.offset_lt]
    simp [t.second_lt]
  unfold isDatetime
  rw [hdate, hclock, hrest]
  rfl

end Wire
