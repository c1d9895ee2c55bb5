import Mathlib
import IkelyaneMonitor.Wire.Time

/-!
# Times as text that sorts

The text `20060102T150405.000000000Z` of a time, all parts of fixed width but the year, which is longer from 10000 on.

* `padded` : a number with zeros in front; `padded_lt` : with the same number of digits the texts are ordered as the numbers;
* `yearDay`, `monthDay` : the date of a day; `yearDay_lt`, `monthDay_lt` : later days have later dates;
* `yearText`, `dateText`, `timeText`, `stamp` : the text of a time in nanoseconds;
* `stamp_lt` : the texts of two times are ordered as the times, when their years have the same number of digits.
-/

namespace Wire

/-! ## Numbers -/

/-- At least `width` digits. -/
def padded (width n : Nat) : List Char :=
  List.replicate (width - (Nat.toDigits 10 n).length) '0' ++ Nat.toDigits 10 n

theorem ofDigitChars_padded (width n : Nat) : Nat.ofDigitChars 10 (padded width n) 0 = n := by
  unfold padded
  rw [Nat.ofDigitChars_append, Nat.ofDigitChars_replicate_zero, Nat.mul_zero, Nat.ofDigitChars_ten_toDigits]

theorem isDigit_of_mem_padded {width n : Nat} {c : Char} (h : c ∈ padded width n) : c.isDigit = true := by
  rcases List.mem_append.mp h with hzero | hdigit
  · rw [List.eq_of_mem_replicate hzero]
    rfl
  · exact Nat.isDigit_of_mem_toDigits (by decide) (by decide) hdigit

theorem length_padded {width n : Nat} (hpos : 0 < width) (h : n < 10 ^ width) : (padded width n).length = width := by
  have hle := (Nat.length_toDigits_le_iff (by decide : 1 < 10) hpos).mpr h
  unfold padded
  rw [List.length_append, List.length_replicate]
  omega

theorem digit_bounds {c : Char} (h : c.isDigit = true) : 48 ≤ c.toNat ∧ c.toNat ≤ 57 := by
  simp only [Char.isDigit, Bool.and_eq_true, decide_eq_true_eq] at h
  exact ⟨UInt32.le_iff_toNat_le.mp h.1, UInt32.le_iff_toNat_le.mp h.2⟩

theorem ofDigitChars_lt_pow {l : List Char} (h : ∀ c ∈ l, c.isDigit = true) : Nat.ofDigitChars 10 l 0 < 10 ^ l.length := by
  induction l with
  | nil => simp
  | cons c l ih =>
      have hrest := ih fun d hd => h d (List.mem_cons_of_mem _ hd)
      have hdigit := digit_bounds (h c List.mem_cons_self)
      have hzero : ('0' : Char).toNat = 48 := rfl
      rw [Nat.ofDigitChars_cons, Nat.ofDigitChars_eq_ofDigitChars_zero, List.length_cons, Nat.pow_succ, hzero]
      have hmul : 10 ^ l.length * (10 * 0 + (c.toNat - 48)) ≤ 10 ^ l.length * 9 := Nat.mul_le_mul_left _ (by omega)
      omega

/-- Digits of the same number are ordered as what they stand for. -/
theorem digits_lt {l l' : List Char} (hlen : l.length = l'.length) (hl : ∀ c ∈ l, c.isDigit = true)
    (hl' : ∀ c ∈ l', c.isDigit = true) (h : Nat.ofDigitChars 10 l 0 < Nat.ofDigitChars 10 l' 0) : l < l' := by
  induction l generalizing l' with
  | nil =>
      rw [List.eq_nil_of_length_eq_zero hlen.symm] at h
      exact absurd h (Nat.lt_irrefl _)
  | cons c l ih =>
      cases l' with
      | nil => cases hlen
      | cons c' l' =>
          have hlen' : l.length = l'.length := Nat.succ.inj hlen
          have hd := digit_bounds (hl c List.mem_cons_self)
          have hd' := digit_bounds (hl' c' List.mem_cons_self)
          have hrest := ofDigitChars_lt_pow fun d hd => hl d (List.mem_cons_of_mem _ hd)
          have hrest' := ofDigitChars_lt_pow fun d hd => hl' d (List.mem_cons_of_mem _ hd)
          have hzero : ('0' : Char).toNat = 48 := rfl
          rw [Nat.ofDigitChars_cons, Nat.ofDigitChars_cons, Nat.ofDigitChars_eq_ofDigitChars_zero,
            Nat.ofDigitChars_eq_ofDigitChars_zero (l := l'), hlen', hzero] at h
          rw [hlen'] at hrest
          simp only [Nat.mul_zero, Nat.zero_add] at h
          rw [List.cons_lt_cons_iff]
          rcases Nat.lt_trichotomy c.toNat c'.toNat with hlt | heq | hgt
          · exact Or.inl (Char.lt_def.mpr (UInt32.lt_iff_toNat_lt.mpr hlt))
          · obtain rfl : c = c' := Char.toNat_inj.mp heq
            refine Or.inr ⟨rfl, ih hlen' (fun d hd => hl d (List.mem_cons_of_mem _ hd))
              (fun d hd => hl' d (List.mem_cons_of_mem _ hd)) ?_⟩
            omega
          · -- a larger first digit outweighs all that follows
            have hmul : 10 ^ l'.length * (c'.toNat - 48 + 1) ≤ 10 ^ l'.length * (c.toNat - 48) :=
              Nat.mul_le_mul_left _ (by omega)
            rw [Nat.mul_add] at hmul
            omega

theorem padded_lt {width n n' : Nat} (hlen : (padded width n).length = (padded width n').length) (h : n < n') :
    padded width n < padded width n' := by
  apply digits_lt hlen (fun c => isDigit_of_mem_padded) (fun c => isDigit_of_mem_padded)
  rw [ofDigitChars_padded, ofDigitChars_padded]
  exact h

theorem append_lt_append {l l' : List Char} (hlen : l.length = l'.length) (h : l < l') (r r' : List Char) :
    l ++ r < l' ++ r' := by
  induction l generalizing l' with
  | nil =>
      rw [List.eq_nil_of_length_eq_zero hlen.symm] at h
      exact absurd h (lt_irrefl _)
  | cons c l ih =>
      cases l' with
      | nil => cases hlen
      | cons c' l' =>
          rw [List.cons_append, List.cons_append, List.cons_lt_cons_iff]
          rcases List.cons_lt_cons_iff.mp h with hlt | ⟨heq, hrest⟩
          · exact Or.inl hlt
          · exact Or.inr ⟨heq, ih (Nat.succ.inj hlen) hrest⟩

/-! ## Dates -/

/-- The year of a day and the day of that year from 0, by the cycles of 400, 100, 4 and 1 years; days are counted from the
first of January of the year 1. -/
def yearDay (day : Int) : Int × Nat :=
  let n400 := day / 146097
  let d := (day % 146097).toNat
  -- the last day of a leap year would make a cycle more
  let n100 := d / 36524 - d / 36524 / 4
  let d := d - 36524 * n100
  let n4 := d / 1461
  let d := d - 1461 * n4
  let n1 := d / 365 - d / 365 / 4
  (400 * n400 + (100 * n100 + 4 * n4 + n1 : Nat) + 1, d - 365 * n1)

/-- The month and the day of the month, from the months that are left. -/
def monthDayFrom (year : Nat) : (months : List Nat) → (d : Nat) → Nat × Nat
  | [], _ => (0, 0)
  | month :: months, d =>
    if d < daysIn year month then (month, d + 1) else monthDayFrom year months (d - daysIn year month)

def monthDay (year d : Nat) : Nat × Nat := monthDayFrom year (List.range' 1 12) d

/-- The number of the first day of a year. -/
def firstDay (year : Int) : Int := 365 * (year - 1) + (year - 1) / 4 - (year - 1) / 100 + (year - 1) / 400

theorem firstDay_mono {year year' : Int} (h : year ≤ year') : firstDay year ≤ firstDay year' := by
  unfold firstDay
  omega

def yearLength (year : Nat) : Nat := if isLeap year then 366 else 365

theorem isLeap_iff (year : Int) :
    isLeap year.natAbs = true ↔ year % 4 = 0 ∧ (year % 100 ≠ 0 ∨ year % 400 = 0) := by
  simp only [isLeap, Bool.and_eq_true, Bool.or_eq_true, beq_iff_eq, bne_iff_ne]
  omega

theorem firstDay_succ (year : Int) : firstDay (year + 1) = firstDay year + yearLength year.natAbs := by
  have hleap := isLeap_iff year
  unfold yearLength firstDay
  split
  · rename_i h
    have := hleap.mp h
    omega
  · rename_i h
    have := mt hleap.mpr h
    omega

theorem firstDay_cycles (n400 : Int) {n100 n4 n1 : Nat} (h100 : n100 ≤ 3) (h4 : n4 ≤ 24) (h1 : n1 ≤ 3) :
    firstDay (400 * n400 + (100 * n100 + 4 * n4 + n1 : Nat) + 1) = 146097 * n400 + 36524 * n100 + 1461 * n4 + 365 * n1 := by
  unfold firstDay
  have hyears : (400 * n400 + (100 * n100 + 4 * n4 + n1 : Nat) + 1 - 1 : Int) = 400 * n400 + 100 * n100 + 4 * n4 + n1 := by
    push_cast
    omega
  rw [hyears]
  have hfour : (400 * n400 + 100 * n100 + 4 * n4 + n1) / 4 = 100 * n400 + 25 * n100 + n4 := by omega
  have hcentury : (400 * n400 + 100 * n100 + 4 * n4 + n1) / 100 = 4 * n400 + n100 := by omega
  have hcycle : (400 * n400 + 100 * n100 + 4 * n4 + n1) / 400 = n400 := by omega
  rw [hfour, hcentury, hcycle]
  omega

/-- The quotients of `yearDay`, and what is left of the day. -/
theorem yearDay_cycles (day : Int) : ∃ (n400 : Int) (n100 n4 n1 r : Nat), n100 ≤ 3 ∧ n4 ≤ 24 ∧ n1 ≤ 3 ∧
    day = 146097 * n400 + (36524 * n100 + 1461 * n4 + 365 * n1 + r : Nat) ∧
    yearDay day = (400 * n400 + (100 * n100 + 4 * n4 + n1 : Nat) + 1, r) ∧
    36524 * n100 + 1461 * n4 + 365 * n1 + r < 146097 ∧ (n100 < 3 → 1461 * n4 + 365 * n1 + r < 36524) ∧
    365 * n1 + r < 1461 ∧ (n1 < 3 → r < 365) := by
  obtain ⟨d, hd⟩ : ∃ d : Nat, (d : Int) = day % 146097 := ⟨(day % 146097).toNat, by omega⟩
  have hday : day = 146097 * (day / 146097) + d := by omega
  have hlt : d < 146097 := by omega
  have htoNat : (day % 146097).toNat = d := by omega
  unfold yearDay
  simp only [htoNat]
  generalize day / 146097 = n400 at hday
  obtain ⟨n100, hn100⟩ : ∃ n, n = d / 36524 - d / 36524 / 4 := ⟨_, rfl⟩
  rw [← hn100]
  obtain ⟨d₁, hd₁⟩ : ∃ d₁, d₁ = d - 36524 * n100 := ⟨_, rfl⟩
  rw [← hd₁]
  have h100 : n100 ≤ 3 ∧ d = 36524 * n100 + d₁ ∧ (n100 < 3 → d₁ < 36524) ∧ d₁ < 36525 := by omega
  clear hn100 hd₁
  obtain ⟨n4, hn4⟩ : ∃ n, n = d₁ / 1461 := ⟨_, rfl⟩
  rw [← hn4]
  obtain ⟨d₂, hd₂⟩ : ∃ d₂, d₂ = d₁ - 1461 * n4 := ⟨_, rfl⟩
  rw [← hd₂]
  have h4 : n4 ≤ 24 ∧ d₁ = 1461 * n4 + d₂ ∧ d₂ < 1461 := by omega
  clear hn4 hd₂
  obtain ⟨n1, hn1⟩ : ∃ n, n = d₂ / 365 - d₂ / 365 / 4 := ⟨_, rfl⟩
  rw [← hn1]
  have h1 : n1 ≤ 3 ∧ d₂ = 365 * n1 + (d₂ - 365 * n1) ∧ (n1 < 3 → d₂ - 365 * n1 < 365) := by omega
  clear hn1
  refine ⟨n400, n100, n4, n1, d₂ - 365 * n1, h100.1, h4.1, h1.1, ?_, rfl, ?_, ?_, ?_, h1.2.2⟩
  · omega
  · omega
  · omega
  · omega

theorem yearDay_spec (day : Int) :
    firstDay (yearDay day).1 + (yearDay day).2 = day ∧ (yearDay day).2 < yearLength (yearDay day).1.natAbs := by
  obtain ⟨n400, n100, n4, n1, r, h100, h4, h1, hday, heq, hcycle, hcentury, hfour, hone⟩ := yearDay_cycles day
  have hfirst := firstDay_cycles n400 h100 h4 h1
  rw [heq]
  refine ⟨by rw [hfirst]; push_cast at hday; omega, ?_⟩
  unfold yearLength
  have hleap := isLeap_iff (400 * n400 + (100 * n100 + 4 * n4 + n1 : Nat) + 1)
  by_cases hl : n1 = 3 ∧ (n4 < 24 ∨ n100 = 3)
  · rw [if_pos (hleap.mpr (by omega))]
    show r < 366
    omega
  · rw [if_neg (mt hleap.mp (by omega))]
    show r < 365
    omega

/-- A later day has a later year, or the same year and a later day in it. -/
theorem yearDay_lt {day day' : Int} (h : day < day') :
    (yearDay day).1 < (yearDay day').1 ∨ (yearDay day).1 = (yearDay day').1 ∧ (yearDay day).2 < (yearDay day').2 := by
  obtain ⟨hday, -⟩ := yearDay_spec day
  obtain ⟨hday', hlt'⟩ := yearDay_spec day'
  rcases lt_trichotomy (yearDay day).1 (yearDay day').1 with hlt | heq | hgt
  · exact Or.inl hlt
  · refine Or.inr ⟨heq, ?_⟩
    rw [heq] at hday
    omega
  · -- the year before ends before the first day of this one
    have hmono := firstDay_mono (show (yearDay day').1 + 1 ≤ (yearDay day).1 by omega)
    rw [firstDay_succ] at hmono
    omega

/-! ## Months -/

theorem sum_daysIn (year : Nat) : ((List.range' 1 12).map (daysIn year)).sum = yearLength year := by
  unfold yearLength
  simp only [List.range', List.map, List.sum_cons, List.sum_nil, daysIn]
  split <;> rfl

theorem monthDayFrom_mem {year : Nat} {months : List Nat} {d : Nat} (h : d < (months.map (daysIn year)).sum) :
    (monthDayFrom year months d).1 ∈ months ∧ (monthDayFrom year months d).2 ≤ 31 := by
  induction months generalizing d with
  | nil => cases h
  | cons month months ih =>
      rw [List.map_cons, List.sum_cons] at h
      rw [monthDayFrom]
      split
      · rename_i hd
        refine ⟨List.mem_cons_self, ?_⟩
        have hle : daysIn year month ≤ 31 := by
          unfold daysIn
          split <;> try split
          all_goals decide
        show d + 1 ≤ 31
        omega
      · obtain ⟨hmem, hle⟩ := ih (d := d - daysIn year month) (by omega)
        exact ⟨List.mem_cons_of_mem _ hmem, hle⟩

theorem monthDayFrom_lt {year : Nat} {months : List Nat} (hsorted : months.Pairwise (· < ·)) {d d' : Nat} (h : d < d')
    (hd' : d' < (months.map (daysIn year)).sum) :
    (monthDayFrom year months d).1 < (monthDayFrom year months d').1 ∨
      (monthDayFrom year months d).1 = (monthDayFrom year months d').1 ∧
        (monthDayFrom year months d).2 < (monthDayFrom year months d').2 := by
  induction months generalizing d d' with
  | nil => cases hd'
  | cons month months ih =>
      rw [List.map_cons, List.sum_cons] at hd'
      obtain ⟨hfirst, hrest⟩ := List.pairwise_cons.mp hsorted
      simp only [monthDayFrom]
      by_cases hin' : d' < daysIn year month
      · rw [if_pos hin', if_pos (by omega : d < daysIn year month)]
        exact Or.inr ⟨rfl, Nat.succ_lt_succ h⟩
      · rw [if_neg hin']
        split
        · exact Or.inl (hfirst _ (monthDayFrom_mem (by omega)).1)
        · exact ih hrest (by omega) (by omega)

theorem monthDay_mem {year d : Nat} (h : d < yearLength year) : (monthDay year d).1 ≤ 12 ∧ (monthDay year d).2 ≤ 31 := by
  rw [← sum_daysIn] at h
  obtain ⟨hmem, hle⟩ := monthDayFrom_mem h
  rw [List.mem_range'_1] at hmem
  exact ⟨by unfold monthDay; omega, hle⟩

theorem monthDay_lt {year d d' : Nat} (h : d < d') (hd' : d' < yearLength year) :
    (monthDay year d).1 < (monthDay year d').1 ∨
      (monthDay year d).1 = (monthDay year d').1 ∧ (monthDay year d).2 < (monthDay year d').2 := by
  rw [← sum_daysIn] at hd'
  exact monthDayFrom_lt List.pairwise_lt_range' h hd'

/-! ## The text of a time -/

/-- A minus sign stands in front of the digits. -/
def yearText (year : Int) : List Char := (if year < 0 then ['-'] else []) ++ padded 4 year.natAbs

def dateText (day : Int) : List Char :=
  let date := monthDay (yearDay day).1.natAbs (yearDay day).2
  yearText (yearDay day).1 ++ (padded 2 date.1 ++ padded 2 date.2)

def timeText (second : Nat) : List Char :=
  padded 2 (second / 3600) ++ (padded 2 (second % 3600 / 60) ++ padded 2 (second % 60))

/-- The day of a time in nanoseconds since the first of January of 1970. -/
def dayOf (t : Int) : Int := t / 10 ^ 9 / 86400 + 719162

def yearOf (t : Int) : Int := (yearDay (dayOf t)).1

/-- The layout `20060102T150405.000000000Z`. -/
def stamp (t : Int) : List Char :=
  dateText (dayOf t) ++ ('T' :: (timeText (t / 10 ^ 9 % 86400).toNat ++ ('.' :: (padded 9 (t % 10 ^ 9).toNat ++ ['Z']))))

theorem length_dateText (day : Int) : (dateText day).length = (yearText (yearDay day).1).length + 4 := by
  obtain ⟨hmonth, hday⟩ := monthDay_mem (yearDay_spec day).2
  unfold dateText
  simp only [List.length_append]
  rw [length_padded (by decide) (by omega), length_padded (by decide) (by omega)]

theorem length_timeText {second : Nat} (h : second < 86400) : (timeText second).length = 6 := by
  unfold timeText
  simp only [List.length_append]
  rw [length_padded (by decide) (by omega), length_padded (by decide) (by omega), length_padded (by decide) (by omega)]

theorem length_stamp (t : Int) : (stamp t).length = (yearText (yearOf t)).length + 22 := by
  unfold stamp
  simp only [List.length_append, List.length_cons, List.length_nil]
  rw [length_dateText, length_timeText (by omega), length_padded (by decide) (by omega)]
  rfl

theorem yearText_lt {year year' : Int} (hpos : 0 ≤ year) (hlen : (yearText year).length = (yearText year').length)
    (h : year < year') : yearText year < yearText year' := by
  unfold yearText at hlen ⊢
  rw [if_neg (by omega), if_neg (by omega)] at hlen ⊢
  exact padded_lt hlen (by omega)

theorem dateText_lt {day day' : Int} (hpos : 0 ≤ (yearDay day).1)
    (hlen : (yearText (yearDay day).1).length = (yearText (yearDay day').1).length) (h : day < day') :
    dateText day < dateText day' := by
  obtain ⟨-, hd⟩ := yearDay_spec day
  obtain ⟨-, hd'⟩ := yearDay_spec day'
  unfold dateText
  rcases yearDay_lt h with hyear | ⟨hyear, hin⟩
  · exact append_lt_append hlen (yearText_lt hpos hlen hyear) _ _
  · rw [← hyear] at hd' ⊢
    obtain ⟨hmonth, hday⟩ := monthDay_mem hd
    obtain ⟨hmonth', hday'⟩ := monthDay_mem hd'
    apply List.append_left_lt
    rcases monthDay_lt hin hd' with hlt | ⟨heq, hlt⟩
    · have hwidth : (padded 2 (monthDay (yearDay day).1.natAbs (yearDay day).2).1).length =
          (padded 2 (monthDay (yearDay day).1.natAbs (yearDay day').2).1).length := by
        rw [length_padded (by decide) (by omega), length_padded (by decide) (by omega)]
      exact append_lt_append hwidth (padded_lt hwidth hlt) _ _
    · rw [heq]
      have hwidth : (padded 2 (monthDay (yearDay day).1.natAbs (yearDay day).2).2).length =
          (padded 2 (monthDay (yearDay day).1.natAbs (yearDay day').2).2).length := by
        rw [length_padded (by decide) (by omega), length_padded (by decide) (by omega)]
      apply List.append_left_lt
      exact padded_lt hwidth hlt

theorem timeText_lt {second second' : Nat} (h : second < second') (hlt : second' < 86400) :
    timeText second < timeText second' := by
  have hwidth : ∀ n n' : Nat, n < 100 → n' < 100 → (padded 2 n).length = (padded 2 n').length := by
    intro n n' hn hn'
    rw [length_padded (by decide) hn, length_padded (by decide) hn']
  unfold timeText
  by_cases hhour : second / 3600 < second' / 3600
  · exact append_lt_append (hwidth _ _ (by omega) (by omega)) (padded_lt (hwidth _ _ (by omega) (by omega)) hhour) _ _
  rw [show second / 3600 = second' / 3600 by omega]
  apply List.append_left_lt
  by_cases hminute : second % 3600 / 60 < second' % 3600 / 60
  · exact append_lt_append (hwidth _ _ (by omega) (by omega)) (padded_lt (hwidth _ _ (by omega) (by omega)) hminute) _ _
  rw [show second % 3600 / 60 = second' % 3600 / 60 by omega]
  apply List.append_left_lt
  exact padded_lt (hwidth _ _ (by omega) (by omega)) (by omega)

/-- The texts of two times are ordered as the times, when the years have the same number of digits. -/
theorem stamp_lt {t t' : Int} (hpos : 0 ≤ yearOf t)
    (hlen : (yearText (yearOf t)).length = (yearText (yearOf t')).length) (h : t < t') : stamp t < stamp t' := by
  unfold stamp
  by_cases hday : dayOf t < dayOf t'
  · apply append_lt_append _ (dateText_lt hpos hlen hday)
    rw [length_dateText, length_dateText]
    exact congrArg (· + 4) hlen
  have hsame : dayOf t = dayOf t' := by
    unfold dayOf at hday ⊢
    omega
  rw [hsame]
  apply List.append_left_lt
  rw [List.cons_lt_cons_iff]
  refine Or.inr ⟨rfl, ?_⟩
  unfold dayOf at hsame
  by_cases hsecond : (t / 10 ^ 9 % 86400).toNat < (t' / 10 ^ 9 % 86400).toNat
  · apply append_lt_append _ (timeText_lt hsecond (by omega))
    rw [length_timeText (by omega), length_timeText (by omega)]
  have heq : (t / 10 ^ 9 % 86400).toNat = (t' / 10 ^ 9 % 86400).toNat := by omega
  rw [heq]
  apply List.append_left_lt
  rw [List.cons_lt_cons_iff]
  refine Or.inr ⟨rfl, ?_⟩
  have hwidth : (padded 9 (t % 10 ^ 9).toNat).length = (padded 9 (t' % 10 ^ 9).toNat).length := by
    rw [length_padded (by decide) (by omega), length_padded (by decide) (by omega)]
  exact append_lt_append hwidth (padded_lt hwidth (by omega)) _ _

example : String.ofList (stamp 1758000000000000007) = "20250916T052000.000000007Z" := by decide +kernel

end Wire
