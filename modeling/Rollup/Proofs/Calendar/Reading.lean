/-
How timestamps are read. A year, a month, a day and what follows are read from the digits they are
shown with; the patterns of a date with a time differ only behind the date, and behind a `T` only
two of them are left; and the internet form has an offset from universal time, so it is long.
-/
import Rollup.Proofs.Sql.Alias
import Rollup.Proofs.Sql.DateFunctions
import Rollup.Proofs.Text.Classes
import Rollup.Proofs.Text.Cutting

namespace Rollup

open Text (isBlank)

namespace Timestamp

/-! ## Digits -/

theorem isDigit_of_mem_padded {width n : Nat} {c : Char} (h : c ∈ (padded width n).toList) :
    c.isDigit = true := by
  rw [padded, String.toList_ofList, List.mem_append, List.mem_replicate] at h
  rcases h with ⟨-, rfl⟩ | h
  · rfl
  · exact Nat.isDigit_of_mem_toDigits (by decide) (by decide) h

theorem le_length_padded (width n : Nat) : width ≤ (padded width n).toList.length := by
  rw [padded, String.toList_ofList, List.length_append, List.length_replicate]
  omega

theorem length_padded_le {width most n : Nat} (hmost : 0 < most) (hwidth : width ≤ most)
    (h : n < 10 ^ most) : (padded width n).toList.length ≤ most := by
  have := Nat.toDigits_length 10 n most hmost h
  rw [padded, String.toList_ofList, List.length_append, List.length_replicate]
  omega

theorem length_padded {width n : Nat} (hwidth : 0 < width) (h : n < 10 ^ width) :
    (padded width n).toList.length = width :=
  le_antisymm (length_padded_le hwidth le_rfl h) (le_length_padded width n)

theorem padded_ne_nil (width n : Nat) : (padded width n).toList ≠ [] := by
  rw [padded, String.toList_ofList]
  exact List.append_ne_nil_of_right_ne_nil _ Nat.toDigits_ne_nil

theorem isBlank_of_isDigit {c : Char} (h : c.isDigit = true) : isBlank c = false := by
  refine Text.isBlank_of_isIdentChar ?_
  rw [Text.isIdentChar, Char.isAlphanum, h, Bool.or_true, Bool.true_or]

variable {ds rest : List Char}

/-- Digits are read up to the most there may be, or up to what is no digit. -/
theorem digits?_append {most : Nat} (hne : ds ≠ []) (hdigits : ∀ c ∈ ds, c.isDigit = true)
    (hmost : ds.length ≤ most)
    (hend : ds.length = most ∨ ∀ c ∈ rest.head?, c.isDigit = false) :
    digits? most (ds ++ rest) = some (ds, rest) := by
  have hrest : (rest.take (most - ds.length)).takeWhile Char.isDigit = [] := by
    rcases hend with hfull | hend
    · rw [hfull, Nat.sub_self, List.take_zero, List.takeWhile_nil]
    · cases rest with
      | nil => simp
      | cons c rest =>
        cases most - ds.length with
        | zero => rfl
        | succ k => rw [List.take_succ_cons, List.takeWhile_cons, hend c rfl, if_neg (by decide)]
  have hds : ((ds ++ rest).take most).takeWhile Char.isDigit = ds := by
    rw [List.take_append, List.take_of_length_le hmost, List.takeWhile_append_of_pos hdigits, hrest,
      List.append_nil]
  rw [digits?, hds, if_neg (by simpa using hne), List.drop_left]

theorem dropWhile_digits (hne : ds ≠ []) (hdigits : ∀ c ∈ ds, c.isDigit = true) :
    (ds ++ rest).dropWhile isBlank = ds ++ rest := by
  refine Text.dropWhile_of_head? fun c hc => isBlank_of_isDigit (hdigits c ?_)
  rw [List.head?_append_of_ne_nil _ hne] at hc
  exact List.mem_of_mem_head? hc

/-- Two digits are a number, whatever follows. -/
theorem number?_padded {n : Nat} (h : n < 100) (rest : List Char) :
    number? ((padded 2 n).toList ++ rest) = some (n, rest) := by
  have hlength : (padded 2 n).toList.length = 2 := length_padded (by decide) h
  rw [number?, dropWhile_digits (padded_ne_nil 2 n) fun _ => isDigit_of_mem_padded,
    digits?_append (padded_ne_nil 2 n) (fun _ => isDigit_of_mem_padded) hlength.le (.inl hlength),
    Option.map_some]
  dsimp only
  rw [digitsValue_padded]

/-- A sign is none of the digits, so a text of digits has none. -/
theorem exists_digit_cons (hne : ds ≠ []) (hdigits : ∀ c ∈ ds, c.isDigit = true) :
    ∃ c tail, ds = c :: tail ∧ c ≠ '-' ∧ c ≠ '+' := by
  obtain ⟨c, tail, rfl⟩ := List.exists_cons_of_ne_nil hne
  have hc := hdigits c List.mem_cons_self
  refine ⟨c, tail, rfl, ?_, ?_⟩
  · rintro rfl
    exact absurd hc (by decide)
  · rintro rfl
    exact absurd hc (by decide)

/-- A year of up to four digits, if no digit follows. -/
theorem year?_digits (hne : ds ≠ []) (hdigits : ∀ c ∈ ds, c.isDigit = true) (hfew : ds.length ≤ 4)
    (hrest : ∀ c ∈ rest.head?, c.isDigit = false) :
    year? (ds ++ rest) = some ((digitsValue ds : Int), rest) := by
  have hread := digits?_append hne hdigits hfew (.inr hrest)
  obtain ⟨c, tail, rfl, hminus, hplus⟩ := exists_digit_cons hne hdigits
  rw [year?, dropWhile_digits hne hdigits]
  simp only [List.cons_append] at hread ⊢
  split
  case h_1 h => exact absurd (List.cons.inj h).1 hminus
  case h_2 h => exact absurd (List.cons.inj h).1 hplus
  case h_3 => simp only [hread, Option.map_some]

/-- A year as it is shown, if no digit follows. -/
theorem year?_yearText (year : Int) (hrest : ∀ c ∈ rest.head?, c.isDigit = false) :
    year? ((yearText year).toList ++ rest) = some (year, rest) := by
  have hne := padded_ne_nil 4 year.natAbs
  have hdigits : ∀ c ∈ (padded 4 year.natAbs).toList, c.isDigit = true :=
    fun _ => isDigit_of_mem_padded
  have hsigned : digits? ((padded 4 year.natAbs).toList ++ rest).length
      ((padded 4 year.natAbs).toList ++ rest) = some ((padded 4 year.natAbs).toList, rest) :=
    digits?_append hne hdigits (by simp) (.inr hrest)
  have hvalue := digitsValue_padded 4 year.natAbs
  rw [yearText]
  split
  case isTrue hnegative =>
    have hminus : ("-" ++ padded 4 year.natAbs).toList ++ rest =
        '-' :: ((padded 4 year.natAbs).toList ++ rest) := by simp
    have hyear : -(year.natAbs : Int) = year := by omega
    rw [hminus, year?, List.dropWhile_cons_of_neg (by decide)]
    simp only [hsigned, Option.map_some, hvalue, hyear]
  case isFalse hpositive =>
    have hyear : (year.natAbs : Int) = year := by omega
    split
    case isTrue =>
      have hplus : ("+" ++ padded 4 year.natAbs).toList ++ rest =
          '+' :: ((padded 4 year.natAbs).toList ++ rest) := by simp
      rw [hplus, year?, List.dropWhile_cons_of_neg (by decide)]
      simp only [hsigned, Option.map_some, hvalue, hyear]
    case isFalse hfew =>
      have hlength : (padded 4 year.natAbs).toList.length = 4 :=
        length_padded (by decide) (by omega)
      rw [year?_digits hne hdigits hlength.le hrest, hvalue, hyear]

/-! ## Patterns -/

/-- A month and a day have two digits. -/
theorem lt_hundred (d : Date) : d.month < 100 ∧ d.day < 100 := by
  have hmonth := d.isDate.2.1.2
  have hday := d.isDate.2.2.2
  have hdays : daysIn (isLeap d.year) d.month ≤ 31 := by
    unfold daysIn
    split
    · split <;> decide
    · split <;> decide
  omega

/-- A year and a month are read as they are shown, whatever follows. -/
theorem match?_monthText (d : Date) (rest : List Char) (pattern : List Part) :
    match? {} ((monthText d).toList ++ rest) (.year :: .mark '-' :: .month :: pattern) =
      match? { year := d.year, month := d.month } rest pattern := by
  have htext : (monthText d).toList ++ rest =
      (yearText d.year).toList ++ ('-' :: ((padded 2 d.month).toList ++ rest)) := by
    simp [monthText]
  have hdash : ∀ c ∈ ('-' :: ((padded 2 d.month).toList ++ rest)).head?, c.isDigit = false := by
    rintro c ⟨⟩
    rfl
  rw [htext]
  simp only [match?, Part.read?, year?_yearText d.year hdash, number?_padded (lt_hundred d).1,
    Text.afterChar?, beq_self_eq_true, if_true, Option.map_some, Option.bind_some]

/-- What a date says about a timestamp. -/
def onDate (d : Date) : Numbers :=
  { year := d.year, month := d.month, day := d.day }

/-- A date is read as it is shown, whatever follows. -/
theorem match?_dateText (d : Date) (rest : List Char) (pattern : List Part) :
    match? {} ((dateText d).toList ++ rest) (datePattern ++ pattern) =
      match? (onDate d) rest pattern := by
  have htext : (dateText d).toList ++ rest =
      (monthText d).toList ++ ('-' :: ((padded 2 d.day).toList ++ rest)) := by
    simp [dateText]
  rw [htext]
  refine (match?_monthText d _ (.mark '-' :: .day :: pattern)).trans ?_
  simp only [match?, Part.read?, number?_padded (lt_hundred d).2, Text.afterChar?,
    beq_self_eq_true, if_true, Option.map_some, Option.bind_some, onDate]

/-- The patterns without the date they begin with. -/
def timePatterns : List (List Part) :=
  [[.blanks, .hour, .mark ':', .minute, .mark ':', .second, .fraction],
    [.mark 'T', .hour, .mark ':', .minute, .mark ':', .second, .fraction],
    [.blanks, .hour, .mark ':', .minute], [.mark 'T', .hour, .mark ':', .minute]]

theorem patterns_eq : patterns = timePatterns.map (datePattern ++ ·) :=
  rfl

theorem readAs?_dateText (d : Date) (rest : List Char) (pattern : List Part) :
    readAs? (datePattern ++ pattern) ((dateText d).toList ++ rest) =
      (match? (onDate d) rest pattern).bind Numbers.timestamp? := by
  rw [readAs?, match?_dateText]

theorem findSome?_patterns_dateText (d : Date) (rest : List Char) :
    patterns.findSome? (readAs? · ((dateText d).toList ++ rest)) =
      timePatterns.findSome? fun p => (match? (onDate d) rest p).bind Numbers.timestamp? := by
  simp only [patterns_eq, List.findSome?_map, Function.comp_def, readAs?_dateText]

/-- Every pattern begins with a date. -/
theorem findSome?_patterns_eq_none {cs : List Char}
    (h : ∀ pattern, match? {} cs (datePattern ++ pattern) = none) :
    patterns.findSome? (readAs? · cs) = none := by
  rw [patterns_eq, List.findSome?_map, List.findSome?_eq_none_iff]
  intro p _
  rw [Function.comp_apply, readAs?, h, Option.bind_none]

/-- A `T` behind the date is no blank, and no hour. -/
theorem findSome?_timePatterns_T {hour : Nat} (hhour : hour < 100) (n : Numbers)
    (rest : List Char) :
    (timePatterns.findSome? fun p =>
      (match? n ('T' :: ((padded 2 hour).toList ++ rest)) p).bind Numbers.timestamp?) =
    [[Part.mark ':', .minute, .mark ':', .second, .fraction], [.mark ':', .minute]].findSome?
      fun p => (match? { n with hour := hour } rest p).bind Numbers.timestamp? := by
  have hblanks (pattern : List Part) : match? n ('T' :: ((padded 2 hour).toList ++ rest))
      (.blanks :: .hour :: pattern) = none := rfl
  have hmark (pattern : List Part) : match? n ('T' :: ((padded 2 hour).toList ++ rest))
      (.mark 'T' :: .hour :: pattern) = match? { n with hour := hour } rest pattern := by
    simp only [match?, Part.read?, number?_padded hhour, Text.afterChar?, beq_self_eq_true,
      if_true, Option.map_some, Option.bind_some]
  simp only [timePatterns, List.findSome?_cons, List.findSome?_nil, hblanks, hmark,
    Option.bind_none]

theorem match?_nil_nil (n : Numbers) : match? n [] [] = some n :=
  rfl

theorem match?_nil_mark (n : Numbers) (c : Char) (pattern : List Part) :
    match? n [] (.mark c :: pattern) = none :=
  rfl

theorem match?_minute {minute : Nat} (hminute : minute < 100) (n : Numbers) (rest : List Char)
    (pattern : List Part) :
    match? n (':' :: ((padded 2 minute).toList ++ rest)) (.mark ':' :: .minute :: pattern) =
      match? { n with minute := minute } rest pattern := by
  simp only [match?, Part.read?, number?_padded hminute, Text.afterChar?, beq_self_eq_true,
    if_true, Option.map_some, Option.bind_some]

theorem match?_second {second : Nat} (hsecond : second < 100) (n : Numbers) :
    match? n (':' :: (padded 2 second).toList) [.mark ':', .second, .fraction] =
      some { n with second := second, nano := 0 } := by
  have hread := number?_padded hsecond []
  rw [List.append_nil] at hread
  simp only [match?, Part.read?, hread, Text.afterChar?, beq_self_eq_true, if_true,
    Option.map_some, Option.bind_some, fraction?, List.isEmpty_nil]

/-- The numbers a clock shows are a time of day. -/
theorem of?_clock (d : Date) {hour minute second : Nat} (hhour : hour < 24)
    (hminute : minute < 60) (hsecond : second < 60) :
    of? d hour minute second 0 =
      some (atSecond d (3600 * hour + 60 * minute + second) (by omega)) := by
  have hleap : (second == 60) = false := beq_false_of_ne (by omega)
  rw [of?]
  simp only [hleap, Bool.false_eq_true, if_false]
  rw [dif_pos (by omega)]
  rfl

theorem timestamp?_clock (d : Date) {hour minute second : Nat} (hhour : hour < 24)
    (hminute : minute < 60) (hsecond : second < 60) :
    Numbers.timestamp? ⟨d.year, d.month, d.day, hour, minute, second, 0⟩ =
      some (atSecond d (3600 * hour + 60 * minute + second) (by omega)) := by
  rw [Numbers.timestamp?, Date.of?_eq_some_iff.2 ⟨rfl, rfl, rfl⟩, Option.bind_some,
    of?_clock d hhour hminute hsecond]

/-! ## The internet form -/

theorem length_of_readFixed? {count n : Nat} {cs rest : List Char}
    (h : readFixed? count cs = some (n, rest)) : cs.length = count + rest.length := by
  rw [readFixed?] at h
  split at h
  · cases h
  · obtain ⟨m, -, hm⟩ := Option.map_eq_some_iff.1 h
    cases hm
    rw [List.length_drop]
    omega

theorem length_of_afterChar? {c : Char} {cs rest : List Char}
    (h : Text.afterChar? c cs = some rest) : cs.length = rest.length + 1 := by
  cases cs with
  | nil => cases h
  | cons d cs =>
    rw [Text.afterChar?, Option.ite_none_right_eq_some] at h
    rw [List.length_cons, Option.some.inj h.2]

theorem length_of_digits? {most : Nat} {cs : List Char} (h : digits? most cs = some (ds, rest)) :
    rest.length ≤ cs.length := by
  rw [digits?, Option.ite_none_left_eq_some] at h
  cases h.2
  exact (List.drop_sublist _ _).length_le

theorem length_of_fraction? {cs : List Char} {nano : Nat}
    (h : fraction? cs = some (nano, rest)) : rest.length ≤ cs.length := by
  unfold fraction? at h
  split at h
  · obtain ⟨⟨ds, behind⟩, hdigits, hrest⟩ := Option.map_eq_some_iff.1 h
    cases hrest
    exact ((List.dropWhile_sublist _).length_le.trans (length_of_digits? hdigits)).trans
      (Nat.le_succ _)
  · cases h
    exact le_refl _

/-- A date, a time and an offset have twenty characters at least. -/
theorem length_of_readInternet? {cs : List Char} {t : Timestamp}
    (h : readInternet? cs = some t) : 20 ≤ cs.length := by
  rw [readInternet?] at h
  obtain ⟨⟨year, r₁⟩, hyear, h⟩ := Option.bind_eq_some_iff.1 h
  obtain ⟨r₂, hdash, h⟩ := Option.bind_eq_some_iff.1 h
  obtain ⟨⟨month, r₃⟩, hmonth, h⟩ := Option.bind_eq_some_iff.1 h
  obtain ⟨r₄, hdash', h⟩ := Option.bind_eq_some_iff.1 h
  obtain ⟨⟨day, r₅⟩, hday, h⟩ := Option.bind_eq_some_iff.1 h
  have h₁ := length_of_readFixed? hyear
  have h₂ := length_of_afterChar? hdash
  have h₃ := length_of_readFixed? hmonth
  have h₄ := length_of_afterChar? hdash'
  have h₅ := length_of_readFixed? hday
  dsimp only at h h₁ h₂ h₃ h₄ h₅
  split at h
  case h_1 => cases h
  case h_2 c r₆ =>
    rw [Option.bind_eq_bind, Option.bind_none, Option.ite_none_left_eq_some] at h
    obtain ⟨⟨hour, r₇⟩, hhour, h⟩ := Option.bind_eq_some_iff.1 h.2
    obtain ⟨r₈, hcolon, h⟩ := Option.bind_eq_some_iff.1 h
    obtain ⟨⟨minute, r₉⟩, hminute, h⟩ := Option.bind_eq_some_iff.1 h
    obtain ⟨r₁₀, hcolon', h⟩ := Option.bind_eq_some_iff.1 h
    obtain ⟨⟨second, r₁₁⟩, hsecond, h⟩ := Option.bind_eq_some_iff.1 h
    obtain ⟨⟨nano, r₁₂⟩, hnano, h⟩ := Option.bind_eq_some_iff.1 h
    obtain ⟨offset, hoffset, -⟩ := Option.bind_eq_some_iff.1 h
    have h₇ := length_of_readFixed? hhour
    have h₈ := length_of_afterChar? hcolon
    have h₉ := length_of_readFixed? hminute
    have h₁₀ := length_of_afterChar? hcolon'
    have h₁₁ := length_of_readFixed? hsecond
    have h₁₂ := length_of_fraction? hnano
    have hsome : 0 < r₁₂.length := by
      cases r₁₂ with
      | nil => cases hoffset
      | cons c r => exact Nat.zero_lt_succ _
    simp only [List.length_cons] at *
    omega

end Timestamp

end Rollup
