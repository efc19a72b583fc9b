/-
Buckets read back as they are shown. Reading tries the internet form, then the patterns of a date
with a time, then the short forms. What is shown has no offset from universal time, so it is too
short for the internet form; it has one separator, so it fits only the patterns with a `T`, and of
these the one with as many numbers as it has; and without a whole time it is told by its length.
Only quarters are shown in a way that nothing reads.
-/
import Rollup.Proofs.Calendar.FirstWeek
import Rollup.Proofs.Calendar.Reading

namespace Rollup

open Text (isBlank)

namespace Timestamp

variable {ds rest : List Char}

/-! ## Texts as they are shown -/

/-- Whether a text consists of characters of one byte, none of them a blank. -/
def Plain (s : String) : Prop :=
  ∀ c ∈ s.toList, isBlank c = false ∧ c.utf8Size = 1

theorem Plain.append {s t : String} (hs : Plain s) (ht : Plain t) : Plain (s ++ t) := by
  rw [Plain, String.toList_append, List.forall_mem_append]
  exact ⟨hs, ht⟩

theorem plain_mark : ∀ s ∈ ["-", "+", "T", ":", "-Q"], Plain s := by
  simp [Plain, isBlank, Char.utf8Size]

theorem plain_padded (width n : Nat) : Plain (padded width n) := by
  intro c hc
  have hdigit := isDigit_of_mem_padded hc
  have halphanum : c.isAlphanum = true := by rw [Char.isAlphanum, hdigit, Bool.or_true]
  exact ⟨isBlank_of_isDigit hdigit, Sql.utf8Size_of_isAlphanum halphanum⟩

theorem Plain.utf8ByteSize {s : String} (h : Plain s) : s.utf8ByteSize = s.toList.length := by
  rw [← String.utf8Len_toList, Digest.utf8Len_eq_length fun c hc => (h c hc).2]

theorem Plain.trim {s : String} (h : Plain s) : Text.trim s = s := by
  rw [Text.trim, Text.trimChars_of_ends (fun c hc => (h c (List.mem_of_mem_head? hc)).1)
    fun c hc => (h c (List.mem_of_mem_getLast? hc)).1, String.ofList_toList]

theorem plain_yearText (year : Int) : Plain (yearText year) := by
  unfold yearText
  split
  · exact .append (plain_mark _ (by decide)) (plain_padded _ _)
  · split
    · exact .append (plain_mark _ (by decide)) (plain_padded _ _)
    · exact plain_padded _ _

theorem plain_monthText (d : Date) : Plain (monthText d) :=
  .append (.append (plain_yearText _) (plain_mark _ (by decide))) (plain_padded _ _)

theorem plain_dateText (d : Date) : Plain (dateText d) :=
  .append (.append (plain_monthText _) (plain_mark _ (by decide))) (plain_padded _ _)

theorem plain_hourText (t : Timestamp) : Plain (hourText t) :=
  .append (.append (plain_dateText _) (plain_mark _ (by decide))) (plain_padded _ _)

theorem plain_minuteText (t : Timestamp) : Plain (minuteText t) :=
  .append (.append (plain_hourText _) (plain_mark _ (by decide))) (plain_padded _ _)

theorem plain_secondText (t : Timestamp) : Plain (secondText t) :=
  .append (.append (plain_minuteText _) (plain_mark _ (by decide))) (plain_padded _ _)

/-- A plain text too short for an offset is read by a pattern or as a short form. -/
theorem Plain.read? {s : String} (h : Plain s) (hlength : s.toList.length < 20) :
    Timestamp.read? s = (patterns.findSome? (readAs? · s.toList)).or (read?.short? s) := by
  have hinternet : readInternet? s.toList = none := by
    rw [Option.eq_none_iff_forall_ne_some]
    intro t ht
    exact absurd (length_of_readInternet? ht) (by omega)
  rw [Timestamp.read?, h.trim]
  simp [hinternet]

/-! ## Dates with a time -/

theorem length_yearText {year : Int} (hfirst : 0 ≤ year) (hlast : year ≤ 9999) :
    (yearText year).toList.length = 4 := by
  rw [yearText_of_mem hfirst hlast]
  exact length_padded (by decide) (by omega)

/-- A year of the calendar has four digits at least, and six at most, with a sign. -/
theorem length_yearText_mem (d : Date) :
    4 ≤ (yearText d.year).toList.length ∧ (yearText d.year).toList.length ≤ 7 := by
  have hfour := le_length_padded 4 d.year.natAbs
  have hyears := d.isDate.1
  simp only [firstYear, lastYear] at hyears
  have hsix : (padded 4 d.year.natAbs).toList.length ≤ 6 :=
    length_padded_le (by decide) (by decide) (by omega)
  unfold yearText
  split
  · simp
    omega
  · split
    · simp
      omega
    · exact ⟨hfour, hsix.trans (by decide)⟩

theorem length_monthText (d : Date) :
    (monthText d).toList.length = (yearText d.year).toList.length + 3 := by
  have hmonth : (padded 2 d.month).toList.length = 2 := length_padded (by decide) (lt_hundred d).1
  simp [monthText, hmonth]

theorem length_dateText (d : Date) :
    (dateText d).toList.length = (yearText d.year).toList.length + 6 := by
  have hday : (padded 2 d.day).toList.length = 2 := length_padded (by decide) (lt_hundred d).2
  simp [dateText, length_monthText, hday]

section Clock

variable (d : Date) {second : Nat} (hsecond : second < 86400)

include hsecond in
/-- The parts of a time of day have two digits. -/
theorem clock_lt : second / 3600 < 24 ∧ second / 60 % 60 < 60 ∧ second % 60 < 60 := by
  omega

theorem toList_hourText : (hourText (atSecond d second hsecond)).toList =
    (dateText d).toList ++ ('T' :: (padded 2 (second / 3600)).toList) := by
  simp [hourText, hour, atSecond]

theorem toList_minuteText : (minuteText (atSecond d second hsecond)).toList =
    (dateText d).toList ++ ('T' :: ((padded 2 (second / 3600)).toList ++
      (':' :: (padded 2 (second / 60 % 60)).toList))) := by
  rw [minuteText, String.toList_append, String.toList_append, toList_hourText]
  simp [minute, atSecond]

theorem toList_secondText : (secondText (atSecond d second hsecond)).toList =
    (dateText d).toList ++ ('T' :: ((padded 2 (second / 3600)).toList ++
      (':' :: ((padded 2 (second / 60 % 60)).toList ++
        (':' :: (padded 2 (second % 60)).toList))))) := by
  rw [secondText, String.toList_append, String.toList_append, toList_minuteText]
  simp [secondOfMinute, atSecond]

theorem length_hourText : (hourText (atSecond d second hsecond)).toList.length =
    (yearText d.year).toList.length + 9 := by
  have hhour : (padded 2 (second / 3600)).toList.length = 2 :=
    length_padded (by decide) (by omega)
  rw [toList_hourText]
  simp [length_dateText, hhour]

theorem length_minuteText : (minuteText (atSecond d second hsecond)).toList.length =
    (yearText d.year).toList.length + 12 := by
  have hminute : (padded 2 (second / 60 % 60)).toList.length = 2 :=
    length_padded (by decide) (by omega)
  rw [minuteText, String.toList_append, String.toList_append, List.length_append,
    List.length_append, length_hourText]
  simp [minute, atSecond, hminute]

theorem length_secondText : (secondText (atSecond d second hsecond)).toList.length =
    (yearText d.year).toList.length + 15 := by
  have hpart : (padded 2 (second % 60)).toList.length = 2 :=
    length_padded (by decide) (by omega)
  rw [secondText, String.toList_append, String.toList_append, List.length_append,
    List.length_append, length_minuteText]
  simp [secondOfMinute, atSecond, hpart]

/-- Seconds are read by the pattern with a `T` and three numbers. -/
theorem read?_secondText (hfirst : 0 ≤ d.year) (hlast : d.year ≤ 9999) :
    read? (secondText (atSecond d second hsecond)) = some (atSecond d second hsecond) := by
  obtain ⟨hhour, hminute, hpart⟩ := clock_lt hsecond
  have hlength : (secondText (atSecond d second hsecond)).toList.length < 20 := by
    rw [length_secondText, length_yearText hfirst hlast]
    decide
  have hread := timestamp?_clock d hhour hminute hpart
  have hsum : 3600 * (second / 3600) + 60 * (second / 60 % 60) + second % 60 = second := by omega
  simp only [hsum] at hread
  rw [(plain_secondText _).read? hlength, toList_secondText, findSome?_patterns_dateText,
    findSome?_timePatterns_T (by omega), List.findSome?_cons, match?_minute (by omega),
    match?_second (by omega), Option.bind_some]
  simp only [onDate, hread, Option.some_or]

/-- Whole minutes are read by the pattern with a `T` and two numbers. -/
theorem read?_minuteText (hwhole : second % 60 = 0) :
    read? (minuteText (atSecond d second hsecond)) = some (atSecond d second hsecond) := by
  obtain ⟨hhour, hminute, -⟩ := clock_lt hsecond
  have hlength : (minuteText (atSecond d second hsecond)).toList.length < 20 := by
    have hyear := length_yearText_mem d
    rw [length_minuteText]
    omega
  have hread := timestamp?_clock d hhour hminute (show 0 < 60 by decide)
  have hsum : 3600 * (second / 3600) + 60 * (second / 60 % 60) + 0 = second := by omega
  simp only [hsum] at hread
  have hminutes (n : Numbers) := match?_minute (show second / 60 % 60 < 100 by omega) n []
  simp only [List.append_nil] at hminutes
  rw [(plain_minuteText _).read? hlength, toList_minuteText, findSome?_patterns_dateText,
    findSome?_timePatterns_T (by omega)]
  simp only [List.findSome?_cons, hminutes, match?_nil_mark, match?_nil_nil, Option.bind_none,
    Option.bind_some, onDate, hread, Option.some_or]

end Clock

/-! ## Short forms -/

theorem not_mem_padded {c : Char} (h : c.isDigit = false) (width n : Nat) :
    c ∉ (padded width n).toList := by
  intro hmem
  rw [isDigit_of_mem_padded hmem] at h
  cases h

theorem T_not_mem_yearText (year : Int) : 'T' ∉ (yearText year).toList := by
  have hdigits := not_mem_padded (c := 'T') rfl 4 year.natAbs
  unfold yearText
  split
  · simpa using hdigits
  · split
    · simpa using hdigits
    · exact hdigits

theorem T_not_mem_monthText (d : Date) : 'T' ∉ (monthText d).toList := by
  simp [monthText, T_not_mem_yearText, not_mem_padded (c := 'T') rfl]

theorem T_not_mem_dateText (d : Date) : 'T' ∉ (dateText d).toList := by
  simp [dateText, T_not_mem_monthText, not_mem_padded (c := 'T') rfl]

theorem short?_of_not_mem {s : String} (h : 'T' ∉ s.toList) : read?.short? s = readDate? s := by
  have hnone : s.toList.dropWhile (· != 'T') = [] := by
    rw [List.dropWhile_eq_nil_iff]
    intro c hc
    rw [bne_iff_ne]
    rintro rfl
    exact h hc
  rw [read?.short?, hnone]

theorem short?_of_cut {s : String} {date hour : List Char} (hs : s.toList = date ++ ('T' :: hour))
    (h : 'T' ∉ date) : read?.short? s = readHour? date hour := by
  have hdate : ∀ c ∈ date, (c != 'T') = true := by
    intro c hc
    rw [bne_iff_ne]
    rintro rfl
    exact h hc
  have hdrop : s.toList.dropWhile (· != 'T') = 'T' :: hour := by
    rw [hs, List.dropWhile_append_of_pos hdate, List.dropWhile_cons_of_neg (by decide)]
  have htake : s.toList.takeWhile (· != 'T') = date := by
    rw [hs, List.takeWhile_append_of_pos hdate, List.takeWhile_cons_of_neg (by decide),
      List.append_nil]
  rw [read?.short?, hdrop, htake]

/-- A date by itself is read as its midnight. -/
theorem readAs?_datePattern (d : Date) :
    readAs? datePattern (dateText d).toList = some (midnight d) := by
  have hread := readAs?_dateText d [] []
  rw [List.append_nil, List.append_nil] at hread
  rw [hread, match?_nil_nil, Option.bind_some]
  exact timestamp?_clock d (by decide) (by decide) (by decide)

theorem takeSign_digits (hne : ds ≠ []) (hdigits : ∀ c ∈ ds, c.isDigit = true) :
    takeSign (ds ++ rest) = (false, ds ++ rest) := by
  obtain ⟨c, tail, rfl, hminus, hplus⟩ := exists_digit_cons hne hdigits
  rw [List.cons_append]
  unfold takeSign
  split
  case h_1 h => exact absurd (List.cons.inj h).1 hminus
  case h_2 h => exact absurd (List.cons.inj h).1 hplus
  case h_3 => rfl

theorem readInt?_padded (width n : Nat) : readInt? (padded width n).toList = some (n : Int) := by
  have hne := padded_ne_nil width n
  have hdigits : ∀ c ∈ (padded width n).toList, c.isDigit = true := fun _ => isDigit_of_mem_padded
  have hsign : takeSign ((padded width n).toList ++ []) = (false, (padded width n).toList ++ []) :=
    takeSign_digits hne hdigits
  rw [List.append_nil] at hsign
  have hnumber : readNat? (padded width n).toList = some n := by
    rw [readNat?, List.all_eq_true.2 hdigits, digitsValue_padded, Bool.and_true,
      if_pos (by simpa using hne)]
  rw [readInt?, hsign]
  simp [hnumber]

theorem readHour?_padded (d : Date) {hour : Nat} (hhour : hour < 24) :
    readHour? (dateText d).toList (padded 2 hour).toList =
      some (atSecond d (3600 * hour) (by omega)) := by
  obtain ⟨c, tail, hcons, hminus, -⟩ :=
    exists_digit_cons (padded_ne_nil 2 hour) fun _ => isDigit_of_mem_padded
  have hread := readInt?_padded 2 hour
  rw [hcons] at hread ⊢
  unfold readHour?
  split
  case h_1 h => exact absurd (List.cons.inj h).1 hminus
  case h_2 =>
    simp only [hread, readAs?_datePattern, Option.bind_eq_bind, Option.bind_some]
    exact of?_clock d hhour (by decide) (by decide)

/-- Whole hours fit no pattern, and are read as a date and an hour. -/
theorem read?_hourText (d : Date) {second : Nat} (hsecond : second < 86400)
    (hwhole : second % 3600 = 0) :
    read? (hourText (atSecond d second hsecond)) = some (atSecond d second hsecond) := by
  have htext := toList_hourText d hsecond
  have hlength : (hourText (atSecond d second hsecond)).toList.length < 20 := by
    have hyear := length_yearText_mem d
    rw [length_hourText]
    omega
  have hpatterns : patterns.findSome?
      (readAs? · (hourText (atSecond d second hsecond)).toList) = none := by
    have hnone := findSome?_timePatterns_T (show second / 3600 < 100 by omega) (onDate d) []
    rw [List.append_nil] at hnone
    rw [htext, findSome?_patterns_dateText, hnone]
    rfl
  have hsum : 3600 * (second / 3600) = second := by omega
  rw [(plain_hourText _).read? hlength, hpatterns, Option.none_or,
    short?_of_cut htext (T_not_mem_dateText d), readHour?_padded d (by omega)]
  simp only [hsum]

theorem read?_of_short {s : String} (h : Plain s) (hlength : s.toList.length < 20)
    (hT : 'T' ∉ s.toList) (hnone : ∀ pattern, match? {} s.toList (datePattern ++ pattern) = none) :
    read? s = readDate? s := by
  rw [h.read? hlength, findSome?_patterns_eq_none hnone, Option.none_or, short?_of_not_mem hT]

/-- A date fits no pattern with a time. -/
theorem read?_dateText (d : Date) : read? (dateText d) = some (midnight d) := by
  have hyear := length_yearText_mem d
  have hlength := length_dateText d
  have hpatterns : patterns.findSome? (readAs? · (dateText d).toList) = none := by
    have hnone := findSome?_patterns_dateText d []
    rw [List.append_nil] at hnone
    rw [hnone]
    rfl
  rw [(plain_dateText d).read? (by omega), hpatterns, Option.none_or,
    short?_of_not_mem (T_not_mem_dateText d), readDate?, (plain_dateText d).utf8ByteSize,
    beq_false_of_ne (by omega), beq_false_of_ne (by omega), readAs?_datePattern]
  rfl

/-- A month has seven characters, and is read with its first day. -/
theorem read?_monthText (d : Date) (hfirst : 0 ≤ d.year) (hlast : d.year ≤ 9999) :
    read? (monthText d) = some (midnight (d.firstOf d.month d.isDate.2.1.1 d.isDate.2.1.2)) := by
  have hyear := length_yearText hfirst hlast
  have hlength := length_monthText d
  have hnone (pattern : List Part) :
      match? {} (monthText d).toList (datePattern ++ pattern) = none := by
    have hmonth := match?_monthText d [] (.mark '-' :: .day :: pattern)
    rw [List.append_nil] at hmonth
    exact hmonth
  have hday : (monthText d).toList ++ "-01".toList =
      (dateText (d.firstOf d.month d.isDate.2.1.1 d.isDate.2.1.2)).toList := by
    have hone : padded 2 1 = "01" := by decide
    simp [dateText, monthText, Date.firstOf, hone]
  rw [read?_of_short (plain_monthText d) (by omega) (T_not_mem_monthText d) hnone, readDate?,
    (plain_monthText d).utf8ByteSize, hlength, hyear, hday, readAs?_datePattern]
  rfl

/-- A year has four characters, and is read with its first day. -/
theorem read?_yearText (d : Date) (hfirst : 0 ≤ d.year) (hlast : d.year ≤ 9999) :
    read? (yearText d.year) =
      some (midnight (d.firstOf 1 (Nat.le_refl 1) (by decide))) := by
  have hlength := length_yearText hfirst hlast
  have hnone (pattern : List Part) :
      match? {} (yearText d.year).toList (datePattern ++ pattern) = none := by
    have hyear : year? ((yearText d.year).toList ++ []) = some (d.year, []) :=
      year?_yearText d.year fun _ hc => by cases hc
    rw [List.append_nil] at hyear
    simp only [datePattern, List.cons_append, match?, Part.read?, hyear, Option.map_some,
      Option.bind_some, Text.afterChar?, Option.map_none, Option.bind_none]
  have hnumber : readInt? (yearText d.year).toList = some d.year := by
    rw [yearText_of_mem hfirst hlast, readInt?_padded, Int.toNat_of_nonneg hfirst]
  have hdate : Date.of? d.year 1 1 = some (d.firstOf 1 (Nat.le_refl 1) (by decide)) :=
    Date.of?_eq_some_iff.2 ⟨rfl, rfl, rfl⟩
  rw [read?_of_short (plain_yearText d.year) (by omega) (T_not_mem_yearText d.year) hnone,
    readDate?, (plain_yearText d.year).utf8ByteSize, hlength, hnumber]
  simp [hdate]

/-- Behind the year of a quarter stands no month. -/
theorem match?_quarter (hne : ds ≠ []) (hdigits : ∀ c ∈ ds, c.isDigit = true)
    (hfew : ds.length ≤ 4) (rest : List Char) (pattern : List Part) :
    match? {} (ds ++ ('-' :: 'Q' :: rest)) (datePattern ++ pattern) = none := by
  have hdash : ∀ c ∈ ('-' :: 'Q' :: rest).head?, c.isDigit = false := by
    rintro c ⟨⟩
    rfl
  have hyear := year?_digits hne hdigits hfew hdash
  have hmonth : number? ('Q' :: rest) = none := rfl
  simp only [datePattern, List.cons_append, match?, Part.read?, hyear, hmonth, Text.afterChar?,
    beq_self_eq_true, if_true, Option.map_some, Option.map_none, Option.bind_some,
    Option.bind_none]

theorem toString_eq_padded (n : Nat) : toString n = padded 0 n := by
  rw [Nat.toString_eq_ofList_toDigits, padded, Nat.zero_sub, List.replicate_zero, List.nil_append]

/-- A quarter as it is shown. -/
def quarterText (year quarter : Nat) : String :=
  padded 0 year ++ "-Q" ++ padded 0 quarter

theorem toList_quarterText (year quarter : Nat) : (quarterText year quarter).toList =
    (padded 0 year).toList ++ ('-' :: 'Q' :: (padded 0 quarter).toList) := by
  simp [quarterText]

/-- A quarter is no date, whatever it is taken for by its length. -/
theorem readDate?_quarterText {year : Nat} (hyear : year < 10000) (quarter : Nat) :
    readDate? (quarterText year quarter) = none := by
  have hne := padded_ne_nil 0 year
  have hdigits : ∀ c ∈ (padded 0 year).toList, c.isDigit = true := fun _ => isDigit_of_mem_padded
  have hfew : (padded 0 year).toList.length ≤ 4 := length_padded_le (by decide) (by decide) hyear
  have hnone (rest : List Char) := match?_quarter hne hdigits hfew rest []
  simp only [List.append_nil] at hnone
  rw [readDate?, toList_quarterText]
  split
  · have hnumber : readNat? ((padded 0 year).toList ++
        ('-' :: 'Q' :: (padded 0 quarter).toList)) = none := by
      rw [readNat?, List.all_append, List.all_cons]
      simp
    rw [readInt?, takeSign_digits hne hdigits]
    simp [hnumber]
  · split
    · rw [List.append_assoc, List.cons_append, List.cons_append, readAs?, hnone, Option.bind_none]
    · rw [readAs?, hnone, Option.bind_none]

theorem read?_quarterText {year quarter : Nat} (hyear : year < 10000) (hquarter : quarter < 10) :
    read? (toString year ++ "-Q" ++ toString quarter) = none := by
  have hfew : (padded 0 year).toList.length ≤ 4 := length_padded_le (by decide) (by decide) hyear
  have hone : (padded 0 quarter).toList.length ≤ 1 :=
    length_padded_le (by decide) (by decide) hquarter
  have hplain : Plain (quarterText year quarter) :=
    .append (.append (plain_padded _ _) (plain_mark _ (by decide))) (plain_padded _ _)
  have hT : 'T' ∉ (quarterText year quarter).toList := by
    simp [toList_quarterText, not_mem_padded (c := 'T') rfl]
  have hlength : (quarterText year quarter).toList.length < 20 := by
    rw [toList_quarterText]
    simp
    omega
  have hnone (pattern : List Part) :
      match? {} (quarterText year quarter).toList (datePattern ++ pattern) = none := by
    rw [toList_quarterText]
    exact match?_quarter (padded_ne_nil 0 year) (fun _ => isDigit_of_mem_padded) hfew _ pattern
  rw [toString_eq_padded, toString_eq_padded]
  exact (read?_of_short hplain hlength hT hnone).trans (readDate?_quarterText hyear quarter)

end Timestamp

namespace Grain

/-- The start of a bucket is read from the way it is shown, but for quarters, which are not read. -/
theorem read?_format {g : Grain} {t start : Timestamp} (hfirst : 0 ≤ t.date.year)
    (hlast : t.date.year ≤ 9999) (h : g.truncate? t = some start) :
    Timestamp.read? (g.format start) = if g = quarter then none else some start := by
  have hweek {startsOnSunday : Bool} (h : weekStart? startsOnSunday t.date = some start) :
      Timestamp.read? (Timestamp.dateText start.date) = some start := by
    obtain ⟨first, rfl, -⟩ := weekStart?_eq_some_iff.1 h
    exact Timestamp.read?_dateText first
  cases g with
  | second => cases h; exact Timestamp.read?_secondText _ _ hfirst hlast
  | minute => cases h; exact Timestamp.read?_minuteText _ _ (Nat.mul_mod_left _ _)
  | hour => cases h; exact Timestamp.read?_hourText _ _ (Nat.mul_mod_left _ _)
  | day => cases h; exact Timestamp.read?_dateText _
  | isoWeek => exact hweek h
  | week => exact hweek h
  | month =>
    cases h
    have hmonth := t.date.isDate.2.1
    exact Timestamp.read?_monthText (t.date.firstOf t.date.month hmonth.1 hmonth.2) hfirst hlast
  | quarter =>
    have hmonth := t.date.isDate.2.1
    obtain ⟨year, hyear⟩ := Int.eq_ofNat_of_zero_le hfirst
    cases h
    change Timestamp.read? (toString t.date.year ++ "-Q" ++
      toString (((t.date.month - 1) / 3 * 3 + 1 - 1) / 3 + 1)) = none
    rw [hyear]
    exact Timestamp.read?_quarterText (by omega) (by omega)
  | year =>
    cases h
    exact Timestamp.read?_yearText (t.date.firstOf 1 (by decide) (by decide)) hfirst hlast

/-- A timestamp whose year has four digits is in a bucket of every grain. -/
theorem exists_truncate? (g : Grain) {t : Timestamp} (hfirst : 0 ≤ t.date.year) :
    ∃ start, g.truncate? t = some start := by
  cases h : g.truncate? t with
  | some start => exact ⟨start, rfl⟩
  | none =>
    have hcut := truncate?_eq_none_iff.1 h
    have hyear := t.date.toDays_mem_year.1
    have hmono := yearStart_mono hfirst
    have hbehind : Date.firstDay + g.cutDays ≤ yearStart 0 := by cases g <;> decide
    omega

end Grain

namespace Bucket

/-- Buckets of the years 0 to 9999 are read back from the way they are shown, but for quarters: no
quarter is read as a timestamp at all. -/
theorem read_display (g : Grain) {t : Timestamp} (hfirst : 0 ≤ t.date.year)
    (hlast : t.date.year ≤ 9999) :
    ∃ b, of g t = .ok b ∧
      read g b.display = if g = .quarter then .error .notTimestamp else .ok b := by
  obtain ⟨start, hstart⟩ := Grain.exists_truncate? g hfirst
  have hof : of g t = .ok ⟨g, start⟩ := by rw [of, hstart]
  have hagain : of g start = .ok ⟨g, start⟩ := by rw [of, Grain.truncate?_start hstart]
  refine ⟨⟨g, start⟩, hof, ?_⟩
  rw [read, display, Grain.read?_format hfirst hlast hstart]
  split
  · rfl
  · exact hagain

/-- The first Saturday of the year 0, the week of which began in the year before. -/
def firstSaturday : Timestamp :=
  .midnight ⟨0, 1, 1, by decide⟩

theorem read_display_firstSaturday :
    ∃ b, of .isoWeek firstSaturday = .ok b ∧ b.display = "-0001-12-27" ∧
      read .isoWeek "-0001-12-27" = .ok b := by
  obtain ⟨b, hb, hread⟩ := read_display .isoWeek (t := firstSaturday) (by decide) (by decide)
  have hdisplay : (of .isoWeek firstSaturday).map display = .ok "-0001-12-27" := by decide +kernel
  rw [hb] at hdisplay
  have hdisplay : b.display = "-0001-12-27" := Except.ok.inj hdisplay
  exact ⟨b, hb, hdisplay, hdisplay ▸ hread⟩

end Bucket

end Rollup
