/-
Timestamps read back from the form in which they are stored. The form has everything but the number
of a leap second: it shows the second after the one the leap second belongs to, and only a sixtieth
second is read as a leap second again.
-/
import Rollup.Proofs.Calendar.Reading

namespace Rollup.Timestamp

open Text (isBlank)

/-- The timestamp that the stored form of a timestamp is read as. A leap second that does not end
its minute turns into the second behind it. -/
def reread (t : Timestamp) : Timestamp :=
  if h : 1000000000 ≤ t.nano ∧ t.secondOfMinute ≠ 59 then
    { t with
      second := t.second + 1
      nano := t.nano - 1000000000
      second_lt := by
        have hday := t.second_lt
        have hminute := h.2
        rw [secondOfMinute] at hminute
        omega
      nano_lt := by
        have hnano := t.nano_lt
        omega }
  else t

theorem reread_eq_iff {t : Timestamp} :
    t.reread = t ↔ (1000000000 ≤ t.nano → t.secondOfMinute = 59) := by
  rw [reread]
  split
  case isTrue h =>
    have hsecond : t.second + 1 ≠ t.second := Nat.succ_ne_self _
    exact ⟨fun heq => absurd (congrArg second heq) hsecond, fun hkept => absurd (hkept h.1) h.2⟩
  case isFalse h =>
    exact ⟨fun _ hnano => by_contra fun hminute => h ⟨hnano, hminute⟩, fun _ => rfl⟩

/-! ## Parts of the stored form -/

theorem nano?_padded {width n : Nat} (hpos : 0 < width) (hwidth : width ≤ 9)
    (h : n < 10 ^ width) : nano? (padded width n).toList = some (n * 10 ^ (9 - width), []) := by
  have hlength := length_padded hpos h
  have hread : digits? 9 ((padded width n).toList ++ []) = some ((padded width n).toList, []) :=
    digits?_append (padded_ne_nil width n) (fun _ => isDigit_of_mem_padded)
      (hlength.le.trans hwidth) (.inr (by simp))
  rw [List.append_nil] at hread
  rw [nano?, hread, Option.map_some]
  dsimp only
  rw [digitsValue_padded, hlength]
  rfl

/-- A fraction of a second is read with all its digits. -/
theorem fraction?_fractionText {nano : Nat} (h : nano < 1000000000) :
    fraction? (fractionText nano).toList = some (nano, []) := by
  have hpoint (s : String) : fraction? ("." ++ s).toList = nano? s.toList := by
    rw [String.toList_append]
    rfl
  rw [fractionText]
  split
  case isTrue hzero =>
    rw [beq_iff_eq] at hzero
    rw [hzero]
    rfl
  split
  case isTrue hmillis =>
    rw [beq_iff_eq] at hmillis
    rw [hpoint, nano?_padded (by decide) (by decide) (by omega)]
    congr 2
    omega
  split
  case isTrue hmicros =>
    rw [beq_iff_eq] at hmicros
    rw [hpoint, nano?_padded (by decide) (by decide) (by omega)]
    congr 2
    omega
  case isFalse =>
    rw [hpoint, nano?_padded (by decide) (by decide) h, Nat.sub_self, Nat.pow_zero, Nat.mul_one]

/-- The numbers of the stored form. -/
def numbers (t : Timestamp) : Numbers where
  year := t.date.year
  month := t.date.month
  day := t.date.day
  hour := t.hour
  minute := t.minute
  second := t.secondOfMinute + t.nano / 1000000000
  nano := t.nano % 1000000000

theorem match?_text (t : Timestamp) : match? {} t.text.toList storedPattern = some t.numbers := by
  have hsecond := t.second_lt
  have hnano := t.nano_lt
  obtain ⟨hmonth, hday⟩ := lt_hundred t.date
  have hhour : t.hour < 100 := by rw [hour]; omega
  have hminute : t.minute < 100 := by rw [minute]; omega
  have hseconds : t.secondOfMinute + t.nano / 1000000000 < 100 := by rw [secondOfMinute]; omega
  have hblank : isBlank '-' = false ∧ isBlank 'T' = false ∧ isBlank ':' = false := by decide
  have htext : t.text.toList = (yearText t.date.year).toList ++ '-' ::
      ((padded 2 t.date.month).toList ++ '-' :: ((padded 2 t.date.day).toList ++ 'T' ::
        ((padded 2 t.hour).toList ++ ':' :: ((padded 2 t.minute).toList ++ ':' ::
          ((padded 2 (t.secondOfMinute + t.nano / 1000000000)).toList ++
            (fractionText (t.nano % 1000000000)).toList))))) := by
    simp [text, minuteText, hourText, dateText, monthText]
  have hdash {rest : List Char} : ∀ c ∈ ('-' :: rest).head?, c.isDigit = false := by
    rintro c ⟨⟩
    rfl
  rw [htext]
  simp only [storedPattern, match?, Part.read?, year?_yearText _ hdash, number?_padded hmonth,
    number?_padded hday, number?_padded hhour, number?_padded hminute, number?_padded hseconds,
    fraction?_fractionText (Nat.mod_lt _ (by decide : 0 < 1000000000)), List.dropWhile_cons, hblank,
    Bool.false_eq_true, if_false, List.dropWhile_nil, Text.afterChar?, beq_self_eq_true, if_true,
    Option.map_some, Option.bind_some, List.isEmpty_nil, numbers]

/-- The second of a timestamp, from the parts it is shown in. -/
theorem second_eq_clock (t : Timestamp) :
    3600 * t.hour + 60 * t.minute + t.secondOfMinute = t.second := by
  rw [hour, minute, secondOfMinute]
  omega

/-- An hour, a minute and a second give the timestamp they count to. -/
theorem of?_eq_some {t : Timestamp} {d : Date} {hour minute second nano : Nat} (leap : Nat)
    (hleap : leap = if second == 60 then 1 else 0) (hhour : hour < 24) (hminute : minute < 60)
    (hsecond : second ≤ 60) (hdate : t.date = d)
    (hcount : t.second = 3600 * hour + 60 * minute + (second - leap))
    (hnano : t.nano = nano + 1000000000 * leap) : of? d hour minute second nano = some t := by
  subst hleap
  rw [of?, dif_pos ⟨⟨hhour, hminute, hsecond⟩, hcount ▸ t.second_lt, hnano ▸ t.nano_lt⟩]
  obtain ⟨date, s, n, hs, hn⟩ := t
  rw [Option.some.injEq, mk.injEq]
  exact ⟨hdate.symm, hcount.symm, hnano.symm⟩

/-- The numbers of the stored form give the timestamp back, or the second behind it. -/
theorem timestamp?_numbers (t : Timestamp) : t.numbers.timestamp? = some t.reread := by
  have hday := t.second_lt
  have hnano := t.nano_lt
  have hclock := t.second_eq_clock
  have hhour : t.hour < 24 := by rw [hour]; omega
  have hminute : t.minute < 60 := by rw [minute]; omega
  have hsecond : t.secondOfMinute < 60 := by rw [secondOfMinute]; omega
  have hdate : Date.of? t.numbers.year t.numbers.month t.numbers.day = some t.date :=
    Date.of?_eq_some_iff.2 ⟨rfl, rfl, rfl⟩
  rw [Numbers.timestamp?, hdate, Option.bind_some, numbers, reread]
  dsimp only
  split
  case isTrue hmoved =>
    -- a leap second within the minute: its number is taken for that of the second behind it
    refine of?_eq_some 0 ?_ hhour hminute ?_ rfl ?_ ?_
    · rw [if_neg (by rw [beq_iff_eq]; omega)]
    · omega
    · dsimp only
      omega
    · dsimp only
      omega
  case isFalse hkept =>
    rcases lt_or_ge t.nano 1000000000 with hplain | hleap
    · refine of?_eq_some 0 ?_ hhour hminute (by omega) rfl (by omega) (by omega)
      rw [if_neg (by rw [beq_iff_eq]; omega)]
    · refine of?_eq_some 1 ?_ hhour hminute (by omega) rfl (by omega) (by omega)
      rw [if_pos (by rw [beq_iff_eq]; omega)]

/-- The stored form of a timestamp is read as this timestamp, if it is no leap second, or one that
ends its minute. -/
theorem ofText?_text (t : Timestamp) : ofText? t.text = some t.reread := by
  rw [ofText?, readAs?, match?_text, Option.bind_some, timestamp?_numbers]

end Rollup.Timestamp
