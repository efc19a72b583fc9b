/-
Numbers read back from their texts. An integer reads as itself when it fits a word. The text of any
other number has its shortest digits; they fit a word too, so all of them are read, and the number
they give is rounded twice: the digits once, and once more when they are scaled. It need not be the
number that was written.
-/
import Mathlib.Data.List.Basic
import Rollup.Proofs.Json.Token
import Rollup.Proofs.Number.Shortest

namespace Rollup

/-! ## What a number is read as -/

namespace Double

/-- The decimal that the JSON text of a number is: its digits, and a power of ten. A whole number
without an exponent has a zero behind the point. -/
def jsonDecimal (x : Double) : Nat × Int :=
  let (c, p) := x.shortest .even
  if 0 ≤ p ∧ digitCount c + p ≤ 16 then (10 * (10 ^ p.toNat * c), -1) else (c, p)

/-- The number that the JSON text of a finite number is read as. -/
def reread (x : Double) : Double :=
  withSign x.isNegative (Json.scaled x.jsonDecimal.1 x.jsonDecimal.2)

end Double

namespace Json

open Double

/-- What the text of an integer is read as. -/
def rereadInt (n : Int) : Datum :=
  if -2 ^ 63 ≤ n ∧ n < 2 ^ 64 then .int n
  else .real (withSign (n < 0) (realOf (Nat.toDigits 10 n.natAbs) [] 0))

theorem rereadInt_of_mem {n : Int} (hlow : -2 ^ 63 ≤ n) (hhigh : n < 2 ^ 64) :
    rereadInt n = .int n :=
  if_pos ⟨hlow, hhigh⟩

/-! ## Digits -/

variable {ds rest : List Char}

theorem le_ofDigitChars (ds : List Char) (n : Nat) : n ≤ Nat.ofDigitChars 10 ds n := by
  rw [Nat.ofDigitChars_eq_ofDigitChars_zero]
  have := Nat.le_mul_of_pos_left n (Nat.pow_pos (show 0 < 10 by decide) (n := ds.length))
  omega

/-- Digits that fit a word are all read. -/
theorem leadingWord_of_lt {n : Nat} (h : Nat.ofDigitChars 10 ds n < UInt64.size) :
    leadingWord n ds = (Nat.ofDigitChars 10 ds n, 0) := by
  induction ds generalizing n with
  | nil => simp [leadingWord]
  | cons c ds ih =>
    rw [Nat.ofDigitChars_cons] at h ⊢
    rw [leadingWord]
    exact (if_pos ((le_ofDigitChars ds _).trans_lt h)).trans (ih h)

theorem realOf_of_lt {whole fraction : List Char} (e : Int)
    (h : digitsValue (whole ++ fraction) < UInt64.size) :
    realOf whole fraction e = scaled (digitsValue (whole ++ fraction)) (e - fraction.length) := by
  have happend : digitsValue (whole ++ fraction) =
      Nat.ofDigitChars 10 fraction (Nat.ofDigitChars 10 whole 0) := Nat.ofDigitChars_append 0
  rw [happend] at h ⊢
  rw [realOf, leadingWord_of_lt ((le_ofDigitChars fraction _).trans_lt h)]
  dsimp only
  rw [leadingWord_of_lt h]
  dsimp only
  congr 1
  omega

theorem digitsValue_zeros (k : Nat) (ds : List Char) :
    digitsValue (List.replicate k '0' ++ ds) = digitsValue ds := by
  change Nat.ofDigitChars 10 _ 0 = _
  rw [Nat.ofDigitChars_append, Nat.ofDigitChars_replicate_zero, Nat.mul_zero]
  rfl

theorem digitsValue_toDigits_zeros (n k : Nat) :
    digitsValue (Nat.toDigits 10 n ++ List.replicate k '0') = 10 ^ k * n := by
  change Nat.ofDigitChars 10 _ 0 = _
  rw [Nat.ofDigitChars_append, Nat.ofDigitChars_ten_toDigits, Nat.ofDigitChars_replicate_zero]

/-- Digits are read up to what is none. -/
theorem someDigits?_append (hne : ds ≠ []) (hds : ∀ c ∈ ds, c.isDigit = true)
    (hrest : ∀ c ∈ rest.head?, c.isDigit = false) :
    someDigits? (ds ++ rest) = some (ds, rest) := by
  have htake : rest.takeWhile Char.isDigit = [] := by
    cases rest with
    | nil => rfl
    | cons c rest => simp [hrest c rfl]
  have hdrop : rest.dropWhile Char.isDigit = rest := by
    cases rest with
    | nil => rfl
    | cons c rest => simp [hrest c rfl]
  rw [someDigits?, List.takeWhile_append_of_pos hds, List.dropWhile_append_of_pos hds, htake, hdrop,
    List.append_nil]
  simp [hne]

theorem isDigit_of_mem_toDigits (n : Nat) : ∀ c ∈ Nat.toDigits 10 n, c.isDigit = true :=
  fun _ => Nat.isDigit_of_mem_toDigits (by decide) (by decide)

/-! ## The parts of a number -/

theorem isDigit_of_ends (hrest : Ends rest) : ∀ c ∈ rest.head?, c.isDigit = false := by
  intro c hc
  obtain rfl | rfl | rfl := hrest c hc <;> rfl

theorem fraction?_of_ends (hrest : Ends rest) : fraction? rest = some (none, rest) := by
  cases rest with
  | nil => rfl
  | cons c rest => obtain rfl | rfl | rfl := hrest c rfl <;> rfl

theorem exponent?_of_ends (hrest : Ends rest) : exponent? rest = some (none, rest) := by
  cases rest with
  | nil => rfl
  | cons c rest => obtain rfl | rfl | rfl := hrest c rfl <;> rfl

theorem fraction?_point (hne : ds ≠ []) (hds : ∀ c ∈ ds, c.isDigit = true)
    (hrest : ∀ c ∈ rest.head?, c.isDigit = false) :
    fraction? ('.' :: (ds ++ rest)) = some (some ds, rest) := by
  rw [fraction?, someDigits?_append hne hds hrest]
  rfl

/-- An exponent is read with its sign. -/
theorem exponent?_mark (e : Int) (hrest : ∀ c ∈ rest.head?, c.isDigit = false) :
    exponent? ('e' :: ((if 0 ≤ e then ['+'] else []) ++ (toString e).toList ++ rest)) =
      some (some e, rest) := by
  have hdigits (n : Nat) : someDigits? (Nat.toDigits 10 n ++ rest) =
      some (Nat.toDigits 10 n, rest) :=
    someDigits?_append Nat.toDigits_ne_nil (isDigit_of_mem_toDigits n) hrest
  have hvalue (n : Nat) : digitsValue (Nat.toDigits 10 n) = n := Nat.ofDigitChars_ten_toDigits
  rw [Int.toString_eq_repr, Int.repr_eq_if]
  split
  case isTrue hpos =>
    simp [exponent?, takeSign, Nat.toList_repr, hdigits, hvalue, Int.toNat_of_nonneg hpos]
  case isFalse hneg =>
    have hback : max (-e) 0 = -e := by omega
    simp [exponent?, takeSign, Nat.toList_repr, hdigits, hvalue, hback]

/-- A number is read from its parts. -/
theorem number?_of_parts (negative : Bool) {whole r₁ r₂ r₃ : List Char}
    {fraction : Option (List Char)} {e : Option Int} (hne : whole ≠ [])
    (hwhole : ∀ c ∈ whole, c.isDigit = true) (hzero : 1 < whole.length → whole.head? ≠ some '0')
    (hr : ∀ c ∈ r₁.head?, c.isDigit = false) (hfraction : fraction? r₁ = some (fraction, r₂))
    (hexponent : exponent? r₂ = some (e, r₃)) :
    number? negative (whole ++ r₁) =
      some (if fraction.isNone && e.isNone &&
          (if negative then digitsValue whole != 0 && digitsValue whole ≤ Nat.pow 2 63
            else digitsValue whole < UInt64.size) then
          .int (if negative then -digitsValue whole else digitsValue whole)
        else .real (withSign negative (realOf whole (fraction.getD []) (e.getD 0))), r₃) := by
  have hlead : ¬(decide (1 < whole.length) && whole.head? == some '0') = true := by
    simpa using hzero
  rw [number?, someDigits?_append hne hwhole hr]
  simp only [Option.bind_eq_bind, Option.bind_some, gt_iff_lt, hlead, Bool.false_eq_true, if_false,
    hfraction, hexponent]

/-- Where digits do not begin with a zero, the text of an integer is read as far as it goes. -/
theorem number?_toDigits (negative : Bool) (n : Nat) (hrest : Ends rest) :
    number? negative (Nat.toDigits 10 n ++ rest) =
      some (if if negative then n != 0 && n ≤ Nat.pow 2 63 else n < UInt64.size then
          .int (if negative then -n else n)
        else .real (withSign negative (realOf (Nat.toDigits 10 n) [] 0)), rest) := by
  have hvalue : digitsValue (Nat.toDigits 10 n) = n := Nat.ofDigitChars_ten_toDigits
  have hzero : 1 < (Nat.toDigits 10 n).length → (Nat.toDigits 10 n).head? ≠ some '0' := by
    intro hlong
    refine head?_toDigits ?_
    rintro rfl
    exact absurd hlong (by decide)
  have hread := number?_of_parts negative Nat.toDigits_ne_nil (isDigit_of_mem_toDigits n) hzero
    (isDigit_of_ends hrest) (fraction?_of_ends hrest) (exponent?_of_ends hrest)
  simpa only [hvalue, Option.isNone_none, Bool.true_and, Option.getD_none] using hread

/-! ## Texts of numbers -/

section Magnitude

variable (negative : Bool)

/-- With a point in them, digits that fit a word are a number whose power of ten counts those behind
the point. -/
theorem number?_point (whole fraction : List Char) (hwhole : whole ≠ []) (hfraction : fraction ≠ [])
    (hall : ∀ c ∈ whole ++ fraction, c.isDigit = true)
    (hzero : 1 < whole.length → whole.head? ≠ some '0')
    (hfits : digitsValue (whole ++ fraction) < UInt64.size) (hrest : Ends rest) :
    number? negative (whole ++ '.' :: (fraction ++ rest)) =
      some (.real (withSign negative
        (scaled (digitsValue (whole ++ fraction)) (-(fraction.length : Int)))), rest) := by
  obtain ⟨hdigits, hdigits'⟩ := List.forall_mem_append.1 hall
  have hpoint : ∀ c ∈ ('.' :: (fraction ++ rest)).head?, c.isDigit = false := by
    rintro c ⟨⟩
    rfl
  rw [number?_of_parts negative hwhole hdigits hzero hpoint
    (fraction?_point hfraction hdigits' (isDigit_of_ends hrest)) (exponent?_of_ends hrest)]
  simp [realOf_of_lt _ hfits]

variable {c : Nat}

theorem digitsValue_toDigits (n : Nat) : digitsValue (Nat.toDigits 10 n) = n :=
  Nat.ofDigitChars_ten_toDigits

theorem isDigit_of_mem_zeros {k : Nat} : ∀ d ∈ List.replicate k '0', d.isDigit = true := by
  intro d hd
  rw [List.eq_of_mem_replicate hd]
  rfl

/-- The point stands among the digits. -/
theorem number?_point_inside (hword : c < UInt64.size) {k : Nat} (hk : 0 < k)
    (hk' : k < digitCount c) (hrest : Ends rest) :
    number? negative ((Nat.toDigits 10 c).take k ++ '.' :: ((Nat.toDigits 10 c).drop k ++ rest)) =
      some (.real (withSign negative (scaled c (k - digitCount c))), rest) := by
  have hlength : (Nat.toDigits 10 c).length = digitCount c := rfl
  have hsplit := List.take_append_drop k (Nat.toDigits 10 c)
  have hc : c ≠ 0 := by
    rintro rfl
    have hone : digitCount 0 = 1 := rfl
    omega
  have hread := number?_point negative ((Nat.toDigits 10 c).take k) ((Nat.toDigits 10 c).drop k)
    (by simp [Nat.toDigits_ne_nil]; omega) (by simp; omega)
    (by rw [hsplit]; exact isDigit_of_mem_toDigits c)
    (fun _ => by rw [List.head?_take, if_neg (by omega)]; exact head?_toDigits hc)
    (by rwa [hsplit, digitsValue_toDigits]) hrest
  have hplace : (-((Nat.toDigits 10 c).drop k).length : Int) = k - digitCount c := by
    rw [List.length_drop, hlength]
    omega
  rwa [hsplit, digitsValue_toDigits, hplace] at hread

/-- Zeros stand between the point and the digits. -/
theorem number?_point_before (hword : c < UInt64.size) (k : Nat) (hrest : Ends rest) :
    number? negative ('0' :: '.' :: (List.replicate k '0' ++ Nat.toDigits 10 c ++ rest)) =
      some (.real (withSign negative (scaled c (-(k + digitCount c : Nat)))), rest) := by
  have hvalue : digitsValue (['0'] ++ (List.replicate k '0' ++ Nat.toDigits 10 c)) = c := by
    rw [← List.append_assoc, ← List.replicate_one, ← List.replicate_add, digitsValue_zeros,
      digitsValue_toDigits]
  have hread := number?_point negative ['0'] (List.replicate k '0' ++ Nat.toDigits 10 c) (by simp)
    (by simp [Nat.toDigits_ne_nil])
    (List.forall_mem_append.2 ⟨by simp, List.forall_mem_append.2
      ⟨isDigit_of_mem_zeros, isDigit_of_mem_toDigits c⟩⟩)
    (by simp) (by rwa [hvalue]) hrest
  rw [hvalue, List.length_append, List.length_replicate] at hread
  exact hread

/-- The point stands behind the digits and zeros, and has one more zero behind it. -/
theorem number?_point_behind {k : Nat} (hzero : c = 0 → k = 0)
    (hword : 10 * (10 ^ k * c) < UInt64.size) (hrest : Ends rest) :
    number? negative (Nat.toDigits 10 c ++ List.replicate k '0' ++ '.' :: '0' :: rest) =
      some (.real (withSign negative (scaled (10 * (10 ^ k * c)) (-1))), rest) := by
  have hvalue : digitsValue (Nat.toDigits 10 c ++ List.replicate k '0' ++ ['0']) =
      10 * (10 ^ k * c) := by
    rw [List.append_assoc, ← List.replicate_succ', digitsValue_toDigits_zeros, Nat.pow_succ']
    ring
  have hread := number?_point negative (Nat.toDigits 10 c ++ List.replicate k '0') ['0']
    (by simp [Nat.toDigits_ne_nil]) (by simp)
    (List.forall_mem_append.2 ⟨List.forall_mem_append.2
      ⟨isDigit_of_mem_toDigits c, isDigit_of_mem_zeros⟩, by simp⟩)
    (fun hlong => by
      rw [List.head?_append_of_ne_nil _ Nat.toDigits_ne_nil]
      refine head?_toDigits ?_
      rintro rfl
      obtain rfl := hzero rfl
      exact absurd hlong (by decide))
    (by rwa [hvalue]) hrest
  rwa [hvalue] at hread

variable {p : Int}

/-- Positional digits are read with the zeros that stand between them and the point. -/
theorem number?_positionalText (hsize : c ≤ 10 ^ 17) (hzero : c = 0 → p = 0)
    (hlead : 0 ≤ p → digitCount c + p ≤ 16) (hrest : Ends rest) :
    number? negative (positionalText true (Nat.toDigits 10 c) (digitCount c + p) ++ rest) =
      some (.real (withSign negative
        (if 0 ≤ p then scaled (10 * (10 ^ p.toNat * c)) (-1) else scaled c p)), rest) := by
  have hword : c < UInt64.size := hsize.trans_lt (by decide)
  have hlength : (Nat.toDigits 10 c).length = digitCount c := rfl
  rw [positionalText, hlength]
  rcases lt_or_ge p 0 with hp | hp
  · rw [if_neg (by omega), if_neg (not_le.2 hp)]
    split
    case isTrue hinside =>
      have hread := number?_point_inside negative hword (k := (digitCount c + p).toNat) (by omega)
        (by omega) hrest
      rw [Int.toNat_of_nonneg hinside.le, add_sub_cancel_left] at hread
      rw [← hread, List.append_assoc, List.cons_append]
    case isFalse houtside =>
      have hplace : (-((-(digitCount c + p)).toNat + digitCount c : Nat) : Int) = p := by omega
      have hread := number?_point_before negative hword (-(digitCount c + p)).toNat hrest
      rw [hplace] at hread
      rw [← hread]
      simp only [List.cons_append, List.append_assoc]
  · have hfits : 10 * (10 ^ p.toNat * c) < UInt64.size := by
      have hpow : 10 ^ (digitCount c + p.toNat) ≤ 10 ^ 16 :=
        Nat.pow_le_pow_right (by decide) (by omega)
      have hlt : 10 ^ p.toNat * c < 10 ^ (digitCount c + p.toNat) := by
        rw [Nat.pow_add, Nat.mul_comm]
        exact Nat.mul_lt_mul_of_pos_right (lt_ten_pow_digitCount c) (Nat.pow_pos (by decide))
      have hsize : 10 * 10 ^ 16 < UInt64.size := by decide
      omega
    have hplace : (digitCount c + p - digitCount c).toNat = p.toNat := by omega
    rw [if_pos (by omega), if_pos hp, hplace,
      ← number?_point_behind negative (by omega) hfits hrest, List.append_assoc]
    rfl

/-- With an exponent, the point behind the first digit moves the power of ten. -/
theorem number?_exponentText (hword : c < UInt64.size) (hrest : Ends rest) :
    number? negative (exponentText true (Nat.toDigits 10 c) (digitCount c + p - 1) ++ rest) =
      some (.real (withSign negative (scaled c p)), rest) := by
  have hvalue := digitsValue_toDigits c
  have hdigits := isDigit_of_mem_toDigits c
  have hlength : (Nat.toDigits 10 c).length = digitCount c := rfl
  generalize hlead : (digitCount c : Int) + p - 1 = e
  have hexponent := exponent?_mark e (isDigit_of_ends hrest)
  -- the exponent with what follows it
  generalize hmark : 'e' :: ((if 0 ≤ e then ['+'] else []) ++ (toString e).toList ++ rest) = r
    at hexponent
  have hfraction : fraction? r = some (none, r) := by rw [← hmark]; rfl
  have hend : ∀ d ∈ r.head?, d.isDigit = false := by
    rw [← hmark]
    rintro d ⟨⟩
    rfl
  cases hdigit : Nat.toDigits 10 c with
  | nil => exact absurd hdigit Nat.toDigits_ne_nil
  | cons d ds =>
    rw [hdigit] at hvalue hdigits hlength
    obtain ⟨hd, hds⟩ := List.forall_mem_cons.1 hdigits
    cases ds with
    | nil =>
      have htext : exponentText true [d] e ++ rest = [d] ++ r := by
        rw [← hmark]
        simp [exponentText]
      have hplace : e - ([] : List Char).length = p := by
        rw [List.length_singleton] at hlength
        simp only [List.length_nil]
        omega
      have hreal : realOf [d] [] e = scaled c p := by
        rw [realOf_of_lt e (by rwa [List.append_nil, hvalue]), List.append_nil, hvalue, hplace]
      rw [htext, number?_of_parts negative (by simp) hdigits (by simp) hend hfraction hexponent]
      simp [hreal]
    | cons d' ds =>
      have htext : exponentText true (d :: d' :: ds) e ++ rest = [d] ++ '.' :: (d' :: ds ++ r) := by
        rw [← hmark]
        simp [exponentText]
      have hplace : e - (d' :: ds).length = p := by
        rw [List.length_cons] at hlength
        omega
      have hreal : realOf [d] (d' :: ds) e = scaled c p := by
        rw [realOf_of_lt e (by rwa [List.singleton_append, hvalue]), List.singleton_append, hvalue,
          hplace]
      rw [htext, number?_of_parts negative (by simp) (by simpa using hd) (by simp)
        (by rintro d ⟨⟩; rfl) (fraction?_point (by simp) hds hend) hexponent]
      simp [hreal]

end Magnitude

/-- The text of an absolute value is read as the number its decimal gives. -/
theorem number?_magnitude (negative : Bool) (x : Double) (hrest : Ends rest) :
    number? negative (Format.json.magnitude x ++ rest) =
      some (.real (withSign negative (scaled x.jsonDecimal.1 x.jsonDecimal.2)), rest) := by
  obtain ⟨hsize, hzero⟩ := shortest_bounds .even x
  have hmagnitude : Format.json.magnitude x =
      if (x.shortest .even).1 == 0 ||
          decide (-5 ≤ (digitCount (x.shortest .even).1 + (x.shortest .even).2 - 1 : Int)) &&
            decide ((digitCount (x.shortest .even).1 + (x.shortest .even).2 - 1 : Int) < 16) then
        positionalText true (Nat.toDigits 10 (x.shortest .even).1)
          (digitCount (x.shortest .even).1 + (x.shortest .even).2 - 1 + 1)
      else exponentText true (Nat.toDigits 10 (x.shortest .even).1)
        (digitCount (x.shortest .even).1 + (x.shortest .even).2 - 1) := rfl
  rw [hmagnitude, jsonDecimal]
  dsimp only
  generalize (x.shortest .even).1 = c at hsize hzero ⊢
  generalize (x.shortest .even).2 = p at hzero ⊢
  have hcount : 0 < digitCount c := Nat.length_toDigits_pos
  simp only [sub_add_cancel, Bool.or_eq_true, beq_iff_eq, Bool.and_eq_true, decide_eq_true_iff]
  split
  case isTrue hpositional =>
    have hlead : 0 ≤ p → digitCount c + p ≤ 16 := by
      intro hp
      rcases hpositional with rfl | hpositional
      · rw [hzero rfl]
        decide
      · omega
    rw [number?_positionalText negative hsize hzero hlead hrest]
    by_cases hp : 0 ≤ p
    · rw [if_pos hp, if_pos ⟨hp, hlead hp⟩]
    · rw [if_neg hp, if_neg (fun h => hp h.1)]
  case isFalse hexponent =>
    have hbeyond : ¬(0 ≤ p ∧ digitCount c + p ≤ 16) := by omega
    rw [number?_exponentText negative (hsize.trans_lt (by decide)) hrest, if_neg hbeyond]

/-! ## Values that are numbers -/

/-- What is read as a number begins with a digit, so it is taken for nothing else. -/
theorem value?_of_number? {cs : List Char} {a : Datum × List Char} (fuel depth : Nat)
    (h : number? false cs = some a) : value? (fuel + 1) depth cs = some a := by
  cases cs with
  | nil => cases h
  | cons c cs =>
    have hdigit : c.isDigit = true := by
      by_contra hc
      simp [number?, someDigits?, hc] at h
    have hne (d : Char) (hd : d.isDigit = false) : c ≠ d := by
      rintro rfl
      exact absurd hdigit (by rw [hd]; decide)
    have hspace : skipSpace (c :: cs) = c :: cs := by
      have hc : isSpace c = false := by
        simp [isSpace, hne ' ' rfl, hne '\t' rfl, hne '\n' rfl, hne '\r' rfl]
      rw [skipSpace, List.dropWhile_cons, hc, if_neg Bool.false_ne_true]
    rw [value?.eq_def]
    dsimp only
    rw [hspace]
    split
    case h_8 => exact h
    all_goals
      rename_i heq
      exact absurd (List.cons.inj heq).1 (hne _ rfl)

theorem value?_of_number?_minus {cs : List Char} {a : Datum × List Char} (fuel depth : Nat)
    (h : number? true cs = some a) : value? (fuel + 1) depth ('-' :: cs) = some a :=
  h

theorem value?_int (n : Int) (fuel depth : Nat) (hrest : Ends rest) :
    value? (fuel + 1) depth ((toString n).toList ++ rest) = some (rereadInt n, rest) := by
  have hread (negative : Bool) := number?_toDigits negative n.natAbs hrest
  rw [Int.toString_eq_repr, Int.repr_eq_if]
  split
  case isTrue hpos =>
    have habs : n.toNat = n.natAbs := by omega
    have hback : (n.natAbs : Int) = n := by omega
    have hfits : n.natAbs < UInt64.size ↔ -2 ^ 63 ≤ n ∧ n < 2 ^ 64 := by
      rw [UInt64.size]
      omega
    rw [Nat.toList_repr, habs]
    refine value?_of_number? fuel depth ((hread false).trans ?_)
    simp [rereadInt, hback, hfits, decide_eq_false (not_lt.2 hpos)]
  case isFalse hneg =>
    have htext : ("-" ++ (-n).toNat.repr).toList ++ rest =
        '-' :: (Nat.toDigits 10 n.natAbs ++ rest) := by
      have habs : (-n).toNat = n.natAbs := by omega
      rw [habs]
      simp [Nat.toList_repr]
    rw [htext]
    have hback : -(n.natAbs : Int) = n := by omega
    have hfits : n ≠ 0 ∧ n.natAbs ≤ Nat.pow 2 63 ↔ -2 ^ 63 ≤ n ∧ n < 2 ^ 64 := by
      rw [Nat.pow_eq]
      omega
    refine value?_of_number?_minus fuel depth ((hread true).trans ?_)
    simp only [rereadInt, hback, if_true, Bool.and_eq_true, bne_iff_ne, decide_eq_true_iff,
      Int.natAbs_ne_zero, hfits, decide_eq_true (not_le.1 hneg)]

theorem toList_realText_eq {x : Double} (hx : x.isFinite = true) :
    (realText x).toList =
      if x.isNegative then '-' :: Format.json.magnitude x else Format.json.magnitude x := by
  have hnan : x.isNaN = false := by
    rw [isFinite, bne_iff_ne] at hx
    rw [isNaN, beq_false_of_ne hx, Bool.false_and]
  rw [realText, if_pos hx, Format.write, hnan, if_neg Bool.false_ne_true, if_pos hx,
    String.toList_ofList]

theorem value?_real {x : Double} (hx : x.isFinite = true) (fuel depth : Nat) (hrest : Ends rest) :
    value? (fuel + 1) depth ((realText x).toList ++ rest) = some (.real x.reread, rest) := by
  have hread (negative : Bool) := number?_magnitude negative x hrest
  rw [toList_realText_eq hx, reread]
  split
  case isTrue hnegative =>
    rw [hnegative]
    exact value?_of_number?_minus fuel depth (hread true)
  case isFalse hpositive =>
    rw [Bool.eq_false_of_not_eq_true hpositive]
    exact value?_of_number? fuel depth (hread false)

end Json

end Rollup
