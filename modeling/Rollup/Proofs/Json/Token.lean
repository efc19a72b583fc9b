/-
The strings and numbers of JSON texts. A written string reads back whatever follows it, and a
number goes on to the next comma or closing bracket; only the text of a number that is no integer
has a point or an exponent in it.
-/
import Mathlib.Logic.Basic
import Mathlib.Tactic.SplitIfs
import Rollup.Json.Reader
import Rollup.Json.Writer

namespace Rollup.Json

/-! ## Strings -/

theorem hexDigit?_hexChar : ∀ n < 16, hexDigit? (hexChar n) = some n := by
  decide

/-- A control character is read back from its number. -/
theorem unicodeEscape?_control {c : Char} (hc : c.toNat < 0x20) (r : List Char) :
    unicodeEscape? ('0' :: '0' :: hexChar (c.toNat / 16) :: hexChar (c.toNat % 16) :: r) =
      some (c, r) := by
  have hzero : hexDigit? '0' = some 0 := by decide
  have hhigh := hexDigit?_hexChar (c.toNat / 16) (by omega)
  have hlow := hexDigit?_hexChar (c.toNat % 16) (by omega)
  have hsum : 16 * (c.toNat / 16) + c.toNat % 16 = c.toNat := Nat.div_add_mod _ _
  simp [unicodeEscape?, hex4?, hzero, hhigh, hlow, hsum, Nat.lt_trans hc]

theorem stringBody?_plain {c : Char} (hquote : c ≠ '"') (hslash : c ≠ '\\')
    (hc : ¬ c.toNat < 0x20) (fuel : Nat) (r : List Char) :
    stringBody? (fuel + 1) (c :: r) =
      (stringBody? fuel r).bind fun (cs, r) => some (c :: cs, r) := by
  rw [stringBody?.eq_def]
  split <;> simp_all [Nat.not_lt.2]

/-- A character is read back from its text, whatever follows. -/
theorem stringBody?_escaped (c : Char) (fuel : Nat) (r : List Char) :
    stringBody? (fuel + 1) (escaped c ++ r) =
      (stringBody? fuel r).bind fun (cs, r) => some (c :: cs, r) := by
  unfold escaped
  split
  case h_8 hquote hslash _ _ _ _ _ =>
    split
    case isTrue hc => simp [stringBody?, unicodeEscape?_control hc]
    case isFalse hc => exact stringBody?_plain hquote hslash hc fuel r
  all_goals simp [stringBody?, simpleEscape?]

theorem stringBody?_flatMap (cs r : List Char) {fuel : Nat} (hfuel : cs.length < fuel) :
    stringBody? fuel (cs.flatMap escaped ++ '"' :: r) = some (cs, r) := by
  induction cs generalizing fuel with
  | nil =>
    obtain ⟨fuel, rfl⟩ := Nat.exists_eq_add_of_lt hfuel
    simp [stringBody?]
  | cons c cs ih =>
    obtain ⟨fuel, rfl⟩ := Nat.exists_eq_add_of_lt hfuel
    have hrest : stringBody? ((c :: cs).length + fuel) (cs.flatMap escaped ++ '"' :: r) =
        some (cs, r) := ih (by simp only [List.length_cons]; omega)
    rw [List.flatMap_cons, List.append_assoc, stringBody?_escaped, hrest]
    rfl

theorem length_le_flatMap_escaped (cs : List Char) : cs.length ≤ (cs.flatMap escaped).length := by
  induction cs with
  | nil => simp
  | cons c cs ih =>
    have hc : 1 ≤ (escaped c).length := by
      unfold escaped
      split <;> (try split) <;> simp
    simp only [List.flatMap_cons, List.length_append, List.length_cons]
    omega

/-- A written string is read back, whatever follows its closing quote. -/
theorem string?_flatMap (s : String) (r : List Char) :
    string? (s.toList.flatMap escaped ++ '"' :: r) = some (s, r) := by
  have hlength := length_le_flatMap_escaped s.toList
  rw [string?, stringBody?_flatMap _ _ (by simp only [List.length_append]; omega)]
  simp

theorem toList_stringText (s : String) :
    (stringText s).toList = '"' :: s.toList.flatMap escaped ++ ['"'] :=
  String.toList_ofList

theorem stringText_append_inj {s t : String} {r r' : List Char}
    (h : (stringText s).toList ++ r = (stringText t).toList ++ r') : s = t ∧ r = r' := by
  simp only [toList_stringText, List.cons_append, List.append_assoc, List.nil_append,
    List.cons.injEq, true_and] at h
  have hread := congrArg string? h
  simpa only [string?_flatMap, Option.some.injEq, Prod.mk.injEq] using hread

/-! ## Numbers -/

/-- The characters numbers are written with. -/
def isNumberChar (c : Char) : Bool :=
  c.isDigit || c == '-' || c == '+' || c == '.' || c == 'e'

/-- What may follow a value: nothing, or the next item or the end of the container it is in. -/
def Ends (r : List Char) : Prop :=
  ∀ c ∈ r.head?, c = ',' ∨ c = ']' ∨ c = '}'

theorem takeWhile_isNumberChar {cs r : List Char} (hcs : ∀ c ∈ cs, isNumberChar c = true)
    (hr : Ends r) : (cs ++ r).takeWhile isNumberChar = cs := by
  rw [List.takeWhile_append_of_pos hcs]
  cases r with
  | nil => simp
  | cons c r =>
    obtain rfl | rfl | rfl := hr c rfl <;> simp [isNumberChar]

/-- Texts of numbers are told from each other where they end. -/
theorem number_append_inj {cs ds r r' : List Char} (hcs : ∀ c ∈ cs, isNumberChar c = true)
    (hds : ∀ c ∈ ds, isNumberChar c = true) (hr : Ends r) (hr' : Ends r')
    (h : cs ++ r = ds ++ r') : cs = ds ∧ r = r' := by
  have heq : cs = ds := by
    rw [← takeWhile_isNumberChar hcs hr, h, takeWhile_isNumberChar hds hr']
  subst heq
  exact ⟨rfl, List.append_cancel_left h⟩

theorem isNumberChar_of_isDigit {c : Char} (h : c.isDigit = true) : isNumberChar c = true := by
  simp [isNumberChar, h]

theorem isDigit_or_minus_of_mem_int {n : Int} {c : Char} (h : c ∈ (toString n).toList) :
    c.isDigit = true ∨ c = '-' := by
  have hdigit : ∀ m : Nat, c ∈ m.repr.toList → c.isDigit = true := fun m hm =>
    Nat.isDigit_of_mem_toDigits (by decide) (by decide) (Nat.toList_repr ▸ hm)
  rw [Int.toString_eq_repr, Int.repr_eq_if] at h
  split at h
  · exact .inl (hdigit _ h)
  · rw [String.toList_append, List.mem_append] at h
    exact h.symm.imp (hdigit _) (by simp)

theorem isNumberChar_of_mem_int {n : Int} {c : Char} (h : c ∈ (toString n).toList) :
    isNumberChar c = true := by
  obtain h | rfl := isDigit_or_minus_of_mem_int h
  · exact isNumberChar_of_isDigit h
  · decide

end Rollup.Json

namespace Rollup.Double

open Json

theorem mem_positionalText {wholePoint : Bool} {ds : List Char} {whole : Int} {c : Char}
    (h : c ∈ positionalText wholePoint ds whole) : c ∈ ds ∨ c = '0' ∨ c = '.' := by
  simp only [positionalText] at h
  grind [List.mem_of_mem_take, List.mem_of_mem_drop]

theorem point_mem_positionalText (ds : List Char) (whole : Int) :
    '.' ∈ positionalText true ds whole := by
  simp only [positionalText]
  split_ifs <;> simp

theorem mem_exponentText {plusSign : Bool} {ds : List Char} {e : Int} {c : Char}
    (h : c ∈ exponentText plusSign ds e) :
    c ∈ ds ∨ c = '.' ∨ c = 'e' ∨ c = '+' ∨ c ∈ (toString e).toList := by
  match ds with
  | [] | [_] | _ :: _ :: _ => simp only [exponentText] at h; grind

theorem mark_mem_exponentText (plusSign : Bool) (ds : List Char) (e : Int) :
    'e' ∈ exponentText plusSign ds e := by
  simp [exponentText]

/-- The text of an absolute value: digits with a point in them, or digits and an exponent. -/
theorem magnitude_cases (f : Format) (x : Double) :
    ∃ ds : List Char, (∀ c ∈ ds, c.isDigit = true) ∧
      ((∃ whole, f.magnitude x = positionalText f.wholePoint ds whole) ∨
        ∃ e, f.magnitude x = exponentText f.plusSign ds e) := by
  refine ⟨Nat.toDigits 10 (x.shortest f.tie).1, ?_, ?_⟩
  · exact fun c => Nat.isDigit_of_mem_toDigits (by decide) (by decide)
  · exact (ite_eq_or_eq _ _ _).imp (⟨_, ·⟩) (⟨_, ·⟩)

theorem json_magnitude (x : Double) :
    (∀ c ∈ Format.json.magnitude x, isNumberChar c = true) ∧
      ∃ c ∈ Format.json.magnitude x, c = '.' ∨ c = 'e' := by
  obtain ⟨ds, hdigits, ⟨whole, h⟩ | ⟨e, h⟩⟩ := magnitude_cases Format.json x <;> rw [h]
  · refine ⟨fun c hc => ?_, _, point_mem_positionalText ds whole, .inl rfl⟩
    obtain hc | rfl | rfl := mem_positionalText hc
    · exact isNumberChar_of_isDigit (hdigits c hc)
    all_goals decide
  · refine ⟨fun c hc => ?_, _, mark_mem_exponentText _ ds e, .inr rfl⟩
    obtain hc | rfl | rfl | rfl | hc := mem_exponentText hc
    · exact isNumberChar_of_isDigit (hdigits c hc)
    · decide
    · decide
    · decide
    · exact isNumberChar_of_mem_int hc

end Rollup.Double

namespace Rollup.Json

open Double

theorem toList_realText {x : Double} (hx : x.isFinite = true) :
    (realText x).toList = Format.json.magnitude x ∨
      (realText x).toList = '-' :: Format.json.magnitude x := by
  have hnan : x.isNaN = false := by
    simp only [isFinite, bne_iff_ne] at hx
    simp [isNaN, hx]
  cases hsign : x.isNegative <;> simp [realText, Format.write, hx, hnan, hsign]

theorem isNumberChar_of_mem_realText {x : Double} (hx : x.isFinite = true) :
    ∀ c ∈ (realText x).toList, isNumberChar c = true := by
  have hminus : isNumberChar '-' = true := by decide
  obtain h | h := toList_realText hx <;> rw [h]
  · exact (json_magnitude x).1
  · exact List.forall_mem_cons.2 ⟨hminus, (json_magnitude x).1⟩

/-- The text of a number that is no integer shows it. -/
theorem mark_mem_realText {x : Double} (hx : x.isFinite = true) :
    ∃ c ∈ (realText x).toList, c = '.' ∨ c = 'e' := by
  obtain ⟨c, hmem, hc⟩ := (json_magnitude x).2
  refine ⟨c, ?_, hc⟩
  obtain h | h := toList_realText hx <;> rw [h]
  · exact hmem
  · exact List.mem_cons_of_mem _ hmem

theorem toString_ne_realText (n : Int) {x : Double} (hx : x.isFinite = true) :
    (toString n).toList ≠ (realText x).toList := by
  intro h
  obtain ⟨c, hmem, hc⟩ := mark_mem_realText hx
  have hint := isDigit_or_minus_of_mem_int (h ▸ hmem)
  obtain rfl | rfl := hc <;> revert hint <;> decide

theorem toList_toString_ne_nil (n : Int) : (toString n).toList ≠ [] := by
  rw [Int.toString_eq_repr, Int.repr_eq_if]
  split <;> simp [Nat.toList_repr, Nat.toDigits_ne_nil]

end Rollup.Json
