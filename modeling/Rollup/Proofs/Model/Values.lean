/-
The characters of accepted values. Whatever the type of its argument, an accepted value that is not
listed has only letters, digits and characters that end neither a literal nor an expression.
-/
import Mathlib.Logic.Basic
import Rollup.Model.Parameter

namespace Rollup

/-- The characters of values that are not listed; numbers may have a plus sign. -/
def isPlainChar (c : Char) : Bool :=
  isSafeChar c || c == '+'

theorem isPlainChar_of_isSafeChar {c : Char} (h : isSafeChar c = true) : isPlainChar c = true := by
  rw [isPlainChar, h, Bool.true_or]

theorem isPlainChar_of_isDigit {c : Char} (h : c.isDigit = true) : isPlainChar c = true := by
  have hascii : c.toNat < 0x80 := by
    rw [Char.isDigit, Bool.and_eq_true, decide_eq_true_eq, decide_eq_true_eq] at h
    exact Nat.lt_of_le_of_lt (UInt32.le_iff_toNat_le.1 h.2) (by decide)
  apply isPlainChar_of_isSafeChar
  rw [isSafeChar, Text.isAlphanumeric, if_pos hascii, Char.isAlphanum, h]
  simp

/-! ## Numbers -/

theorem plain_of_readNat? {cs : List Char} {n : Nat} (h : readNat? cs = some n) :
    ∀ c ∈ cs, isPlainChar c = true := by
  unfold readNat? at h
  split at h
  · rename_i hdigits
    rw [Bool.and_eq_true, List.all_eq_true] at hdigits
    exact fun c hc => isPlainChar_of_isDigit (hdigits.2 c hc)
  · cases h

/-- A sign is plain, so a text is plain when what follows its sign is. -/
theorem plain_of_takeSign {cs : List Char} (h : ∀ c ∈ (takeSign cs).2, isPlainChar c = true) :
    ∀ c ∈ cs, isPlainChar c = true := by
  unfold takeSign at h
  split at h
  · exact List.forall_mem_cons.2 ⟨by decide, h⟩
  · exact List.forall_mem_cons.2 ⟨by decide, h⟩
  · exact h

theorem plain_of_readInt? {cs : List Char} {n : Int} (h : readInt? cs = some n) :
    ∀ c ∈ cs, isPlainChar c = true := by
  obtain ⟨k, hk, -⟩ := Option.map_eq_some_iff.1 h
  obtain ⟨l, hl, -⟩ := Option.bind_eq_some_iff.1 hk
  exact plain_of_takeSign (plain_of_readNat? hl)

theorem plain_of_readExponent? {cs : List Char} {e : Int} (h : readExponent? cs = some e) :
    ∀ c ∈ cs, isPlainChar c = true := by
  cases cs with
  | nil => exact fun _ hc => by cases hc
  | cons c cs =>
    rw [readExponent?] at h
    split at h
    · rename_i hmark
      rw [Bool.or_eq_true, beq_iff_eq, beq_iff_eq] at hmark
      refine List.forall_mem_cons.2 ⟨?_, plain_of_readInt? h⟩
      rcases hmark with rfl | rfl <;> decide
    · cases h

/-- A finite number without sign is written with some digits, perhaps a point among them, and
perhaps an exponent behind them. The words for infinity and not-a-number are no finite numbers. -/
theorem parts_of_readMagnitude? {negative : Bool} {cs : List Char} {x : Double}
    (h : readMagnitude? negative cs = some x) (hx : x.isFinite = true) :
    ∃ digits tail e, cs = digits ++ tail ∧ digits ≠ [] ∧
      (∀ c ∈ digits, c.isDigit = true ∨ c = '.') ∧ readExponent? tail = some e := by
  have hinfinite : ∀ negative, (Double.withSign negative .infinity).isFinite = false ∧
      (Double.withSign negative .nan).isFinite = false := by
    decide
  have hdigits : ∀ ds : List Char, ∀ c ∈ ds.takeWhile Char.isDigit, c.isDigit = true ∨ c = '.' :=
    fun ds c hc => .inl (List.all_eq_true.1 List.all_takeWhile c hc)
  have hcut := fun ds : List Char =>
    List.takeWhile_append_dropWhile (p := Char.isDigit) (l := ds)
  unfold readMagnitude? at h
  split at h
  · cases h
    cases (hinfinite negative).1.symm.trans hx
  · cases h
    cases (hinfinite negative).1.symm.trans hx
  · cases h
    cases (hinfinite negative).2.symm.trans hx
  dsimp only at h
  -- behind the whole digits stands a fraction with the exponent, or the exponent
  split at h
  · rename_i r hr
    split at h
    · cases h
    obtain ⟨e, he, -⟩ := Option.map_eq_some_iff.1 h
    refine ⟨cs.takeWhile Char.isDigit ++ '.' :: r.takeWhile Char.isDigit, r.dropWhile Char.isDigit,
      e, ?_, by simp, ?_, he⟩
    · rw [List.append_assoc, List.cons_append, hcut r, ← hr, hcut cs]
    · rw [List.forall_mem_append, List.forall_mem_cons]
      exact ⟨hdigits cs, .inr rfl, hdigits r⟩
  · split at h
    · cases h
    rename_i hsome
    obtain ⟨e, he, -⟩ := Option.map_eq_some_iff.1 h
    exact ⟨cs.takeWhile Char.isDigit, cs.dropWhile Char.isDigit, e, (hcut cs).symm,
      by simpa using hsome, hdigits cs, he⟩

theorem plain_of_readMagnitude? {negative : Bool} {cs : List Char} {x : Double}
    (h : readMagnitude? negative cs = some x) (hx : x.isFinite = true) :
    ∀ c ∈ cs, isPlainChar c = true := by
  obtain ⟨digits, tail, e, rfl, -, hdigits, htail⟩ := parts_of_readMagnitude? h hx
  refine List.forall_mem_append.2 ⟨fun c hc => ?_, plain_of_readExponent? htail⟩
  rcases hdigits c hc with hdigit | rfl
  · exact isPlainChar_of_isDigit hdigit
  · decide

theorem plain_of_readDouble? {cs : List Char} {x : Double} (h : readDouble? cs = some x)
    (hx : x.isFinite = true) : ∀ c ∈ cs, isPlainChar c = true :=
  plain_of_takeSign (plain_of_readMagnitude? h hx)

/-! ## Values -/

/-- The types whose values are free texts. -/
def ValueType.isFreeText : ValueType → Bool
  | text | time | collection => true
  | integer | decimal | boolean | id => false

/-- An accepted value that is not listed is a number, one of the two words or a safe text. -/
theorem Parameter.cases_of_check {p : Parameter} {v : String} (hunlisted : p.allowed = none)
    (h : p.check v = .ok ()) :
    (∃ n, readInt? v.toList = some n) ∨
      (∃ x, readDouble? v.toList = some x ∧ x.isFinite = true) ∨ v = "true" ∨ v = "false" ∨
      p.valueType.isFreeText = true ∧ ∀ c ∈ v.toList, isSafeChar c = true := by
  have hok : ∀ {accepted : Bool} {fault : ValueFault},
      (if accepted = true then Except.ok () else .error fault) = .ok () → accepted = true := by
    intro accepted fault h
    cases accepted with
    | true => rfl
    | false => cases h
  unfold check at h
  rw [hunlisted] at h
  dsimp only at h
  cases htype : p.valueType with
  | integer | id =>
    rw [htype] at h
    obtain ⟨n, hn⟩ := Option.isSome_iff_exists.1 (hok h)
    obtain ⟨k, hk, -⟩ := Option.bind_eq_some_iff.1 hn
    exact .inl ⟨k, hk⟩
  | decimal =>
    rw [htype] at h
    exact .inr (.inl ((Option.any_eq_true _ _).1 (hok h)))
  | boolean =>
    rw [htype] at h
    have hword := hok h
    rw [Bool.or_eq_true, beq_iff_eq, beq_iff_eq] at hword
    exact .inr (.inr (hword.imp_right .inl))
  | text | time | collection =>
    rw [htype] at h
    exact .inr (.inr (.inr (.inr ⟨rfl, List.all_eq_true.1 (hok h)⟩)))

/-- A value that is accepted and not listed is plain. -/
theorem Parameter.plain_of_check {p : Parameter} {v : String} (hunlisted : p.allowed = none)
    (h : p.check v = .ok ()) : ∀ c ∈ v.toList, isPlainChar c = true := by
  rcases cases_of_check hunlisted h with ⟨n, hn⟩ | ⟨x, hx, hfinite⟩ | rfl | rfl | ⟨-, hsafe⟩
  · exact plain_of_readInt? hn
  · exact plain_of_readDouble? hx hfinite
  · exact List.all_eq_true.1 (by decide)
  · exact List.all_eq_true.1 (by decide)
  · exact fun c hc => isPlainChar_of_isSafeChar (hsafe c hc)

/-- So only listed values have commas. -/
theorem Parameter.comma_not_mem_of_check {p : Parameter} {v : String}
    (hlisted : ∀ w ∈ p.allowed.getD [], ',' ∉ w.toList) (h : p.check v = .ok ()) :
    ',' ∉ v.toList := by
  cases hallowed : p.allowed with
  | none => exact fun hcomma => absurd (p.plain_of_check hallowed h ',' hcomma) (by decide)
  | some listed =>
    rw [hallowed] at hlisted
    unfold check at h
    rw [hallowed] at h
    dsimp only at h
    split at h
    · rename_i hmem
      exact hlisted v (List.contains_iff_mem.1 hmem)
    · cases h

end Rollup
