/-
Names that are fitted to a dialect. A shortened name has its limit and is not shortened again, and
its digest tells it apart from all other shortened names; so two names are fitted alike only where
they are the same or one is what the other is shortened to. A shortened name also fills its limit
and ends in a digest, and a name that does not look like that is what no other is shortened to.
-/
import Rollup.Sql.Alias
import Mathlib.Data.String.Basic

namespace Rollup

namespace Digest

theorem length_hexWord (w : UInt32) : (hexWord w).length = 8 := by
  rw [hexWord, List.length_map, List.length_range]

theorem utf8Size_of_mem_hexWord {w : UInt32} {c : Char} (h : c ∈ hexWord w) : c.utf8Size = 1 := by
  have hdigit : ∀ n < 16, (Nat.digitChar n).utf8Size = 1 := by decide
  obtain ⟨i, -, rfl⟩ := List.mem_map.1 h
  exact hdigit _ (Nat.mod_lt _ (by decide))

/-- The short digest is the first word of the digest. -/
theorem short_eq (text : String) : ∃ w, short text = String.ofList (hexWord w) := by
  obtain ⟨w, ws, hwords⟩ : ∃ w ws, sha256Words text.toUTF8.data.toList = w :: ws := ⟨_, _, rfl⟩
  refine ⟨w, congrArg String.ofList ?_⟩
  rw [sha256, hwords, String.toList_ofList, List.flatMap_cons]
  exact List.take_left' (length_hexWord w)

theorem length_short (text : String) : (short text).toList.length = 8 := by
  obtain ⟨w, hw⟩ := short_eq text
  rw [hw, String.toList_ofList, length_hexWord]

theorem utf8Len_eq_length {cs : List Char} (h : ∀ c ∈ cs, c.utf8Size = 1) :
    String.utf8Len cs = cs.length := by
  induction cs with
  | nil => rfl
  | cons c cs ih =>
    obtain ⟨hc, hcs⟩ := List.forall_mem_cons.1 h
    rw [String.utf8Len_cons, ih hcs, hc, List.length_cons]

theorem utf8ByteSize_short (text : String) : (short text).utf8ByteSize = 8 := by
  obtain ⟨w, hw⟩ := short_eq text
  rw [hw, String.utf8ByteSize_ofList, utf8Len_eq_length fun c => utf8Size_of_mem_hexWord,
    length_hexWord]

/-- The digits that a digest is written with. -/
def hexDigits : List Char := "0123456789abcdef".toList

theorem mem_hexDigits {text : String} {c : Char} (h : c ∈ (short text).toList) :
    c ∈ hexDigits := by
  have hdigit : ∀ n < 16, Nat.digitChar n ∈ hexDigits := by decide
  obtain ⟨w, hw⟩ := short_eq text
  rw [hw, String.toList_ofList] at h
  obtain ⟨i, -, rfl⟩ := List.mem_map.1 h
  exact hdigit _ (Nat.mod_lt _ (by decide))

end Digest

namespace Sql

theorem utf8Len_takeBytes (room : Nat) (cs : List Char) :
    String.utf8Len (takeBytes room cs) ≤ room := by
  induction cs generalizing room with
  | nil => exact Nat.zero_le _
  | cons c cs ih =>
    unfold takeBytes
    split
    · have := ih (room - c.utf8Size)
      rw [String.utf8Len_cons]
      omega
    · exact Nat.zero_le _

theorem takeBytes_isPrefix (room : Nat) (text : List Char) : takeBytes room text <+: text := by
  induction text generalizing room with
  | nil => exact List.prefix_rfl
  | cons c text ih =>
    rw [takeBytes]
    split
    · exact List.cons_prefix_cons.2 ⟨rfl, ih _⟩
    · exact List.nil_prefix

/-- A fitted name has the limit. -/
theorem utf8ByteSize_fitName {d : Dialect} {limit : Nat} (h : d.nameLimit? = some limit)
    (name : String) : (fitName d name).utf8ByteSize ≤ limit := by
  have hroom : 9 ≤ limit := by
    cases d <;> cases h <;> decide
  unfold fitName
  rw [h]
  dsimp only
  split
  · assumption
  · have hstart := utf8Len_takeBytes (limit - 9) name.toList
    have hsep : "_".utf8ByteSize = 1 := rfl
    rw [String.utf8ByteSize_append, String.utf8ByteSize_append, String.utf8ByteSize_ofList,
      Digest.utf8ByteSize_short]
    omega

/-- A fitted name stays as it is. -/
theorem fitName_fitName (d : Dialect) (name : String) :
    fitName d (fitName d name) = fitName d name := by
  cases h : d.nameLimit? with
  | none => simp only [fitName, h]
  | some limit =>
    have hsize := utf8ByteSize_fitName h name
    generalize fitName d name = fitted at hsize ⊢
    simp only [fitName, h, if_pos hsize]

/-- Two names are fitted alike if they are the same or one is what the other is shortened to, and
only then if the digest tells them apart. -/
theorem fitName_eq_iff {d : Dialect} {a b : String}
    (hdigest : Digest.short a = Digest.short b → a = b) :
    fitName d a = fitName d b ↔ a = b ∨ fitName d b = a ∨ fitName d a = b := by
  constructor
  · intro h
    cases hlimit : d.nameLimit? with
    | none =>
      simp only [fitName, hlimit] at h
      exact .inl h
    | some limit =>
      have hfit : ∀ name : String, name.utf8ByteSize ≤ limit → fitName d name = name := by
        intro name hname
        simp only [fitName, hlimit, if_pos hname]
      by_cases ha : a.utf8ByteSize ≤ limit
      · rw [hfit a ha] at h
        exact .inr (.inl h.symm)
      by_cases hb : b.utf8ByteSize ≤ limit
      · rw [hfit b hb] at h
        exact .inr (.inr h)
      -- both are shortened, and their digests are as long
      simp only [fitName, hlimit, if_neg ha, if_neg hb] at h
      have hlists := congrArg String.toList h
      simp only [String.toList_append] at hlists
      have hlength : (Digest.short a).toList.length = (Digest.short b).toList.length := by
        rw [Digest.length_short, Digest.length_short]
      exact .inl (hdigest (String.toList_inj.1 (List.append_inj' hlists hlength).2))
  · rintro (rfl | rfl | rfl)
    · rfl
    · exact fitName_fitName d b
    · exact (fitName_fitName d a).symm

/-! ## Names that nothing is shortened to -/

/-- No other name is shortened to this one. -/
def Unshortened (d : Dialect) (name : String) : Prop :=
  ∀ other, fitName d other = name → other = name

theorem takeBytes_fills (room : Nat) (cs : List Char) :
    takeBytes room cs = cs ∨ room < String.utf8Len (takeBytes room cs) + 4 := by
  induction cs generalizing room with
  | nil => exact .inl rfl
  | cons c cs ih =>
    have hc := c.utf8Size_le_four
    unfold takeBytes
    split
    · refine (ih (room - c.utf8Size)).imp (congrArg (c :: ·)) fun h => ?_
      rw [String.utf8Len_cons]
      omega
    · refine .inr ?_
      rw [String.utf8Len_nil]
      omega

/-- A name that does not stay as it is keeps a start, and ends in its digest. -/
theorem fitName_of_ne {d : Dialect} {name : String} (h : fitName d name ≠ name) :
    ∃ limit, d.nameLimit? = some limit ∧ 63 ≤ limit ∧
      (fitName d name).toList =
        takeBytes (limit - 9) name.toList ++ '_' :: (Digest.short name).toList ∧
      limit < (fitName d name).utf8ByteSize + 4 := by
  cases hlimit : d.nameLimit? with
  | none => exact absurd (by simp only [fitName, hlimit]) h
  | some limit =>
    have hleast : 63 ≤ limit := by
      cases d <;> cases hlimit <;> decide
    by_cases hfits : name.utf8ByteSize ≤ limit
    · exact absurd (by simp only [fitName, hlimit, if_pos hfits]) h
    have hshort : fitName d name =
        String.ofList (takeBytes (limit - 9) name.toList) ++ "_" ++ Digest.short name := by
      simp only [fitName, hlimit, if_neg hfits]
    refine ⟨limit, rfl, hleast, ?_, ?_⟩
    · rw [hshort, String.toList_append, String.toList_append, String.toList_ofList,
        List.append_assoc]
      rfl
    · have hsep : "_".utf8ByteSize = 1 := rfl
      rw [hshort, String.utf8ByteSize_append, String.utf8ByteSize_append,
        String.utf8ByteSize_ofList, Digest.utf8ByteSize_short]
      rcases takeBytes_fills (limit - 9) name.toList with hall | hfills
      · rw [hall, String.utf8Len_toList]
        omega
      · omega

/-- Names that nothing else is shortened to are fitted apart where the digest tells those apart that
are shortened. -/
theorem Unshortened.eq_of_fitName {d : Dialect} {a b : String} (ha : Unshortened d a)
    (hb : Unshortened d b) (hdigest : fitName d a ≠ a → fitName d b ≠ b →
      Digest.short a = Digest.short b → a = b)
    (h : fitName d a = fitName d b) : a = b := by
  by_cases ha' : fitName d a = a
  · exact (ha b (h.symm.trans ha')).symm
  by_cases hb' : fitName d b = b
  · exact hb a (h.trans hb')
  obtain ⟨_, -, -, hlist, -⟩ := fitName_of_ne ha'
  obtain ⟨_, -, -, hlist', -⟩ := fitName_of_ne hb'
  rw [h, hlist'] at hlist
  have hlength : ('_' :: (Digest.short b).toList).length =
      ('_' :: (Digest.short a).toList).length := by
    rw [List.length_cons, List.length_cons, Digest.length_short, Digest.length_short]
  have hends := (List.append_inj' hlist hlength).2
  exact hdigest ha' hb' (String.toList_inj.1 (List.cons.inj hends).2.symm)

/-- A name that does not end in a digit of a digest. -/
theorem unshortened_of_last {d : Dialect} {name start : String} {c : Char}
    (hname : name = start.push c) (hc : c ∉ Digest.hexDigits) : Unshortened d name := by
  intro other h
  by_contra hne
  obtain ⟨limit, -, -, hlist, -⟩ := fitName_of_ne fun hsame => hne (hsame.symm.trans h)
  rw [h, hname, String.toList_push] at hlist
  -- both are ends of one list, and the digest is the longer one
  have hend : (Digest.short other).toList <:+ start.toList ++ [c] := by
    rw [hlist, List.append_cons]
    exact List.suffix_append _ _
  have hlast : [c] <:+ start.toList ++ [c] := List.suffix_append _ _
  have hlength : [c].length ≤ (Digest.short other).toList.length := by
    rw [Digest.length_short, List.length_singleton]
    decide
  have hdigit := (List.suffix_of_suffix_length_le hlast hend hlength).subset List.mem_cons_self
  exact hc (Digest.mem_hexDigits hdigit)

theorem utf8Size_of_isAlphanum {c : Char} (h : c.isAlphanum = true) : c.utf8Size = 1 := by
  have hle : c.val ≤ 127 := by
    unfold Char.isAlphanum Char.isAlpha Char.isUpper Char.isLower Char.isDigit at h
    grind
  rw [Char.utf8Size]
  exact if_pos hle

/-- A name of a few bytes and then of letters and digits only. -/
theorem unshortened_append {d : Dialect} {first rest : String} (hfirst : first.utf8ByteSize ≤ 50)
    (hrest : ∀ c ∈ rest.toList, c.isAlphanum = true) : Unshortened d (first ++ rest) := by
  intro other h
  by_contra hne
  obtain ⟨limit, -, hleast, hlist, hsize⟩ := fitName_of_ne fun hsame => hne (hsame.symm.trans h)
  rw [h] at hlist hsize
  -- the rest is longer than the digest, so the underscore before that stands in it
  rw [String.utf8ByteSize_append, ← String.utf8Len_toList (s := rest),
    Digest.utf8Len_eq_length fun c hc => utf8Size_of_isAlphanum (hrest c hc)] at hsize
  have hend : '_' :: (Digest.short other).toList <:+ (first ++ rest).toList := by
    rw [hlist]
    exact List.suffix_append _ _
  have hrest' : rest.toList <:+ (first ++ rest).toList := by
    rw [String.toList_append]
    exact List.suffix_append _ _
  have hlength : ('_' :: (Digest.short other).toList).length ≤ rest.toList.length := by
    rw [List.length_cons, Digest.length_short]
    omega
  have hmem := (List.suffix_of_suffix_length_le hend hrest' hlength).subset List.mem_cons_self
  exact absurd (hrest '_' hmem) (by decide)

/-- A fitted name starts as the name does. -/
theorem head?_fitName {d : Dialect} {name : String} {c : Char} (hc : c.utf8Size = 1)
    (h : name.toList.head? = some c) : (fitName d name).toList.head? = some c := by
  by_cases hsame : fitName d name = name
  · rw [hsame, h]
  · obtain ⟨limit, -, hleast, hlist, -⟩ := fitName_of_ne hsame
    obtain ⟨cs, hcs⟩ := List.head?_eq_some_iff.1 h
    have hroom : c.utf8Size ≤ limit - 9 := by omega
    rw [hlist, hcs, takeBytes, if_pos hroom, List.cons_append, List.head?_cons]

end Sql

end Rollup
