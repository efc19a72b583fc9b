/-
One text, one value. The first character of a text tells the kind of the value, and every value is
told from what may follow it; so two values with one text are the same, as long as the floating
point numbers in them have texts of their own.
-/
import Mathlib
import Rollup.Proofs.Datum.Reals
import Rollup.Proofs.Json.Token

namespace Rollup

namespace Json

open Datum

/-! ## Kinds of values -/

/-- What the first character of a text tells about a value. -/
inductive Shape where
  | null
  | truth
  | number
  | text
  | list
  | record
  deriving DecidableEq, Repr

/-- The shape of the values whose texts start with a character. -/
def shapeAt? (c : Char) : Option Shape :=
  if isNumberChar c then some .number
  else match c with
    | 'n' => some .null
    | 't' | 'f' => some .truth
    | '"' => some .text
    | '[' => some .list
    | '{' => some .record
    | _ => none

/-- The shape of a value. -/
def shape : Datum → Shape
  | .null => .null
  | .bool _ => .truth
  | .int _ | .real _ => .number
  | .text _ => .text
  | .list _ => .list
  | .record _ => .record

theorem starts_of_number {cs : List Char} (hne : cs ≠ [])
    (hcs : ∀ c ∈ cs, isNumberChar c = true) :
    ∃ c rest, cs = c :: rest ∧ shapeAt? c = some .number := by
  cases cs with
  | nil => exact absurd rfl hne
  | cons c rest => exact ⟨c, rest, rfl, by simp [shapeAt?, hcs c List.mem_cons_self]⟩

section Finite

variable {S : Set Double} (hfinite : ∀ x ∈ S, x.isFinite = true)
include hfinite

/-- The text of a value starts as its shape demands. -/
theorem starts {d : Datum} (hd : Over S d) :
    ∃ c rest, (write d).toList = c :: rest ∧ shapeAt? c = some (shape d) := by
  cases d with
  | null => exact ⟨'n', _, rfl, rfl⟩
  | bool b => cases b <;> exact ⟨_, _, rfl, rfl⟩
  | int n => exact starts_of_number (toList_toString_ne_nil n) fun _ => isNumberChar_of_mem_int
  | real x =>
    have hx := hfinite x (hd x (by simp))
    obtain ⟨c, hc, -⟩ := mark_mem_realText hx
    exact starts_of_number (List.ne_nil_of_mem hc) (isNumberChar_of_mem_realText hx)
  | text s => exact ⟨'"', _, toList_stringText s, rfl⟩
  | list items => exact ⟨'[', _, by simp [write]; rfl, rfl⟩
  | record ms => exact ⟨'{', _, by simp [write]; rfl, rfl⟩

theorem shape_eq {d e : Datum} (hd : Over S d) (he : Over S e) {r r' : List Char}
    (h : (write d).toList ++ r = (write e).toList ++ r') : shape d = shape e := by
  obtain ⟨c, cs, hc, hshape⟩ := starts hfinite hd
  obtain ⟨c', cs', hc', hshape'⟩ := starts hfinite he
  rw [hc, hc', List.cons_append, List.cons_append, List.cons.injEq] at h
  exact Option.some_injective _ (hshape.symm.trans ((congrArg shapeAt? h.1).trans hshape'))

end Finite

/-! ## Telling values apart -/

/-- Nothing else that is `ok` has the text of `a`, wherever the two texts end. -/
def Told {α : Type} (text : α → List Char) (ok : α → Prop) (a : α) : Prop :=
  ∀ b r r', ok b → Ends r → Ends r' → text a ++ r = text b ++ r' → a = b ∧ r = r'

section Containers

variable {α : Type} (text : α → List Char) (close : Char) (r : List Char)

/-- Further items and the closing bracket, a comma before every item. -/
def following : List α → List Char
  | [] => close :: r
  | a :: rest => ',' :: (text a ++ following rest)

/-- Items with commas between them and the closing bracket. -/
def enclosed : List α → List Char
  | [] => close :: r
  | a :: rest => text a ++ following text close r rest

theorem toList_join (write : α → String) (items : List α) :
    (Text.join "," (items.map write)).toList ++ close :: r =
      enclosed (fun a => (write a).toList) close r items := by
  have hfollowing : ∀ (a : α) (rest : List α),
      (Text.join "," ((a :: rest).map write)).toList ++ close :: r =
        (write a).toList ++ following (fun a => (write a).toList) close r rest := by
    intro a rest
    induction rest generalizing a with
    | nil => rfl
    | cons b rest ih =>
      have hjoin : Text.join "," ((a :: b :: rest).map write) =
          write a ++ "," ++ Text.join "," ((b :: rest).map write) := rfl
      rw [hjoin, String.toList_append, String.toList_append, List.append_assoc, List.append_assoc,
        ih b]
      rfl
  cases items with
  | nil => rfl
  | cons a rest => exact hfollowing a rest

variable {text close r} {ok : α → Prop} {r' : List Char} (hclose : close = ']' ∨ close = '}')
include hclose

theorem ends_following (items : List α) : Ends (following text close r items) := by
  intro c hc
  cases items with
  | nil =>
    obtain rfl : close = c := by simpa [following] using hc
    exact .inr hclose
  | cons a rest =>
    obtain rfl : ',' = c := by simpa [following] using hc
    exact .inl rfl

theorem following_inj {items items' : List α} (hitems : ∀ a ∈ items, Told text ok a)
    (hok : ∀ a ∈ items', ok a)
    (h : following text close r items = following text close r' items') :
    items = items' ∧ r = r' := by
  have hcomma : close ≠ ',' := by obtain rfl | rfl := hclose <;> decide
  induction items generalizing items' with
  | nil =>
    cases items' with
    | nil => exact ⟨rfl, (List.cons.inj h).2⟩
    | cons b rest' => exact absurd (List.cons.inj h).1 hcomma
  | cons a rest ih =>
    cases items' with
    | nil => exact absurd (List.cons.inj h).1.symm hcomma
    | cons b rest' =>
      obtain ⟨ha, hrest⟩ := List.forall_mem_cons.1 hitems
      obtain ⟨hb, hrest'⟩ := List.forall_mem_cons.1 hok
      obtain ⟨rfl, htail⟩ := ha b _ _ hb (ends_following hclose rest) (ends_following hclose rest')
        (List.cons.inj h).2
      obtain ⟨rfl, rfl⟩ := ih hrest hrest' htail
      exact ⟨rfl, rfl⟩

theorem enclosed_inj {items items' : List α} (hitems : ∀ a ∈ items, Told text ok a)
    (hok : ∀ a ∈ items', ok a)
    (hstart : ∀ a ∈ items ++ items', ∃ c rest, text a = c :: rest ∧ c ≠ close)
    (h : enclosed text close r items = enclosed text close r' items') :
    items = items' ∧ r = r' := by
  cases items with
  | nil =>
    cases items' with
    | nil => exact ⟨rfl, (List.cons.inj h).2⟩
    | cons b rest' =>
      obtain ⟨c, rest, hb, hc⟩ := hstart b (by simp)
      rw [enclosed, enclosed, hb] at h
      exact absurd (List.cons.inj h).1.symm hc
  | cons a rest =>
    cases items' with
    | nil =>
      obtain ⟨c, rest, hb, hc⟩ := hstart a (by simp)
      rw [enclosed, enclosed, hb] at h
      exact absurd (List.cons.inj h).1 hc
    | cons b rest' =>
      -- The same as among further items, with the leading comma left out.
      exact following_inj hclose hitems hok (congrArg (',' :: ·) h)

end Containers

/-- The text of a member of a record. -/
def memberText (m : String × Datum) : String :=
  stringText m.1 ++ ":" ++ write m.2

theorem writeItems_eq (items : List Datum) : writeItems items = items.map write := by
  induction items with
  | nil => rfl
  | cons d rest ih => rw [writeItems, ih, List.map_cons]

theorem writeMembers_eq (ms : List (String × Datum)) : writeMembers ms = ms.map memberText := by
  induction ms with
  | nil => rfl
  | cons m rest ih => rw [writeMembers, ih, List.map_cons, memberText]

theorem toList_write_list (items : List Datum) (r : List Char) :
    (write (.list items)).toList ++ r =
      '[' :: enclosed (fun d => (write d).toList) ']' r items := by
  rw [← toList_join]
  simp [write, writeItems_eq]

theorem toList_write_record (ms : List (String × Datum)) (r : List Char) :
    (write (.record ms)).toList ++ r =
      '{' :: enclosed (fun m => (memberText m).toList) '}' r ms := by
  rw [← toList_join]
  simp [write, writeMembers_eq]

/-- Nothing else over `S` has the text of the value, wherever the two texts end. -/
abbrev ToldOver (S : Set Double) : Datum → Prop :=
  Told (fun d => (write d).toList) (Over S)

theorem told_member {S : Set Double} {m : String × Datum} (hm : ToldOver S m.2) :
    Told (fun m => (memberText m).toList) (fun m => Over S m.2) m := by
  intro m' r r' hm' hr hr' h
  simp only [memberText, String.toList_append, List.append_assoc] at h
  obtain ⟨hname, h⟩ := stringText_append_inj h
  obtain ⟨hvalue, hrest⟩ := hm m'.2 r r' hm' hr hr' (List.append_cancel_left h)
  exact ⟨Prod.ext hname hvalue, hrest⟩

section Datums

variable {S : Set Double} (hfinite : ∀ x ∈ S, x.isFinite = true)
include hfinite

theorem told_null : ToldOver S .null := by
  intro e r r' he _ _ h
  have hshape := shape_eq hfinite (by simp [Over]) he h
  cases e <;> simp [shape] at hshape
  exact ⟨rfl, List.append_cancel_left h⟩

theorem told_bool (b : Bool) : ToldOver S (.bool b) := by
  intro e r r' he _ _ h
  have hshape := shape_eq hfinite (by simp [Over]) he h
  cases e <;> simp [shape] at hshape
  case bool b' => cases b <;> cases b' <;> simp_all [write, boolText]

theorem told_int (n : Int) : ToldOver S (.int n) := by
  intro e r r' he hr hr' h
  have hshape := shape_eq hfinite (by simp [Over]) he h
  cases e <;> simp [shape] at hshape
  case int n' =>
    obtain ⟨htext, hrest⟩ := number_append_inj (fun _ => isNumberChar_of_mem_int)
      (fun _ => isNumberChar_of_mem_int) hr hr' h
    exact ⟨congrArg _ (Int.repr_inj.1 (String.toList_inj.1 htext)), hrest⟩
  case real x =>
    have hx := hfinite x (he x (by simp))
    obtain ⟨htext, -⟩ := number_append_inj (fun _ => isNumberChar_of_mem_int)
      (isNumberChar_of_mem_realText hx) hr hr' h
    exact absurd htext (toString_ne_realText n hx)

theorem told_real (hprinter : S.InjOn Double.Format.json.write) {x : Double} (hx : x ∈ S) :
    ToldOver S (.real x) := by
  intro e r r' he hr hr' h
  have hshape := shape_eq hfinite (by simpa [Over] using hx) he h
  cases e <;> simp [shape] at hshape
  case int n =>
    obtain ⟨htext, -⟩ := number_append_inj (isNumberChar_of_mem_realText (hfinite x hx))
      (fun _ => isNumberChar_of_mem_int) hr hr' h
    exact absurd htext.symm (toString_ne_realText n (hfinite x hx))
  case real y =>
    have hy : y ∈ S := he y (by simp)
    obtain ⟨htext, hrest⟩ := number_append_inj (isNumberChar_of_mem_realText (hfinite x hx))
      (isNumberChar_of_mem_realText (hfinite y hy)) hr hr' h
    have hwrite := String.toList_inj.1 htext
    rw [realText, realText, if_pos (hfinite x hx), if_pos (hfinite y hy)] at hwrite
    exact ⟨congrArg _ (hprinter hx hy hwrite), hrest⟩

theorem told_text (s : String) : ToldOver S (.text s) := by
  intro e r r' he _ _ h
  have hshape := shape_eq hfinite (by simp [Over]) he h
  cases e <;> simp [shape] at hshape
  case text t =>
    obtain ⟨rfl, hrest⟩ := stringText_append_inj h
    exact ⟨rfl, hrest⟩

theorem starts_ne_close {d : Datum} (hd : Over S d) :
    ∃ c rest, (write d).toList = c :: rest ∧ c ≠ ']' := by
  obtain ⟨c, rest, htext, hshape⟩ := starts hfinite hd
  refine ⟨c, rest, htext, ?_⟩
  rintro rfl
  exact absurd hshape (by simp [shapeAt?, isNumberChar])

theorem told_list {items : List Datum} (hover : Over S (.list items))
    (hitems : ∀ d ∈ items, ToldOver S d) : ToldOver S (.list items) := by
  intro e r r' he _ _ h
  have hshape := shape_eq hfinite hover he h
  cases e <;> simp [shape] at hshape
  case list items' =>
    rw [toList_write_list, toList_write_list] at h
    have hstart : ∀ d ∈ items ++ items', ∃ c rest, (write d).toList = c :: rest ∧ c ≠ ']' :=
      fun d hd => starts_ne_close hfinite
        ((List.mem_append.1 hd).elim (over_list.1 hover d) (over_list.1 he d))
    obtain ⟨rfl, hrest⟩ :=
      enclosed_inj (.inl rfl) hitems (over_list.1 he) hstart (List.cons.inj h).2
    exact ⟨rfl, hrest⟩

theorem told_record {ms : List (String × Datum)} (hover : Over S (.record ms))
    (hms : ∀ m ∈ ms, ToldOver S m.2) : ToldOver S (.record ms) := by
  intro e r r' he _ _ h
  have hshape := shape_eq hfinite hover he h
  cases e <;> simp [shape] at hshape
  case record ms' =>
    rw [toList_write_record, toList_write_record] at h
    have hstart : ∀ m ∈ ms ++ ms', ∃ c rest, (memberText m).toList = c :: rest ∧ c ≠ '}' :=
      fun m _ => ⟨'"', _, by simp [memberText, toList_stringText]; rfl, by decide⟩
    obtain ⟨rfl, hrest⟩ := enclosed_inj (.inr rfl) (fun m hm => told_member (hms m hm))
      (over_record.1 he) hstart (List.cons.inj h).2
    exact ⟨rfl, hrest⟩

end Datums

section

variable {S : Set Double}

mutual

theorem told (hfinite : ∀ x ∈ S, x.isFinite = true)
    (hprinter : S.InjOn Double.Format.json.write) : ∀ d, Over S d → ToldOver S d
  | .null, _ => told_null hfinite
  | .bool b, _ => told_bool hfinite b
  | .int n, _ => told_int hfinite n
  | .real x, hd => told_real hfinite hprinter (hd x (by simp))
  | .text s, _ => told_text hfinite s
  | .list items, hd => told_list hfinite hd (told_items hfinite hprinter items (over_list.1 hd))
  | .record ms, hd => told_record hfinite hd (told_members hfinite hprinter ms (over_record.1 hd))

theorem told_items (hfinite : ∀ x ∈ S, x.isFinite = true)
    (hprinter : S.InjOn Double.Format.json.write) :
    ∀ items : List Datum, (∀ d ∈ items, Over S d) → ∀ d ∈ items, ToldOver S d
  | [], _ => by simp
  | d :: rest, h =>
    have h := List.forall_mem_cons.1 h
    List.forall_mem_cons.2 ⟨told hfinite hprinter d h.1, told_items hfinite hprinter rest h.2⟩

theorem told_members (hfinite : ∀ x ∈ S, x.isFinite = true)
    (hprinter : S.InjOn Double.Format.json.write) :
    ∀ ms : List (String × Datum), (∀ m ∈ ms, Over S m.2) → ∀ m ∈ ms, ToldOver S m.2
  | [], _ => by simp
  | (_, d) :: rest, h =>
    have h := List.forall_mem_cons.1 h
    List.forall_mem_cons.2 ⟨told hfinite hprinter d h.1, told_members hfinite hprinter rest h.2⟩

end

/-- Values with one text are the same, when their floating point numbers are told by their texts. -/
theorem write_inj (hfinite : ∀ x ∈ S, x.isFinite = true)
    (hprinter : S.InjOn Double.Format.json.write) {d e : Datum} (hd : Over S d) (he : Over S e) :
    write d = write e ↔ d = e := by
  refine ⟨fun h => ?_, congrArg write⟩
  have hends : Ends [] := by simp [Ends]
  have htext : (write d).toList ++ [] = (write e).toList ++ [] := by rw [h]
  exact (told hfinite hprinter d hd e [] [] he hends hends htext).1

end

end Json

end Rollup
