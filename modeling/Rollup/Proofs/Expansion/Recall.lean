/-
Answers from memory. One memory serves a sequence of calls. What is remembered was found for a call
with the same key, so where the keys of accepted calls tell them apart, each call is answered with
what its column expands to on its own, whatever was asked before; and calls that fail are asked anew.
Keys hold the values of arguments as text, glued with commas, so that a value with a comma may look
like the value of another argument.
-/
import Rollup.Proofs.Model.Signatures
import Rollup.Proofs.Model.Values
import Rollup.Proofs.Query.Accepted
import Rollup.Proofs.Query.ReadBack

namespace Rollup

namespace Expansion

/-! ## Values told by their text -/

/-- Two lists of accepted values that are written alike, laid over the same other values, are the
same. -/
def TellsValues (base : Arguments) (ps : List Parameter) : Prop :=
  ∀ a b, Checked ps a → Checked ps b →
    (base.overlay a).signature none = (base.overlay b).signature none →
    base.overlay a = base.overlay b

/-- A name without a character that the text is glued with, and listed values without commas. -/
def PlainParameter (p : Parameter) : Prop :=
  (',' ∉ p.name.toList ∧ '=' ∉ p.name.toList ∧ '@' ∉ p.name.toList) ∧
    ∀ v ∈ p.allowed.getD [], ',' ∉ v.toList

instance : DecidablePred PlainParameter :=
  fun _ => inferInstanceAs (Decidable (_ ∧ _))

theorem tellsValues_of_plain {base : Arguments} {ps : List Parameter}
    (hbase : ∀ e ∈ base.entries, PlainEntry e) (hps : ∀ p ∈ ps, PlainParameter p) :
    TellsValues base ps := by
  have hplain : ∀ {a}, Checked ps a → ∀ e ∈ (base.overlay a).entries, PlainEntry e := by
    intro a ha e he
    rcases Arguments.mem_foldl_insert he with he | he
    · exact hbase e he
    · obtain ⟨p, hp, hname, hcheck⟩ := ha e he
      obtain ⟨⟨hcomma, hequals, hat⟩, hlisted⟩ := hps p hp
      rw [PlainEntry, ← hname]
      exact ⟨hcomma, hequals, hat, p.comma_not_mem_of_check hlisted hcheck⟩
  exact fun a b ha hb h => (Arguments.eq_of_signature (hplain ha) (hplain hb) h).1

end Expansion

namespace Model

/-- The values of the arguments of a table, with the defaults behind them, and those of a column are
told by their text. -/
structure TellsValues (m : Model) : Prop where
  tables : ∀ t ∈ m.tables, Expansion.TellsValues t.defaults t.parameters
  columns : ∀ c ∈ m.columns, Expansion.TellsValues .empty c.parameters

/-- Plain declarations suffice, with defaults of table arguments, which nobody checks, without
commas. -/
theorem tellsValues_of_plain {m : Model}
    (htables : ∀ t ∈ m.tables, ∀ p ∈ t.parameters,
      Expansion.PlainParameter p ∧ ∀ v ∈ p.default.toList, ',' ∉ v.toList)
    (hcolumns : ∀ c ∈ m.columns, ∀ p ∈ c.parameters, Expansion.PlainParameter p) :
    m.TellsValues where
  tables t ht := by
    refine Expansion.tellsValues_of_plain (fun e he => ?_) fun p hp => (htables t ht p hp).1
    obtain ⟨p, hp, hname, hv⟩ := Table.default_of_mem_defaults he
    obtain ⟨⟨⟨hcomma, hequals, hat⟩, -⟩, hdefaults⟩ := htables t ht p hp
    rw [PlainEntry, ← hname]
    exact ⟨hcomma, hequals, hat, hdefaults _ (Option.mem_toList.2 hv)⟩
  columns c hc := Expansion.tellsValues_of_plain (fun _ he => by cases he) (hcolumns c hc)

end Model

namespace Expansion

section

variable {m : Model} {mode : Mode} {memo memo' : Memo}

/-! ## Calls -/

/-- A column wanted in a scope, by a path from its root. -/
structure Call (m : Model) where
  scope : Scope m
  path : Path

namespace Call

/-- Whether the path of a call is accepted where it is made. -/
def Accepted (c : Call m) : Prop :=
  Rollup.Accepted c.scope c.path

/-- What the call comes to on its own. -/
def expansion (mode : Mode) (c : Call m) : Except CompileError Fragment :=
  expandColumn mode c.scope c.path.joins c.path.column c.path.arguments c.path.grain

/-- What it is answered with a memory. -/
def answer (mode : Mode) (c : Call m) : Expanding Fragment :=
  resolvePath mode c.scope c.path c.path.grain

/-- What the call is remembered under. -/
def key (c : Call m) : MemoKey :=
  expansionKey c.scope c.path.joins c.path.column c.path.arguments c.path.grain

/-- Accepted calls with one key are the same call. -/
theorem eq_of_key (hcheck : m.check = .ok ()) (htells : m.TellsValues) {c c' : Call m}
    (hc : c.Accepted) (hc' : c'.Accepted) (h : c.key = c'.key) : c = c' := by
  obtain ⟨⟨root, values⟩, joins, column, grain, arguments⟩ := c
  obtain ⟨⟨root', values'⟩, joins', column', grain', arguments'⟩ := c'
  obtain ⟨⟨given, hgiven, hscope⟩, t, d, ht, hd, harguments⟩ := hc
  obtain ⟨⟨given', hgiven', hscope'⟩, t', d', ht', hd', harguments'⟩ := hc'
  simp only [Scope.of, Scope.mk.injEq, true_and] at hscope hscope'
  subst hscope hscope'
  simp only [key, expansionKey, MemoKey.mk.injEq] at h
  obtain ⟨hroot, hgivens, rfl, rfl, hvalues, rfl⟩ := h
  obtain rfl := Model.member_eq_of_name (Model.tables_nodup_of_check hcheck) hroot
  -- both paths lead to one column
  cases ht.symm.trans ht'
  cases hd.symm.trans hd'
  have hmem : d ∈ m.columns :=
    List.mem_flatMap.2 ⟨t.1, t.2, List.mem_of_find?_eq_some hd⟩
  have hempty : ∀ a : Arguments, Arguments.empty.overlay a = a := Arguments.ofList_entries
  have hsame := htells.columns d hmem arguments arguments' harguments harguments'
  rw [hempty, hempty] at hsame
  rw [htells.tables root.1 root.2 given given' hgiven hgiven' hgivens, hsame hvalues]

end Call

/-! ## The memory -/

/-- What is remembered was found for an accepted call with its key. -/
def Recalls (mode : Mode) (m : Model) (memo : Memo) : Prop :=
  ∀ e ∈ memo, ∃ c : Call m, c.Accepted ∧ e.1 = c.key ∧ c.expansion mode = .ok e.2

/-- An accepted call is answered with what it comes to on its own, and what is remembered of it was
found for it. -/
theorem Call.answer_ok (hcheck : m.check = .ok ()) (htells : m.TellsValues)
    (hmemo : Recalls mode m memo) {c : Call m} (hc : c.Accepted) {f : Fragment}
    (h : (c.answer mode).run memo = .ok (f, memo')) :
    c.expansion mode = .ok f ∧ Recalls mode m memo' := by
  rcases resolveColumn_cases h with ⟨hfound, rfl⟩ | ⟨-, hf, rfl⟩
  · obtain ⟨before, after, hmem, -⟩ := List.lookup_eq_some_iff.1 hfound
    obtain ⟨c', hc', hkey, hf⟩ := hmemo (_, f) (hmem ▸ List.mem_append_right _ List.mem_cons_self)
    rw [eq_of_key hcheck htells hc hc' hkey]
    exact ⟨hf, hmemo⟩
  · refine ⟨hf, fun e he => ?_⟩
    rcases List.mem_cons.1 he with rfl | he
    · exact ⟨c, hc, rfl, hf⟩
    · exact hmemo e he

/-- The answers to calls that follow one another with one memory. A call that fails leaves the memory
as it is. -/
def answers (mode : Mode) (memo : Memo) : List (Call m) → List (Except CompileError Fragment)
  | [] => []
  | c :: rest =>
    match (c.answer mode).run memo with
    | .ok (f, memo') => .ok f :: answers mode memo' rest
    | .error e => .error e :: answers mode memo rest

/-- The memory is not noticed: in an accepted model whose arguments are told by the text of their
values, every call of a sequence is answered with what it comes to on its own. -/
theorem answers_eq_expansions (hcheck : m.check = .ok ()) (htells : m.TellsValues) (mode : Mode)
    {calls : List (Call m)} (hcalls : ∀ c ∈ calls, c.Accepted) :
    answers mode [] calls = calls.map (Call.expansion mode) := by
  suffices hall : ∀ memo, Recalls mode m memo →
      answers mode memo calls = calls.map (Call.expansion mode) from
    hall [] fun _ he => by cases he
  induction calls with
  | nil => exact fun _ _ => rfl
  | cons c calls ih =>
    intro memo hmemo
    obtain ⟨hc, hrest⟩ := List.forall_mem_cons.1 hcalls
    rw [answers, List.map_cons]
    cases hanswer : (c.answer mode).run memo with
    | ok found =>
      obtain ⟨f, memo'⟩ := found
      obtain ⟨hf, hmemo'⟩ := Call.answer_ok hcheck htells hmemo hc hanswer
      rw [hf, ← ih hrest memo' hmemo']
    | error e =>
      -- only what is not remembered can fail
      have hfails : c.expansion mode = .error e := resolveColumn_error hanswer
      rw [hfails, ← ih hrest memo hmemo]

end

/-! ## Captions -/

/-- A race is announced with the season and the town that are asked for. -/
def races : Table where
  name := "races"
  source := .physical none "races"
  parameters := [
    { name := "season", valueType := .integer, default := some "2024" },
    { name := "town" }]
  columns := [
    { name := "caption"
      formula := "'\x7b\x7b$$column.args.label\x7d\x7d \x7b\x7b$$table.args.season\x7d\x7d'"
      parameters := [{ name := "label", default := some "race" }]
      kind := .dimension },
    { name := "venue"
      formula := "\x7b\x7b$venue\x7d\x7d || ' in \x7b\x7b$$table.args.town\x7d\x7d'"
      kind := .dimension }]

/-- The model of the races. -/
def raceDay : Model where
  tables := [races]

/-- The races in their model. -/
def raceDayRaces : raceDay.Member := ⟨races, List.mem_cons_self⟩

/-- A column of the races with values for the arguments of the table and for its own. -/
def announced (x : Arguments × String × Arguments) : Call raceDay where
  scope := Scope.of raceDayRaces x.1
  path := { column := x.2.1, arguments := x.2.2 }

/-- The venue without a town fails both times; the second caption is remembered for the third. -/
def announcements : List (Arguments × String × Arguments) :=
  let cup := Arguments.ofList [("label", "cup")]
  let lastSeason := Arguments.ofList [("season", "2023")]
  [(.empty, "venue", .empty), (lastSeason, "caption", cup), (lastSeason, "caption", cup),
    (.empty, "caption", cup), (.empty, "caption", .empty), (.empty, "venue", .empty),
    (Arguments.ofList [("town", "Jena")], "venue", .empty)]

theorem answers_eq_expansions_announcements :
    let mode : Mode := ⟨.sqlite, false⟩
    let calls := announcements.map announced
    raceDay.check = .ok () ∧ raceDay.TellsValues ∧ (∀ c ∈ calls, c.Accepted) ∧
    answers mode [] calls = calls.map (Call.expansion mode) ∧
    (answers mode [] calls).map (fun x => x.toOption.map (·.sql)) = [
      none, some "'cup 2023'", some "'cup 2023'", some "'cup 2024'", some "'race 2024'", none,
      some "\"races\".\"venue\" || ' in Jena'"] := by
  intro mode calls
  have hcheck : raceDay.check = .ok () := by decide +kernel
  have htells : raceDay.TellsValues :=
    Model.tellsValues_of_plain (by decide +kernel) (by decide +kernel)
  have haccepted : ∀ c ∈ calls, c.Accepted := by
    have hchecked : ∀ x ∈ announcements, ∀ e ∈ x.1.entries, ∃ p ∈ races.parameters,
        p.name = e.1 ∧ p.check e.2 = .ok () := by
      decide +kernel
    have hlocated : ∀ x ∈ announcements,
        (locate raceDayRaces (announced x).path).toOption.isSome = true := by
      decide +kernel
    intro c hc
    obtain ⟨x, hx, rfl⟩ := List.mem_map.1 hc
    obtain ⟨⟨t, d⟩, hlocate⟩ := Option.isSome_iff_exists.1 (hlocated x hx)
    exact accepted_of_locate (hchecked x hx) (ok_of_toOption hlocate)
  exact ⟨hcheck, htells, haccepted, answers_eq_expansions hcheck htells mode haccepted,
    by decide +kernel⟩

/-- A listed label that reads like a label and a year. -/
def fixtures : Table where
  name := "fixtures"
  source := .physical none "fixtures"
  columns := [
    { name := "caption"
      formula := "'\x7b\x7b$$column.args.label\x7d\x7d' || (\x7b\x7b$year\x7d\x7d - " ++
        "\x7b\x7b$$column.args.year\x7d\x7d)"
      parameters := [
        { name := "label", allowed := some ["season", "season,year=2023"]
          default := some "season" },
        { name := "year", valueType := .integer, default := some "2024" }]
      kind := .dimension }]

/-- The model of the fixtures. -/
def matchDay : Model where
  tables := [fixtures]

/-- The fixtures in their model. -/
def matchDayFixtures : matchDay.Member := ⟨fixtures, List.mem_cons_self⟩

/-- A call of the caption with some arguments. -/
def captioned (given : Arguments) : Call matchDay where
  scope := Scope.of matchDayFixtures .empty
  path := { column := "caption", arguments := given }

/-- The first label looks like the label and the year of the second caption. -/
def captions : List Arguments := [
  Arguments.ofList [("label", "season,year=2023")],
  Arguments.ofList [("label", "season"), ("year", "2023")]]

/-- The second caption is answered with the first. -/
theorem answers_ne_expansions_captions :
    let mode : Mode := ⟨.sqlite, false⟩
    let calls := captions.map captioned
    matchDay.check = .ok () ∧ (∀ c ∈ calls, c.Accepted) ∧
    (answers mode [] calls).map (fun x => x.toOption.map (·.sql)) = [
      some "'season,year=2023' || (\"fixtures\".\"year\" - 2024)",
      some "'season,year=2023' || (\"fixtures\".\"year\" - 2024)"] ∧
    (calls.map (Call.expansion mode)).map (fun x => x.toOption.map (·.sql)) = [
      some "'season,year=2023' || (\"fixtures\".\"year\" - 2024)",
      some "'season' || (\"fixtures\".\"year\" - 2023)"] ∧
    answers mode [] calls ≠ calls.map (Call.expansion mode) := by
  intro mode calls
  have haccepted : ∀ c ∈ calls, c.Accepted := by
    have hlocated : ∀ given ∈ captions,
        (locate matchDayFixtures (captioned given).path).toOption.isSome = true := by
      decide +kernel
    intro c hc
    obtain ⟨given, hgiven, rfl⟩ := List.mem_map.1 hc
    obtain ⟨⟨t, d⟩, hlocate⟩ := Option.isSome_iff_exists.1 (hlocated given hgiven)
    exact accepted_of_locate (fun _ he => by cases he) (ok_of_toOption hlocate)
  exact ⟨by decide +kernel, haccepted, by decide +kernel, by decide +kernel, by decide +kernel⟩

end Expansion

end Rollup
