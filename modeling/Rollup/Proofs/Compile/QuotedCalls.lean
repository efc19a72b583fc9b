/-
Aggregate calls and quotes. A text calls an aggregate if somewhere the name of one stands as a word
of its own with an opening parenthesis behind it; that is looked for without regard to quotes. So of
a text in which literals and quoted names stand, those calls are found that it makes with all quotes
emptied, and those that are spelled out inside quotes, which nobody makes. A metric is aggregated
twice, and a metric that is tested row by row is refused, for the one as for the other.
-/
import Rollup.Compile.Plan
import Rollup.Model.Check
import Rollup.Proofs.Compile.Plan
import Rollup.Proofs.Sql.Calls
import Rollup.Proofs.Sql.Lexing

namespace Rollup

namespace Sql

open Text

/-! ## What a call is -/

/-- Somewhere in a text stands the name of an aggregate in any case, no character of a word before
it, and behind it, perhaps after blanks, an opening parenthesis. -/
def CallsAggregate (text : List Char) : Prop :=
  ∃ before name blanks after, text = before ++ (name ++ (blanks ++ '(' :: after)) ∧
    (∃ aggregate ∈ aggregateNames, name.map foldCase = aggregate.toList) ∧
    (∀ c ∈ blanks, isBlank c = true) ∧ ∀ c ∈ before.getLast?, isWordChar c = false

theorem completes_iff {name text : List Char} : completes name text = true ↔
    ∃ letters blanks after, text = letters ++ (blanks ++ '(' :: after) ∧
      letters.map foldCase = name ∧ ∀ c ∈ blanks, isBlank c = true := by
  induction text generalizing name with
  | nil => simp
  | cons c text ih =>
    cases name with
    | nil =>
      rw [completes_nil_cons]
      split
      · rename_i hc
        rw [ih]
        constructor
        · rintro ⟨letters, blanks, after, rfl, hletters, hblanks⟩
          obtain rfl := List.map_eq_nil_iff.1 hletters
          exact ⟨[], c :: blanks, after, rfl, rfl, List.forall_mem_cons.2 ⟨hc, hblanks⟩⟩
        · rintro ⟨letters, blanks, after, htext, hletters, hblanks⟩
          obtain rfl := List.map_eq_nil_iff.1 hletters
          cases blanks with
          | nil =>
            obtain ⟨rfl, -⟩ := List.cons.inj htext
            cases hc
          | cons b blanks =>
            obtain ⟨rfl, rfl⟩ := List.cons.inj htext
            exact ⟨[], blanks, after, rfl, rfl, (List.forall_mem_cons.1 hblanks).2⟩
      · rename_i hc
        rw [beq_iff_eq]
        constructor
        · rintro rfl
          exact ⟨[], [], text, rfl, rfl, List.forall_mem_nil _⟩
        · rintro ⟨letters, blanks, after, htext, hletters, hblanks⟩
          obtain rfl := List.map_eq_nil_iff.1 hletters
          cases blanks with
          | nil => exact (List.cons.inj htext).1
          | cons b blanks =>
            obtain ⟨rfl, rfl⟩ := List.cons.inj htext
            exact (hc (hblanks c List.mem_cons_self)).elim
    | cons n name =>
      rw [completes_cons_cons, Bool.and_eq_true, beq_iff_eq, ih]
      constructor
      · rintro ⟨hn, letters, blanks, after, rfl, hletters, hblanks⟩
        refine ⟨c :: letters, blanks, after, rfl, ?_, hblanks⟩
        rw [List.map_cons, hn, hletters]
      · rintro ⟨letters, blanks, after, htext, hletters, hblanks⟩
        obtain ⟨l, letters, rfl, hl, hname⟩ := List.map_eq_cons_iff.1 hletters
        obtain ⟨rfl, rfl⟩ := List.cons.inj htext
        exact ⟨hl, letters, blanks, after, rfl, hname, hblanks⟩

theorem startsAggregateCall_iff {text : List Char} : startsAggregateCall text = true ↔
    ∃ name blanks after, text = name ++ (blanks ++ '(' :: after) ∧
      (∃ aggregate ∈ aggregateNames, name.map foldCase = aggregate.toList) ∧
      ∀ c ∈ blanks, isBlank c = true := by
  simp only [startsAggregateCall_eq, List.any_eq_true, completes_iff]
  constructor
  · rintro ⟨aggregate, haggregate, name, blanks, after, htext, hname, hblanks⟩
    exact ⟨name, blanks, after, htext, ⟨aggregate, haggregate, hname⟩, hblanks⟩
  · rintro ⟨name, blanks, after, htext, ⟨aggregate, haggregate, hname⟩, hblanks⟩
    exact ⟨aggregate, haggregate, name, blanks, after, htext, hname, hblanks⟩

/-- The text is walked through, and a call may begin wherever no word goes on. -/
theorem hasAggregateCall_iff {inWord : Bool} {text : List Char} :
    hasAggregateCall inWord text = true ↔ ∃ before rest, text = before ++ rest ∧
      startsAggregateCall rest = true ∧ (∀ c ∈ before.getLast?, isWordChar c = false) ∧
      (before = [] → inWord = false) := by
  induction text generalizing inWord with
  | nil =>
    have hnone : startsAggregateCall [] = false := by decide
    simp [hasAggregateCall, hnone]
  | cons c text ih =>
    rw [hasAggregateCall, Bool.or_eq_true, Bool.and_eq_true, Bool.not_eq_true', ih]
    constructor
    · rintro (⟨hword, hstarts⟩ | ⟨before, rest, rfl, hstarts, hlast, hfirst⟩)
      · exact ⟨[], c :: text, rfl, hstarts, by simp, fun _ => hword⟩
      · refine ⟨c :: before, rest, rfl, hstarts, ?_, by simp⟩
        cases before with
        | nil => simpa using hfirst rfl
        | cons b before => rwa [List.getLast?_cons_cons]
    · rintro ⟨before, rest, htext, hstarts, hlast, hfirst⟩
      cases before with
      | nil =>
        rw [List.nil_append] at htext
        exact .inl ⟨hfirst rfl, htext ▸ hstarts⟩
      | cons b before =>
        obtain ⟨rfl, rfl⟩ := List.cons.inj htext
        refine .inr ⟨before, rest, rfl, hstarts, ?_, ?_⟩
        · cases before with
          | nil => simp
          | cons b before => rwa [List.getLast?_cons_cons] at hlast
        · rintro rfl
          exact hlast c rfl

/-- What is looked for is found. -/
theorem hasAggregateCall_iff_calls {text : List Char} :
    hasAggregateCall false text = true ↔ CallsAggregate text := by
  simp only [hasAggregateCall_iff, startsAggregateCall_iff]
  constructor
  · rintro ⟨before, _, rfl, ⟨name, blanks, after, rfl, hname, hblanks⟩, hlast, -⟩
    exact ⟨before, name, blanks, after, rfl, hname, hblanks, hlast⟩
  · rintro ⟨before, name, blanks, after, rfl, hname, hblanks, hlast⟩
    exact ⟨before, _, rfl, ⟨name, blanks, after, rfl, hname, hblanks⟩, hlast, fun _ => trivial⟩

/-! ## Quotes in a text -/

namespace Precedence

/-- The character that begins the quotes. -/
def Quotes.opening : Quotes → Char
  | square => '['
  | q => q.closing

end Precedence

open Precedence (Quotes)

/-- A passage of a SQL text. -/
inductive Passage where
  | plain (s : String)
  /-- A literal or a quoted name that says this. -/
  | quoted (q : Quotes) (s : String)
  deriving DecidableEq

namespace Passage

/-- A passage as it stands in the text. -/
def text : Passage → String
  | plain s => s
  | quoted q s => enclose q.opening q.closing s

/-- The passage with nothing left in its quotes. -/
def emptied : Passage → Passage
  | plain s => plain s
  | quoted q _ => quoted q ""

/-- The text that some passages make together. -/
def joined (ps : List Passage) : String :=
  String.join (ps.map text)

/-- The passages call an aggregate outside quotes. -/
def CallsOutside (ps : List Passage) : Prop :=
  CallsAggregate (joined (ps.map emptied)).toList

/-- An aggregate call is spelled out inside the passage's quotes. -/
def SpellsCall : Passage → Prop
  | plain _ => False
  | quoted _ s => CallsAggregate s.toList

/-- An aggregate call is spelled out inside some quotes. -/
def CallsInside (ps : List Passage) : Prop :=
  ∃ p ∈ ps, p.SpellsCall

theorem toList_joined_cons (p : Passage) (ps : List Passage) :
    (joined (p :: ps)).toList = p.text.toList ++ (joined ps).toList := by
  simp [joined, String.toList_join]

theorem inert_quotes (q : Quotes) : Inert false [q.opening] ∧ Inert false [q.closing] := by
  constructor <;> refine inert_of_isInert ?_ <;> cases q <;> decide

/-- What is quoted is looked at for itself, passage by passage. -/
theorem hasAggregateCall_joined (ps : List Passage) (inWord : Bool) (before : List Char) :
    hasAggregateCall inWord (before ++ (joined ps).toList) = true ↔
      hasAggregateCall inWord (before ++ (joined (ps.map emptied)).toList) = true ∨
        CallsInside ps := by
  -- A call may go over several plain passages, so `before` gathers them until a quote stands.
  induction ps generalizing inWord before with
  | nil => simp [CallsInside]
  | cons p ps ih =>
    have hinside : CallsInside (p :: ps) ↔ p.SpellsCall ∨ CallsInside ps :=
      List.exists_mem_cons_iff ..
    rw [List.map_cons, toList_joined_cons, toList_joined_cons, hinside]
    cases p with
    | plain s =>
      rw [emptied, text, ← List.append_assoc, ← List.append_assoc, ih, SpellsCall, false_or]
    | quoted q s =>
      obtain ⟨hopen, hclose⟩ := inert_quotes q
      have hempty : hasAggregateCall false "".toList = false := rfl
      rw [text, emptied, text, hasAggregateCall_enclose hopen hclose,
        hasAggregateCall_enclose hopen hclose, hempty, Bool.or_false, Bool.or_eq_true,
        Bool.or_eq_true, Bool.or_eq_true, SpellsCall, ← hasAggregateCall_iff_calls]
      exact (or_congr_right (ih false [])).trans or_or_or_comm

/-- What is found in a text: the calls outside its quotes, and those inside them. -/
theorem embedsAggregate_joined (ps : List Passage) :
    embedsAggregate (joined ps) = true ↔ CallsOutside ps ∨ CallsInside ps := by
  rw [CallsOutside, ← hasAggregateCall_iff_calls]
  exact hasAggregateCall_joined ps false []

end Passage

end Sql

open Sql Passage

/-! ## Metrics -/

/-- A text is found to call an aggregate or not to, as it is with all quotes emptied, exactly if it
does so outside quotes or nothing inside them is spelled like a call. A metric with an aggregation
is aggregated twice for a call outside quotes and for one inside, and for both a metric that is
tested row by row is refused. -/
theorem embedsAggregate_emptied_iff (ps : List Passage) :
    (embedsAggregate (joined ps) = embedsAggregate (joined (ps.map emptied)) ↔
      (CallsInside ps → CallsOutside ps)) ∧
    (∀ path aggregation label, (Metric.mk path (joined ps) aggregation label).twoPass = true ↔
      aggregation.isSome = true ∧ (CallsOutside ps ∨ CallsInside ps)) ∧
    ∀ {m : Model} (q : Query) (root : m.Member) (t : Predicate) (f : Fragment),
      expandColumn ⟨.duckdb, false⟩ (Scope.of root q.arguments) t.column.joins t.column.column
        t.column.arguments none = .ok f → f.sql = joined ps →
      (Placement.checkRawMetric q root t = .error (.operator t .alreadyAggregated) ↔
        CallsOutside ps ∨ CallsInside ps) := by
  have hcalls := embedsAggregate_joined ps
  have hemptied : embedsAggregate (joined (ps.map emptied)) = true ↔ CallsOutside ps :=
    hasAggregateCall_iff_calls
  refine ⟨?_, fun path aggregation label => ?_, fun q root t f hf hsql => ?_⟩
  · rw [Bool.eq_iff_iff, hcalls, hemptied]
    exact or_iff_left_iff_imp
  · rw [Metric.twoPass, Bool.and_eq_true, hcalls]
  · have hcheck : Placement.checkRawMetric q root t =
        if embedsAggregate f.sql then .error (.operator t .alreadyAggregated) else .ok () := by
      rw [Placement.checkRawMetric, hf]
      rfl
    rw [hcheck, hsql, ← hcalls]
    simp

/-- Films, and how many of them have a note. -/
def filmLog : Model where
  tables := [
    { name := "films"
      source := .physical none "films"
      columns := [
        { name := "genre", formula := "\x7b\x7b$genre\x7d\x7d", kind := .dimension },
        { name := "hits", formula := "CASE WHEN \x7b\x7b$note\x7d\x7d = 'max (x)' THEN 1 ELSE 0 END"
          kind := .metric (some .sum) [] }] }]

/-- The films of the log. -/
def films : filmLog.Member := ⟨filmLog.tables.head (by decide), List.mem_cons_self⟩

/-- What the number of hits expands to. -/
def hitsText : List Passage :=
  [.plain "CASE WHEN ", .quoted .double "films", .plain ".", .quoted .double "note", .plain " = ",
    .quoted .single "max (x)", .plain " THEN 1 ELSE 0 END"]

/-- The hits of each genre. -/
def hitsByGenre : Query where
  table := "films"
  arguments := .empty
  projections := [⟨{ column := "genre" }, .dimension, "genre"⟩,
    ⟨{ column := "hits" }, .metric, "hits"⟩]
  whereFilter := none
  havingFilter := none
  sorting := []
  pagination := none
  bypassCache := false

/-- A film that is a hit. -/
def isHit : Predicate :=
  ⟨{ column := "hits" }, .compare .gt, [.int 0]⟩

theorem callsInside_hitsText : CallsInside hitsText := by
  refine ⟨.quoted .single "max (x)", by decide, [], "max".toList, [' '], "x)".toList, by decide,
    ⟨"max", by decide, by decide⟩, List.forall_mem_singleton.2 (by decide), by simp⟩

/-- The note in the literal is taken for a call, and the test of one film is refused. -/
theorem embedsAggregate_emptied_isHit :
    ∃ f, expandColumn ⟨.duckdb, false⟩ (Scope.of films hitsByGenre.arguments) [] "hits" .empty none
        = .ok f ∧ f.sql = joined hitsText ∧
      Placement.checkRawMetric hitsByGenre films isHit =
        .error (.operator isHit .alreadyAggregated) := by
  have hexpand : (expandColumn ⟨.duckdb, false⟩ (Scope.of films hitsByGenre.arguments) [] "hits"
      .empty none).map (·.sql) = .ok (joined hitsText) := by
    decide +kernel
  obtain ⟨f, hf, hsql⟩ := map_ok hexpand
  have h := (embedsAggregate_emptied_iff hitsText).2.2 hitsByGenre films isHit f hf hsql
  exact ⟨f, hf, hsql, h.2 (.inr callsInside_hitsText)⟩

/-- With the note emptied nothing is found in the number of hits, and yet it is aggregated twice: the
inner statement does not sum it up. -/
theorem embedsAggregate_emptied_hits :
    Model.build filmLog.tables = .ok filmLog ∧
    embedsAggregate (joined (hitsText.map emptied)) = false ∧ embedsAggregate (joined hitsText) = true ∧
    ∃ c p s, compile filmLog .sqlite hitsByGenre = .ok c ∧ c.nested = true ∧
      Plan.build filmLog .sqlite hitsByGenre = .ok p ∧ s ∈ p.metrics ∧ s.sql = joined hitsText ∧
      s.aggregation = some .sum ∧ (p.partials s).map (·.expr.tokens) = [[.raw s.sql]] := by
  have hfilters : Placement.of filmLog hitsByGenre = .ok {} := by decide +kernel
  have hroot : filmLog.require "films" = .ok films := rfl
  obtain ⟨p, hp, hshown⟩ := Plan.build_shown (d := .sqlite) (fun p =>
      p.compile.toOption.any (·.nested) &&
        p.metrics.any fun s => s.sql == joined hitsText && s.aggregation == some .sum &&
          (p.partials s).map (·.expr.tokens) == [[.raw s.sql]])
    hfilters hroot (by decide +kernel)
  rw [Bool.and_eq_true, Option.any_eq_true, List.any_eq_true] at hshown
  obtain ⟨⟨c, hc, hnested⟩, s, hs, hsql⟩ := hshown
  simp only [Bool.and_eq_true, beq_iff_eq] at hsql
  obtain ⟨⟨hsql, hsum⟩, hpart⟩ := hsql
  exact ⟨by decide +kernel, by decide +kernel, by decide +kernel, c, p, s,
    (compile_of_build hp).trans (ok_of_toOption hc), hnested, hp, hs, hsql, hsum, hpart⟩

end Rollup
