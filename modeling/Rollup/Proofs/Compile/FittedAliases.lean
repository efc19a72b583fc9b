/-
Aliases that fit a dialect. A name that has too many bytes is cut between two characters and gets an
underscore and a digest, and fits then; fitting it again changes nothing. Every alias of a compiled
statement is fitted, the longer ones that are made of others too: those of projections and of the
parts of their averages, those of hidden columns, and those of the table, of the joins and of the
inner statement. The two names that are given without being fitted are short.
-/
import Rollup.Proofs.Compile.Closed
import Rollup.Proofs.Compile.InnerLabels

namespace Rollup

namespace Sql

/-! ## Names -/

/-- A name fits a dialect: nothing of it is cut off. -/
def Fits (d : Dialect) (name : String) : Prop :=
  fitName d name = name

theorem fits_fitName (d : Dialect) (name : String) : Fits d (fitName d name) :=
  fitName_fitName d name

theorem fits_iff {d : Dialect} {limit : Nat} (h : d.nameLimit? = some limit) {name : String} :
    Fits d name ↔ name.utf8ByteSize ≤ limit := by
  constructor
  · intro hfits
    exact hfits ▸ utf8ByteSize_fitName h name
  · intro hsize
    simp only [Fits, fitName, h, if_pos hsize]

/-- What a name that is too long is cut to: a start of it, an underscore and eight digits of a
digest, with less room left than a character may need. -/
def IsCutTo (limit : Nat) (name short : String) : Prop :=
  ∃ start digits, short = start ++ "_" ++ digits ∧ start.toList <+: name.toList ∧
    digits.toList.length = 8 ∧ (∀ c ∈ digits.toList, c ∈ Digest.hexDigits) ∧
    limit < short.utf8ByteSize + 4

theorem isCutTo_fitName {d : Dialect} {limit : Nat} (h : d.nameLimit? = some limit)
    {name : String} (hlong : limit < name.utf8ByteSize) : IsCutTo limit name (fitName d name) := by
  have hne : fitName d name ≠ name := fun hfits => by
    have hsize := (fits_iff h).1 hfits
    omega
  obtain ⟨limit', hlimit, -, hlist, hfills⟩ := fitName_of_ne hne
  cases h.symm.trans hlimit
  refine ⟨String.ofList (takeBytes (limit - 9) name.toList), Digest.short name, ?_, ?_,
    Digest.length_short name, fun c => Digest.mem_hexDigits, hfills⟩
  · rw [← String.toList_inj, hlist, String.toList_append, String.toList_append,
      String.toList_ofList, List.append_assoc]
    rfl
  · rw [String.toList_ofList]
    exact takeBytes_isPrefix _ _

/-! ## Aliases of a statement -/

mutual

/-- The aliases given inside a relation. -/
def Relation.aliases : Relation → List String
  | .table _ _ => []
  | .text _ => []
  | .query select => select.aliases

/-- The alias of a source, and those inside it. -/
def Source.aliases : Source → List String
  | ⟨relation, label⟩ => label.toList ++ relation.aliases

/-- The aliases of a source that is joined. -/
def Joined.aliases : Joined → List String
  | ⟨_, source, _⟩ => source.aliases

/-- The aliases of some joins. -/
def joinAliases : List Joined → List String
  | [] => []
  | j :: rest => j.aliases ++ joinAliases rest

/-- The aliases of a source, if there is one. -/
def sourceAliases : Option Source → List String
  | none => []
  | some s => s.aliases

/-- The aliases of a statement: those of its select list and of what it reads from, and those of the
statements inside it. -/
def Select.aliases : Select → List String
  | ⟨items, _, source, joins, _, _, _, _, _⟩ =>
    items.filterMap (·.label) ++ sourceAliases source ++ joinAliases joins

end

/-- Every alias of a statement fits. -/
def Select.AliasesFit (d : Dialect) (s : Select) : Prop :=
  ∀ a ∈ s.aliases, Fits d a

theorem Select.aliasesFit_iff {d : Dialect} {s : Select} :
    s.AliasesFit d ↔ (∀ i ∈ s.items, ∀ a ∈ i.label, Fits d a) ∧
      (∀ a ∈ sourceAliases s.source, Fits d a) ∧ ∀ a ∈ joinAliases s.joins, Fits d a := by
  have hitems : (∀ i ∈ s.items, ∀ a ∈ i.label, Fits d a) ↔
      ∀ a ∈ s.items.filterMap (·.label), Fits d a := by
    simp only [List.mem_filterMap, forall_exists_index, and_imp, Option.mem_def]
    exact ⟨fun h a i hi ha => h i hi a ha, fun h i hi a ha => h a i hi ha⟩
  rw [hitems]
  cases s
  rw [AliasesFit, aliases, List.forall_mem_append, List.forall_mem_append, and_assoc]

end Sql

open Sql

/-! ## Plans -/

namespace Plan

variable {p : Plan} {vs vs' : List Operand}

/-- Everything in a plan that becomes an alias fits. -/
structure Fitted (p : Plan) : Prop where
  root : Fits p.dialect p.rootAlias
  joins : ∀ j ∈ p.joins, Fits p.dialect j.label
  outputs : ∀ o ∈ p.outputs, Fits p.dialect o.column.label
  groupings : ∀ g ∈ p.dimensions ++ p.nestBy, Fits p.dialect g.label
  metrics : ∀ s ∈ p.metrics, Fits p.dialect s.label

/-- The label of what stands behind an output column. -/
def contentLabel : Content → String
  | .dimension g => g.label
  | .metric s => s.label

theorem contentLabel_output (d : Dialect) (x : Projection) (c : Column) (sql : String) :
    contentLabel (x.output d c sql).content = fitName d x.name := by
  unfold Projection.output
  dsimp only
  split <;> rfl

theorem fitted_of_build {m : Model} {d : Dialect} {q : Query} (h : build m d q = .ok p) :
    p.Fitted := by
  obtain ⟨filters, root, required, -, -, hdrafted, hjoins⟩ := build_drafted h
  obtain rfl := hdrafted.dialect
  have hlabelled := hdrafted.labelled
  have hcontents : ∀ o ∈ p.outputs, Fits p.dialect (contentLabel o.content) := by
    intro o ho
    obtain ⟨x, c, sql, rfl⟩ := hlabelled.contents o ho
    rw [contentLabel_output]
    exact fits_fitName _ _
  refine {
    root := ?root
    joins := ?joins
    outputs := ?outputs
    groupings := List.forall_mem_append.2 ⟨?dimensions, ?nestBy⟩
    metrics := List.forall_mem_append.2 ⟨?projected, ?hidden⟩ }
  case root =>
    rw [hdrafted.rootAlias_eq]
    exact fits_fitName _ _
  case joins =>
    intro j hj
    obtain ⟨before, after, hsplit⟩ := List.append_of_mem hj
    rw [hsplit] at hjoins
    obtain ⟨x, ⟨_, _, _, -, -, -, -, hlabel, -⟩, -⟩ :=
      JoinPlan.join_of_split (JoinPlan.of?_of_ok hjoins)
    rw [hlabel]
    exact fits_fitName _ _
  case outputs =>
    intro o ho
    obtain ⟨x, c, sql, rfl⟩ := hlabelled.contents o ho
    exact fits_fitName _ _
  case dimensions =>
    intro g hg
    obtain ⟨o, ho, hcontent⟩ := mem_groupings.1 hg
    have hfits := hcontents o ho
    rwa [hcontent] at hfits
  case nestBy =>
    intro g hg
    obtain ⟨x, hlabel⟩ := hlabelled.nests.nests g hg
    rw [hlabel]
    exact fits_fitName _ _
  case projected =>
    intro s hs
    obtain ⟨o, ho, hcontent⟩ := mem_projectedMetrics.1 hs
    have hfits := hcontents o ho
    rwa [hcontent] at hfits
  case hidden =>
    intro s hs
    obtain ⟨n, -, hlabel⟩ := hlabelled.mem_hidden hs
    rw [hlabel]
    exact fits_fitName _ _

theorem sourceAliases_sourceOf (t : Table) (label : String) :
    sourceAliases (some (sourceOf t label)) = [label] := by
  unfold sourceOf
  cases t.source <;> rfl

theorem joinAliases_joinedOf (joins : List PlannedJoin) :
    joinAliases (joins.map joinedOf) = joins.map (·.label) := by
  induction joins with
  | nil => rfl
  | cons j joins ih =>
    have hj : (joinedOf j).aliases = [j.label] := sourceAliases_sourceOf j.table j.label
    rw [List.map_cons, joinAliases, hj, ih]
    rfl

namespace Fitted

variable {s : Select}

theorem partials (h : p.Fitted) {t : Metric} (ht : t ∈ p.metrics) :
    ∀ i ∈ p.partials t, ∀ a ∈ i.label, Fits p.dialect a := by
  have hlabels : ∀ l ∈ p.partialLabels t, Fits p.dialect l := by
    unfold partialLabels
    split
    · exact List.forall_mem_map.2 fun name _ => fits_fitName _ _
    · exact List.forall_mem_singleton.2 (h.metrics t ht)
  intro i hi a ha
  have hmem : i.label ∈ (p.partials t).map Item.label := List.mem_map_of_mem hi
  rw [map_label_partials, Option.mem_def.1 ha] at hmem
  obtain ⟨l, hl, heq⟩ := List.mem_map.1 hmem
  exact Option.some.inj heq ▸ hlabels l hl

/-- The statement that reads the table. -/
theorem base (h : p.Fitted) (hbase : p.base.run vs = .ok (s, vs')) : s.AliasesFit p.dialect := by
  obtain ⟨condition, rfl⟩ := base_run hbase
  refine Select.aliasesFit_iff.2 ⟨fun i hi => (List.not_mem_nil hi).elim, ?_, ?_⟩
  · rw [sourceAliases_sourceOf]
    exact List.forall_mem_singleton.2 h.root
  · rw [joinAliases_joinedOf]
    exact List.forall_mem_map.2 h.joins

/-- The inner statement of two passes. -/
theorem innerSelect (h : p.Fitted) (hbase : s.AliasesFit p.dialect) :
    (p.innerSelect s).AliasesFit p.dialect := by
  obtain ⟨-, hsource, hjoins⟩ := Select.aliasesFit_iff.1 hbase
  refine Select.aliasesFit_iff.2 ⟨List.forall_mem_append.2 ⟨?_, fun i hi => ?_⟩, hsource, hjoins⟩
  · refine List.forall_mem_map.2 fun g hg a ha => ?_
    exact Option.some.inj ha ▸ h.groupings g hg
  · obtain ⟨t, ht, hi⟩ := List.mem_flatMap.1 hi
    exact h.partials ht i hi

theorem grouped (h : p.Fitted) (hbase : s.AliasesFit p.dialect) :
    (p.grouped s).AliasesFit p.dialect := by
  have hitems : ∀ i ∈ p.outputItems, ∀ a ∈ i.label, Fits p.dialect a :=
    List.forall_mem_map.2 fun o ho a ha => Option.some.inj ha ▸ h.outputs o ho
  obtain ⟨-, hsource, hjoins⟩ := Select.aliasesFit_iff.1 hbase
  unfold Plan.grouped
  split
  · refine Select.aliasesFit_iff.2 ⟨hitems, ?_, fun a ha => (List.not_mem_nil ha).elim⟩
    exact List.forall_mem_cons.2 ⟨fits_fitName _ _, h.innerSelect hbase⟩
  · split
    · exact Select.aliasesFit_iff.2 ⟨hitems, hsource, hjoins⟩
    · exact Select.aliasesFit_iff.2 ⟨hitems, hsource, hjoins⟩

theorem rows (h : p.Fitted) (hrows : p.rows.run vs = .ok (s, vs')) : s.AliasesFit p.dialect := by
  obtain ⟨base, having, _, hbase, -, rfl⟩ := rows_run hrows
  -- HAVING gives no alias, and neither do ORDER BY and the page below.
  have hgrouped := Select.aliasesFit_iff.1 (h.grouped (h.base hbase))
  exact Select.aliasesFit_iff.2 hgrouped

theorem main (h : p.Fitted) (hmain : p.main.run vs = .ok (s, vs')) : s.AliasesFit p.dialect := by
  obtain ⟨rows, orderBy, _, hrows, -, rfl⟩ := main_run hmain
  have hfit := Select.aliasesFit_iff.1 (h.rows hrows)
  exact Select.aliasesFit_iff.2 hfit

/-- The statement that counts gives two names of its own. -/
theorem countSelect (h : p.Fitted) (hcount : p.countSelect.run vs = .ok (s, vs')) :
    s.AliasesFit p.dialect := by
  have hown : Fits p.dialect "total" ∧ Fits p.dialect "pagination_subquery" := by
    unfold Fits
    cases p.dialect <;> decide
  have hitem (e : Expr) : ∀ i ∈ [labelled e "total"], ∀ a ∈ i.label, Fits p.dialect a :=
    List.forall_mem_singleton.2 fun a ha => Option.some.inj ha ▸ hown.1
  unfold Plan.countSelect at hcount
  split at hcount
  · obtain ⟨base, _, hbase, hcount⟩ := run_bind_ok hcount
    cases hcount
    obtain ⟨-, hsource, hjoins⟩ := Select.aliasesFit_iff.1 (h.base hbase)
    exact Select.aliasesFit_iff.2 ⟨hitem _, hsource, hjoins⟩
  · obtain ⟨rows, _, hrows, hcount⟩ := run_bind_ok hcount
    cases hcount
    refine Select.aliasesFit_iff.2 ⟨hitem _, ?_, fun a ha => (List.not_mem_nil ha).elim⟩
    exact List.forall_mem_cons.2 ⟨hown.2, h.rows hrows⟩

end Fitted

end Plan

/-! ## Statements -/

/-- A statement is written from one whose aliases, in the select lists and of the tables, have at
most so many bytes. -/
def Statement.AliasesWithin (st : Statement) (x : Binding Select) (d : Dialect) (limit : Nat) :
    Prop :=
  ∃ s, x.run [] = .ok (s, st.params) ∧ st.sql = s.render d ∧ ∀ a ∈ s.aliases, a.utf8ByteSize ≤ limit

/-- In a dialect that limits names every name is fitted to the limit: it stays as it is if it can,
is cut otherwise, and fitted again it stays as it is. And in every compiled query all aliases of the
main statement and of the one that counts are within the limit. -/
theorem compile_aliases_fit {d : Dialect} {limit : Nat} (hlimit : d.nameLimit? = some limit) :
    (∀ name : String, (fitName d name).utf8ByteSize ≤ limit ∧
      (name.utf8ByteSize ≤ limit → fitName d name = name) ∧
      (limit < name.utf8ByteSize → IsCutTo limit name (fitName d name)) ∧
      fitName d (fitName d name) = fitName d name) ∧
    ∀ (m : Model) (q : Query) (c : Compiled), compile m d q = .ok c →
      ∃ p, Plan.build m d q = .ok p ∧ c.main.AliasesWithin p.main d limit ∧
        ∀ st ∈ c.count, st.AliasesWithin p.countSelect d limit := by
  refine ⟨fun name => ⟨utf8ByteSize_fitName hlimit name, (fits_iff hlimit).2,
    isCutTo_fitName hlimit, fitName_fitName d name⟩, fun m q c h => ?_⟩
  obtain ⟨p, hbuild, hcompile⟩ := bind_ok h
  have hfitted := Plan.fitted_of_build hbuild
  obtain ⟨rfl, -⟩ := Plan.build_ok hbuild
  have hwithin : ∀ (st : Statement) (x : Binding Select),
      (∀ s params, x.run [] = .ok (s, params) → s.AliasesFit p.dialect) →
      Plan.statement p.dialect x = .ok st → st.AliasesWithin x p.dialect limit := by
    intro st x hfits hst
    obtain ⟨s, params, hrun, rfl⟩ := Plan.statement_ok hst
    exact ⟨s, hrun, rfl, fun a ha => (fits_iff hlimit).1 (hfits s params hrun a ha)⟩
  obtain ⟨hmain, hcount⟩ := Plan.compile_ok hcompile
  refine ⟨p, hbuild, hwithin _ _ (fun s params => hfitted.main) hmain, fun st hst => ?_⟩
  exact hwithin _ _ (fun s params => hfitted.countSelect) (hcount st hst)

/-- A name of 68 bytes. -/
def paceName : String :=
  "seconds that the driver has needed on average, over all of the races"

/-- A page of drivers with their pace and their best season, and how many drivers there are. -/
def pacePage : Query where
  table := "races"
  arguments := .empty
  projections := [⟨{ column := "driver" }, .dimension, "driver"⟩,
    ⟨{ column := "pace" }, .metric, paceName⟩, ⟨{ column := "best" }, .metric, "best"⟩]
  whereFilter := none
  havingFilter := none
  sorting := []
  pagination := some { limit := some 10, wantTotal := true }
  bypassCache := false

/-- The request for that page. -/
def pacePageRequest : Request where
  table := "races"
  select := [⟨{ column := "driver" }, none⟩, ⟨{ column := "pace" }, some paceName⟩,
    ⟨{ column := "best" }, none⟩]
  pagination := some { limit := some 10, wantTotal := true }

/-- The name of the pace is cut, and the names of the parts of the average are made of what is left. -/
theorem compile_aliases_fit_pacePage :
    Query.build raceLog pacePageRequest = .ok pacePage ∧
    paceName.utf8ByteSize = 68 ∧ IsCutTo 63 paceName (fitName .postgres paceName) ∧
    ∃ c p, compile raceLog .postgres pacePage = .ok c ∧ c.nested = true ∧
      Plan.build raceLog .postgres pacePage = .ok p ∧ c.main.AliasesWithin p.main .postgres 63 ∧
      ∃ st, c.count = some st ∧ st.AliasesWithin p.countSelect .postgres 63 := by
  obtain ⟨hname, hwithin⟩ := compile_aliases_fit (d := .postgres) rfl
  have hfilters : Placement.of raceLog pacePage = .ok {} := by decide +kernel
  have hroot : raceLog.require "races" =
      .ok ⟨raceLog.tables.head (by decide), List.mem_cons_self⟩ := rfl
  obtain ⟨p, hp, hshown⟩ := Plan.build_shown (d := .postgres)
    (fun p => p.compile.toOption.any fun c => c.nested && c.count.isSome)
    hfilters hroot (by decide +kernel)
  obtain ⟨c, hc, hshown⟩ := (Option.any_eq_true _ _).1 hshown
  obtain ⟨hnested, hcount⟩ := Bool.and_eq_true_iff.1 hshown
  obtain ⟨st, hst⟩ := Option.isSome_iff_exists.1 hcount
  have hcompile := (compile_of_build hp).trans (ok_of_toOption hc)
  obtain ⟨p', hp', hmain, hcounted⟩ := hwithin raceLog pacePage c hcompile
  cases hp.symm.trans hp'
  obtain ⟨-, -, hcut, -⟩ := hname paceName
  exact ⟨by decide +kernel, by decide +kernel, hcut (by decide +kernel), c, p, hcompile, hnested, hp,
    hmain, st, hst, hcounted st hst⟩

end Rollup
