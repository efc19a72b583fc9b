/-
The names of the columns of the inner statement of two passes. They come from projections, from the
parts that averages are split into, from columns that metrics are nested by, and from metrics that
only conditions on groups test. Each kind keeps its own names apart, and nobody checks that the
others do not take the name of a projection. Where they do not, every column that the outer
statement names is one column of the inner one.
-/
import Rollup.Proofs.Compile.Placeholders
import Rollup.Proofs.Compile.Sources
import Rollup.Proofs.Compile.Texts
import Rollup.Proofs.Sql.Alias
import Rollup.Proofs.Sql.Reading
import Mathlib.Data.List.Nodup

namespace Rollup

open Sql

/-! ## Labels -/

namespace Metric

/-- Whether the inner statement selects the metric in parts, a sum and a count. -/
def isSplit (s : Metric) : Bool :=
  !s.twoPass && s.aggregation == some .avg

/-- The names of the parts before they are fitted to a dialect. -/
def partNames (s : Metric) : List String :=
  ["sum", "count"].map fun part => s.label ++ "_" ++ part

end Metric

namespace Plan

section

variable (p : Plan)

/-- The labels of what a metric contributes to the inner statement. -/
def partialLabels (s : Metric) : List String :=
  if s.isSplit then s.partNames.map (fitName p.dialect) else [s.label]

/-- The labels that projections have in the inner statement. -/
def projectedLabels : List String :=
  p.dimensions.map (·.label) ++ (projectedMetrics p.outputs).flatMap p.partialLabels

/-- The labels of the projections that the inner statement selects whole. -/
def wholeLabels : List String :=
  p.dimensions.map (·.label) ++
    ((projectedMetrics p.outputs).filter (!·.isSplit)).map (·.label)

/-- No label that is made up, for a part of an average, for a column that metrics are nested by or
for a metric that only conditions test, is that of a projection. -/
structure LabelsApart : Prop where
  parts : ∀ s ∈ projectedMetrics p.outputs, s.isSplit = true →
    ∀ l ∈ p.partialLabels s, l ∉ p.wholeLabels
  nests : ∀ g ∈ p.nestBy, g.label ∉ p.projectedLabels
  hidden : ∀ s ∈ p.hidden, ∀ l ∈ p.partialLabels s, l ∉ p.projectedLabels

instance : Decidable p.LabelsApart :=
  decidable_of_iff ((∀ s ∈ projectedMetrics p.outputs, s.isSplit = true →
      ∀ l ∈ p.partialLabels s, l ∉ p.wholeLabels) ∧
    (∀ g ∈ p.nestBy, g.label ∉ p.projectedLabels) ∧
    ∀ s ∈ p.hidden, ∀ l ∈ p.partialLabels s, l ∉ p.projectedLabels)
    ⟨fun ⟨hparts, hnests, hhidden⟩ => ⟨hparts, hnests, hhidden⟩,
      fun ⟨hparts, hnests, hhidden⟩ => ⟨hparts, hnests, hhidden⟩⟩

/-- The name of the metric that comes after some others, if only conditions test it. -/
def hiddenName (before : Nat) : String :=
  "having_" ++ toString before

/-- The names that are made up for metrics, before they are fitted to the dialect. -/
def madeNames : List String :=
  (p.metrics.filter Metric.isSplit).flatMap Metric.partNames ++
    (List.range' (projectedMetrics p.outputs).length p.hidden.length).map hiddenName

variable {p}

theorem partialLabels_split {s : Metric} (h : s.isSplit = true) :
    p.partialLabels s = s.partNames.map (fitName p.dialect) := if_pos h

theorem partialLabels_whole {s : Metric} (h : s.isSplit = false) :
    p.partialLabels s = [s.label] := if_neg (by simp [h])

theorem map_label_partials (s : Metric) :
    (p.partials s).map (·.label) = (p.partialLabels s).map some := by
  unfold partials partialLabels Metric.isSplit
  cases s.twoPass with
  | true => rfl
  | false =>
    cases s.aggregation with
    | none => rfl
    | some a => cases a <;> rfl

theorem map_label_flatMap_partials (ss : List Metric) :
    (ss.flatMap p.partials).map (·.label) = (ss.flatMap p.partialLabels).map some := by
  rw [List.map_flatMap, List.map_flatMap]
  exact congrArg (ss.flatMap ·) (funext map_label_partials)

/-- The labels of the inner statement are those of projections and those that are made up. -/
theorem labels_perm (base : Select) : ((p.innerSelect base).items.map (·.label)).Perm
    ((p.projectedLabels ++
      (p.nestBy.map (·.label) ++ p.hidden.flatMap p.partialLabels)).map some) := by
  have hlabels : (p.innerSelect base).items.map (·.label) =
      ((p.dimensions ++ p.nestBy).map (·.label) ++ p.metrics.flatMap p.partialLabels).map some := by
    rw [List.map_append, List.map_map, ← map_label_flatMap_partials]
    show ((p.dimensions ++ p.nestBy).map groupingItem ++ p.metrics.flatMap p.partials).map
      (·.label) = _
    rw [List.map_append, List.map_map]
    rfl
  rw [hlabels]
  refine List.Perm.map some ?_
  rw [projectedLabels, metrics, List.map_append, List.flatMap_append, List.append_assoc,
    List.append_assoc]
  refine List.Perm.append_left _ ?_
  rw [← List.append_assoc, ← List.append_assoc]
  exact List.Perm.append_right _ List.perm_append_comm

/-- What metrics contribute is whole or in parts. -/
theorem flatMap_partialLabels_perm (ss : List Metric) : (ss.flatMap p.partialLabels).Perm
    ((ss.filter (!·.isSplit)).map (·.label) ++
      ((ss.filter Metric.isSplit).flatMap Metric.partNames).map (fitName p.dialect)) := by
  induction ss with
  | nil => exact .nil
  | cons s ss ih =>
    cases hsplit : s.isSplit with
    | true =>
      rw [List.flatMap_cons, partialLabels_split hsplit, List.filter_cons_of_neg (by simp [hsplit]),
        List.filter_cons_of_pos hsplit, List.flatMap_cons, List.map_append]
      exact (ih.append_left _).trans (List.perm_append_comm_assoc _ _ _)
    | false =>
      rw [List.flatMap_cons, partialLabels_whole hsplit, List.filter_cons_of_pos (by simp [hsplit]),
        List.filter_cons_of_neg (by simp [hsplit])]
      exact ih.cons _

end

/-! ## Names that are made up -/

section

variable {d : Dialect} {s t : Metric} {name : String}

theorem unshortened_part (h : name ∈ s.partNames) : Unshortened d name := by
  simp only [Metric.partNames, List.map_cons, List.map_nil, List.mem_cons, List.not_mem_nil,
    or_false] at h
  rcases h with rfl | rfl
  · have hlast : s.label ++ "_" ++ "sum" = (s.label ++ "_su").push 'm' := by
      simp [← String.toList_inj]
    exact unshortened_of_last hlast (by decide)
  · have hlast : s.label ++ "_" ++ "count" = (s.label ++ "_coun").push 't' := by
      simp [← String.toList_inj]
    exact unshortened_of_last hlast (by decide)

theorem unshortened_hiddenName (n : Nat) : Unshortened d (hiddenName n) :=
  unshortened_append (by decide) fun _ => isAlphanum_of_mem_toString

theorem hiddenName_injective {n k : Nat} (h : hiddenName n = hiddenName k) : n = k := by
  have hdigits : (toString n).toList = (toString k).toList :=
    congrArg String.toList ((String.append_right_inj "having_").1 h)
  have hread := congrArg (fun cs => Nat.ofDigitChars 10 cs 0) hdigits
  simpa [Nat.toString_eq_ofList_toDigits] using hread

/-- A part is no metric that only conditions test: such a name has neither of these letters. -/
theorem hiddenName_ne_part (n : Nat) (h : name ∈ s.partNames) : hiddenName n ≠ name := by
  have hletters : ∀ c ∈ (hiddenName n).toList, c ∈ "having_".toList ∨ c.isDigit = true := by
    intro c hc
    rw [hiddenName, String.toList_append] at hc
    exact (List.mem_append.1 hc).imp_right isDigit_of_mem_toString
  rintro rfl
  simp only [Metric.partNames, List.map_cons, List.map_nil, List.mem_cons, List.not_mem_nil,
    or_false] at h
  rcases h with h | h
  · exact absurd (hletters 'm' (by simp [h])) (by decide)
  · exact absurd (hletters 't' (by simp [h])) (by decide)

/-- Parts of one name are parts of one label. -/
theorem label_eq_of_part (hs : name ∈ s.partNames) (ht : name ∈ t.partNames) :
    s.label = t.label := by
  have hends : ∀ a b, a ++ "_" ++ "sum" ≠ b ++ "_" ++ "count" := by
    intro a b h
    have hlast := congrArg (·.toList.getLast?) h
    simp at hlast
  simp only [Metric.partNames, List.map_cons, List.map_nil, List.mem_cons, List.not_mem_nil,
    or_false] at hs ht
  rcases hs with rfl | rfl <;> rcases ht with h | h
  · exact (String.append_left_inj _).1 ((String.append_left_inj _).1 h)
  · exact (hends _ _ h).elim
  · exact (hends _ _ h.symm).elim
  · exact (String.append_left_inj _).1 ((String.append_left_inj _).1 h)

theorem nodup_partNames {ss : List Metric} (h : (ss.map (·.label)).Nodup) :
    (ss.flatMap Metric.partNames).Nodup := by
  refine List.nodup_flatMap.2 ⟨fun s _ => ?_, ?_⟩
  · simp [Metric.partNames]
  · refine (List.pairwise_map.1 h).imp fun hlabels => ?_
    exact fun name hs ht => hlabels (label_eq_of_part hs ht)

end

/-! ## Runs -/

section

variable {m : Model} {mode : Mode} {scope : Scope m} {memo memo' : Memo}

/-- Metrics that only conditions test are numbered on from those known before. -/
theorem hiddenOf_labels {known ss : List Metric} {ts : List Predicate} {joins : List JoinPath}
    (h : (hiddenOf mode scope known ts).run memo = .ok ((ss, joins), memo')) :
    ss.map (·.label) = ((List.range' known.length ss.length).map hiddenName).map
      (fitName mode.dialect) := by
  induction ts generalizing known ss joins memo with
  | nil =>
    cases h
    rfl
  | cons t ts ih =>
    unfold hiddenOf at h
    obtain ⟨⟨u, c⟩, _, -, h⟩ := run_bind_ok h
    dsimp only at h
    split at h
    · exact ih h
    · obtain ⟨f, memo₁, -, h⟩ := run_bind_ok h
      obtain ⟨⟨rest, more⟩, memo₂, hrest, h⟩ := run_bind_ok h
      cases h
      dsimp only
      rw [List.map_cons, ih hrest, List.length_append, List.length_singleton, List.length_cons,
        List.range'_succ]
      rfl

/-- Columns that metrics are nested by have aliases of their own, each another one. -/
structure NestLabels (mode : Mode) (gs : List Grouping) : Prop where
  nodup : (gs.map (·.label)).Nodup
  nests : ∀ g ∈ gs, ∃ x, g.label = nestAlias mode x

theorem nestByOf_labels {q : Query} {known gs : List Grouping} {xs : List Path}
    {joins : List JoinPath} (hknown : NestLabels mode known)
    (h : (nestByOf mode scope q known xs).run memo = .ok ((gs, joins), memo')) :
    NestLabels mode (known ++ gs) := by
  induction xs generalizing known gs joins memo with
  | nil =>
    cases h
    rwa [List.append_nil]
  | cons x xs ih =>
    unfold nestByOf at h
    dsimp only at h
    split at h
    · exact ih hknown h
    · rename_i hskip
      rw [Bool.or_eq_true, projects_iff, not_or, List.any_eq_true] at hskip
      obtain ⟨f, memo₁, -, h⟩ := run_bind_ok h
      obtain ⟨⟨rest, more⟩, memo₂, hrest, h⟩ := run_bind_ok h
      cases h
      rw [List.append_cons]
      refine ih ⟨?_, List.forall_mem_append.2 ⟨hknown.nests, ?_⟩⟩ hrest
      · rw [List.map_append, List.nodup_append]
        refine ⟨hknown.nodup, List.nodup_singleton _, ?_⟩
        rintro _ hl _ hx rfl
        obtain ⟨k, hk, rfl⟩ := List.mem_map.1 hl
        exact hskip.2 ⟨k, hk, beq_iff_eq.2 (List.mem_singleton.1 hx)⟩
      · exact List.forall_mem_singleton.2 ⟨x, rfl⟩

theorem collect_labels {q : Query} {known gs : List Grouping} {ss : List Metric}
    {joins : List JoinPath} (hknown : NestLabels mode known)
    (h : (nestingOf.collect mode scope q known ss).run memo = .ok ((gs, joins), memo')) :
    NestLabels mode (known ++ gs) := by
  induction ss generalizing known gs joins memo with
  | nil =>
    cases h
    rwa [List.append_nil]
  | cons s ss ih =>
    unfold nestingOf.collect at h
    obtain ⟨paths, _, -, h⟩ := run_bind_ok h
    obtain ⟨⟨first, joins₁⟩, memo₁, hfirst, h⟩ := run_bind_ok h
    obtain ⟨⟨rest, more⟩, memo₂, hrest, h⟩ := run_bind_ok h
    cases h
    rw [← List.append_assoc]
    exact ih (nestByOf_labels hknown hfirst) hrest

theorem nestingOf_labels {q : Query} {gs : List Grouping} {ss : List Metric}
    {joins : List JoinPath}
    (h : (nestingOf mode scope q ss).run memo = .ok ((gs, joins), memo')) : NestLabels mode gs := by
  have hnone : NestLabels mode [] := ⟨List.nodup_nil, fun g hg => (List.not_mem_nil hg).elim⟩
  unfold nestingOf at h
  split at h
  · obtain ⟨_, _, -, h⟩ := run_bind_ok h
    exact collect_labels hnone h
  · cases h
    exact hnone

/-- The labels of the parts of a plan. -/
structure Labelled (d : Dialect) (p : Plan) : Prop where
  outputs : (p.outputs.map (·.column.label)).Nodup
  contents : ∀ o ∈ p.outputs, ∃ x c sql, o = Projection.output d x c sql
  hidden : p.hidden.map (·.label) =
    ((List.range' (projectedMetrics p.outputs).length p.hidden.length).map hiddenName).map
      (fitName d)
  nests : NestLabels ⟨d, false⟩ p.nestBy

theorem Drafted.labelled {d : Dialect} {q : Query} {root : m.Member} {filters : Placement}
    {required : List JoinPath} {p : Plan} (h : Drafted d q root filters required p) :
    Labelled d p := by
  obtain ⟨memo, hshows⟩ := h.drawn.shows
  obtain ⟨_, _, _, _, _, _, _, _, -, hhidden, -, hnest, -⟩ := h.runs
  refine ⟨hshows.labels.1, fun o ho => ?_, hiddenOf_labels hhidden, nestingOf_labels hnest⟩
  obtain ⟨x, -, c, sql, ho⟩ := h.drawn.exists_projection ho
  exact ⟨x, c, sql, ho⟩

end

/-! ## Kinds of labels -/

/-- The digest tells the names apart that are made up for metrics and are too long. -/
def TellsMade (p : Plan) : Prop :=
  ∀ a ∈ p.madeNames, ∀ b ∈ p.madeNames, fitName p.dialect a ≠ a → fitName p.dialect b ≠ b →
    Digest.short a = Digest.short b → a = b

instance (p : Plan) : Decidable p.TellsMade :=
  inferInstanceAs (Decidable (∀ a ∈ p.madeNames, ∀ b ∈ p.madeNames, fitName p.dialect a ≠ a →
    fitName p.dialect b ≠ b → Digest.short a = Digest.short b → a = b))

theorem mem_madeNames_part {p : Plan} {s : Metric} {name : String} (hs : s ∈ p.metrics)
    (hsplit : s.isSplit = true) (h : name ∈ s.partNames) : name ∈ p.madeNames :=
  List.mem_append_left _ (List.mem_flatMap.2 ⟨s, List.mem_filter.2 ⟨hs, hsplit⟩, h⟩)

namespace TellsMade

variable {p : Plan} {ss : List Metric}

theorem eq_of_fitName (h : p.TellsMade) {a b : String} (ha : a ∈ p.madeNames)
    (hb : b ∈ p.madeNames) (heq : fitName p.dialect a = fitName p.dialect b) : a = b := by
  have hmade : ∀ name ∈ p.madeNames, Unshortened p.dialect name := by
    refine List.forall_mem_append.2 ⟨fun name hname => ?_, List.forall_mem_map.2 fun n _ => ?_⟩
    · obtain ⟨s, -, hname⟩ := List.mem_flatMap.1 hname
      exact unshortened_part hname
    · exact unshortened_hiddenName n
  exact (hmade a ha).eq_of_fitName (hmade b hb) (h a ha b hb) heq

theorem nodup_map_fitName (h : p.TellsMade) {names : List String} (hnames : names.Nodup)
    (hsub : ∀ name ∈ names, name ∈ p.madeNames) : (names.map (fitName p.dialect)).Nodup :=
  hnames.map_on fun a ha b hb => h.eq_of_fitName (hsub a ha) (hsub b hb)

/-- Parts of different metrics have different labels. -/
theorem nodup_parts (h : p.TellsMade) (hss : ∀ s ∈ ss, s ∈ p.metrics)
    (hlabels : (ss.map (·.label)).Nodup) :
    (((ss.filter Metric.isSplit).flatMap Metric.partNames).map (fitName p.dialect)).Nodup := by
  have hsplit := hlabels.sublist (List.filter_sublist (p := Metric.isSplit).map _)
  refine h.nodup_map_fitName (nodup_partNames hsplit) fun name hname => ?_
  obtain ⟨s, hs, hname⟩ := List.mem_flatMap.1 hname
  obtain ⟨hs, hsplit⟩ := List.mem_filter.1 hs
  exact mem_madeNames_part (hss s hs) hsplit hname

end TellsMade

namespace Labelled

variable {p : Plan}

theorem mem_hidden (h : Labelled p.dialect p) {s : Metric} (hs : s ∈ p.hidden) :
    ∃ n, hiddenName n ∈ p.madeNames ∧ s.label = fitName p.dialect (hiddenName n) := by
  have hlabel := List.mem_map_of_mem (f := (·.label)) hs
  rw [h.hidden] at hlabel
  obtain ⟨_, hname, hlabel⟩ := List.mem_map.1 hlabel
  obtain ⟨n, -, rfl⟩ := List.mem_map.1 hname
  exact ⟨n, List.mem_append_right _ hname, hlabel.symm⟩

/-- Metrics that only conditions test have different labels, and so have their parts. -/
theorem nodup_hidden (h : Labelled p.dialect p) (hmade : p.TellsMade) :
    (p.hidden.flatMap p.partialLabels).Nodup := by
  have hlabels : (p.hidden.map (·.label)).Nodup := by
    rw [h.hidden]
    refine hmade.nodup_map_fitName ?_ fun name => List.mem_append_right _
    exact (List.nodup_range' 1).map fun n k => hiddenName_injective
  have hwhole := hlabels.sublist (List.filter_sublist (p := (!·.isSplit)).map _)
  have hparts := hmade.nodup_parts (fun s hs => List.mem_append_right _ hs) hlabels
  rw [(flatMap_partialLabels_perm p.hidden).nodup_iff, List.nodup_append]
  refine ⟨hwhole, hparts, ?_⟩
  rintro _ hl _ hl' rfl
  obtain ⟨s, hs, rfl⟩ := List.mem_map.1 hl
  obtain ⟨n, hn, hlabel⟩ := h.mem_hidden (List.mem_of_mem_filter hs)
  obtain ⟨name, hname, heq⟩ := List.mem_map.1 hl'
  obtain ⟨t, ht, hname⟩ := List.mem_flatMap.1 hname
  obtain ⟨ht, hsplit⟩ := List.mem_filter.1 ht
  have hpart := mem_madeNames_part (List.mem_append_right _ ht) hsplit hname
  exact hiddenName_ne_part n hname (hmade.eq_of_fitName hn hpart (hlabel.symm.trans heq.symm))

/-- Columns that metrics are nested by have no label of a metric that only conditions test: they
start with different letters. -/
theorem nests_ne_hidden (h : Labelled p.dialect p) {g : Grouping} (hg : g ∈ p.nestBy) {s : Metric}
    (hs : s ∈ p.hidden) : g.label ∉ p.partialLabels s := by
  have hnest : g.label.toList.head? = some 'n' := by
    obtain ⟨x, hx⟩ := h.nests.nests g hg
    rw [hx]
    refine head?_fitName (by decide) ?_
    rw [String.append_assoc, String.toList_append]
    rfl
  have hlabel : s.label.toList.head? = some 'h' := by
    obtain ⟨n, -, hlabel⟩ := h.mem_hidden hs
    rw [hlabel]
    refine head?_fitName (by decide) ?_
    rw [hiddenName, String.toList_append]
    rfl
  intro hmem
  suffices hhidden : g.label.toList.head? = some 'h' by
    rw [hnest] at hhidden
    exact absurd hhidden (by decide)
  unfold partialLabels at hmem
  split at hmem
  · obtain ⟨name, hname, heq⟩ := List.mem_map.1 hmem
    obtain ⟨part, -, rfl⟩ := List.mem_map.1 hname
    rw [← heq]
    refine head?_fitName (by decide) ?_
    rw [String.append_assoc, String.toList_append, List.head?_append, hlabel]
    rfl
  · rw [List.mem_singleton.1 hmem, hlabel]

/-- Every output column is a dimension or a metric with its label. -/
theorem outputs_perm {os : List Output}
    (h : ∀ o ∈ os, ∃ x c sql, o = Projection.output p.dialect x c sql) :
    ((groupings os).map (·.label) ++ (projectedMetrics os).map (·.label)).Perm
      (os.map (·.column.label)) := by
  induction os with
  | nil => exact .nil
  | cons o os ih =>
    obtain ⟨⟨x, c, sql, rfl⟩, hos⟩ := List.forall_mem_cons.1 h
    cases hrole : x.role == .metric with
    | true =>
      have hcontent : (x.output p.dialect c sql).content =
          .metric ⟨x.path, sql, c.aggregation, fitName p.dialect x.name⟩ := if_pos hrole
      simp only [groupings, projectedMetrics, List.filterMap_cons, hcontent, List.map_cons]
      exact List.perm_middle.trans ((ih hos).cons _)
    | false =>
      have hcontent : (x.output p.dialect c sql).content =
          .dimension ⟨sql, fitName p.dialect x.name⟩ := if_neg (by simp [hrole])
      simp only [groupings, projectedMetrics, List.filterMap_cons, hcontent, List.map_cons]
      exact (ih hos).cons _

/-- The labels of projections differ exactly if no part of one is another one. -/
theorem nodup_projected (h : Labelled p.dialect p) (hmade : p.TellsMade) :
    p.projectedLabels.Nodup ↔ ∀ s ∈ projectedMetrics p.outputs, s.isSplit = true →
      ∀ l ∈ p.partialLabels s, l ∉ p.wholeLabels := by
  have hall := (outputs_perm h.contents).nodup_iff.2 h.outputs
  have hwhole : p.wholeLabels.Nodup :=
    hall.sublist ((List.filter_sublist.map _).append_left _)
  have hparts := hmade.nodup_parts (fun s hs => List.mem_append_left _ hs)
    (List.nodup_append.1 hall).2.1
  rw [projectedLabels, ((flatMap_partialLabels_perm _).append_left _).nodup_iff,
    ← List.append_assoc, List.nodup_append]
  constructor
  · rintro ⟨-, -, hne⟩ s hs hsplit l hl hwhole
    rw [partialLabels_split hsplit] at hl
    obtain ⟨name, hname, rfl⟩ := List.mem_map.1 hl
    refine hne _ hwhole _ (List.mem_map_of_mem (List.mem_flatMap.2 ⟨s, ?_, hname⟩)) rfl
    exact List.mem_filter.2 ⟨hs, hsplit⟩
  · intro hne
    refine ⟨hwhole, hparts, ?_⟩
    rintro l hl _ hpart rfl
    obtain ⟨name, hname, rfl⟩ := List.mem_map.1 hpart
    obtain ⟨s, hs, hname⟩ := List.mem_flatMap.1 hname
    obtain ⟨hs, hsplit⟩ := List.mem_filter.1 hs
    refine hne s hs hsplit _ ?_ hl
    rw [partialLabels_split hsplit]
    exact List.mem_map_of_mem hname

/-- The labels of the inner statement differ exactly if those that are made up are none of a
projection. -/
theorem nodup_iff (h : Labelled p.dialect p) (hmade : p.TellsMade) (base : Select) :
    ((p.innerSelect base).items.map (·.label)).Nodup ↔ p.LabelsApart := by
  have hothers : (p.nestBy.map (·.label) ++ p.hidden.flatMap p.partialLabels).Nodup := by
    refine List.nodup_append.2 ⟨h.nests.nodup, h.nodup_hidden hmade, ?_⟩
    rintro _ hl _ hl' rfl
    obtain ⟨g, hg, rfl⟩ := List.mem_map.1 hl
    obtain ⟨s, hs, hl'⟩ := List.mem_flatMap.1 hl'
    exact h.nests_ne_hidden hg hs hl'
  rw [(labels_perm base).nodup_iff, List.nodup_map_iff (Option.some_injective _),
    List.nodup_append, h.nodup_projected hmade]
  constructor
  · rintro ⟨hparts, -, hne⟩
    refine ⟨hparts, fun g hg hl => ?_, fun s hs l hl' hl => ?_⟩
    · exact hne _ hl _ (List.mem_append_left _ (List.mem_map_of_mem hg)) rfl
    · exact hne _ hl _ (List.mem_append_right _ (List.mem_flatMap.2 ⟨s, hs, hl'⟩)) rfl
  · rintro ⟨hparts, hnests, hhidden⟩
    refine ⟨hparts, hothers, ?_⟩
    rintro l hl _ hl' rfl
    rcases List.mem_append.1 hl' with hl' | hl'
    · obtain ⟨g, hg, rfl⟩ := List.mem_map.1 hl'
      exact hnests g hg hl
    · obtain ⟨s, hs, hl'⟩ := List.mem_flatMap.1 hl'
      exact hhidden s hs l hl' hl

end Labelled

/-- In two passes the outermost statement names columns of the inner one alone. -/
theorem supplies_inner {p : Plan} (hnested : p.nested = true) (base : Select) :
    p.Supplies fun e => ∀ column ∈ e.columns, ∃ l, column = (some p.innerAlias, l) ∧
      some l ∈ (p.innerSelect base).items.map (·.label) where
  composes := Expr.composes_columns _
  flat hflat := by
    rw [hnested] at hflat
    cases hflat
  nested _ i hi label hlabel column hcolumn := by
    rw [inner, Expr.columns, List.mem_singleton] at hcolumn
    refine ⟨label, hcolumn, List.mem_map.2 ⟨i, ?_, hlabel⟩⟩
    rcases List.mem_append.1 hi with hi | hi
    · obtain ⟨g, hg, rfl⟩ := List.mem_map.1 hi
      exact List.mem_append_left _ (List.mem_map_of_mem (List.mem_append_left _ hg))
    · exact List.mem_append_right _ hi

end Plan

/-- In a nested query the labels of the inner statement differ exactly if those that are made up,
for parts of averages, for columns that metrics are nested by and for metrics that only conditions
test, are none of a projection; the digest has to tell the names apart that are made up for metrics
and are too long. Where the labels differ, every column in the outer select list, groups and
conditions on groups is one column of the inner statement. -/
theorem nested_labels_nodup_iff {m : Model} {d : Dialect} {q : Query} {p : Plan} {c : Compiled}
    (h : compile m d q = .ok c) (hnested : c.nested = true) (hbuild : Plan.build m d q = .ok p)
    (hmade : p.TellsMade) :
    ∃ main params base, p.main.run [] = .ok (main, params) ∧ c.main = ⟨main.render d, params⟩ ∧
      main.source = some ⟨.query (p.innerSelect base), some p.innerAlias⟩ ∧
      (((p.innerSelect base).items.map (·.label)).Nodup ↔ p.LabelsApart) ∧
      (p.LabelsApart → ∀ e ∈ main.items.map (·.expr) ++ main.groupBy ++ main.having.toList,
        ∀ column ∈ e.columns, ∃ l, column = (some p.innerAlias, l) ∧
          ((p.innerSelect base).items.map (·.label)).count (some l) = 1) := by
  obtain ⟨p', hbuild', hcompile⟩ := bind_ok h
  cases hbuild.symm.trans hbuild'
  obtain ⟨filters, root, required, -, -, hdrafted, -⟩ := Plan.build_drafted hbuild
  obtain rfl := hdrafted.dialect
  rw [(Plan.compile_rest hcompile).1] at hnested
  obtain ⟨main, params, hmain, hc⟩ := Plan.statement_ok (Plan.compile_ok hcompile).1
  obtain ⟨rows, orderBy, _, hrows, -, rfl⟩ := Plan.main_run hmain
  obtain ⟨base, having, _, -, -, heq⟩ := Plan.rows_run hrows
  have hsource : rows.source = some ⟨.query (p.innerSelect base), some p.innerAlias⟩ := by
    rw [heq, Plan.grouped, if_pos hnested]
  have hiff := hdrafted.labelled.nodup_iff hmade base
  refine ⟨_, params, base, hmain, hc, hsource, hiff, fun hapart e he column hcolumn => ?_⟩
  obtain ⟨hgroupBy, hitems, hhaving⟩ := (Plan.supplies_inner hnested base).rows hrows
  obtain ⟨l, rfl, hl⟩ : ∃ l, column = (some p.innerAlias, l) ∧
      some l ∈ (p.innerSelect base).items.map (·.label) := by
    simp only [List.mem_append, List.mem_map, Option.mem_toList] at he
    rcases he with (⟨i, hi, rfl⟩ | he) | he
    · exact hitems i hi column hcolumn
    · exact hgroupBy e he column hcolumn
    · exact hhaving e he column hcolumn
  exact ⟨l, rfl, List.count_eq_one_of_mem (hiff.2 hapart) hl⟩

/-! ## An example -/

/-- Races, how fast drivers were in them, and the most points made in a season. -/
def raceLog : Model where
  tables := [
    { name := "races"
      source := .physical none "races"
      columns := [
        { name := "driver", formula := "\x7b\x7b$driver\x7d\x7d", kind := .dimension },
        { name := "season", formula := "\x7b\x7b$season\x7d\x7d", kind := .dimension },
        { name := "grid", formula := "\x7b\x7b$grid\x7d\x7d", kind := .metric (some .avg) [] },
        { name := "pace", formula := "\x7b\x7b$seconds\x7d\x7d", kind := .metric (some .avg) [] },
        { name := "pace_sum", formula := "\x7b\x7b$seconds\x7d\x7d + \x7b\x7b$penalty\x7d\x7d"
          kind := .metric (some .sum) [] },
        { name := "best", formula := "SUM(\x7b\x7b$points\x7d\x7d)"
          kind := .metric (some .max) [{ column := "season" }] }] }]

/-- Some metrics of drivers, or of those who pass a test. -/
def driverQuery (metrics : List String) (having : Option Filter) : Query where
  table := "races"
  arguments := .empty
  projections := ⟨{ column := "driver" }, .dimension, "driver"⟩ ::
    metrics.map fun name => ⟨{ column := name }, .metric, name⟩
  whereFilter := none
  havingFilter := having
  sorting := []
  pagination := none
  bypassCache := false

/-- The request for those metrics and that test. -/
def driverRequest (metrics : List String) (having : Option Filter) : Request where
  table := "races"
  select := ("driver" :: metrics).map fun name => ⟨{ column := name }, none⟩
  having

/-- The drivers who start in front. -/
def inFront : Filter :=
  .test ⟨{ column := "grid" }, .compare .lt, [.int 3]⟩

/-- What the plan of a nested query shows of its labels. -/
def Plan.showsLabels (labels : List String) (p : Plan) : Bool :=
  p.nested && p.compile.toOption.isSome &&
    (p.innerSelect {}).items.map (·.label) == labels.map some

theorem compile_driverQuery (metrics : List String) (having : Option Filter) (P : Plan → Bool)
    (labels : List String)
    (hfilters : Placement.of raceLog (driverQuery metrics having) = .ok { groups := having })
    (h : ((Plan.draft .postgres (driverQuery metrics having)
      (⟨raceLog.tables.head (by decide), List.mem_cons_self⟩ : raceLog.Member)
      { groups := having }).run' []).map (fun r => (r.2,
        (fun p => p.showsLabels labels && P p) { r.1 with joins := [] })) = .ok ([], true)) :
    ∃ c p, compile raceLog .postgres (driverQuery metrics having) = .ok c ∧ c.nested = true ∧
      Plan.build raceLog .postgres (driverQuery metrics having) = .ok p ∧
      (p.innerSelect {}).items.map (·.label) = labels.map some ∧ P p = true := by
  obtain ⟨p, hp, hshown⟩ := Plan.build_shown (fun p => p.showsLabels labels && P p) hfilters rfl h
  simp only [Plan.showsLabels, Bool.and_eq_true, beq_iff_eq] at hshown
  obtain ⟨⟨⟨hnested, hsome⟩, hlabels⟩, hP⟩ := hshown
  obtain ⟨c, hc⟩ := Option.isSome_iff_exists.1 hsome
  have hc : p.compile = .ok c := ok_of_toOption hc
  exact ⟨c, p, (compile_of_build hp).trans hc, (Plan.compile_rest hc).1.trans hnested, hp,
    hlabels, hP⟩

/-- The average, the best season and the average that is only tested have labels apart. -/
theorem nested_labels_nodup_iff_inFront :
    Query.build raceLog (driverRequest ["pace", "best"] (some inFront)) =
      .ok (driverQuery ["pace", "best"] (some inFront)) ∧
    ∃ c p main params base,
      compile raceLog .postgres (driverQuery ["pace", "best"] (some inFront)) = .ok c ∧
      c.nested = true ∧
      Plan.build raceLog .postgres (driverQuery ["pace", "best"] (some inFront)) = .ok p ∧
      p.TellsMade ∧ p.LabelsApart ∧ p.main.run [] = .ok (main, params) ∧
      main.source = some ⟨.query (p.innerSelect base), some p.innerAlias⟩ ∧
      (p.innerSelect base).items.map (·.label) = [some "driver", some "nest_season",
        some "pace_sum", some "pace_count", some "best", some "having_2_sum",
        some "having_2_count"] ∧
      ((p.innerSelect base).items.map (·.label)).Nodup := by
  obtain ⟨c, p, hc, hnested, hp, hlabels, hshown⟩ := compile_driverQuery ["pace", "best"]
    (some inFront) (fun p => decide p.TellsMade && decide p.LabelsApart)
    ["driver", "nest_season", "pace_sum", "pace_count", "best", "having_2_sum", "having_2_count"]
    (by decide +kernel) (by decide +kernel)
  rw [Bool.and_eq_true, decide_eq_true_eq, decide_eq_true_eq] at hshown
  obtain ⟨hmade, hapart⟩ := hshown
  obtain ⟨main, params, base, hmain, -, hsource, hiff, -⟩ :=
    nested_labels_nodup_iff hc hnested hp hmade
  exact ⟨by decide +kernel, c, p, main, params, base, hc, hnested, hp, hmade, hapart, hmain,
    hsource, hlabels, hiff.2 hapart⟩

/-- A part of the average has the label of the sum that is projected beside it, and the outer
statement names a column of that label. -/
theorem nested_labels_paceSum_twice :
    Model.build raceLog.tables = .ok raceLog ∧
    Query.build raceLog (driverRequest ["pace", "pace_sum", "best"] none) =
      .ok (driverQuery ["pace", "pace_sum", "best"] none) ∧
    ∃ c p main params base,
      compile raceLog .postgres (driverQuery ["pace", "pace_sum", "best"] none) = .ok c ∧
      c.nested = true ∧
      Plan.build raceLog .postgres (driverQuery ["pace", "pace_sum", "best"] none) = .ok p ∧
      p.main.run [] = .ok (main, params) ∧
      main.source = some ⟨.query (p.innerSelect base), some p.innerAlias⟩ ∧
      (p.innerSelect base).items.map (·.label) = [some "driver", some "nest_season",
        some "pace_sum", some "pace_count", some "pace_sum", some "best"] ∧
      ¬ ((p.innerSelect base).items.map (·.label)).Nodup ∧
      ∃ i ∈ main.items, (some p.innerAlias, "pace_sum") ∈ i.expr.columns := by
  obtain ⟨c, p, hc, hnested, hp, hlabels, hshown⟩ := compile_driverQuery
    ["pace", "pace_sum", "best"] none
    (fun p => p.outputItems.any fun i => i.expr.columns.contains (some p.innerAlias, "pace_sum"))
    ["driver", "nest_season", "pace_sum", "pace_count", "pace_sum", "best"]
    (by decide +kernel) (by decide +kernel)
  obtain ⟨p', hp', hcompile⟩ := bind_ok hc
  cases hp.symm.trans hp'
  obtain ⟨main, params, hmain, -⟩ := Plan.statement_ok (Plan.compile_ok hcompile).1
  obtain ⟨rows, orderBy, _, hrows, -, rfl⟩ := Plan.main_run hmain
  obtain ⟨base, having, _, -, -, rfl⟩ := Plan.rows_run hrows
  have hgrouped := (Plan.compile_rest hcompile).1.symm.trans hnested
  refine ⟨by decide +kernel, by decide +kernel, c, p, _, params, base, hc, hnested, hp, hmain, ?_,
    hlabels, ?_, ?_⟩
  · rw [Plan.grouped, if_pos hgrouped]
  · rw [show (p.innerSelect base).items.map (·.label) = _ from hlabels]
    decide
  · obtain ⟨i, hi, hcolumn⟩ := List.any_eq_true.1 hshown
    refine ⟨i, ?_, List.contains_iff_mem.1 hcolumn⟩
    rw [Plan.grouped, if_pos hgrouped]
    exact hi

end Rollup
