/-
The tables of a statement and the aliases they go by. Every table that formulas read is planned, and
of the planned tables with one alias the first is joined. Aliases are the names of the joins on the
way, glued together and fitted to the dialect: where these tell the planned tables apart nothing is
left out, and every database column is read from the table its path leads to.
-/
import Rollup.Proofs.Compile.Order
import Rollup.Proofs.Compile.Plan
import Rollup.Proofs.Expansion.References
import Rollup.Proofs.Sql.Alias

namespace Rollup

open Expansion

namespace JoinPlan

section

variable {m : Model} (mode : Mode) (scope : Scope m)

/-! ## Planned tables -/

/-- The places of the tables that a statement reads: the root, and what it comes to join through. -/
def Planned (required : List JoinPath) (p : JoinPath) : Prop :=
  p = [] ∨ Closure mode scope required p

/-- The tables of a statement under their aliases. -/
def sources (joins : List PlannedJoin) : List (String × Table) :=
  (aliasFor mode.dialect scope.root.1 [], scope.root.1) :: joins.map fun j => (j.label, j.table)

/-- One table goes by the alias of a path, and it is the one the path leads to. -/
def ReadsOwn (joins : List PlannedJoin) (p : JoinPath) : Prop :=
  ∃ t, tableAt scope.root p = .ok t ∧
    (sources mode scope joins).filter (·.1 = aliasFor mode.dialect scope.root.1 p) =
      [(aliasFor mode.dialect scope.root.1 p, t.1)]

/-- The name an alias is made of: the root and the joins on the way. -/
def wayName (p : JoinPath) : String :=
  Text.join "_" (scope.root.1.name :: p)

/-- The planned tables have names of their own, none of which is what another is shortened to. -/
def NamesApart (required : List JoinPath) : Prop :=
  ∀ p q, Planned mode scope required p → Planned mode scope required q → p ≠ q →
    wayName scope p ≠ wayName scope q ∧
      Sql.fitName mode.dialect (wayName scope q) ≠ wayName scope p

variable {mode scope}

theorem Closure.ne_nil {required : List JoinPath} {p : JoinPath}
    (h : Closure mode scope required p) : p ≠ [] := by
  cases h with
  | required _ hne => exact hne
  | start _ hne _ => exact hne
  | read _ hq => exact hq.1

theorem planned_of_mem {required : List JoinPath} {p : JoinPath} (h : p ∈ required) :
    Planned mode scope required p := by
  by_cases hroot : p = []
  · exact .inl hroot
  · exact .inr (.required h hroot)

/-- A planned path leads to a table. -/
theorem tableAt_of_planned {required : List JoinPath} {joins : List PlannedJoin} {p : JoinPath}
    (hplan : of? mode scope required = some (.ok joins)) (hp : Planned mode scope required p) :
    ∃ t, tableAt scope.root p = .ok t := by
  rcases hp with rfl | hp
  · exact ⟨scope.root, rfl⟩
  · obtain ⟨order, all, harranges, -, hall, -⟩ := of?_ok hplan
    obtain ⟨_, -, _, _, t, -, htable, -⟩ := exists_beside hall ((harranges.mem p).2 hp)
    exact ⟨t, htable⟩

/-- What an ON condition names is at the root or read through by it. -/
theorem names_of_condition {p : JoinPath} {planned : PlannedJoin} {t : m.Member} {j : Join}
    {u : Template} {q : JoinPath} (hjoin : JoinOf mode scope p planned)
    (hdeclared : Declared scope p t j) (hkind : j.kind ≠ .cross)
    (hparse : Template.parse j.condition = .ok u) (hnames : Names t p.dropLast u q) :
    q = [] ∨ Reads mode scope p q := by
  obtain ⟨t', j', -, hdeclared', -, -, -, -, -, hon⟩ := hjoin
  obtain ⟨rfl, rfl⟩ := hdeclared.unique hdeclared'
  obtain ⟨sql, walked, hcondition, -⟩ := hon hkind
  have hreads := hcondition
  obtain ⟨t'', j'', u', ps, hdeclared'', -, hparse', hdenotes, rfl⟩ := hcondition
  obtain ⟨rfl, rfl⟩ := hdeclared.unique hdeclared''
  cases hparse.symm.trans hparse'
  by_cases hroot : q = []
  · exact .inl hroot
  · refine .inr ⟨hroot, sql, _, hreads, q, ?_, List.prefix_refl q⟩
    exact List.mem_cons_of_mem _ (hnames.walked hdenotes)

/-! ## Different aliases -/

/-- Where the digest tells names apart, the planned tables have different aliases exactly if their
names differ and none is what another is shortened to. -/
theorem aliases_differ_iff {required : List JoinPath}
    (hdigest : ∀ p q, Planned mode scope required p → Planned mode scope required q →
      Digest.short (wayName scope p) = Digest.short (wayName scope q) →
      wayName scope p = wayName scope q) :
    (∀ p q, Planned mode scope required p → Planned mode scope required q →
      aliasFor mode.dialect scope.root.1 p = aliasFor mode.dialect scope.root.1 q → p = q) ↔
      NamesApart mode scope required := by
  have halias : ∀ p q, Planned mode scope required p → Planned mode scope required q →
      (aliasFor mode.dialect scope.root.1 p = aliasFor mode.dialect scope.root.1 q ↔
        wayName scope p = wayName scope q ∨
        Sql.fitName mode.dialect (wayName scope q) = wayName scope p ∨
        Sql.fitName mode.dialect (wayName scope p) = wayName scope q) :=
    fun p q hp hq => Sql.fitName_eq_iff (hdigest p q hp hq)
  constructor
  · intro h p q hp hq hne
    refine ⟨fun heq => hne (h p q hp hq ?_), fun heq => hne (h p q hp hq ?_)⟩
    · exact (halias p q hp hq).2 (.inl heq)
    · exact (halias p q hp hq).2 (.inr (.inl heq))
  · intro h p q hp hq heq
    by_contra hne
    rcases (halias p q hp hq).1 heq with heq | heq | heq
    · exact (h p q hp hq hne).1 heq
    · exact (h p q hp hq hne).2 heq
    · exact (h q p hq hp (Ne.symm hne)).2 heq

theorem filter_key_eq {α : Type} {entries : List (String × α)} (h : (entries.map (·.1)).Nodup)
    {e : String × α} (he : e ∈ entries) : entries.filter (·.1 = e.1) = [e] := by
  induction entries with
  | nil => cases he
  | cons first rest ih =>
    rw [List.map_cons, List.nodup_cons] at h
    obtain ⟨hfirst, hrest⟩ := h
    have hother : ∀ k ∈ rest, k.1 ≠ first.1 := fun k hk heq =>
      hfirst (heq ▸ List.mem_map_of_mem (f := (·.1)) hk)
    rcases List.mem_cons.1 he with rfl | he
    · have hnone : rest.filter (·.1 = e.1) = [] :=
        List.filter_eq_nil_iff.2 fun k hk => by simpa using hother k hk
      rw [List.filter_cons_of_pos (by simp), hnone]
    · rw [List.filter_cons_of_neg (by simpa using (hother e he).symm), ih hrest he]

/-- The joins of a statement whose planned tables have different aliases: one for every planned path,
and every planned path reads its own table. -/
theorem joins_of_aliases {required : List JoinPath} {joins : List PlannedJoin}
    (hplan : of? mode scope required = some (.ok joins))
    (haliases : ∀ p q, Planned mode scope required p → Planned mode scope required q →
      aliasFor mode.dialect scope.root.1 p = aliasFor mode.dialect scope.root.1 q → p = q) :
    (∃ order, order.Nodup ∧ (∀ p, p ∈ order ↔ Closure mode scope required p) ∧
      List.Forall₂ (JoinOf mode scope) order joins) ∧
    ∀ p, Planned mode scope required p → ReadsOwn mode scope joins p := by
  obtain ⟨order, all, harranges, -, hall, rfl⟩ := of?_ok hplan
  have hplanned : ∀ p ∈ [] :: order, Planned mode scope required p := by
    intro p hp
    rcases List.mem_cons.1 hp with rfl | hp
    · exact .inl rfl
    · exact .inr ((harranges.mem p).1 hp)
  have hlabels : (aliasFor mode.dialect scope.root.1 [] :: all.map (·.label)).Nodup := by
    rw [labels_eq hall, ← List.map_cons]
    refine List.Nodup.map_on (fun p hp q hq => haliases p q (hplanned p hp) (hplanned q hq)) ?_
    exact List.nodup_cons.2 ⟨fun hroot => ((harranges.mem []).1 hroot).ne_nil rfl, harranges.nodup⟩
  have hall' : distinctAliases [] all = all := distinctAliases_eq (List.nodup_cons.1 hlabels).2
  rw [hall']
  refine ⟨⟨order, harranges.nodup, harranges.mem, hall⟩, fun p hp => ?_⟩
  have hkeys : ((sources mode scope all).map (·.1)).Nodup := by
    unfold sources
    rwa [List.map_cons, List.map_map]
  have hmem : ∃ t, tableAt scope.root p = .ok t ∧
      (aliasFor mode.dialect scope.root.1 p, t.1) ∈ sources mode scope all := by
    rcases hp with rfl | hp
    · exact ⟨scope.root, rfl, List.mem_cons_self⟩
    · obtain ⟨planned, hmem, _, _, t, -, htable, -, htarget, hlabel, -⟩ :=
        exists_beside hall ((harranges.mem p).2 hp)
      refine ⟨t, htable, List.mem_cons_of_mem _ (List.mem_map.2 ⟨planned, hmem, ?_⟩)⟩
      rw [htarget, hlabel]
  obtain ⟨t, htable, hmem⟩ := hmem
  exact ⟨t, htable, filter_key_eq hkeys hmem⟩

/-- Where the digest tells the names of the planned tables apart, these have different aliases
exactly if their names differ and none is what another is shortened to. Then no planned join is left
out, and no database column, in an expanded column or in an ON condition, is read from a table other
than the one its path leads to. -/
theorem of?_aliases {required : List JoinPath} {joins : List PlannedJoin}
    (hplan : of? mode scope required = some (.ok joins))
    (hdigest : ∀ p q, Planned mode scope required p → Planned mode scope required q →
      Digest.short (wayName scope p) = Digest.short (wayName scope q) →
      wayName scope p = wayName scope q) :
    ((∀ p q, Planned mode scope required p → Planned mode scope required q → p ≠ q →
      aliasFor mode.dialect scope.root.1 p ≠ aliasFor mode.dialect scope.root.1 q) ↔
        NamesApart mode scope required) ∧
    (NamesApart mode scope required →
      (∃ order, order.Nodup ∧ (∀ p, p ∈ order ↔ Closure mode scope required p) ∧
        List.Forall₂ (JoinOf mode scope) order joins) ∧
      (∀ path column arguments grain f,
        expandColumn mode scope path column arguments grain = .ok f →
        (∀ q ∈ f.joins, q ∈ required) →
        ∃ t c, tableAt scope.root path = .ok t ∧ Model.Member.column? t column = some c ∧
          ∀ q, Ref.Names ⟨t, path, c, grain⟩ q → ReadsOwn mode scope joins q) ∧
      ∀ p t j u q, Closure mode scope required p → Declared scope p t j → j.kind ≠ .cross →
        Template.parse j.condition = .ok u → Names t p.dropLast u q →
          ReadsOwn mode scope joins q) := by
  have hdiffer := aliases_differ_iff hdigest
  refine ⟨?_, fun hnames => ?_⟩
  · rw [← hdiffer]
    exact ⟨fun h p q hp hq heq => by_contra fun hne => h p q hp hq hne heq,
      fun h p q hp hq hne heq => hne (h p q hp hq heq)⟩
  obtain ⟨hjoins, hown⟩ := joins_of_aliases hplan (hdiffer.2 hnames)
  refine ⟨hjoins, fun path column arguments grain f hf hsub => ?_, ?_⟩
  · obtain ⟨t, c, htable, hcolumn, hnamed⟩ := names_of_expandColumn hf
    refine ⟨t, c, htable, hcolumn, fun q hq => hown q ?_⟩
    rcases hnamed q hq with rfl | hmem
    · exact .inl rfl
    · exact planned_of_mem (hsub q hmem)
  · intro p t j u q hp hdeclared hkind hparse hnamed
    obtain ⟨order, -, hmem, hall⟩ := hjoins
    obtain ⟨planned, -, hjoin⟩ := exists_beside hall ((hmem p).2 hp)
    rcases names_of_condition hjoin hdeclared hkind hparse hnamed with rfl | hreads
    · exact hown [] (.inl rfl)
    · exact hown q (.inr (.read hp hreads))

end

/-! ## Cities again -/

/-- The names of the tables differ, and those of their digests too. -/
theorem of?_aliases_atlas :
    of? ⟨.postgres, false⟩ (Scope.of atlasCities .empty) [["country"]] =
      some (.ok [joinRegion, joinCountry]) ∧
    NamesApart ⟨.postgres, false⟩ (Scope.of atlasCities .empty) [["country"]] ∧
    ∃ order, order.Nodup ∧
      (∀ p, p ∈ order ↔ Closure ⟨.postgres, false⟩ (Scope.of atlasCities .empty) [["country"]] p) ∧
      List.Forall₂ (JoinOf ⟨.postgres, false⟩ (Scope.of atlasCities .empty)) order
        [joinRegion, joinCountry] := by
  have hstar : ∀ p, Planned ⟨.postgres, false⟩ (Scope.of atlasCities .empty) [["country"]] p →
      p ∈ [[], ["country"], ["region"]] := by
    intro p hp
    obtain ⟨t, ht⟩ : ∃ t, tableAt atlasCities p = .ok t := tableAt_of_planned of?_country hp
    exact path_of_star (by decide +kernel) ht
  have hdigest : ∀ p q, Planned ⟨.postgres, false⟩ (Scope.of atlasCities .empty) [["country"]] p →
      Planned ⟨.postgres, false⟩ (Scope.of atlasCities .empty) [["country"]] q →
      Digest.short (wayName (Scope.of atlasCities .empty) p) =
        Digest.short (wayName (Scope.of atlasCities .empty) q) →
      wayName (Scope.of atlasCities .empty) p = wayName (Scope.of atlasCities .empty) q := by
    have hnodup : ([[], ["country"], ["region"]].map fun p =>
        Digest.short (wayName (Scope.of atlasCities .empty) p)).Nodup := by
      decide +kernel
    intro p q hp hq heq
    rw [List.inj_on_of_nodup_map hnodup (hstar p hp) (hstar q hq) heq]
  have hnames : NamesApart ⟨.postgres, false⟩ (Scope.of atlasCities .empty) [["country"]] := by
    have hall : ∀ p ∈ [[], ["country"], ["region"]], ∀ q ∈ [[], ["country"], ["region"]], p ≠ q →
        wayName (Scope.of atlasCities .empty) p ≠ wayName (Scope.of atlasCities .empty) q ∧
        Sql.fitName .postgres (wayName (Scope.of atlasCities .empty) q) ≠
          wayName (Scope.of atlasCities .empty) p := by
      decide +kernel
    exact fun p q hp hq => hall p (hstar p hp) q (hstar q hq)
  exact ⟨of?_country, hnames, ((of?_aliases of?_country hdigest).2 hnames).1⟩

/-! ## Two ways of one name -/

/-- Purchases lead to an owner of their own, and to a store. -/
def purchases : Table where
  name := "purchases"
  source := .physical none "purchases"
  joins := [
    { name := "store_owner", table := "owners"
      condition := "\x7b\x7b$owner_id\x7d\x7d = \x7b\x7bstore_owner.$id\x7d\x7d" },
    { name := "store", table := "stores"
      condition := "\x7b\x7b$store_id\x7d\x7d = \x7b\x7bstore.$id\x7d\x7d" }]

/-- Stores lead to their owners, who are landlords. -/
def stores : Table where
  name := "stores"
  source := .physical none "stores"
  joins := [
    { name := "owner", table := "landlords"
      condition := "\x7b\x7b$owner_id\x7d\x7d = \x7b\x7bowner.$id\x7d\x7d" }]

/-- Owners with their names. -/
def owners : Table where
  name := "owners"
  source := .physical none "owners"
  columns := [{ name := "name", formula := "\x7b\x7b$name\x7d\x7d", kind := .dimension }]

/-- Landlords with their names. -/
def landlords : Table where
  name := "landlords"
  source := .physical none "landlords"
  columns := [{ name := "name", formula := "\x7b\x7b$name\x7d\x7d", kind := .dimension }]

/-- Purchases, stores and those who own them. -/
def market : Model where
  tables := [purchases, stores, owners, landlords]

/-- The purchases of the market. -/
def marketPurchases : market.Member := ⟨purchases, List.mem_cons_self⟩

/-- The owner that a purchase itself leads to. -/
def joinStoreOwner : PlannedJoin where
  kind := .left
  table := owners
  label := "purchases_store_owner"
  on := some "\"purchases\".\"owner_id\" = \"purchases_store_owner\".\"id\""

/-- The store of a purchase. -/
def joinStore : PlannedJoin where
  kind := .left
  table := stores
  label := "purchases_store"
  on := some "\"purchases\".\"store_id\" = \"purchases_store\".\"id\""

/-- The store's owner, who goes by the same name as the owner the purchase itself leads to. -/
def joinOwner : PlannedJoin where
  kind := .left
  table := landlords
  label := "purchases_store_owner"
  on := some "\"purchases_store\".\"owner_id\" = \"purchases_store_owner\".\"id\""

/-- The owners a purchase leads to directly, and those of its store. -/
def ownerNames : Query where
  table := "purchases"
  arguments := .empty
  projections := [⟨{ joins := ["store_owner"], column := "name" }, .dimension, "store_owner_name"⟩,
    ⟨{ joins := ["store", "owner"], column := "name" }, .dimension, "landlord"⟩]
  whereFilter := none
  havingFilter := none
  sorting := []
  pagination := none
  bypassCache := false

/-- The joins that the names of both require. -/
def ownerWays : List JoinPath := [["store"], ["store", "owner"], ["store_owner"]]

theorem of?_market : of? ⟨.sqlite, false⟩ (Scope.of marketPurchases .empty) ownerWays =
    some (.ok [joinStoreOwner, joinStore]) := by
  let store : JoinNode := ⟨["store"], [1], [], joinStore⟩
  let owner : JoinNode := ⟨["store", "owner"], [1, 0], [["store"]], joinOwner⟩
  let storeOwner : JoinNode := ⟨["store_owner"], [0], [], joinStoreOwner⟩
  let scope : Scope market := Scope.of marketPurchases .empty
  have h₁ : closeStep ⟨.sqlite, false⟩ scope ["store"] [["store", "owner"], ["store_owner"]] [] =
      .ok ([["store", "owner"], ["store_owner"]], [store]) := by decide +kernel
  have h₂ : closeStep ⟨.sqlite, false⟩ scope ["store", "owner"] [["store_owner"]] [store] =
      .ok ([["store_owner"], ["store"], ["store"]], [store, owner]) := by decide +kernel
  have h₃ : closeStep ⟨.sqlite, false⟩ scope ["store_owner"] [["store"], ["store"]]
      [store, owner] = .ok ([["store"], ["store"]], [store, owner, storeOwner]) := by
    decide +kernel
  have h₄ : ∀ waiting, closeStep ⟨.sqlite, false⟩ scope ["store"] waiting
      [store, owner, storeOwner] = .ok (waiting, [store, owner, storeOwner]) := fun _ => rfl
  have hclose := (close_eq_some_iff (s := (ownerWays, []))).2
    ⟨_, .head (.take h₁) (.head (.take h₂) (.head (.take h₃) (.head (.take (h₄ _))
      (.single (.take (h₄ _)))))), .found _⟩
  rw [of?, hclose]
  rfl

/-- The two ways differ and both are to be joined, but their alias is the same, so only one is, and
the other reads the wrong table. No name is shortened here. -/
theorem compile_market :
    let scope : Scope market := Scope.of marketPurchases .empty
    Model.build [purchases, stores, owners, landlords] = .ok market ∧
    (∃ c p, compile market .sqlite ownerNames = .ok c ∧
      Plan.build market .sqlite ownerNames = .ok p ∧ p.joins = [joinStoreOwner, joinStore] ∧
      p.dimensions.map (·.sql) = ["\"purchases_store_owner\".\"name\"",
        "\"purchases_store_owner\".\"name\""]) ∧
    ((Plan.draft .sqlite ownerNames marketPurchases {}).run' []).map (·.2) = .ok ownerWays ∧
    (∀ p ∈ ownerWays, Closure ⟨.sqlite, false⟩ scope ownerWays p) ∧
    (["store_owner"] : JoinPath) ≠ ["store", "owner"] ∧
    aliasFor .sqlite purchases ["store_owner"] = aliasFor .sqlite purchases ["store", "owner"] ∧
    ¬ ReadsOwn ⟨.sqlite, false⟩ scope [joinStoreOwner, joinStore] ["store", "owner"] := by
  intro scope
  refine ⟨by decide +kernel, ?_, by decide +kernel, fun p hp => .required hp ?_, by decide,
    by decide +kernel, ?_⟩
  · have hdraft : ((Plan.draft .sqlite ownerNames marketPurchases {}).run' []).map (fun r =>
        (r.2, (Plan.compile { r.1 with joins := [joinStoreOwner, joinStore] }).toOption.isSome,
          r.1.dimensions.map (·.sql))) =
        .ok (ownerWays, true, ["\"purchases_store_owner\".\"name\"",
          "\"purchases_store_owner\".\"name\""]) := by
      decide +kernel
    obtain ⟨⟨p, required⟩, hrun, hp⟩ := map_ok hdraft
    simp only [Prod.mk.injEq] at hp
    obtain ⟨rfl, hcompile, hdimensions⟩ := hp
    have hjoins : of ⟨.sqlite, false⟩ scope ownerWays = .ok [joinStoreOwner, joinStore] := by
      rw [of, of?_market]
      rfl
    have hfilters : Placement.of market ownerNames = .ok {} := rfl
    have hbuild := Plan.build_of_joins hfilters rfl hrun hjoins
    obtain ⟨c, hc⟩ := Option.isSome_iff_exists.1 hcompile
    exact ⟨c, _, (compile_of_build hbuild).trans (ok_of_toOption hc), hbuild, rfl, hdimensions⟩
  · rintro rfl
    simp [ownerWays] at hp
  · rintro ⟨t, htable, hsources⟩
    have htarget : tableAt scope.root ["store", "owner"] = .ok ⟨landlords, by decide +kernel⟩ := by
      decide +kernel
    cases htable.symm.trans htarget
    revert hsources
    decide +kernel

end JoinPlan

end Rollup
