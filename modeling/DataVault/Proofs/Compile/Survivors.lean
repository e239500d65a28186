/-
DataVault.Proofs.Compile.Survivors — a run without its rejected rows.

The rows that are not rejected are those of the generated entities
(`Ran.survivors_eq`). Read by themselves they describe these entities again,
under new row numbers. Their names are different, so none is refused as a
repetition, and their artifact names are apart, so none is lost; whoever held
a name first and was rejected is not needed to keep the others away. What the
generators make of an entity depends on the entity alone, so the artifacts
are the same (`survivors_compile`).
-/
import DataVault.Proofs.Compile.Accounting

namespace DataVault.Compile

open DataVault.Entity DataVault.Metadata

namespace Summary

/-- No rejection is about the row. -/
def isFree (summary : Summary) (row : Option Nat) : Bool :=
  summary.rejections.all fun r => r.row != row

/-- The numbers of the rows that no rejection is about. -/
def survivingNumbers (summary : Summary) (count : Nat) : List Nat :=
  (List.range' 1 count).filter fun number => summary.isFree (some number)

/-- The rows that no rejection is about, in their order. -/
def survivors (summary : Summary) (rows : List Row) : List Row :=
  (summary.survivingNumbers rows.length).filterMap fun number => rows[number - 1]?

theorem isFree_iff (summary : Summary) {row : Option Nat} :
    summary.isFree row = true ↔ ∀ r ∈ summary.rejections, r.row ≠ row := by
  simp [isFree]

end Summary

end DataVault.Compile

namespace DataVault.Metadata

open DataVault.Entity DataVault.Sql

/-! ## 1. Reading what describes different entities -/

/-- Rows that describe entities with different names are all accepted. -/
theorem ingestFrom_described {separator : Char} {rows : List Row} {specs : List EntitySpec}
    (h : List.Forall₂ (fun row spec => row.toSpec separator = .ok spec) rows specs)
    (g : Ingested) (number : Nat)
    (hdistinct : (g.specs ++ specs).Pairwise fun a b => a.name.sameName b.name = false) :
    (ingestFrom separator g number rows).specs = g.specs ++ specs ∧
      (ingestFrom separator g number rows).rejections = g.rejections := by
  induction h generalizing g number with
  | nil => exact ⟨(List.append_nil _).symm, rfl⟩
  | @cons row spec rows specs hspec _ ih =>
    have hread := reads_add separator g number row
    rw [ingestFrom]
    generalize g.add separator number row = next at hread
    cases hread with
    | invalid hspec' =>
      rw [hspec] at hspec'
      cases hspec'
    | repeated hspec' ha hsame =>
      rw [hspec] at hspec'
      cases hspec'
      have hne := (List.pairwise_append.mp hdistinct).2.2 _ (List.mem_map_of_mem ha) spec
        List.mem_cons_self
      rw [hsame] at hne
      cases hne
    | accepted hspec' hnew =>
      rw [hspec] at hspec'
      cases hspec'
      have hspecs : Ingested.specs ⟨g.accepted ++ [⟨number, spec⟩], g.rejections⟩ ++ specs =
          g.specs ++ spec :: specs := by
        simp [Ingested.specs]
      rw [← hspecs] at hdistinct ⊢
      exact ih _ _ hdistinct

theorem ingest_described {separator : Char} {rows : List Row} {specs : List EntitySpec}
    (h : List.Forall₂ (fun row spec => row.toSpec separator = .ok spec) rows specs)
    (hdistinct : specs.Pairwise fun a b => a.name.sameName b.name = false) :
    (ingest separator rows).specs = specs ∧ (ingest separator rows).rejections = [] :=
  ingestFrom_described h ⟨[], []⟩ 1 hdistinct

end DataVault.Metadata

namespace DataVault.Compile

open DataVault.Artifact DataVault.Entity DataVault.Generate DataVault.Guard DataVault.Lists
  DataVault.Metadata DataVault.Output DataVault.Sql

/-! ## 2. Entities whose names are apart -/

/-- Nobody loses a name where all are apart. -/
theorem settle_of_apart {s : Settings} {entities : List Accepted}
    (h : entities.Pairwise (NamesApart s)) : settle s entities = ⟨entities, []⟩ := by
  induction entities using List.reverseRecOn with
  | nil => rfl
  | append_singleton entities a ih =>
    obtain ⟨hearlier, -, hlast⟩ := List.pairwise_append.mp h
    have hsettled := ih hearlier
    have hfree : taken? s entities a = none := by
      rw [taken?, hsettled]
      exact taken?_eq_none_iff.mpr fun b hb => hlast b hb a List.mem_cons_self
    rw [settle_free hfree, hsettled]

/-! ## 3. The rows of the generated entities -/

section
variable {s : Settings} {separator : Char} {rows : List Row} {summary : Summary}

/-- The rows that are not rejected are those of the generated entities. -/
theorem Ran.survivingNumbers_eq (h : Ran s separator rows summary) :
    summary.survivingNumbers rows.length = (generatedOf s separator rows).map Accepted.row := by
  have hsurviving : (summary.survivingNumbers rows.length).Pairwise (· < ·) :=
    List.Pairwise.filter _ List.pairwise_lt_range'
  -- Both lists increase, and the rows of `rows_perm` that no rejection is about are in both.
  refine List.Perm.eq_of_pairwise (fun _ _ _ _ hlt hgt => absurd hgt (Nat.lt_asymm hlt))
    hsurviving (List.pairwise_map.mpr h.covers.increasing) ?_
  have hrejected : (summary.rejections.map Rejection.row).filter summary.isFree = [] := by
    refine List.filter_eq_nil_iff.mpr (List.forall_mem_map.mpr fun r hr hfree => ?_)
    exact summary.isFree_iff.mp hfree r hr rfl
  have hgenerated : ((generatedOf s separator rows).map fun a => some a.row).filter
      summary.isFree = (generatedOf s separator rows).map fun a => some a.row := by
    refine List.filter_eq_self.mpr (List.forall_mem_map.mpr fun a ha => ?_)
    exact summary.isFree_iff.mpr fun r hr => h.covers.row_ne hr ha
  have hperm := h.rows_perm.filter summary.isFree
  rw [List.filter_append, hrejected, hgenerated, List.nil_append, rowNumbers, List.filter_map]
    at hperm
  refine (List.map_perm_map_iff (fun _ _ => Option.some.inj)).mp ?_
  rw [List.map_map]
  exact hperm.symm

/-- They stand beside the entities that they describe. -/
theorem Ran.forall₂_survivors (h : Ran s separator rows summary) {R : Row → Accepted → Prop}
    (hR : ∀ a ∈ generatedOf s separator rows, ∀ row, rows[a.row - 1]? = some row →
      row.toSpec separator = .ok a.spec → R row a) :
    List.Forall₂ R (summary.survivors rows) (generatedOf s separator rows) := by
  rw [Summary.survivors, h.survivingNumbers_eq, List.filterMap_map]
  refine forall₂_filterMap fun a ha => ?_
  obtain ⟨row, hrow, hspec⟩ := h.covers.described a ha
  exact ⟨row, hrow, hR a ha row hrow hspec⟩

/-- Read by themselves they describe the same entities, and all are kept. -/
theorem Ran.keptOf_survivors (h : Ran s separator rows summary) :
    (keptOf s separator (summary.survivors rows)).specs =
        (generatedOf s separator rows).map Accepted.spec ∧
      (keptOf s separator (summary.survivors rows)).rejections = [] := by
  have hsub : (generatedOf s separator rows).Sublist (keptOf s separator rows).accepted :=
    List.filter_sublist
  have hdescribed : List.Forall₂ (fun row spec => row.toSpec separator = .ok spec)
      (summary.survivors rows) ((generatedOf s separator rows).map Accepted.spec) :=
    List.forall₂_map_right_iff.mpr (h.forall₂_survivors fun _ _ _ _ hspec => hspec)
  obtain ⟨hspecs, hrejections⟩ := ingest_described hdescribed
    (List.pairwise_map.mpr h.covers.distinct)
  have hapart : (ingest separator (summary.survivors rows)).accepted.Pairwise (NamesApart s) := by
    have hnames : ((generatedOf s separator rows).map Accepted.spec).Pairwise fun a b =>
        ∀ m ∈ artifactNames s a, ∀ n ∈ artifactNames s b, m.sameName n = false :=
      List.pairwise_map.mpr (apart_keptOf.sublist hsub)
    rw [← hspecs, Ingested.specs, List.pairwise_map] at hnames
    exact hnames
  rw [keptOf, rejectOverlaps_eq, settle_of_apart hapart]
  exact ⟨hspecs, hrejections⟩

end

/-! ## 4. Runs -/

theorem artifactRoles_ne_nil (s : Settings) (kind : EntityKind) : artifactRoles s kind ≠ [] := by
  unfold artifactRoles
  split
  · exact List.cons_ne_nil _ _
  · exact List.cons_ne_nil _ _
  · split <;> exact List.cons_ne_nil _ _

/-- The rows that are not rejected are those that gave artifacts. A run over
them alone rejects nothing and has the same artifacts. -/
theorem survivors_compile (s : Settings) (separator : Char) (now later : String)
    (rows : List Row) (start start' kept : List Artifact) (summary : Summary)
    (h : compile s separator memorySink now rows start = (.ok summary, kept)) :
    (∃ generated, Accounts s separator rows summary generated ∧
      List.Forall₂ (fun row a => rows[a.row - 1]? = some row ∧
        summary.artifactsNamed a.spec.name ≠ []) (summary.survivors rows) generated) ∧
    ∃ summary' kept',
      compile s separator memorySink later (summary.survivors rows) start' =
        (.ok summary', kept') ∧
      summary'.rejections = [] ∧ summary'.artifacts = summary.artifacts ∧
      kept = start ++ summary.artifacts ∧ kept' = start' ++ summary.artifacts := by
  have hran := ran_of_compile h
  have haccounts := hran.accounts
  obtain ⟨summary', kept', h'⟩ := exists_compile_memorySink (keyEncoding_of_compile h) separator
    later (summary.survivors rows) start'
  have hran' := ran_of_compile h'
  obtain ⟨hspecs, hrejections⟩ := hran.keptOf_survivors
  have hartifacts : summary'.artifacts = summary.artifacts := by
    rw [hran'.artifacts_of_specs, hspecs, List.flatMap_map, hran.artifacts_generated]
  refine ⟨⟨_, haccounts, ?_⟩, summary', kept', h', ?_, hartifacts, kept_of_compile h,
    hartifacts ▸ kept_of_compile h'⟩
  · refine hran.forall₂_survivors fun a ha row hrow _ => ⟨hrow, fun hnone => ?_⟩
    have hroles := haccounts.roles a ha
    rw [hnone] at hroles
    exact artifactRoles_ne_nil s a.spec.kind hroles.symm
  · rw [hran'.rejections_eq, hrejections, List.nil_append]
    refine List.filterMap_eq_nil_iff.mpr fun a ha => ?_
    have hspec : a.spec ∈ (generatedOf s separator rows).map Accepted.spec :=
      hspecs ▸ List.mem_map_of_mem ha
    obtain ⟨b, hb, hsame⟩ := List.mem_map.mp hspec
    obtain ⟨artifacts, hgenerate⟩ := isGenerated_iff.mp (List.mem_filter.mp hb).2
    rw [hsame] at hgenerate
    simp only [refusal?, hgenerate]

/-- A hub with a reserved column, a satellite that loses the name of its
snapshot to it, and a hub with the name of the merge. -/
def blockedRows : List Row :=
  [⟨"customer_base", "hub", .joined "load_dts", .joined "", "stg.customer"⟩,
    ⟨"customer", "satellite", .joined "customer_id", .joined "email", "stg.customer"⟩,
    ⟨"customer_merge", "hub", .joined "customer_id", .joined "", "stg.customer"⟩]

/-- The last row is all that is left, and nobody needs the others. -/
theorem survivors_compile_blocked :
    ∃ summary kept summary' kept',
      compile .standard ',' memorySink "" blockedRows [] = (.ok summary, kept) ∧
      summary.survivors blockedRows = blockedRows.drop 2 ∧
      compile .standard ',' memorySink "later" (blockedRows.drop 2) [] = (.ok summary', kept') ∧
      summary'.rejections = [] ∧ summary'.artifacts = summary.artifacts ∧
      kept = summary.artifacts ∧ kept' = summary.artifacts := by
  obtain ⟨summary, kept, h⟩ := exists_compile_memorySink (s := .standard) (by decide) ',' ""
    blockedRows []
  have hsurvivors : summary.survivors blockedRows = blockedRows.drop 2 := by
    unfold Summary.survivors Summary.survivingNumbers Summary.isFree
    rw [(ran_of_compile h).rejections_eq]
    decide +kernel
  obtain ⟨-, summary', kept', h', hclean, hartifacts, hkept, hkept'⟩ :=
    survivors_compile .standard ',' "" "later" blockedRows [] [] kept summary h
  rw [hsurvivors] at h'
  exact ⟨summary, kept, summary', kept', h, hsurvivors, h', hclean, hartifacts, hkept, hkept'⟩

end DataVault.Compile
