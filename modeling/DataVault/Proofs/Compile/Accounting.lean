/-
DataVault.Proofs.Compile.Accounting — no row is lost.

Rejections are made in four places: by reading a row, by a repeated entity
name, by a lost artifact name, and by a generator. `compile_accounts` says
that over all of them every row is either rejected once or generated in
full, and that the sink was handed what the summary of the run lists.

A repeated row has the name of a generated entity and is rejected all the
same, so artifacts are told from each other by their entity and rejections
by their row.
-/
import DataVault.Proofs.Compile.Planning

namespace DataVault.Compile

open DataVault.Artifact DataVault.Entity DataVault.Generate DataVault.Guard DataVault.Metadata
  DataVault.Output DataVault.Sql

/-- The artifacts of a run with an entity's name on them. -/
def Summary.artifactsNamed (summary : Summary) (name : Ident) : List Artifact :=
  summary.artifacts.filter fun x => x.entity = name

/-- What became of the rows: some gave the generated entities, and the
others were rejected. -/
structure Accounts (s : Settings) (separator : Char) (rows : List Row) (summary : Summary)
    (generated : List Accepted) : Prop where
  /-- Each row is that of one rejection or of one generated entity. -/
  rows_perm : (summary.rejections.map Rejection.row ++ generated.map fun a => some a.row).Perm
    (rowNumbers rows.length)
  numbered : ∀ r ∈ summary.rejections,
    ∃ number, r.row = some number ∧ 1 ≤ number ∧ number ≤ rows.length
  /-- The entities are in the order of their rows. -/
  increasing : generated.Pairwise fun a b => a.row < b.row
  described : ∀ a ∈ generated, ∃ row, rows[a.row - 1]? = some row ∧
    row.toSpec separator = .ok a.spec
  /-- The artifacts of an entity are all that its generator gives. -/
  complete : ∀ a ∈ generated, generate s a.spec = .ok (summary.artifactsNamed a.spec.name)
  roles : ∀ a ∈ generated,
    (summary.artifactsNamed a.spec.name).map Artifact.role = artifactRoles s a.spec.kind
  /-- The artifacts are those of one entity after those of the other. -/
  blocks : summary.artifacts = generated.flatMap fun a => summary.artifactsNamed a.spec.name
  /-- The artifacts are those of entities that no rejection is about. -/
  unrejected : ∀ x ∈ summary.artifacts, ∃ a ∈ generated, x.entity = a.spec.name ∧
    ∀ r ∈ summary.rejections, r.row ≠ some a.row

section
variable {s : Settings} {separator : Char} {rows : List Row} {summary : Summary}

/-- Generated entities have different names, so the name of one gives its
artifacts. -/
theorem Ran.artifactsNamed_eq (h : Ran s separator rows summary) {a : Accepted}
    (ha : a ∈ generatedOf s separator rows) :
    summary.artifactsNamed a.spec.name = artifactsOf s a.spec := by
  rw [Summary.artifactsNamed, h.artifacts_generated]
  exact covers_keptOf.filter_flatMap List.filter_sublist
    (fun b _ x hx => (artifactOf_of_artifactsOf hx).entity_eq) ha

theorem Ran.accounts (h : Ran s separator rows summary) :
    Accounts s separator rows summary (generatedOf s separator rows) := by
  have hgenerates : ∀ a ∈ generatedOf s separator rows,
      generate s a.spec = .ok (summary.artifactsNamed a.spec.name) := by
    intro a ha
    rw [h.artifactsNamed_eq ha]
    exact artifactsOf_eq (List.mem_filter.mp ha).2
  refine ⟨h.rows_perm, fun r hr => h.covers.exists_number hr, h.covers.increasing,
    h.covers.described, hgenerates, fun a ha => roles_of_generate (hgenerates a ha), ?_, ?_⟩
  · rw [h.artifacts_generated]
    exact List.flatMap_congr fun a ha => (h.artifactsNamed_eq ha).symm
  · intro x hx
    obtain ⟨a, ha, hxa⟩ := h.exists_generated hx
    exact ⟨a, ha, (artifactOf_of_artifactsOf hxa).entity_eq, fun r hr => h.covers.row_ne hr ha⟩

/-- The log of the sink holds the artifacts of the summary. -/
theorem compile_logged {σ : Type} {sink : Sink σ} {now : String} {st st' : σ}
    (h : compile s separator sink now rows st = (.ok summary, st')) :
    compile s separator sink.logged now rows (st, []) =
      (.ok summary, st', summary.artifacts) := by
  obtain ⟨p, hplan, hcarry⟩ := compile_eq_ok_iff.mp h
  obtain ⟨r, hpersist, hfinish, hsummary⟩ := carryOut_eq_ok hcarry
  refine compile_eq_ok_iff.mpr ⟨p, hplan, ?_⟩
  refine andThen_eq_ok_iff.mpr ⟨(), _, persistAll_logged hpersist [], ?_⟩
  refine andThen_eq_ok_iff.mpr ⟨_, _, finish_logged hfinish _, ?_⟩
  rw [List.nil_append, hsummary]
  rfl

end

/-- Every row of a run that goes through is accounted for, and the sink was
handed the artifacts of the summary in their order. -/
theorem compile_accounts {σ : Type} (s : Settings) (separator : Char) (sink : Sink σ)
    (now : String) (rows : List Row) (st st' : σ) (summary : Summary)
    (h : compile s separator sink now rows st = (.ok summary, st')) :
    (∃ generated, Accounts s separator rows summary generated) ∧
      compile s separator sink.logged now rows (st, []) =
        (.ok summary, st', summary.artifacts) :=
  ⟨⟨_, (ran_of_compile h).accounts⟩, compile_logged h⟩

/-- A hub, a row without a name, and the hub once more. -/
def repeatedRows : List Row :=
  [⟨"customer", "hub", .joined "customer_id", .joined "", "stg.customer"⟩,
    ⟨"", "hub", .joined "id", .joined "", "stg.unnamed"⟩,
    ⟨"Customer", "hub", .joined "customer_id", .joined "", "stg.customer"⟩]

theorem compile_accounts_repeated :
    ∃ summary kept, compile .standard ',' memorySink "" repeatedRows [] = (.ok summary, kept) ∧
      (∃ generated, Accounts .standard ',' repeatedRows summary generated) ∧
      compile .standard ',' memorySink.logged "" repeatedRows ([], []) =
        (.ok summary, kept, summary.artifacts) := by
  obtain ⟨summary, kept, h⟩ := exists_compile_memorySink (s := .standard) (by decide) ',' ""
    repeatedRows []
  exact ⟨summary, kept, h, compile_accounts .standard ',' memorySink "" repeatedRows [] kept
    summary h⟩

end DataVault.Compile
