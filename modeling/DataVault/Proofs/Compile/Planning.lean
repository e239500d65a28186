/-
DataVault.Proofs.Compile.Planning — what a run does with its entities.

The entities that keep their names are generated. `Ran` tells a run that
went through from them: the artifacts are those of the entities one after
the other, and the rejections are those that were made before, and those of
the entities that their generators refuse, each with the row of its entity.
From there the rows are accounted for: `covers` says that every row is that
of one rejection or of one generated entity.
-/
import DataVault.Proofs.Compile.Claiming
import DataVault.Proofs.Generate.Generated
import DataVault.Proofs.Output.Steps

namespace DataVault.Compile

open DataVault.Artifact DataVault.Digest DataVault.Entity DataVault.Generate DataVault.Guard
  DataVault.Lists DataVault.Metadata DataVault.Output DataVault.Results DataVault.Sql

/-! ## 1. Generated entities -/

/-- The generator of the entity accepts it. -/
def isGenerated (s : Settings) (a : Accepted) : Bool := (generate s a.spec).isOk

/-- The rejection of an entity that its generator refuses. -/
def refusal? (s : Settings) (a : Accepted) : Option Rejection :=
  match generate s a.spec with
  | .ok _ => none
  | .error e => some (.ofError (some a.row) a.spec.name.text e)

theorem isGenerated_iff {s : Settings} {a : Accepted} :
    isGenerated s a = true ↔ ∃ artifacts, generate s a.spec = .ok artifacts := by
  unfold isGenerated
  cases generate s a.spec <;> simp [Except.isOk, Except.toBool]

theorem artifactsOf_of_not_generated {s : Settings} {a : Accepted} (h : ¬ isGenerated s a = true) :
    artifactsOf s a.spec = [] := by
  unfold artifactsOf
  split
  · next artifacts hgenerate => exact absurd (isGenerated_iff.mpr ⟨artifacts, hgenerate⟩) h
  · rfl

theorem artifactsOf_eq {s : Settings} {a : Accepted} (h : isGenerated s a = true) :
    generate s a.spec = .ok (artifactsOf s a.spec) := by
  obtain ⟨artifacts, hgenerate⟩ := isGenerated_iff.mp h
  simp only [artifactsOf, hgenerate]

/-- Only generated entities have artifacts. -/
theorem isGenerated_of_mem {s : Settings} {a : Accepted} {x : Artifact}
    (hx : x ∈ artifactsOf s a.spec) : isGenerated s a = true := by
  by_contra hnot
  rw [artifactsOf_of_not_generated hnot] at hx
  cases hx

theorem artifactOf_of_artifactsOf {s : Settings} {a : Accepted} {x : Artifact}
    (hx : x ∈ artifactsOf s a.spec) : ArtifactOf s a.spec x.role x :=
  artifactOf_of_mem (artifactsOf_eq (isGenerated_of_mem hx)) hx

/-- An entity is generated or refused, under the row that it has. -/
theorem rows_generated_perm (s : Settings) (entities : List Accepted) :
    ((entities.filterMap (refusal? s)).map Rejection.row ++
      (entities.filter (isGenerated s)).map fun a => some a.row).Perm
      (entities.map fun a => some a.row) := by
  induction entities with
  | nil => exact List.Perm.refl _
  | cons a rest ih =>
    cases hgenerate : generate s a.spec with
    | ok artifacts =>
      have hgenerated : isGenerated s a = true := isGenerated_iff.mpr ⟨artifacts, hgenerate⟩
      have hrefusal : refusal? s a = none := by simp only [refusal?, hgenerate]
      rw [List.filterMap_cons_none hrefusal, List.filter_cons_of_pos hgenerated, List.map_cons,
        List.map_cons]
      exact List.perm_middle.trans (ih.cons _)
    | error e =>
      have hgenerated : ¬ isGenerated s a = true := by
        rw [isGenerated_iff, hgenerate]
        rintro ⟨artifacts, ⟨⟩⟩
      have hrefusal : refusal? s a = some (.ofError (some a.row) a.spec.name.text e) := by
        simp only [refusal?, hgenerate]
      rw [List.filterMap_cons_some hrefusal, List.filter_cons_of_neg hgenerated, List.map_cons,
        List.map_cons, List.cons_append]
      exact ih.cons _

/-! ## 2. Entities that keep their names -/

/-- The entities that keep their names, with the rejections up to there. -/
def keptOf (s : Settings) (separator : Char) (rows : List Row) : Ingested :=
  rejectOverlaps s (ingest separator rows)

section
variable {s : Settings} {separator : Char} {rows : List Row}

theorem sorted_keptOf : (keptOf s separator rows).Sorted separator rows :=
  sorted_rejectOverlaps s (sorted_ingest separator rows)

theorem covers_keptOf : (keptOf s separator rows).Covers separator rows :=
  sorted_keptOf.toCovers

theorem apart_keptOf : (keptOf s separator rows).accepted.Pairwise (NamesApart s) := by
  unfold keptOf
  rw [rejectOverlaps_eq]
  exact (settle_sound s _).apart

/-- A refused entity is located by its name. -/
theorem map_locate {g : Ingested}
    (h : g.accepted.Pairwise fun a b => a.spec.name.sameName b.spec.name = false) :
    (dispatch s g.specs).rejections.map (locate g) = g.accepted.filterMap (refusal? s) := by
  unfold dispatch Ingested.specs
  rw [List.filterMap_map, List.map_filterMap]
  refine List.filterMap_congr fun a ha => ?_
  unfold rejectionOf? refusal?
  simp only [Function.comp_apply]
  cases generate s a.spec with
  | ok artifacts => rfl
  | error e =>
    simp only [Option.map_some, locate, Rejection.ofError, Ingested.rowOf?,
      Ingested.find?_name h ha, Option.none_or]

/-- The entities whose artifacts a run has. -/
def generatedOf (s : Settings) (separator : Char) (rows : List Row) : List Accepted :=
  (keptOf s separator rows).accepted.filter (isGenerated s)

/-! ## 3. Runs -/

/-- Only an empty separator stops a run. -/
theorem allPassed_evaluate_iff (specs : List EntitySpec) :
    allPassed (evaluate s specs) = true ↔ s.keyEncoding ≠ .delimited "" := by
  have hdelimiter : (keyDelimiterGuard.report s specs).failed = true ↔
      s.keyEncoding = .delimited "" := by
    simp only [Check.report, keyDelimiterGuard]
    cases s.keyEncoding with
    | lengthPrefixed => exact iff_of_false (by decide) nofun
    | delimited separator =>
      simp only [checkDelimiter, String.isEmpty_iff, KeyEncoding.delimited.injEq]
      by_cases hempty : separator = ""
      · exact iff_of_true (by rw [if_pos hempty]; rfl) hempty
      · refine iff_of_false ?_ hempty
        rw [if_neg hempty]
        split <;> exact Bool.false_ne_true
  have hoverlap : (outputOverlapGuard.report s specs).failed = false := by
    simp only [Check.report, outputOverlapGuard, checkOverlaps]
    split <;> rfl
  have hinputs : (determinismGuard.report s specs).failed = false := rfl
  simp [allPassed, evaluate, suite, hoverlap, hinputs, ← hdelimiter]

/-- A run that went through, told from the entities that kept their names. -/
structure Ran (s : Settings) (separator : Char) (rows : List Row) (summary : Summary) : Prop where
  artifacts_eq : summary.artifacts =
    (keptOf s separator rows).accepted.flatMap fun a => artifactsOf s a.spec
  rejections_eq : summary.rejections =
    (keptOf s separator rows).rejections ++
      (keptOf s separator rows).accepted.filterMap (refusal? s)

/-- The plan of a run, told from the entities that keep their names. The
guards look at all that were read. -/
theorem plan_eq_ok_iff {p : Plan} : plan s separator rows = .ok p ↔
    s.keyEncoding ≠ .delimited "" ∧
      p = {
        artifacts := (keptOf s separator rows).accepted.flatMap fun a => artifactsOf s a.spec
        rejections := (keptOf s separator rows).rejections ++
          (keptOf s separator rows).accepted.filterMap (refusal? s)
        guards := evaluate s (ingest separator rows).specs
        inputHash := inputHash (keptOf s separator rows).specs
        configHash := s.fingerprint } := by
  have hartifacts : (dispatch s (keptOf s separator rows).specs).artifacts =
      (keptOf s separator rows).accepted.flatMap fun a => artifactsOf s a.spec := by
    rw [dispatch, Ingested.specs, List.flatMap_map]
  rw [← map_locate covers_keptOf.distinct, ← hartifacts,
    ← allPassed_evaluate_iff (ingest separator rows).specs]
  unfold plan planWith
  simp only [keptOf]
  split
  · next hpassed => simp only [hpassed, true_and, Except.ok.injEq, eq_comm]
  · next hfailed => simp only [hfailed, reduceCtorEq, false_and]

theorem carryOut_eq_ok {σ : Type} {sink : Sink σ} {p : Plan} {now : String} {st st' : σ}
    {summary : Summary} (h : p.carryOut sink now st = (.ok summary, st')) :
    ∃ r, sink.persistAll p.artifacts st = (.ok (), r) ∧
      sink.finish r = (.ok summary.report, st') ∧
      summary = ⟨p.artifacts, p.rejections, p.guards,
        .make p.inputHash p.configHash p.artifacts now, summary.report⟩ := by
  obtain ⟨⟨⟩, r, hpersist, h⟩ := andThen_eq_ok_iff.mp h
  obtain ⟨report, r', hfinish, h⟩ := andThen_eq_ok_iff.mp h
  cases h
  exact ⟨r, hpersist, hfinish, rfl⟩

theorem compile_eq_ok_iff {σ : Type} {sink : Sink σ} {now : String} {st st' : σ}
    {summary : Summary} :
    compile s separator sink now rows st = (.ok summary, st') ↔
      ∃ p, plan s separator rows = .ok p ∧ p.carryOut sink now st = (.ok summary, st') := by
  unfold compile compileWith
  refine andThen_eq_ok_iff.trans ?_
  simp only [Step.ofExcept, Prod.mk.injEq]
  constructor
  · rintro ⟨p, _, ⟨hplan, rfl⟩, h⟩
    exact ⟨p, hplan, h⟩
  · rintro ⟨p, hplan, h⟩
    exact ⟨p, st, ⟨hplan, rfl⟩, h⟩

theorem ran_of_compile {σ : Type} {sink : Sink σ} {now : String} {st st' : σ} {summary : Summary}
    (h : compile s separator sink now rows st = (.ok summary, st')) :
    Ran s separator rows summary := by
  obtain ⟨p, hplan, hcarry⟩ := compile_eq_ok_iff.mp h
  obtain ⟨r, -, -, hsummary⟩ := carryOut_eq_ok hcarry
  obtain ⟨-, rfl⟩ := plan_eq_ok_iff.mp hplan
  rw [hsummary]
  exact ⟨rfl, rfl⟩

/-! ## 4. What a run did -/

namespace Ran

variable {summary : Summary} (h : Ran s separator rows summary)
include h

theorem artifacts_generated :
    summary.artifacts = (generatedOf s separator rows).flatMap fun a => artifactsOf s a.spec := by
  rw [h.artifacts_eq, generatedOf]
  induction (keptOf s separator rows).accepted with
  | nil => rfl
  | cons a rest ih =>
    rw [List.flatMap_cons, ih, List.filter_cons]
    split
    · rw [List.flatMap_cons]
    · next hnot => rw [artifactsOf_of_not_generated hnot, List.nil_append]

theorem artifacts_of_specs :
    summary.artifacts = (keptOf s separator rows).specs.flatMap (artifactsOf s) := by
  rw [h.artifacts_eq, Ingested.specs, List.flatMap_map]

/-- Each row is that of one rejection or of one generated entity. -/
theorem rows_perm :
    (summary.rejections.map Rejection.row ++
      (generatedOf s separator rows).map fun a => some a.row).Perm (rowNumbers rows.length) := by
  rw [h.rejections_eq, List.map_append, List.append_assoc]
  refine ((rows_generated_perm s _).append_left _).trans ?_
  exact covers_keptOf.rows_perm

/-- The generated entities and all rejections cover the rows. -/
theorem covers :
    Ingested.Covers ⟨generatedOf s separator rows, summary.rejections⟩ separator rows where
  rows_perm := h.rows_perm
  increasing := covers_keptOf.increasing.sublist List.filter_sublist
  distinct := covers_keptOf.distinct.sublist List.filter_sublist
  described a ha := covers_keptOf.described a (List.mem_filter.mp ha).1

/-- Each artifact is that of a generated entity. -/
theorem exists_generated {x : Artifact} (hx : x ∈ summary.artifacts) :
    ∃ a ∈ generatedOf s separator rows, x ∈ artifactsOf s a.spec := by
  rw [h.artifacts_generated] at hx
  exact List.mem_flatMap.mp hx

/-- A generated entity has an artifact in each role of its kind. -/
theorem exists_artifact {a : Accepted} (ha : a ∈ generatedOf s separator rows)
    {role : ArtifactRole} (hrole : role ∈ artifactRoles s a.spec.kind) :
    ∃ x ∈ summary.artifacts, ArtifactOf s a.spec role x := by
  have hgenerate := artifactsOf_eq (List.mem_filter.mp ha).2
  obtain ⟨x, hx, hartifact⟩ := exists_of_mem_left (artifacts_of_generate hgenerate) hrole
  refine ⟨x, ?_, hartifact⟩
  rw [h.artifacts_generated]
  exact List.mem_flatMap.mpr ⟨a, ha, hx⟩

/-- An entity that is kept and not generated is rejected. -/
theorem exists_rejection {a : Accepted} (ha : a ∈ (keptOf s separator rows).accepted)
    (hnot : ¬ isGenerated s a = true) : ∃ r ∈ summary.rejections, r.row = some a.row := by
  cases hgenerate : generate s a.spec with
  | ok artifacts => exact absurd (isGenerated_iff.mpr ⟨artifacts, hgenerate⟩) hnot
  | error e =>
    refine ⟨.ofError (some a.row) a.spec.name.text e, ?_, rfl⟩
    rw [h.rejections_eq]
    refine List.mem_append_right _ (List.mem_filterMap.mpr ⟨a, ha, ?_⟩)
    simp only [refusal?, hgenerate]

end Ran

end

/-! ## 5. Success -/

theorem exists_compile_memorySink {s : Settings} (h : s.keyEncoding ≠ .delimited "")
    (separator : Char) (now : String) (rows : List Row) (kept : List Artifact) :
    ∃ summary kept', compile s separator memorySink now rows kept = (.ok summary, kept') := by
  have hcarry (p : Plan) : p.carryOut memorySink now kept =
      (.ok ⟨p.artifacts, p.rejections, p.guards, .make p.inputHash p.configHash p.artifacts now,
        .empty⟩, kept ++ p.artifacts) :=
    andThen_eq_ok_iff.mpr ⟨(), _, persistAll_memorySink p.artifacts kept,
      andThen_eq_ok_iff.mpr ⟨.empty, _, rfl, rfl⟩⟩
  exact ⟨_, _, compile_eq_ok_iff.mpr ⟨_, plan_eq_ok_iff.mpr ⟨h, rfl⟩, hcarry _⟩⟩

section
variable {s : Settings} {separator : Char} {now : String} {rows : List Row} {summary : Summary}

theorem keyEncoding_of_compile {σ : Type} {sink : Sink σ} {st st' : σ}
    (h : compile s separator sink now rows st = (.ok summary, st')) :
    s.keyEncoding ≠ .delimited "" := by
  obtain ⟨p, hplan, -⟩ := compile_eq_ok_iff.mp h
  exact (plan_eq_ok_iff.mp hplan).1

/-- The memory sink holds the artifacts of the summary, behind those that it
held before. -/
theorem kept_of_compile {start kept : List Artifact}
    (h : compile s separator memorySink now rows start = (.ok summary, kept)) :
    kept = start ++ summary.artifacts := by
  obtain ⟨p, -, hcarry⟩ := compile_eq_ok_iff.mp h
  obtain ⟨r, hpersist, hfinish, hsummary⟩ := carryOut_eq_ok hcarry
  rw [persistAll_memorySink] at hpersist
  cases hpersist
  have hkept : start ++ p.artifacts = kept := congrArg Prod.snd hfinish
  rw [← hkept, hsummary]

end

end DataVault.Compile
