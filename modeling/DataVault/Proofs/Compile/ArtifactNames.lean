/-
DataVault.Proofs.Compile.ArtifactNames — every artifact of a run has a name of
its own.

Names are claimed from the specifications before anything is generated, and
made once more by the generators. Both ways agree: the claims of an entity
that has artifacts are the names of those, in their order. Claims of two
entities are apart because the later one is rejected, and the two names of a
satellite end differently.

A file is named after its artifact, so no file of a run replaces another one:
each of them holds its own artifact when all have been written.
-/
import DataVault.Proofs.Compile.Accounting
import DataVault.Proofs.Output.FileSink

namespace DataVault.Guard

open DataVault.Sql

/-- The names that an entity has claimed. -/
def Claims.namesOf (c : Claims) (owner : Ident) : List Ident :=
  (c.claimed.filter fun claim => claim.owner = owner).map Claim.name

end DataVault.Guard

namespace DataVault.Compile

open DataVault.Artifact DataVault.Entity DataVault.Generate DataVault.Guard DataVault.Lists
  DataVault.Metadata DataVault.Output DataVault.Sql DataVault.Text

/-- The artifacts have different names, also in another case. -/
def DistinctNames (artifacts : List Artifact) : Prop :=
  artifacts.Pairwise fun x y => x.targetName.sameName y.targetName = false

/-! ## 1. The artifacts of one entity -/

section
variable {s : Settings} {spec : EntitySpec}

/-- The two names of a satellite end differently. -/
theorem base_ne_merge {x y : Artifact} (hx : ArtifactOf s spec .satelliteBase x)
    (hy : ArtifactOf s spec .satelliteMerge y) :
    x.targetName.sameName y.targetName = false := by
  have hxtext : x.targetName.text = spec.name.text ++ "_" ++ "base" := parse_eq_ok hx.name_eq
  have hytext : y.targetName.text = spec.name.text ++ "_" ++ "merge" := parse_eq_ok hy.name_eq
  rw [Ident.sameName, hxtext, hytext, eqIgnoreCase_append_left]
  decide

theorem distinct_of_artifactOf {roles : List ArtifactRole} {artifacts : List Artifact}
    (h : List.Forall₂ (ArtifactOf s spec) roles artifacts)
    (hroles : roles.Pairwise fun r t => r = .satelliteBase ∧ t = .satelliteMerge) :
    DistinctNames artifacts := by
  induction h with
  | nil => exact .nil
  | @cons role x roles artifacts hx hrest ih =>
    obtain ⟨hfirst, hpair⟩ := List.pairwise_cons.mp hroles
    refine List.pairwise_cons.mpr ⟨fun y hy => ?_, ih hpair⟩
    obtain ⟨t, ht, hty⟩ := exists_of_mem_right hrest hy
    obtain ⟨rfl, rfl⟩ := hfirst t ht
    exact base_ne_merge hx hty

theorem distinct_of_generate {artifacts : List Artifact} (h : generate s spec = .ok artifacts) :
    DistinctNames artifacts := by
  refine distinct_of_artifactOf (artifacts_of_generate h) ?_
  unfold artifactRoles
  split
  · exact List.pairwise_singleton _ _
  · exact List.pairwise_singleton _ _
  · split
    · exact List.pairwise_pair.mpr ⟨rfl, rfl⟩
    · exact List.pairwise_singleton _ _

end

/-! ## 2. The artifacts of a run -/

section
variable {s : Settings} {separator : Char} {rows : List Row} {summary : Summary}

theorem targetName_mem {a : Accepted} {x : Artifact} (hx : x ∈ artifactsOf s a.spec) :
    x.targetName ∈ artifactNames s a.spec := by
  rw [artifactNames_of_generate (artifactsOf_eq (isGenerated_of_mem hx))]
  exact List.mem_map_of_mem hx

theorem Ran.distinct (h : Ran s separator rows summary) : DistinctNames summary.artifacts := by
  rw [h.artifacts_eq]
  refine List.pairwise_flatMap.mpr ⟨fun a _ => ?_, ?_⟩
  · unfold artifactsOf
    split
    · next artifacts hgenerate => exact distinct_of_generate hgenerate
    · exact .nil
  · refine apart_keptOf.imp fun {a b} hapart x hx y hy => ?_
    exact hapart _ (targetName_mem hx) _ (targetName_mem hy)

/-- What a kept entity has claimed is what its specification says: the claims
are those of the kept entities, and no two of these have the same name. -/
theorem namesOf_eq {a : Accepted} (ha : a ∈ (keptOf s separator rows).accepted) :
    (Claims.of s (ingest separator rows).specs).namesOf a.spec.name = artifactNames s a.spec := by
  have hclaimed : (Claims.of s (ingest separator rows).specs).claimed =
      claimsOf s (keptOf s separator rows).accepted := by
    rw [keptOf, rejectOverlaps_eq]
    exact claimed_eq s _
  rw [Claims.namesOf, hclaimed, claimsOf,
    covers_keptOf.filter_flatMap (List.Sublist.refl _) (fun b _ => ?_) ha, List.map_map]
  · exact List.map_id _
  · exact List.forall_mem_map.mpr fun _ _ => rfl

/-! ## 3. Runs -/

theorem Ran.names_claimed (h : Ran s separator rows summary) {a : Accepted}
    (ha : a ∈ generatedOf s separator rows) :
    (Claims.of s (ingest separator rows).specs).namesOf a.spec.name = artifactNames s a.spec ∧
      artifactNames s a.spec = (summary.artifactsNamed a.spec.name).map Artifact.targetName := by
  obtain ⟨hkept, hgenerated⟩ := List.mem_filter.mp ha
  refine ⟨namesOf_eq hkept, ?_⟩
  rw [h.artifactsNamed_eq ha]
  exact artifactNames_of_generate (artifactsOf_eq hgenerated)

end

/-- The artifacts that the sink was handed have different names, also in
another case. The entities with artifacts claimed exactly the names of these.
Handed to a file sink, each artifact is in its file when all are written. -/
theorem artifact_names_distinct {σ : Type} (s : Settings) (separator : Char) (sink : Sink σ)
    (now : String) (rows : List Row) (st st' : σ) (summary : Summary)
    (h : compile s separator sink now rows st = (.ok summary, st')) :
    compile s separator sink.logged now rows (st, []) = (.ok summary, st', summary.artifacts) ∧
      DistinctNames summary.artifacts ∧
      (∃ generated, Accounts s separator rows summary generated ∧
        ∀ a ∈ generated,
          (Claims.of s (ingest separator rows).specs).namesOf a.spec.name =
              artifactNames s a.spec ∧
            artifactNames s a.spec =
              (summary.artifactsNamed a.spec.name).map Artifact.targetName) ∧
      ∀ (fs : FileSettings) (fst fst' : FileState),
        fs.sink.persistAll summary.artifacts fst = (.ok (), fst') →
          ∀ x ∈ summary.artifacts, fst'.tree.read? (fs.pathOf x) = some (x.written fs.format) := by
  have hran := ran_of_compile h
  have hdistinct := hran.distinct
  refine ⟨compile_logged h, hdistinct, ⟨_, hran.accounts, fun a ha => hran.names_claimed ha⟩, ?_⟩
  intro fs fst fst' hpersist
  refine FileSettings.holds_of_persistAll (hdistinct.imp fun {x y} hapart heq => ?_) hpersist
  rw [heq, sameName_refl] at hapart
  cases hapart

/-- A hub, a satellite that loses the name of its snapshot to it, and another
satellite. -/
def lostNameRows : List Row :=
  [⟨"customer_base", "hub", .joined "customer_id", .joined "", "stg.customer"⟩,
    ⟨"customer", "satellite", .joined "customer_id", .joined "email", "stg.customer"⟩,
    ⟨"orders", "satellite", .joined "order_id", .joined "state", "stg.orders"⟩]

def outputSettings : FileSettings := ⟨"out", .sqlx, false⟩

/-- Nothing is there before the run. -/
def emptyOutput : FileState := ⟨.empty, [], []⟩

theorem artifact_names_distinct_lost :
    ∃ summary kept written,
      compile .standard ',' memorySink "" lostNameRows [] = (.ok summary, kept) ∧
      summary.artifacts.map (fun x => x.targetName.text) =
        ["customer_base", "orders_base", "orders_merge"] ∧
      DistinctNames summary.artifacts ∧
      (∃ generated, Accounts .standard ',' lostNameRows summary generated ∧
        ∀ a ∈ generated,
          (Claims.of .standard (ingest ',' lostNameRows).specs).namesOf a.spec.name =
              artifactNames .standard a.spec ∧
            artifactNames .standard a.spec =
              (summary.artifactsNamed a.spec.name).map Artifact.targetName) ∧
      outputSettings.sink.persistAll summary.artifacts emptyOutput = (.ok (), written) ∧
      ∀ x ∈ summary.artifacts,
        written.tree.read? (outputSettings.pathOf x) = some (x.written .sqlx) := by
  obtain ⟨summary, kept, h⟩ := exists_compile_memorySink (s := .standard) (by decide) ',' ""
    lostNameRows []
  obtain ⟨-, hdistinct, hnames, hfiles⟩ :=
    artifact_names_distinct .standard ',' memorySink "" lostNameRows [] kept summary h
  have hartifacts := (ran_of_compile h).artifacts_eq
  have htexts : summary.artifacts.map (fun x => x.targetName.text) =
      ["customer_base", "orders_base", "orders_merge"] := by
    rw [hartifacts]
    decide +kernel
  have hwrites : (outputSettings.sink.persistAll summary.artifacts emptyOutput).1.isOk = true := by
    rw [hartifacts]
    decide +kernel
  rcases hpersist : outputSettings.sink.persistAll summary.artifacts emptyOutput with
    ⟨failure | ⟨⟩, written⟩
  · rw [hpersist] at hwrites
    cases hwrites
  · exact ⟨summary, kept, written, h, htexts, hdistinct, hnames, hpersist, hfiles _ _ _ hpersist⟩

end DataVault.Compile
