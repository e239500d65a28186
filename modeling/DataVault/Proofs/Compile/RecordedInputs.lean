/-
DataVault.Proofs.Compile.RecordedInputs — the inputs that a run records.

A run records its inputs twice. The determinism guard hashes the entities that
were read, and the receipt those that kept their artifact names; in between,
the entities that lost a name are rejected. The settings are the same both
times, the entities are the same exactly if none lost a name
(`keptOf_specs_eq_iff`), and then no rejection speaks of a taken name.

`recorded_inputs_agree_iff` is what follows for the two records.
`recorded_inputs_differ` is a run in which they differ: whoever looks up the
hash of the guard finds no receipt for it.
-/
import DataVault.Proofs.Compile.Ownership
import DataVault.Proofs.Compile.Receipts

namespace DataVault.Guard

open DataVault.Entity DataVault.Generate

/-! ## 1. The guard's record -/

/-- The report of a guard by its name. -/
def reportOf? (results : List GuardResult) (name : String) : Option GuardResult :=
  results.find? fun r => r.guard == name

/-- The value that a report has under a name. -/
def GuardResult.evidence? (r : GuardResult) (name : String) : Option String :=
  r.evidence.lookup name

theorem guard_keyDelimiter (s : Settings) (specs : List EntitySpec) :
    (keyDelimiterGuard.report s specs).guard = keyDelimiterGuard.name := by
  simp only [Check.report, keyDelimiterGuard]
  unfold checkDelimiter
  split
  · rfl
  · split
    · rfl
    · split <;> rfl

theorem guard_outputOverlap (s : Settings) (specs : List EntitySpec) :
    (outputOverlapGuard.report s specs).guard = outputOverlapGuard.name := by
  simp only [Check.report, outputOverlapGuard, checkOverlaps]
  split <;> rfl

/-- The reports have the names of their guards, which are different. -/
theorem reportOf?_determinism (s : Settings) (specs : List EntitySpec) :
    reportOf? (evaluate s specs) determinismGuard.name =
      some (determinismGuard.report s specs) := by
  unfold reportOf? evaluate suite
  simp only [List.map_cons, List.map_nil, List.find?_cons, guard_keyDelimiter,
    guard_outputOverlap]
  rfl

theorem evidence?_determinism (s : Settings) (specs : List EntitySpec) :
    (determinismGuard.report s specs).evidence? "input_hash" = some (inputHash specs) ∧
      (determinismGuard.report s specs).evidence? "config_hash" = some s.fingerprint :=
  ⟨rfl, rfl⟩

end DataVault.Guard

namespace DataVault.Compile

open DataVault.Artifact DataVault.Entity DataVault.Generate DataVault.Guard DataVault.History
  DataVault.Metadata DataVault.Output DataVault.Sql

/-! ## 2. Entities before and after -/

section
variable {s : Settings} {separator : Char} {rows : List Row} {summary : Summary}

/-- The entities stay the same exactly if none lost a name. -/
theorem keptOf_specs_eq_iff : (keptOf s separator rows).specs = (ingest separator rows).specs ↔
    (settle s (ingest separator rows).accepted).lost = [] := by
  have hlength := length_settle s (ingest separator rows).accepted
  rw [keptOf, rejectOverlaps_eq]
  constructor
  · intro h
    have hsame := congrArg List.length h
    simp only [Ingested.specs, List.length_map] at hsame
    exact List.length_eq_zero_iff.mp (by omega)
  · intro h
    rw [h, List.length_nil, Nat.add_zero] at hlength
    rw [Ingested.specs, (settle_sound s _).sublist.eq_of_length hlength]
    rfl

/-- A name was lost exactly if a rejection says so. -/
theorem Ran.lost_eq_nil_iff (h : Ran s separator rows summary) :
    (settle s (ingest separator rows).accepted).lost = [] ↔
      ∀ r ∈ summary.rejections, ∀ name owner, ¬ r.SaysTaken name owner := by
  constructor
  · intro hnone r hr name owner htaken
    obtain ⟨l, hl, -⟩ := h.exists_lost hr htaken
    rw [hnone] at hl
    cases hl
  · intro hsilent
    refine List.eq_nil_iff_forall_not_mem.mpr fun l hl => ?_
    have hr : lostRejection l ∈ summary.rejections := by
      rw [h.rejections_eq, keptOf, rejectOverlaps_eq]
      refine List.mem_append_left _ ((rejectLost_perm _ _).mem_iff.mpr ?_)
      exact List.mem_append_left _ (List.mem_map_of_mem hl)
    exact hsilent _ hr _ _ ⟨l.1.spec.name.text, rfl⟩

end

theorem guards_of_compile {σ : Type} {s : Settings} {separator : Char} {sink : Sink σ}
    {now : String} {rows : List Row} {st st' : σ} {summary : Summary}
    (h : compile s separator sink now rows st = (.ok summary, st')) :
    summary.guards = evaluate s (ingest separator rows).specs := by
  obtain ⟨p, hplan, hcarry⟩ := compile_eq_ok_iff.mp h
  obtain ⟨r, -, -, hsummary⟩ := carryOut_eq_ok hcarry
  obtain ⟨-, rfl⟩ := plan_eq_ok_iff.mp hplan
  rw [hsummary]

/-! ## 3. Both records -/

/-- The guard and the receipt always record the same settings. They record the
same entities where no rejection says that an artifact name is taken, and,
unless the two texts collide, only there. -/
theorem recorded_inputs_agree_iff {σ : Type} (s : Settings) (separator : Char) (sink : Sink σ)
    (now : String) (rows : List Row) (st st' : σ) (summary : Summary)
    (h : compile s separator sink now rows st = (.ok summary, st')) :
    ∃ g, reportOf? summary.guards determinismGuard.name = some g ∧
      g.evidence? "config_hash" = some summary.receipt.configHash ∧
      ((∀ r ∈ summary.rejections, ∀ name owner, ¬ r.SaysTaken name owner) →
        g.evidence? "input_hash" = some summary.receipt.inputHash) ∧
      (CollisionFree [specsText (ingest separator rows).specs,
          specsText (keptOf s separator rows).specs] →
        g.evidence? "input_hash" = some summary.receipt.inputHash →
          ∀ r ∈ summary.rejections, ∀ name owner, ¬ r.SaysTaken name owner) := by
  obtain ⟨hinput, hconfig⟩ := evidence?_determinism s (ingest separator rows).specs
  rw [guards_of_compile h, receipt_of_compile h]
  refine ⟨_, reportOf?_determinism s _, hconfig, ?_, ?_⟩
  · intro hsilent
    rw [hinput, ← keptOf_specs_eq_iff.mpr ((ran_of_compile h).lost_eq_nil_iff.mpr hsilent)]
    rfl
  · intro hfree hsame
    rw [hinput] at hsame
    have hspecs := specsText_inj (eq_of_collisionFree hfree (Option.some.inj hsame))
    exact (ran_of_compile h).lost_eq_nil_iff.mp (keptOf_specs_eq_iff.mp hspecs.symm)

theorem recorded_inputs_agree_iff_interrupted :
    ∃ summary kept g,
      compile .standard ',' memorySink "" interruptedHubs [] = (.ok summary, kept) ∧
      summary.rejections.map Rejection.row = [some 2] ∧
      reportOf? summary.guards determinismGuard.name = some g ∧
      g.evidence? "config_hash" = some summary.receipt.configHash ∧
      g.evidence? "input_hash" = some summary.receipt.inputHash := by
  obtain ⟨summary, kept, h⟩ := exists_compile_memorySink (s := .standard) (by decide) ',' ""
    interruptedHubs []
  have hran := ran_of_compile h
  obtain ⟨g, hg, hconfig, hinput, -⟩ :=
    recorded_inputs_agree_iff .standard ',' memorySink "" interruptedHubs [] kept summary h
  refine ⟨summary, kept, g, h, ?_, hg, hconfig, hinput (hran.lost_eq_nil_iff.mp ?_)⟩
  · rw [hran.rejections_eq]
    decide +kernel
  · decide +kernel

/-- The satellite that loses the name of its snapshot is in the hash of the
guard and not in that of the receipt. -/
theorem recorded_inputs_differ :
    ∃ summary kept g,
      compile .standard ',' memorySink "" (snapshotNameRows "customer_id") [] =
        (.ok summary, kept) ∧
      reportOf? summary.guards determinismGuard.name = some g ∧
      g.evidence? "input_hash" ≠ some summary.receipt.inputHash := by
  obtain ⟨summary, kept, h⟩ := exists_compile_memorySink (s := .standard) (by decide) ',' ""
    (snapshotNameRows "customer_id") []
  have hreport := reportOf?_determinism .standard
    (ingest ',' (snapshotNameRows "customer_id")).specs
  rw [← guards_of_compile h] at hreport
  have hdiffer : inputHash (ingest ',' (snapshotNameRows "customer_id")).specs ≠
      inputHash (keptOf .standard ',' (snapshotNameRows "customer_id")).specs := by decide +kernel
  refine ⟨summary, kept, _, h, hreport, ?_⟩
  rw [(evidence?_determinism _ _).1, receipt_of_compile h]
  exact fun hsame => hdiffer (Option.some.inj hsame)

end DataVault.Compile
