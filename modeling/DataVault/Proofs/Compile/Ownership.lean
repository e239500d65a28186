/-
DataVault.Proofs.Compile.Ownership — whether the owner of a name produces it.

An entity that loses an artifact name is told who owns it. Names are claimed
before anything is generated, and the generators refuse entities for reasons
that the claims know nothing of, a reserved column for one. So an owner can
be refused after it has claimed its names, and then nobody produces them.

`taken_owner_produces_iff` is that this is the only way: the owner is an
entity that was accepted, and its artifact is there exactly if its row is not
rejected. `taken_owner_rejected` is a run in which it is.
-/
import DataVault.Proofs.Compile.Planning

namespace DataVault.Compile

open DataVault.Artifact DataVault.Entity DataVault.Generate DataVault.Guard DataVault.Metadata
  DataVault.Output DataVault.Results DataVault.Sql DataVault.Text

section
variable {s : Settings} {separator : Char} {rows : List Row} {summary : Summary}

/-- A row that is refused loses no artifact name. -/
theorem not_saysTaken_of_refused {row : Row} {e : CompileError} (h : Refused separator row e)
    (number : Option Nat) (entity name owner : String) :
    ¬ (Rejection.ofError number entity e).SaysTaken name owner := by
  rintro ⟨entity', hmessage⟩
  obtain ⟨entity', name', owner', rfl⟩ := exists_takenError hmessage
  rcases h with hspec | ⟨spec, first, -, hduplicate⟩
  · exact failsWith_parse _ _ _ _ _ _ hspec _ _ _ rfl
  · cases hduplicate

/-- A generator refuses no entity for an artifact name. -/
theorem not_saysTaken_of_refusal {a : Accepted} {r : Rejection} (h : refusal? s a = some r)
    (name owner : String) : ¬ r.SaysTaken name owner := by
  unfold refusal? at h
  split at h
  · cases h
  · next e hgenerate =>
    cases h
    rintro ⟨entity, hmessage⟩
    obtain ⟨entity', name', owner', rfl⟩ := exists_takenError hmessage
    obtain ⟨violation, hreject, hother⟩ := generate_refuses s a.spec _ hgenerate
    cases hreject
    exact hother _ _ rfl

/-- Only who lost an artifact name is told of one. -/
theorem Ran.exists_lost (h : Ran s separator rows summary) {r : Rejection}
    (hr : r ∈ summary.rejections) {name owner : String} (htaken : r.SaysTaken name owner) :
    ∃ l ∈ (settle s (ingest separator rows).accepted).lost, r = lostRejection l := by
  rw [h.rejections_eq, keptOf, rejectOverlaps_eq] at hr
  rcases List.mem_append.mp hr with hearlier | hrefused
  · rcases mem_rejectLost hearlier with hread | hlost
    · obtain ⟨number, row, -, e, hrefused, rfl⟩ := exists_refused hread
      exact absurd htaken (not_saysTaken_of_refused hrefused _ _ _ _)
    · exact hlost
  · obtain ⟨a, -, hrefusal⟩ := List.mem_filterMap.mp hrefused
    exact absurd htaken (not_saysTaken_of_refusal hrefusal _ _)

/-- Who is told of a taken name lost it to an entity that is kept. -/
theorem Ran.exists_owner (h : Ran s separator rows summary) {r : Rejection}
    (hr : r ∈ summary.rejections) {name owner : String} (htaken : r.SaysTaken name owner) :
    ∃ b ∈ (keptOf s separator rows).accepted, b.spec.name.text = owner ∧
      ∃ m ∈ artifactNames s b.spec, eqIgnoreCase m.text name = true := by
  obtain ⟨l, hl, rfl⟩ := h.exists_lost hr htaken
  obtain ⟨entity, hmessage⟩ := htaken
  obtain ⟨rfl, rfl⟩ := takenError_inj hmessage
  obtain ⟨b, hb, howner, m, hm, hsame⟩ := (settle_sound s _).owned l hl
  refine ⟨b, ?_, congrArg Ident.text howner, m, hm, hsame⟩
  rw [keptOf, rejectOverlaps_eq]
  exact hb

/-- A kept entity produces a name that it claimed exactly if its row is not
rejected. -/
theorem Ran.produces_iff (h : Ran s separator rows summary) {b : Accepted}
    (hb : b ∈ (keptOf s separator rows).accepted) {m : Ident} (hm : m ∈ artifactNames s b.spec)
    {name : String} (hname : eqIgnoreCase m.text name = true) :
    (∃ x ∈ summary.artifacts, x.entity.text = b.spec.name.text ∧
        eqIgnoreCase x.targetName.text name = true) ↔
      ∀ r ∈ summary.rejections, r.row ≠ some b.row := by
  constructor
  · rintro ⟨x, hx, hentity, -⟩ r hr
    obtain ⟨a, ha, hxa⟩ := h.exists_generated hx
    have hsame : a.spec.name = b.spec.name :=
      (artifactOf_of_artifactsOf hxa).entity_eq.symm.trans (Ident.ext_text hentity)
    have heq : a = b := covers_keptOf.eq_of_name (List.mem_filter.mp ha).1 hb hsame
    exact h.covers.row_ne hr (heq ▸ ha)
  · intro hkept
    have hgenerated : isGenerated s b = true := by
      by_contra hnot
      obtain ⟨r, hr, hrow⟩ := h.exists_rejection hb hnot
      exact hkept r hr hrow
    have hartifacts := artifactsOf_eq hgenerated
    rw [artifactNames_of_generate hartifacts] at hm
    obtain ⟨x, hx, rfl⟩ := List.mem_map.mp hm
    refine ⟨x, ?_, congrArg Ident.text (artifactOf_of_artifactsOf hx).entity_eq, hname⟩
    rw [h.artifacts_eq]
    exact List.mem_flatMap.mpr ⟨b, hb, hx⟩

end

/-- Whenever a rejection says that an artifact name is already produced by an
entity, that entity was accepted, and it produces the name exactly if its row
is not rejected as well. -/
theorem taken_owner_produces_iff {σ : Type} (s : Settings) (separator : Char) (sink : Sink σ)
    (now : String) (rows : List Row) (st st' : σ) (summary : Summary)
    (h : compile s separator sink now rows st = (.ok summary, st')) (r : Rejection)
    (hr : r ∈ summary.rejections) (name owner : String) (htaken : r.SaysTaken name owner) :
    ∃ b ∈ (ingest separator rows).accepted, b.spec.name.text = owner ∧
      ((∃ x ∈ summary.artifacts, x.entity.text = owner ∧
          eqIgnoreCase x.targetName.text name = true) ↔
        ∀ r' ∈ summary.rejections, r'.row ≠ some b.row) := by
  have hran := ran_of_compile h
  obtain ⟨b, hb, rfl, m, hm, hname⟩ := hran.exists_owner hr htaken
  refine ⟨b, ?_, rfl, hran.produces_iff hb hm hname⟩
  rw [keptOf, rejectOverlaps_eq] at hb
  exact (settle_sound s _).sublist.subset hb

/-- A satellite, after a hub with the name of its snapshot. -/
def snapshotNameRows (hubKey : String) : List Row :=
  [⟨"customer_base", "hub", .joined hubKey, .joined "", "stg.customer"⟩,
    ⟨"customer", "satellite", .joined "customer_id", .joined "email", "stg.customer"⟩]

/-- The satellite loses the name of its snapshot to the hub. -/
def snapshotNameLost : Rejection :=
  .ofError (some 2) "customer" (takenError "customer" "customer_base" "customer_base")

theorem taken_owner_produces_iff_snapshot :
    ∃ summary kept, compile .standard ',' memorySink "" (snapshotNameRows "customer_id") [] =
        (.ok summary, kept) ∧
      snapshotNameLost ∈ summary.rejections ∧
      snapshotNameLost.SaysTaken "customer_base" "customer_base" ∧
      ∃ b ∈ (ingest ',' (snapshotNameRows "customer_id")).accepted,
        b.spec.name.text = "customer_base" ∧
        ((∃ x ∈ summary.artifacts, x.entity.text = "customer_base" ∧
            eqIgnoreCase x.targetName.text "customer_base" = true) ↔
          ∀ r' ∈ summary.rejections, r'.row ≠ some b.row) := by
  obtain ⟨summary, kept, h⟩ := exists_compile_memorySink (s := .standard) (by decide) ',' ""
    (snapshotNameRows "customer_id") []
  have hlost : (keptOf .standard ',' (snapshotNameRows "customer_id")).rejections =
      [snapshotNameLost] := by decide +kernel
  have hr : snapshotNameLost ∈ summary.rejections := by
    rw [(ran_of_compile h).rejections_eq, hlost]
    exact List.mem_cons_self
  have htaken : snapshotNameLost.SaysTaken "customer_base" "customer_base" := ⟨"customer", rfl⟩
  exact ⟨summary, kept, h, hr, htaken, taken_owner_produces_iff .standard ',' memorySink ""
    (snapshotNameRows "customer_id") [] kept summary h snapshotNameLost hr "customer_base"
    "customer_base" htaken⟩

/-- The hub has a reserved column: it is refused as well, and nobody produces
the name that the satellite lost. -/
theorem taken_owner_rejected :
    ∃ summary kept, compile .standard ',' memorySink "" (snapshotNameRows "load_dts") [] =
        (.ok summary, kept) ∧
      ∃ r ∈ summary.rejections, r.SaysTaken "customer_base" "customer_base" ∧
        ¬ ∃ x ∈ summary.artifacts, x.entity.text = "customer_base" ∧
          eqIgnoreCase x.targetName.text "customer_base" = true := by
  obtain ⟨summary, kept, h⟩ := exists_compile_memorySink (s := .standard) (by decide) ',' ""
    (snapshotNameRows "load_dts") []
  have hlost : (keptOf .standard ',' (snapshotNameRows "load_dts")).rejections =
      [snapshotNameLost] := by decide +kernel
  have hnone : generatedOf .standard ',' (snapshotNameRows "load_dts") = [] := by decide +kernel
  have hran := ran_of_compile h
  refine ⟨summary, kept, h, snapshotNameLost, ?_, ⟨"customer", rfl⟩, ?_⟩
  · rw [hran.rejections_eq, hlost]
    exact List.mem_cons_self
  · rintro ⟨x, hx, -⟩
    rw [hran.artifacts_generated, hnone] at hx
    cases hx

end DataVault.Compile
