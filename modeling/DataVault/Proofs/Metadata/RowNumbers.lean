/-
DataVault.Proofs.Metadata.RowNumbers — the state of an ingestion in the order
of its rows.

Reading puts the rejections down as the rows come. A later rejection is put
among them by its row, and no rejection has that row yet, so the order stays
strict (`pairwise_insertByRow`). `Sorted` is the coverage of the rows with
this order; reading gives it and rejecting keeps it, whatever is rejected in
whichever order. `Orderly` is what that comes to for the entities and their
rows as two lists side by side.

Right after reading, a row is rejected exactly for a cause that it has
(`rejected_iff`). A repeated name has one cause only, since no two accepted
entities have the same name.
-/
import DataVault.Proofs.Metadata.Ingestion

namespace DataVault.Metadata

open DataVault.Entity DataVault.Sql DataVault.Text

/-! ## 1. Rejections in order -/

/-- The rejections are in the order of their rows, one for each. -/
def InRowOrder (rejections : List Rejection) : Prop :=
  rejections.Pairwise fun r t => r.row < t.row

/-- A number that rises with the row of a rejection. Without a row a rejection
comes first. -/
def sortKey (r : Rejection) : Nat :=
  match r.row with
  | none => 0
  | some n => n + 1

theorem sortKey_lt {r t : Rejection} (h : r.row < t.row) : sortKey r < sortKey t := by
  unfold sortKey
  cases hr : r.row with
  | none =>
    cases ht : t.row with
    | none => exact absurd (hr ▸ ht ▸ h) Option.not_lt_none
    | some n => exact Nat.succ_pos n
  | some m =>
    cases ht : t.row with
    | none => exact absurd (ht ▸ h) Option.not_lt_none
    | some n => exact Nat.succ_lt_succ (Option.some_lt_some.mp (hr ▸ ht ▸ h))

/-- A rejection of a row that has none yet is put in its place. -/
theorem pairwise_insertByRow {r : Rejection} {number : Nat} (hr : r.row = some number)
    {rejections : List Rejection} (hrows : ∀ t ∈ rejections, ∃ n, t.row = some n ∧ n ≠ number)
    (h : InRowOrder rejections) : InRowOrder (Ingested.insertByRow r rejections) := by
  induction rejections with
  | nil => exact List.pairwise_singleton _ r
  | cons other rest ih =>
    obtain ⟨⟨n, hother, hne⟩, hrest⟩ := List.forall_mem_cons.mp hrows
    obtain ⟨hfirst, hordered⟩ := List.pairwise_cons.mp h
    unfold Ingested.insertByRow
    simp only [hr, hother, Option.getD_some]
    split
    · next hlt =>
      refine List.pairwise_cons.mpr ⟨List.forall_mem_cons.mpr ⟨?_, fun t ht => ?_⟩, h⟩
      · rw [hr, hother]
        exact Option.some_lt_some.mpr hlt
      · obtain ⟨m, hm, -⟩ := hrest t ht
        have hbehind := hfirst t ht
        rw [hother, hm, Option.some_lt_some] at hbehind
        rw [hr, hm]
        exact Option.some_lt_some.mpr (Nat.lt_trans hlt hbehind)
    · next hge =>
      refine List.pairwise_cons.mpr ⟨fun t ht => ?_, ih hrest hordered⟩
      rcases List.mem_cons.mp ((insertByRow_perm r rest).mem_iff.mp ht) with rfl | ht
      · rw [hr, hother]
        exact Option.some_lt_some.mpr (by omega)
      · exact hfirst t ht

/-- In the order of their rows the same rejections are the same list. -/
theorem eq_of_inRowOrder {as bs : List Rejection} (ha : InRowOrder as) (hb : InRowOrder bs)
    (h : as.Perm bs) : as = bs := by
  refine List.Perm.eq_of_pairwise (fun r t _ _ hrt htr => ?_) ha hb h
  exact absurd (sortKey_lt htr) (Nat.lt_asymm (sortKey_lt hrt))

/-! ## 2. What reading gives and rejecting keeps -/

/-- The rows are covered, and the rejections are in their order. -/
structure Ingested.Sorted (g : Ingested) (separator : Char) (rows : List Row) : Prop
    extends Ingested.Covers g separator rows where
  in_row_order : InRowOrder g.rejections

section
variable {separator : Char} {g : Ingested} {rows : List Row}

/-- A rejection has one of the rows. -/
theorem Ingested.Covers.exists_number (h : g.Covers separator rows) {r : Rejection}
    (hr : r ∈ g.rejections) : ∃ n, r.row = some n ∧ 1 ≤ n ∧ n ≤ rows.length := by
  have hrow : r.row ∈ rowNumbers rows.length :=
    h.rows_perm.mem_iff.mp (List.mem_append_left _ (List.mem_map_of_mem hr))
  obtain ⟨n, -, hn⟩ := List.mem_map.mp hrow
  rw [← hn] at hrow
  exact ⟨n, hn.symm, mem_rowNumbers.mp hrow⟩

/-- No row is rejected and accepted. -/
theorem Ingested.Covers.row_ne (h : g.Covers separator rows) {r : Rejection}
    (hr : r ∈ g.rejections) {a : Accepted} (ha : a ∈ g.accepted) : r.row ≠ some a.row := by
  have hnodup : g.rows.Nodup := h.rows_perm.nodup_iff.mpr (nodup_rowNumbers rows.length)
  exact (List.nodup_append.mp hnodup).2.2 _ (List.mem_map_of_mem hr) _
    (List.mem_map.mpr ⟨a, ha, rfl⟩)

theorem sorted_ingest (separator : Char) (rows : List Row) :
    (ingest separator rows).Sorted separator rows := by
  refine ⟨covers_ingest separator rows, ?_⟩
  induction rows using List.reverseRecOn with
  | nil => exact .nil
  | append_singleton rows row ih =>
    have hcovers := covers_ingest separator rows
    have refused (e : CompileError) : InRowOrder ((ingest separator rows).rejections ++
        [.ofError (some (rows.length + 1)) (trim row.name) e]) := by
      refine List.pairwise_append.mpr ⟨ih, List.pairwise_singleton _ _, ?_⟩
      intro r hr t ht
      obtain ⟨n, hn, -, hle⟩ := hcovers.exists_number hr
      rw [List.mem_singleton.mp ht, hn]
      exact Option.some_lt_some.mpr (Nat.lt_succ_of_le hle)
    rw [ingest_concat]
    have hread := reads_add separator (ingest separator rows) (rows.length + 1) row
    generalize (ingest separator rows).add separator (rows.length + 1) row = g at hread
    cases hread with
    | accepted hspec hnew => exact ih
    | invalid hspec => exact refused _
    | repeated hspec ha hsame => exact refused _

theorem Ingested.Sorted.reject (h : g.Sorted separator rows) (index : Nat) (e : CompileError) :
    (g.reject index e).Sorted separator rows := by
  refine ⟨h.toCovers.reject index e, ?_⟩
  unfold Ingested.reject
  cases hentry : g.accepted[index]? with
  | none => exact h.in_row_order
  | some a =>
    refine pairwise_insertByRow rfl (fun t ht => ?_) h.in_row_order
    obtain ⟨n, hn, -⟩ := h.toCovers.exists_number ht
    refine ⟨n, hn, fun hsame => ?_⟩
    exact h.toCovers.row_ne ht (List.mem_of_getElem? hentry) (hn.trans (congrArg some hsame))

end

/-! ## 3. Entities and rows side by side -/

namespace Ingested

/-- The rows that the accepted entities came from. -/
def specRows (g : Ingested) : List Nat := g.accepted.map Accepted.row

/-- Rejects entities one after the other, each at its position by then. -/
def rejectAll (g : Ingested) (calls : List (Nat × CompileError)) : Ingested :=
  calls.foldl (fun g call => g.reject call.1 call.2) g

/-- What holds of the entities, of their rows and of the rejections. -/
structure Orderly (g : Ingested) (separator : Char) (rows : List Row) : Prop where
  length_eq : g.specRows.length = g.specs.length
  increasing : g.specRows.Pairwise (· < ·)
  rejected_increasing : InRowOrder g.rejections
  /-- Each row is that of one rejection or of one entity. -/
  partition : (g.rejections.map Rejection.row ++ g.specRows.map some).Perm
    (rowNumbers rows.length)
  /-- An entity is what its row describes. -/
  described : List.Forall₂ (fun number spec => ∃ row, rows[number - 1]? = some row ∧
    row.toSpec separator = .ok spec) g.specRows g.specs
  distinct : g.specs.Pairwise fun a b => a.name.sameName b.name = false
  /-- A name is located in the row of the entity that has it, if there is
  one. -/
  located : ∀ name number, g.rowOf? name = some number ↔
    ∃ spec, (number, spec) ∈ g.specRows.zip g.specs ∧ eqIgnoreCase spec.name.text name = true

end Ingested

section
variable {separator : Char} {g : Ingested} {rows : List Row}

theorem Ingested.Covers.rowOf?_eq_some_iff (h : g.Covers separator rows) {name : String}
    {number : Nat} : g.rowOf? name = some number ↔
      ∃ a ∈ g.accepted, a.row = number ∧ eqIgnoreCase a.spec.name.text name = true := by
  unfold Ingested.rowOf?
  simp only [Option.map_eq_some_iff, h.find?_eq_some_iff]
  constructor
  · rintro ⟨a, ⟨ha, hsame⟩, hrow⟩
    exact ⟨a, ha, hrow, hsame⟩
  · rintro ⟨a, ha, hrow, hsame⟩
    exact ⟨a, ⟨ha, hsame⟩, hrow⟩

theorem Ingested.Sorted.orderly (h : g.Sorted separator rows) : g.Orderly separator rows where
  length_eq := by rw [Ingested.specRows, Ingested.specs, List.length_map, List.length_map]
  increasing := List.pairwise_map.mpr h.increasing
  rejected_increasing := h.in_row_order
  partition := by
    have hperm := h.rows_perm
    unfold Ingested.rows at hperm
    rw [Ingested.specRows, List.map_map]
    exact hperm
  described := by
    rw [Ingested.specRows, Ingested.specs, List.forall₂_map_left_iff, List.forall₂_map_right_iff]
    exact List.forall₂_same.mpr h.described
  distinct := List.pairwise_map.mpr h.distinct
  located := by
    intro name number
    rw [h.toCovers.rowOf?_eq_some_iff, Ingested.specRows, Ingested.specs, List.zip_map']
    constructor
    · rintro ⟨a, ha, rfl, hsame⟩
      exact ⟨a.spec, List.mem_map_of_mem ha, hsame⟩
    · rintro ⟨spec, hmem, hsame⟩
      obtain ⟨a, ha, hpair⟩ := List.mem_map.mp hmem
      cases hpair
      exact ⟨a, ha, rfl, hsame⟩

theorem Ingested.Sorted.rejectAll (h : g.Sorted separator rows)
    (calls : List (Nat × CompileError)) : (g.rejectAll calls).Sorted separator rows := by
  induction calls generalizing g with
  | nil => exact h
  | cons call calls ih => exact ih (h.reject call.1 call.2)

end

/-! ## 4. Causes -/

section
variable {separator : Char} {g : Ingested} {rows : List Row} {number : Nat} {row : Row}

/-- A row has one cause at most. -/
theorem RefusedAt.unique (h : g.Covers separator rows) {e e' : CompileError}
    (hcause : RefusedAt separator g number row e) (hcause' : RefusedAt separator g number row e') :
    e = e' := by
  cases hcause with
  | invalid hspec =>
    cases hcause' with
    | invalid hspec' =>
      rw [hspec] at hspec'
      exact Except.error.inj hspec'
    | repeated hspec' hfirst' hearlier' hsame' =>
      rw [hspec] at hspec'
      cases hspec'
  | repeated hspec hfirst hearlier hsame =>
    cases hcause' with
    | invalid hspec' =>
      rw [hspec] at hspec'
      cases hspec'
    | repeated hspec' hfirst' hearlier' hsame' =>
      rw [hspec] at hspec'
      cases hspec'
      have heq := h.eq_of_sameName hfirst hfirst' (sameName_trans hsame (sameName_symm hsame'))
      rw [heq]

/-- The row of an accepted entity has no cause. -/
theorem Ingested.Covers.not_refusedAt (h : g.Covers separator rows) {a : Accepted}
    (ha : a ∈ g.accepted) (hrow : rows[a.row - 1]? = some row) (e : CompileError) :
    ¬ RefusedAt separator g a.row row e := by
  obtain ⟨own, hown, hspec⟩ := h.described a ha
  rw [hrow] at hown
  cases hown
  intro hcause
  cases hcause with
  | invalid hspec' =>
    rw [hspec] at hspec'
    cases hspec'
  | repeated hspec' hfirst hearlier hsame =>
    rw [hspec] at hspec'
    cases hspec'
    rw [h.eq_of_sameName hfirst ha hsame] at hearlier
    exact Nat.lt_irrefl _ hearlier

/-- Each row is that of a rejection or of an accepted entity. -/
theorem Ingested.Covers.rejected_or_accepted (h : g.Covers separator rows) (hpos : 1 ≤ number)
    (hle : number ≤ rows.length) :
    (∃ r ∈ g.rejections, r.row = some number) ∨ ∃ a ∈ g.accepted, a.row = number := by
  have hmem : some number ∈ g.rows := h.rows_perm.mem_iff.mpr (mem_rowNumbers.mpr ⟨hpos, hle⟩)
  rcases List.mem_append.mp hmem with hrejected | haccepted
  · exact .inl (List.mem_map.mp hrejected)
  · obtain ⟨a, ha, hrow⟩ := List.mem_map.mp haccepted
    exact .inr ⟨a, ha, Option.some.inj hrow⟩

/-- A row is rejected exactly for the cause that it has. -/
theorem rejected_iff (hpos : 1 ≤ number) (hrow : rows[number - 1]? = some row) {r : Rejection} :
    r ∈ (ingest separator rows).rejections ∧ r.row = some number ↔
      ∃ e, RefusedAt separator (ingest separator rows) number row e ∧
        r = .ofError (some number) (trim row.name) e := by
  have hcovers := covers_ingest separator rows
  have hcaused {r : Rejection} (hr : r ∈ (ingest separator rows).rejections)
      (hnumber : r.row = some number) : ∃ e,
      RefusedAt separator (ingest separator rows) number row e ∧
        r = .ofError (some number) (trim row.name) e := by
    obtain ⟨n, own, e, hown, hcause, rfl⟩ := exists_refusedAt hr
    cases hnumber
    rw [hrow] at hown
    cases hown
    exact ⟨e, hcause, rfl⟩
  constructor
  · rintro ⟨hr, hnumber⟩
    exact hcaused hr hnumber
  · rintro ⟨e, hcause, rfl⟩
    refine ⟨?_, rfl⟩
    have hlt := (List.getElem?_eq_some_iff.mp hrow).1
    -- The row is rejected for some cause, and has only this one.
    rcases hcovers.rejected_or_accepted hpos (by omega) with ⟨r, hr, hnumber⟩ | ⟨a, ha, rfl⟩
    · obtain ⟨e', hcause', rfl⟩ := hcaused hr hnumber
      rw [hcause.unique hcovers hcause']
      exact hr
    · exact absurd hcause (hcovers.not_refusedAt ha hrow e)

end

/-- After reading, and after any later rejections, the entities, their rows
and the rejections are in order. Right after reading, a row is rejected
exactly if it describes no entity or if an earlier accepted row has its name,
and then the error names that row. -/
theorem ingestion_orderly (separator : Char) (rows : List Row) :
    (∀ calls, ((ingest separator rows).rejectAll calls).Orderly separator rows) ∧
      ∀ number row, 1 ≤ number → rows[number - 1]? = some row → ∀ r : Rejection,
        r ∈ (ingest separator rows).rejections ∧ r.row = some number ↔
          ∃ e, RefusedAt separator (ingest separator rows) number row e ∧
            r = .ofError (some number) (trim row.name) e :=
  ⟨fun calls => ((sorted_ingest separator rows).rejectAll calls).orderly,
    fun _ _ hpos hrow _ => rejected_iff hpos hrow⟩

/-- A hub, a row without a name, and the hub once more in capitals. -/
def declaredTwice : List Row :=
  [⟨"customer", "hub", .joined "customer_id", .joined "", "stg.customer"⟩,
    ⟨"", "hub", .joined "id", .joined "", "stg.unnamed"⟩,
    ⟨"CUSTOMER", "hub", .joined "customer_id", .joined "", "stg.customer"⟩]

/-- The third row names the first one, and goes behind it when that is
rejected too. -/
theorem ingestion_orderly_twice :
    (∃ e, RefusedAt ',' (ingest ',' declaredTwice) 3
        ⟨"CUSTOMER", "hub", .joined "customer_id", .joined "", "stg.customer"⟩ e ∧
      (CompileError.invalidSpec "CUSTOMER" (.duplicateEntity 1)).message = e.message) ∧
    ((ingest ',' declaredTwice).rejectAll [(0, .unknownKind "customer" "hub")]).Orderly ','
      declaredTwice ∧
    ((ingest ',' declaredTwice).rejectAll [(0, .unknownKind "customer" "hub")]).rejections.map
      Rejection.row = [some 1, some 2, some 3] := by
  obtain ⟨horderly, hrejected⟩ := ingestion_orderly ',' declaredTwice
  have hlast : Rejection.ofError (some 3) "CUSTOMER"
      (.invalidSpec "CUSTOMER" (.duplicateEntity 1)) ∈ (ingest ',' declaredTwice).rejections := by
    decide +kernel
  obtain ⟨e, hcause, hmessage⟩ := (hrejected 3 _ (by decide) rfl _).mp ⟨hlast, rfl⟩
  exact ⟨⟨e, hcause, congrArg Rejection.message hmessage⟩, horderly _, by decide +kernel⟩

end DataVault.Metadata
