/-
DataVault.Proofs.Compile.Extension — more rows at the end.

Reading goes over the rows once and settling goes over the entities once, so
what was decided about the first rows stays when the next ones come.
`Ingested.Continues` says this of an outcome: the entities of the first rows
come first, and the rejections of these rows are what they were. Reading more
rows continues (`ingest_continues`), and so does settling the artifact names
(`rejectOverlaps_continues`). There the rejections of old and new rows are
sorted into each other, and the old ones are told by their rows.

`compile_prefix_stable` is what this comes to for a run: a later row neither
changes nor displaces what an earlier one gives.
-/
import DataVault.Proofs.Compile.Planning

namespace DataVault.Entity

/-- The rejection is that of one of the first rows. -/
def Rejection.isWithin (count : Nat) (r : Rejection) : Bool := r.row.any (· ≤ count)

end DataVault.Entity

namespace DataVault.Metadata

open DataVault.Entity DataVault.Text

/-- An outcome that goes on from the one of the first rows. -/
structure Ingested.Continues (g : Ingested) (count : Nat) (next : Ingested) : Prop where
  accepted : ∃ added, next.accepted = g.accepted ++ added ∧ ∀ a ∈ added, count < a.row
  rejections : next.rejections.filter (Rejection.isWithin count) = g.rejections

/-! ## 1. Reading more rows -/

section
variable {separator : Char} {rows : List Row}

theorem Ingested.Covers.filter_isWithin {g : Ingested} (h : g.Covers separator rows) :
    g.rejections.filter (Rejection.isWithin rows.length) = g.rejections := by
  refine List.filter_eq_self.mpr fun r hr => ?_
  obtain ⟨n, hn, -, hle⟩ := h.exists_number hr
  simp [Rejection.isWithin, hn, hle]

theorem Reads.continues {g now next : Ingested} {count number : Nat} {row : Row}
    (hread : Reads separator now number row next) (hnumber : count < number)
    (h : g.Continues count now) : g.Continues count next := by
  obtain ⟨⟨added, hadded, hlater⟩, hrejections⟩ := h
  have refused (e : CompileError) : g.Continues count ⟨now.accepted, now.rejections ++
      [.ofError (some number) (trim row.name) e]⟩ := by
    refine ⟨⟨added, hadded, hlater⟩, ?_⟩
    rw [List.filter_append, hrejections]
    simp [Rejection.isWithin, Rejection.ofError, hnumber]
  cases hread with
  | invalid hspec => exact refused _
  | repeated hspec ha hsame => exact refused _
  | @accepted spec hspec hnew =>
    refine ⟨⟨added ++ [⟨number, spec⟩], ?_, ?_⟩, hrejections⟩
    · rw [hadded, List.append_assoc]
    · exact List.forall_mem_append.mpr ⟨hlater, List.forall_mem_singleton.mpr hnumber⟩

/-- Reading goes on where it stopped. -/
theorem ingest_continues (separator : Char) (rows more : List Row) :
    (ingest separator rows).Continues rows.length (ingest separator (rows ++ more)) := by
  induction more using List.reverseRecOn with
  | nil =>
    rw [List.append_nil]
    exact ⟨⟨[], (List.append_nil _).symm, nofun⟩, (covers_ingest separator rows).filter_isWithin⟩
  | append_singleton more row ih =>
    rw [← List.append_assoc, ingest_concat]
    refine (reads_add ..).continues ?_ ih
    rw [List.length_append]
    omega

end

end DataVault.Metadata

namespace DataVault.Compile

open DataVault.Artifact DataVault.Entity DataVault.Generate DataVault.Guard DataVault.Metadata
  DataVault.Output

/-! ## 2. Settling more names -/

/-- More entities leave the kept and the lost ones in front. -/
theorem settle_append (s : Settings) (entities added : List Accepted) :
    ∃ kept lost, settle s (entities ++ added) =
        ⟨(settle s entities).kept ++ kept, (settle s entities).lost ++ lost⟩ ∧
      kept ⊆ added ∧ ∀ l ∈ lost, l.1 ∈ added := by
  -- From the end, since what is taken from an entity depends on all before it.
  induction added using List.reverseRecOn with
  | nil => exact ⟨[], [], by simp, List.Subset.refl _, nofun⟩
  | append_singleton added a ih =>
    obtain ⟨kept, lost, hsettle, hkept, hlost⟩ := ih
    have hadded : added ⊆ added ++ [a] := List.subset_append_left _ _
    rw [← List.append_assoc]
    cases htaken : taken? s (entities ++ added) a with
    | some claim =>
      refine ⟨kept, lost ++ [(a, claim)], ?_, List.Subset.trans hkept hadded, ?_⟩
      · rw [settle_taken htaken, hsettle, List.append_assoc]
      · refine List.forall_mem_append.mpr ⟨fun l hl => hadded (hlost l hl), ?_⟩
        exact List.forall_mem_singleton.mpr (List.mem_append_right _ List.mem_cons_self)
    | none =>
      refine ⟨kept ++ [a], lost, ?_, ?_, fun l hl => hadded (hlost l hl)⟩
      · rw [settle_free htaken, hsettle, List.append_assoc]
      · refine List.append_subset.mpr ⟨List.Subset.trans hkept hadded, ?_⟩
        exact List.subset_append_right _ _

section
variable {s : Settings} {separator : Char} {rows more : List Row} {summary : Summary}

/-- The losers among the first entities are still the ones whose rejections
are of the first rows. -/
theorem rejectOverlaps_continues {g next : Ingested} (hg : g.Sorted separator rows)
    (hnext : next.Sorted separator (rows ++ more)) (h : g.Continues rows.length next) :
    (rejectOverlaps s g).Continues rows.length (rejectOverlaps s next) := by
  have hsorted := sorted_rejectOverlaps s hg
  have hsorted' := sorted_rejectOverlaps s hnext
  obtain ⟨⟨added, hadded, hlater⟩, hrejections⟩ := h
  obtain ⟨kept, lost, hsettle, hkept, hlost⟩ := settle_append s g.accepted added
  refine ⟨⟨kept, ?_, fun a ha => hlater a (hkept ha)⟩, ?_⟩
  · rw [rejectOverlaps_eq, rejectOverlaps_eq, hadded, hsettle]
  · -- Both lists are in order, so the old and the new losers need not be told apart by position.
    refine eq_of_inRowOrder (hsorted'.in_row_order.filter _) hsorted.in_row_order ?_
    rw [← hsorted.toCovers.filter_isWithin, rejectOverlaps_eq, rejectOverlaps_eq, hadded, hsettle]
    refine ((rejectLost_perm _ _).filter _).trans ?_
    refine List.Perm.trans ?_ ((rejectLost_perm _ _).filter _).symm
    have hbehind : (lost.map lostRejection).filter (Rejection.isWithin rows.length) = [] := by
      refine List.filter_eq_nil_iff.mpr (List.forall_mem_map.mpr fun l hl => ?_)
      have hrow := hlater l.1 (hlost l hl)
      simp [Rejection.isWithin, lostRejection, Rejection.ofError, hrow]
    rw [List.map_append, List.filter_append, List.filter_append, List.filter_append, hbehind,
      List.append_nil, hrejections, hg.toCovers.filter_isWithin]

/-! ## 3. Runs -/

theorem keptOf_continues (s : Settings) (separator : Char) (rows more : List Row) :
    (keptOf s separator rows).Continues rows.length (keptOf s separator (rows ++ more)) :=
  rejectOverlaps_continues (sorted_ingest separator rows) (sorted_ingest separator (rows ++ more))
    (ingest_continues separator rows more)

theorem row_refusal? {a : Accepted} {r : Rejection} (h : refusal? s a = some r) :
    r.row = some a.row := by
  unfold refusal? at h
  split at h
  · cases h
  · cases h
    rfl

/-- The refusals of the first rows are those of their entities. -/
theorem filter_refusals (count : Nat) (entities : List Accepted) :
    (entities.filterMap (refusal? s)).filter (Rejection.isWithin count) =
      (entities.filter fun a => a.row ≤ count).filterMap (refusal? s) := by
  rw [List.filter_filterMap, List.filterMap_filter]
  refine List.filterMap_congr fun a _ => ?_
  cases hrefusal : refusal? s a with
  | none => simp only [Option.filter_none, ite_self]
  | some r =>
    have hsame : r.isWithin count = decide (a.row ≤ count) := by
      rw [Rejection.isWithin, row_refusal? hrefusal, Option.any_some]
    rw [Option.filter_some, hsame]

theorem Ran.rejections_continue {summary' : Summary} (h : Ran s separator rows summary)
    (h' : Ran s separator (rows ++ more) summary') :
    summary'.rejections.filter (Rejection.isWithin rows.length) = summary.rejections := by
  obtain ⟨⟨added, hadded, hlater⟩, hrejections⟩ := keptOf_continues s separator rows more
  have hfirst : ∀ a ∈ (keptOf s separator rows).accepted, decide (a.row ≤ rows.length) = true :=
    fun a ha => decide_eq_true (covers_keptOf.row_bounds ha).2
  have hrest : ∀ a ∈ added, ¬ decide (a.row ≤ rows.length) = true :=
    fun a ha hle => Nat.not_le_of_lt (hlater a ha) (of_decide_eq_true hle)
  rw [h.rejections_eq, h'.rejections_eq, List.filter_append, hrejections, filter_refusals, hadded,
    List.filter_append, List.filter_eq_self.mpr hfirst, List.filter_eq_nil_iff.mpr hrest,
    List.append_nil]

/-- An entity of a later row comes from one of the appended rows. -/
theorem exists_appended {a : Accepted} (ha : a ∈ (keptOf s separator (rows ++ more)).accepted)
    (hlater : rows.length < a.row) : ∃ index row, a.row = rows.length + index + 1 ∧
      more[index]? = some row ∧ row.toSpec separator = .ok a.spec := by
  obtain ⟨row, hrow, hspec⟩ := covers_keptOf.described a ha
  rw [List.getElem?_append_right (by omega)] at hrow
  exact ⟨a.row - 1 - rows.length, row, by omega, hrow, hspec⟩

end

/-- A run goes on from the one over its first rows: it succeeds, it starts
with the same artifacts, the rejections of these rows are the same, and every
other artifact is that of an appended row that is not rejected. -/
theorem compile_prefix_stable (s : Settings) (separator : Char) (now later : String)
    (rows more : List Row) (start start' kept : List Artifact) (summary : Summary)
    (h : compile s separator memorySink now rows start = (.ok summary, kept)) :
    ∃ summary' kept' added,
      compile s separator memorySink later (rows ++ more) start' = (.ok summary', kept') ∧
      kept = start ++ summary.artifacts ∧ kept' = start' ++ summary'.artifacts ∧
      summary'.artifacts = summary.artifacts ++ added ∧
      summary'.rejections.filter (Rejection.isWithin rows.length) = summary.rejections ∧
      ∀ x ∈ added, ∃ index row spec, more[index]? = some row ∧
        row.toSpec separator = .ok spec ∧ x ∈ artifactsOf s spec ∧
        ∀ r ∈ summary'.rejections, r.row ≠ some (rows.length + index + 1) := by
  obtain ⟨summary', kept', h'⟩ := exists_compile_memorySink (keyEncoding_of_compile h) separator
    later (rows ++ more) start'
  have hran := ran_of_compile h
  have hran' := ran_of_compile h'
  obtain ⟨⟨added, hadded, hlater⟩, -⟩ := keptOf_continues s separator rows more
  refine ⟨summary', kept', added.flatMap fun a => artifactsOf s a.spec, h', kept_of_compile h,
    kept_of_compile h', ?_, hran.rejections_continue hran', ?_⟩
  · rw [hran'.artifacts_eq, hadded, List.flatMap_append, hran.artifacts_eq]
  · intro x hx
    obtain ⟨a, ha, hxa⟩ := List.mem_flatMap.mp hx
    have hkept : a ∈ (keptOf s separator (rows ++ more)).accepted := by
      rw [hadded]
      exact List.mem_append_right _ ha
    obtain ⟨index, row, hnumber, hrow, hspec⟩ := exists_appended hkept (hlater a ha)
    have hgenerated : a ∈ generatedOf s separator (rows ++ more) :=
      List.mem_filter.mpr ⟨hkept, isGenerated_of_mem hxa⟩
    exact ⟨index, row, a.spec, hrow, hspec, hxa, fun r hr =>
      hnumber ▸ hran'.covers.row_ne hr hgenerated⟩

/-- A satellite, and a hub that loses its name to the snapshot. -/
def shadowedRows : List Row :=
  [⟨"customer", "satellite", .joined "customer_id", .joined "email", "stg.customer"⟩,
    ⟨"customer_base", "hub", .joined "customer_id", .joined "", "stg.customer"⟩]

/-- The name of the satellite once more, that of its merge, and another hub. -/
def appendedRows : List Row :=
  [⟨"Customer", "hub", .joined "customer_id", .joined "", "stg.customer"⟩,
    ⟨"customer_merge", "hub", .joined "customer_id", .joined "", "stg.customer"⟩,
    ⟨"orders", "hub", .joined "order_id", .joined "", "stg.orders"⟩]

theorem compile_prefix_stable_shadowed :
    ∃ summary kept summary' kept' added,
      compile .standard ',' memorySink "" shadowedRows [] = (.ok summary, kept) ∧
      summary.rejections.map Rejection.row = [some 2] ∧
      compile .standard ',' memorySink "later" (shadowedRows ++ appendedRows) [] =
        (.ok summary', kept') ∧
      summary'.artifacts = summary.artifacts ++ added ∧
      summary'.rejections.map Rejection.row = [some 2, some 3, some 4] ∧
      summary'.rejections.filter (Rejection.isWithin 2) = summary.rejections ∧
      ∀ x ∈ added, ∃ index row spec, appendedRows[index]? = some row ∧
        row.toSpec ',' = .ok spec ∧ x ∈ artifactsOf .standard spec ∧
        ∀ r ∈ summary'.rejections, r.row ≠ some (2 + index + 1) := by
  obtain ⟨summary, kept, h⟩ := exists_compile_memorySink (s := .standard) (by decide) ',' ""
    shadowedRows []
  obtain ⟨summary', kept', added, h', -, -, hartifacts, hrejections, hadded⟩ :=
    compile_prefix_stable .standard ',' "" "later" shadowedRows appendedRows [] [] kept summary h
  refine ⟨summary, kept, summary', kept', added, h, ?_, h', hartifacts, ?_, hrejections, hadded⟩
  · rw [(ran_of_compile h).rejections_eq]
    decide +kernel
  · rw [(ran_of_compile h').rejections_eq]
    decide +kernel

end DataVault.Compile
