/-
DataVault.Proofs.Generate.Placeholders — which placeholders an artifact opens.

A statement for BigQuery opens one placeholder for each of its tables, and
those that its string constants hold. The constants that are not fixed are the
record source, in every statement, and the separator of the digests, which
stands between two columns of one digest. So the placeholders of an artifact
are its tables exactly if neither text opens one where it is written
(`placeholders_are_tables_iff`).
-/
import DataVault.Proofs.Generate.ColumnNames
import DataVault.Proofs.Sql.Placeholders

namespace DataVault.Generate

open DataVault.Artifact DataVault.Digest DataVault.Entity DataVault.Results DataVault.Sql

/-! ## 1. Digests -/

/-- How many placeholders the separators in the digest of columns open. -/
def openedByDigest (encoding : KeyEncoding) (columns : List Ident) : Nat :=
  match encoding with
  | .delimited separator => (columns.length - 1) * placeholders separator
  | .lengthPrefixed => 0

theorem openedIn_eq_zero {es : List Expr} (h : ∀ e ∈ es, openedBy e.strings = 0) :
    openedIn es = 0 := by
  rw [openedIn, openedBy_flatMap, List.sum_eq_zero_iff_forall_eq_nat]
  exact List.forall_mem_map.mpr h

theorem openedBy_textOrEmpty (e : Expr) :
    openedBy e.textOrEmpty.strings = openedBy e.strings := by
  change openedBy (e.strings ++ [""]) = _
  rw [openedBy_append]
  rfl

/-- A separator stands between each two texts. -/
theorem openedIn_intersperse (separator : String) {es : List Expr}
    (h : ∀ e ∈ es, openedBy e.strings = 0) :
    openedIn (es.intersperse (.str separator)) = (es.length - 1) * placeholders separator := by
  induction es with
  | nil => simp [openedIn]
  | cons e es ih =>
    obtain ⟨he, hes⟩ := List.forall_mem_cons.mp h
    cases es with
    | nil => simp [he]
    | cons next es =>
      have hsplit : (e :: next :: es).intersperse (.str separator) =
          [e] ++ ([.str separator] ++ (next :: es).intersperse (.str separator)) := rfl
      have hseparator : openedBy (Expr.strings (.str separator)) = placeholders separator := by
        simp [Expr.strings, openedBy]
      rw [hsplit, openedIn_append, openedIn_append, openedIn_singleton, openedIn_singleton, he,
        hseparator, ih hes]
      simp only [List.length_cons, Nat.add_sub_cancel]
      rw [Nat.zero_add, Nat.add_mul, Nat.one_mul, Nat.add_comm]

theorem openedBy_digestExpr (encoding : KeyEncoding) (qualifier : Option Ident)
    (columns : List Ident) :
    openedBy (encoding.digestExpr qualifier columns).strings = openedByDigest encoding columns := by
  have htexts : ∀ e ∈ columns.map fun name => (Expr.column qualifier name).textOrEmpty,
      openedBy e.strings = 0 :=
    List.forall_mem_map.mpr fun name _ => (openedBy_textOrEmpty _).trans rfl
  rw [KeyEncoding.digestExpr, Expr.strings, Expr.strings, Expr.stringsAll_eq_flatMap]
  change openedIn _ = _
  cases encoding with
  | delimited separator =>
    rw [KeyEncoding.encodedParts, openedIn_intersperse separator htexts, List.length_map]
    rfl
  | lengthPrefixed =>
    rw [KeyEncoding.encodedParts, openedIn_flatMap, openedByDigest,
      List.sum_eq_zero_iff_forall_eq_nat]
    refine List.forall_mem_map.mpr fun e he => ?_
    exact openedIn_eq_zero (List.forall_mem_cons.mpr ⟨htexts e he, List.forall_mem_cons.mpr
      ⟨by decide, List.forall_mem_singleton.mpr (htexts e he)⟩⟩)

/-! ## 2. Statements -/

namespace Statement

/-- The tables of a statement. -/
def tables : Statement → Nat
  | table s => s.tables
  | merge m => m.tables

/-- The expressions of a statement. -/
def exprs : Statement → List Expr
  | table s => s.exprs
  | merge m => m.exprs

end Statement

theorem placeholders_toSql (statement : Statement) :
    placeholders (statement.toSql .bigQuery) = statement.tables + openedIn statement.exprs := by
  cases statement with
  | table s => exact placeholders_query (.select s)
  | merge m => exact placeholders_merge m

section
variable (s : Settings) (spec : EntitySpec)

/-- How many placeholders the record source opens. -/
def openedBySource : Nat := placeholders (s.recordSource.getD spec.source.dotted)

/-- How many placeholders the separators in a digest of columns open. -/
abbrev openedInDigest (columns : List Ident) : Nat := openedByDigest s.keyEncoding columns

variable {s spec}

theorem openedBy_digestOf (qualifier : Option Ident) (columns : List Ident) :
    openedBy (s.digestOf qualifier columns).strings = openedInDigest s columns :=
  openedBy_digestExpr s.keyEncoding qualifier columns

theorem openedIn_loadItems :
    openedIn ((s.loadItems spec).flatMap SelectItem.exprs) = openedBySource s spec := by
  have hload : openedBy s.loadExpr.strings = 0 := by
    unfold Settings.loadExpr
    cases s.loadPrecision <;> rfl
  change openedIn ([s.loadExpr] ++ [s.recordSourceExpr spec]) = _
  rw [openedIn_append, openedIn_singleton, openedIn_singleton, hload, Nat.zero_add]
  exact Nat.add_zero _

theorem openedIn_renamedItems (fields names : List Ident) :
    openedIn ((renamedItems fields names).flatMap SelectItem.exprs) = 0 := by
  induction fields generalizing names with
  | nil => rfl
  | cons field fields ih =>
    cases names with
    | nil => rfl
    | cons name names => exact ih names

theorem openedIn_hubKeyItems (fields names : List Ident) :
    openedIn ((hubKeyItems s fields names).flatMap SelectItem.exprs) = 0 := by
  induction fields generalizing names with
  | nil => rfl
  | cons field fields ih =>
    cases names with
    | nil => rfl
    | cons name names =>
      have hsingle : openedBy (s.digestOf none [field]).strings = 0 := by
        rw [openedBy_digestOf]
        unfold openedInDigest openedByDigest
        cases s.keyEncoding with
        | delimited separator => exact Nat.zero_mul _
        | lengthPrefixed => rfl
      change openedIn ([s.digestOf none [field]] ++
        (hubKeyItems s fields names).flatMap SelectItem.exprs) = 0
      rw [openedIn_append, openedIn_singleton, hsingle, ih names]

theorem openedIn_hub (s : Settings) (spec : EntitySpec) (n : HubNames) :
    openedIn (hubSelect s spec n).exprs =
      openedInDigest s spec.businessKey + openedBySource s spec := by
  simp only [Select.exprs, hubSelect, List.flatMap_append, List.flatMap_cons, openedIn_append,
    SelectItem.aliased, SelectItem.exprs, openedIn_singleton, openedBy_digestOf,
    openedIn_renamedItems, openedIn_loadItems]
  rfl

theorem openedIn_link (s : Settings) (spec : EntitySpec) (n : LinkNames) :
    openedIn (linkSelect s spec n).exprs =
      openedInDigest s spec.businessKey + openedBySource s spec := by
  simp only [Select.exprs, linkSelect, List.flatMap_append, List.flatMap_cons, openedIn_append,
    SelectItem.aliased, SelectItem.exprs, openedIn_singleton, openedBy_digestOf,
    openedIn_hubKeyItems, openedIn_renamedItems, openedIn_loadItems]
  rfl

theorem openedIn_fields (fields : List Ident) :
    openedIn ((fields.map fun field => SelectItem.expr (.field field) none).flatMap
      SelectItem.exprs) = 0 := by
  induction fields with
  | nil => rfl
  | cons field fields ih => exact ih

theorem openedIn_base (s : Settings) (spec : EntitySpec) (n : SatelliteNames) :
    openedIn (baseSelect s spec n).exprs =
      openedInDigest s spec.businessKey + openedInDigest s spec.descriptive +
        openedBySource s spec := by
  simp only [Select.exprs, baseSelect, snapshotItems, List.flatMap_append, List.flatMap_cons,
    openedIn_append, SelectItem.aliased, SelectItem.exprs, openedIn_singleton, openedBy_digestOf,
    openedIn_renamedItems, openedIn_fields, openedIn_loadItems, Nat.add_zero, Nat.add_assoc]
  rfl

/-- The staged snapshot digests the key and the attributes once more, to keep one row of each. -/
theorem openedIn_staged (s : Settings) (spec : EntitySpec) (n : SatelliteNames) :
    openedIn (stagedSelect s spec n).exprs =
      openedIn (baseSelect s spec n).exprs +
        (openedInDigest s spec.businessKey + openedInDigest s spec.descriptive) := by
  have hexprs : (stagedSelect s spec n).exprs = (baseSelect s spec n).exprs ++
      ([s.digestOf none spec.businessKey] ++ [s.digestOf none spec.descriptive]) := by
    simp [Select.exprs, stagedSelect, baseSelect, FirstPer.exprs, FromClause.table]
  rw [hexprs, openedIn_append, openedIn_append, openedIn_singleton, openedIn_singleton,
    openedBy_digestOf, openedBy_digestOf]

theorem openedBy_changedFrom (relation : Ident) (source name : Ident) :
    openedBy (changedFrom s spec relation (.of source name)).strings =
      openedInDigest s spec.descriptive := by
  rw [changedFrom, Expr.strings, openedBy_append, openedBy_digestOf]
  rfl

/-- The merge digests the attributes of the current version where it looks for changes and where it
closes versions. -/
theorem openedIn_merge (s : Settings) (spec : EntitySpec) (n : SatelliteNames) :
    openedIn (mergeStatement s spec n).exprs =
      openedIn (stagedSelect s spec n).exprs + 2 * openedInDigest s spec.descriptive := by
  have hkeyed : openedIn (keyedSelect n).exprs = 0 := rfl
  have hchanged : openedIn (changedSelect s spec n).exprs = openedInDigest s spec.descriptive := by
    have hexprs : (changedSelect s spec n).exprs =
        [.null, currentVersionOf s n currentName (.of stagedName n.hashKey)] ++
          [changedFrom s spec currentName (.of stagedName s.columns.hashDiff)] := rfl
    rw [hexprs, openedIn_append, openedIn_singleton, openedBy_changedFrom]
    exact Nat.zero_add _
  have hinserted : openedIn ((insertedVersion s spec n).map Assignment.value) = 0 := by
    refine openedIn_eq_zero (List.forall_mem_map.mpr ?_)
    unfold insertedVersion
    refine List.forall_mem_append.mpr ⟨List.forall_mem_map.mpr fun _ _ => rfl, ?_⟩
    simp only [List.forall_mem_cons]
    exact ⟨rfl, rfl, rfl, nofun⟩
  have hexprs : (mergeStatement s spec n).exprs =
      (stagedSelect s spec n).exprs ++ ((keyedSelect n).exprs ++ ((changedSelect s spec n).exprs ++
        ([currentVersionOf s n targetName (.of sourceName mergeKey)] ++
          ([changedFrom s spec targetName (.of sourceName s.columns.hashDiff)] ++
            ((closedVersion s).map Assignment.value ++
              (insertedVersion s spec n).map Assignment.value))))) := by
    simp [Merge.exprs, mergeStatement, mergeSource, Query.exprs, Query.namedExprs,
      MergeClause.exprs]
  have hclosed : openedIn ((closedVersion s).map Assignment.value) = 0 := rfl
  have hon : openedBy (currentVersionOf s n targetName (.of sourceName mergeKey)).strings = 0 := rfl
  rw [hexprs]
  simp only [openedIn_append, openedIn_singleton, hkeyed, hchanged, hon, openedBy_changedFrom,
    hclosed, hinserted]
  omega

/-! ## 3. Artifacts -/

variable (s spec) in
/-- No configured text opens a placeholder where it is written. -/
structure OpensNothing : Prop where
  recordSource : ∀ tag, s.recordSource = some tag → placeholders tag = 0
  /-- A separator is written between two columns of a digest. -/
  separator : ∀ separator, s.keyEncoding = .delimited separator →
    2 ≤ spec.businessKey.length ∨ 2 ≤ spec.descriptive.length → placeholders separator = 0

theorem openedBySource_eq_zero_iff :
    openedBySource s spec = 0 ↔ ∀ tag, s.recordSource = some tag → placeholders tag = 0 := by
  unfold openedBySource
  cases s.recordSource with
  | none =>
    have hdotted : Opens spec.source.dotted 0 :=
      (opensAll_names id spec.source.parts).intercalate (by decide)
    exact iff_of_true hdotted.1 nofun
  | some tag => simp

theorem openedInDigest_eq_zero_iff (columns : List Ident) :
    openedInDigest s columns = 0 ↔ ∀ separator, s.keyEncoding = .delimited separator →
      2 ≤ columns.length → placeholders separator = 0 := by
  unfold openedInDigest openedByDigest
  cases s.keyEncoding with
  | delimited separator =>
    simp only [KeyEncoding.delimited.injEq, forall_eq', Nat.mul_eq_zero]
    omega
  | lengthPrefixed => simp

theorem opensNothing_iff : OpensNothing s spec ↔ openedInDigest s spec.businessKey = 0 ∧
    openedInDigest s spec.descriptive = 0 ∧ openedBySource s spec = 0 := by
  rw [openedBySource_eq_zero_iff, openedInDigest_eq_zero_iff, openedInDigest_eq_zero_iff]
  constructor
  · intro h
    exact ⟨fun separator he hkeys => h.separator separator he (.inl hkeys),
      fun separator he hfields => h.separator separator he (.inr hfields), h.recordSource⟩
  · rintro ⟨hkeys, hfields, hsource⟩
    exact ⟨hsource, fun separator he hlength =>
      hlength.elim (hkeys separator he) (hfields separator he)⟩

/-- A kind without descriptive fields digests none. -/
theorem openedInDigest_descriptive (h : spec.kind.describes = false) :
    openedInDigest s spec.descriptive = 0 := by
  rw [descriptive_eq_nil h]
  unfold openedInDigest openedByDigest
  cases s.keyEncoding with
  | delimited separator => exact Nat.zero_mul _
  | lengthPrefixed => rfl

/-- The string constants of every statement of an entity open nothing exactly if no configured text
does. -/
theorem openedIn_eq_zero_iff {ls : List Layout} (h : layouts s spec = .ok ls) :
    ∀ l ∈ ls, openedIn l.statement.exprs = 0 ↔ OpensNothing s spec := by
  rw [opensNothing_iff]
  unfold layouts at h
  cases hkind : spec.kind with
  | hub =>
    simp only [hkind, bind_eq_ok_iff, pure_eq_ok_iff] at h
    obtain ⟨n, -, rfl⟩ := h
    refine List.forall_mem_singleton.mpr ?_
    have hnone := openedInDigest_descriptive (s := s) (show spec.kind.describes = false from
      hkind ▸ rfl)
    have hcount := openedIn_hub s spec n
    simp only [hubLayout, Statement.exprs]
    omega
  | link =>
    simp only [hkind, bind_eq_ok_iff, pure_eq_ok_iff] at h
    obtain ⟨n, -, rfl⟩ := h
    refine List.forall_mem_singleton.mpr ?_
    have hnone := openedInDigest_descriptive (s := s) (show spec.kind.describes = false from
      hkind ▸ rfl)
    have hcount := openedIn_link s spec n
    simp only [linkLayout, Statement.exprs]
    omega
  | satellite =>
    simp only [hkind, bind_eq_ok_iff, pure_eq_ok_iff] at h
    obtain ⟨n, -, rfl⟩ := h
    have hbase := openedIn_base s spec n
    have hstaged := openedIn_staged s spec n
    have hmerge := openedIn_merge s spec n
    refine List.forall_mem_cons.mpr ⟨?_, ?_⟩
    · simp only [baseLayout, Statement.exprs]
      omega
    · cases s.emitHistory with
      | false => exact List.forall_mem_nil _
      | true =>
        refine List.forall_mem_singleton.mpr ?_
        simp only [mergeLayout, Statement.exprs]
        omega

theorem placeholders_ne_tables {ls : List Layout} (h : layouts s spec = .ok ls)
    (hopens : ¬ OpensNothing s spec) :
    ∀ l ∈ ls, placeholders (l.statement.toSql .bigQuery) ≠ l.statement.tables := by
  intro l hl hsame
  rw [placeholders_toSql, Nat.add_eq_left] at hsame
  exact hopens ((openedIn_eq_zero_iff h l hl).mp hsame)

end

/-- Under accepted settings for BigQuery, the placeholders that an artifact of an accepted entity
opens are its tables exactly if no configured text opens one where it is written. -/
theorem placeholders_are_tables_iff (s : Settings) (spec : EntitySpec) (artifacts : List Artifact)
    (hdialect : s.dialect = .bigQuery) (hvalid : s.validate = .ok ())
    (hgenerated : generate s spec = .ok artifacts) :
    ∃ ls, layouts s spec = .ok ls ∧
      List.Forall₂ (fun l a => a.body = l.statement.toSql .bigQuery ∧
        (placeholders a.body = l.statement.tables ↔ OpensNothing s spec)) ls artifacts := by
  obtain ⟨ls, hls, hbuilt⟩ := checked_of_generate hvalid hgenerated
  refine ⟨ls, hls, ((List.forall₂_and_left ls artifacts).mpr
    ⟨openedIn_eq_zero_iff hls, hbuilt⟩).imp ?_⟩
  rintro l a ⟨hnothing, -, hbuiltBy⟩
  have hbody := hbuiltBy.body_eq
  rw [hdialect] at hbody
  rw [hbody, placeholders_toSql, ← hnothing]
  exact ⟨rfl, Nat.add_eq_left⟩

/-- Under the standard settings the snapshot opens one placeholder, and the merge three. -/
theorem placeholders_are_tables_iff_sample : ∃ artifacts,
    generate .standard sampleSpec = .ok artifacts ∧
      artifacts.map (fun a => placeholders a.body) = [1, 3] := by
  have haccepted : (generate .standard sampleSpec).isOk = true := by decide +kernel
  cases hgenerated : generate .standard sampleSpec with
  | error e =>
    rw [hgenerated] at haccepted
    cases haccepted
  | ok artifacts =>
    have hnothing : OpensNothing .standard sampleSpec := by
      refine ⟨nofun, ?_⟩
      rintro separator ⟨⟩ -
      decide +kernel
    obtain ⟨ls, hls, hbuilt⟩ :=
      placeholders_are_tables_iff .standard sampleSpec artifacts rfl rfl hgenerated
    obtain rfl := Except.ok.inj ((layouts_sampleSpec .standard).symm.trans hls)
    obtain _ | ⟨⟨-, hbase⟩, _ | ⟨⟨-, hmerge⟩, ⟨⟩⟩⟩ := hbuilt
    refine ⟨_, rfl, ?_⟩
    rw [List.map_cons, List.map_cons, List.map_nil, hbase.mpr hnothing, hmerge.mpr hnothing]
    rfl

/-- Accepted settings for BigQuery and an accepted entity, one of whose statements opens another
number of placeholders than it has tables. -/
structure Splices (s : Settings) (spec : EntitySpec) : Prop where
  dialect : s.dialect = .bigQuery
  valid : s.validate = .ok ()
  accepted : (generate s spec).isOk = true
  spliced : ∃ ls, layouts s spec = .ok ls ∧
    ∃ l ∈ ls, placeholders (l.statement.toSql .bigQuery) ≠ l.statement.tables

/-- The record source has the form of a reference. -/
def sourceInReference : Settings :=
  { Settings.standard with recordSource := some "$\x7bref(\"other\")\x7d" }

/-- The separator begins a placeholder. -/
def separatorInReference : Settings :=
  { Settings.standard with keyEncoding := .delimited "$\x7b" }

/-- A hub with two keys. -/
def pairSpec : EntitySpec where
  name := ⟨"order_lines", by decide, by decide⟩
  kind := .hub
  businessKey := [⟨"order_id", by decide, by decide⟩, ⟨"line_no", by decide, by decide⟩]
  descriptive := []
  source := .bare ⟨"lines", by decide, by decide⟩
  enoughKeys := by decide
  describes_eq := by decide
  distinct := by decide

/-- The names of its columns. -/
def pairNames : HubNames where
  hashKey := ⟨"order_id_line_no_hk", by decide, by decide⟩
  businessKeys := [⟨"order_id_bk", by decide, by decide⟩, ⟨"line_no_bk", by decide, by decide⟩]

theorem layouts_pairSpec (s : Settings) :
    layouts s pairSpec = .ok [hubLayout s pairSpec pairNames] := by
  have hhash : pairSpec.derived pairSpec.hashKeyName = .ok pairNames.hashKey := by
    decide +kernel
  have hkeys : pairSpec.derived pairSpec.businessKeyNames = .ok pairNames.businessKeys := by
    decide +kernel
  change (HubNames.of pairSpec >>= _) = _
  unfold HubNames.of
  rw [hhash, hkeys]
  rfl

/-- A configured text that has the form of a reference is written as one, beside the references to
the tables. -/
theorem configured_text_spliced :
    Splices sourceInReference sampleSpec ∧ Splices separatorInReference pairSpec := by
  have hsource : ¬ OpensNothing sourceInReference sampleSpec :=
    fun h => absurd (h.recordSource _ rfl) (by decide)
  have hseparator : ¬ OpensNothing separatorInReference pairSpec :=
    fun h => absurd (h.separator _ rfl (.inl (le_refl 2))) (by decide)
  have hbase := placeholders_ne_tables (layouts_sampleSpec sourceInReference) hsource
  have hhub := placeholders_ne_tables (layouts_pairSpec separatorInReference) hseparator
  exact ⟨⟨rfl, by decide +kernel, by decide +kernel, _, layouts_sampleSpec _, _,
      List.mem_cons_self, hbase _ List.mem_cons_self⟩,
    ⟨rfl, by decide +kernel, by decide +kernel, _, layouts_pairSpec _, _,
      List.mem_cons_self, hhub _ List.mem_cons_self⟩⟩

end DataVault.Generate
