/-
DataVault.Proofs.Generate.HeaderColumns — the header of a table describes the
columns of its statement.

The columns of a table are written down twice: as the items of the statement,
and as the descriptions of the header. The descriptions are a map, in which a
name that comes twice has one place, so the two can agree only if the columns
differ. `columns_distinct_iff` says when they do. Where no vault column has the
name of a key column, the header documents the columns of the statement in
their order, clusters by some of them and partitions by one of them
(`headers_describe_columns`).
-/
import DataVault.Proofs.Generate.Acceptance
import DataVault.Proofs.Generate.ColumnNames

namespace DataVault.Artifact

/-! ## 1. Documentation without repetitions -/

/-- Columns that are not documented yet are added in their order. -/
theorem map_fst_foldl_putColumn {entries : List (String × String)} : ∀ {docs : ColumnDocs},
    (docs.map Prod.fst ++ entries.map Prod.fst).Nodup →
      (entries.foldl (fun docs entry => putColumn docs entry.1 entry.2) docs).map Prod.fst =
        docs.map Prod.fst ++ entries.map Prod.fst := by
  induction entries with
  | nil => exact fun _ => (List.append_nil _).symm
  | cons entry entries ih =>
    intro docs hnodup
    have hnew : entry.1 ∉ docs.map Prod.fst := fun hold =>
      (List.nodup_append.mp hnodup).2.2 _ hold _ List.mem_cons_self rfl
    have hadded : (putColumn docs entry.1 entry.2).map Prod.fst =
        docs.map Prod.fst ++ [entry.1] := by
      rw [map_fst_putColumn, if_neg hnew]
    have hrest : docs.map Prod.fst ++ (entry :: entries).map Prod.fst =
        (putColumn docs entry.1 entry.2).map Prod.fst ++ entries.map Prod.fst := by
      rw [hadded, List.map_cons, List.append_assoc, List.singleton_append]
    rw [hrest] at hnodup ⊢
    exact ih hnodup

/-- Different columns are documented in the order of their descriptions. -/
theorem map_fst_ofList {entries : List (String × String)} (h : (entries.map Prod.fst).Nodup) :
    (ColumnDocs.ofList entries).map Prod.fst = entries.map Prod.fst :=
  map_fst_foldl_putColumn h

end DataVault.Artifact

namespace DataVault.Generate

open DataVault.Artifact DataVault.Entity DataVault.Lists DataVault.Results DataVault.Sql
  DataVault.Text

/-! ## 2. Headers of tables -/

/-- The header is about these columns. -/
structure Describes (h : Header) (columns : List Ident) : Prop where
  documented : h.columns.map Prod.fst = columns.map Ident.text
  clustered_few : h.clusterBy.length ≤ 4
  clustered_sublist : h.clusterBy.Sublist (columns.map Ident.text)
  partitioned : ∀ text ∈ h.partitionBy,
    ∃ column ∈ columns, text = column.text ∨ text = "DATE(" ++ column.text ++ ")"

/-- The texts of the columns that are derived from the business key: the hash
key and the business key columns, and for a link the hub keys. -/
def keyColumnTexts (spec : EntitySpec) : List String :=
  hashKeyText spec ::
    (if spec.kind = .link then spec.businessKey.map fun field => field.text ++ "_hk" else []) ++
    spec.businessKey.map fun field => field.text ++ "_bk"

/-- What a generator puts into the header of a table. -/
structure Headed (s : Settings) (spec : EntitySpec) (l : Layout) (a : Artifact) : Prop where
  header_eq : ∃ cluster tags description docs,
    a.header = s.header spec .table cluster tags description docs ∧
      docs.map Prod.fst = l.statement.columns.map Ident.text ∧ cluster.Sublist l.generated
  generated_texts : l.generated.map Ident.text = keyColumnTexts spec
  vault_subset : l.vault ⊆ s.columns.all
  loadTime_mem : s.columns.loadTime ∈ l.vault

section
variable {s : Settings} {spec : EntitySpec}

/-- Different names have different texts. -/
theorem nodup_texts {names : List Ident} (h : DistinctFields names) :
    (names.map Ident.text).Nodup := by
  unfold DistinctFields at h
  refine List.pairwise_map.mpr (h.imp fun {a b} hne htext => ?_)
  rw [Ident.ext_text htext, sameName_refl] at hne
  cases hne

theorem header_describes {cluster columns : List Ident} {docs : List (String × String)}
    (hdistinct : DistinctFields columns) (hdocs : docs.map Prod.fst = columns.map Ident.text)
    (hcluster : cluster.Sublist columns) (hload : s.columns.loadTime ∈ columns)
    (tags : List String) (description : String) :
    Describes (s.header spec .table cluster tags description docs) columns := by
  constructor
  · exact (map_fst_ofList (hdocs ▸ nodup_texts hdistinct)).trans hdocs
  · simp only [Settings.header]
    split
    · rw [List.length_map]
      exact List.length_take_le _ _
    · exact Nat.zero_le 4
  · simp only [Settings.header]
    split
    · exact ((List.take_sublist _ _).trans hcluster).map Ident.text
    · exact List.nil_sublist _
  · intro text htext
    refine ⟨s.columns.loadTime, hload, ?_⟩
    simp only [Settings.header] at htext
    split at htext
    · cases htext
      unfold Settings.partitionText
      cases s.loadPrecision with
      | timestamp => exact .inr rfl
      | date => exact .inl rfl
    · cases htext

/-- No vault column has the name of a key column. -/
def VaultApart (s : Settings) (spec : EntitySpec) : Prop :=
  ∀ column ∈ s.columns.all, ∀ text ∈ keyColumnTexts spec, eqIgnoreCase text column.text = false

theorem Headed.describes {l : Layout} {a : Artifact} (h : Headed s spec l a) (hl : l.Checked)
    (hapart : VaultApart s spec) : Describes a.header l.statement.columns := by
  obtain ⟨cluster, tags, description, docs, hheader, hdocs, hcluster⟩ := h.header_eq
  have hdistinct : DistinctFields l.statement.columns := by
    refine hl.distinct_iff.mpr fun column hcolumn => among_eq_false_iff.mpr fun name hname => ?_
    refine hapart column (h.vault_subset hcolumn) name.text ?_
    exact h.generated_texts ▸ List.mem_map_of_mem hname
  rw [hheader]
  refine header_describes hdistinct hdocs (hcluster.trans ?_) ?_ tags description
  · rw [hl.columns_eq, List.append_assoc]
    exact List.sublist_append_left _ _
  · rw [hl.columns_eq]
    exact List.mem_append_right _ h.loadTime_mem

/-! ## 3. The three generators -/

/-- Descriptions of fields stand under the names of their columns. -/
theorem map_fst_documented (doc : Ident → String) : ∀ {fields names : List Ident},
    fields.length = names.length →
      (List.zipWith (fun field name => (name.text, doc field)) fields names).map Prod.fst =
        names.map Ident.text
  | [], [], _ => rfl
  | _ :: _, name :: _, h =>
      congrArg (name.text :: ·) (map_fst_documented doc (Nat.succ.inj h))

theorem headed_hub {n : HubNames} {a : Artifact} {description : String} (hkind : spec.kind = .hub)
    (hnames : HubNames.of spec = .ok n)
    (ha : a.header = s.header spec .table n.businessKeys [] description (hubDocs s spec n)) :
    Headed s spec (hubLayout s spec n) a := by
  obtain ⟨hhash, hkeys⟩ := HubNames.of_eq_ok hnames
  have hbusiness := suffixed_businessKeyNames hkeys
  refine ⟨⟨_, _, _, _, ha, ?_, List.sublist_cons_self _ _⟩, ?_, ?_, List.mem_cons_self⟩
  · rw [columns_hubLayout _ hbusiness.length_eq]
    simp [hubDocs, businessKeyDocs, Settings.loadDocs, HubNames.all,
      map_fst_documented _ hbusiness.length_eq]
  · simp [hubLayout, HubNames.all, keyColumnTexts, hkind, map_text_of_suffixed hbusiness,
      text_of_hashKeyName hhash]
  · simp [hubLayout, VaultColumns.all]

theorem headed_link {n : LinkNames} {a : Artifact} {description : String}
    (hkind : spec.kind = .link) (hnames : LinkNames.of spec = .ok n)
    (ha : a.header = s.header spec .table n.hubKeys [] description (linkDocs s spec n)) :
    Headed s spec (linkLayout s spec n) a := by
  obtain ⟨hhash, hhub, hkeys⟩ := LinkNames.of_eq_ok hnames
  have hhubs := suffixed_hubKeyNames hhub
  have hbusiness := suffixed_businessKeyNames hkeys
  refine ⟨⟨_, _, _, _, ha, ?_, ?_⟩, ?_, ?_, List.mem_cons_self⟩
  · rw [columns_linkLayout _ hhubs.length_eq hbusiness.length_eq]
    simp [linkDocs, businessKeyDocs, Settings.loadDocs, LinkNames.all,
      map_fst_documented _ hhubs.length_eq, map_fst_documented _ hbusiness.length_eq]
  · exact (List.sublist_append_left _ _).cons _
  · simp [linkLayout, LinkNames.all, keyColumnTexts, hkind, map_text_of_suffixed hhubs,
      map_text_of_suffixed hbusiness, text_of_hashKeyName hhash]
  · simp [linkLayout, VaultColumns.all]

theorem headed_base {n : SatelliteNames} {a : Artifact} (hkind : spec.kind = .satellite)
    (hnames : SatelliteNames.of spec = .ok n) (ha : baseArtifact s spec n = .ok a) :
    Headed s spec (baseLayout s spec n) a := by
  simp only [baseArtifact, bind_eq_ok_iff, pure_eq_ok_iff] at ha
  obtain ⟨target, -, rfl⟩ := ha
  have hhash := (SatelliteNames.of_eq_ok hnames).1
  have hbusiness := businessKeys_text hnames
  refine ⟨⟨_, _, _, _, rfl, ?_, List.sublist_cons_self _ _⟩, ?_, ?_, ?_⟩
  · rw [columns_baseLayout _ hbusiness.length_eq]
    simp [baseDocs, businessKeyDocs, Settings.loadDocs,
      map_fst_documented _ hbusiness.length_eq]
  · simp [baseLayout, keyColumnTexts, hkind, map_text_of_suffixed hbusiness,
      text_of_hashKeyName hhash]
  · simp [baseLayout, VaultColumns.all]
  · simp [baseLayout]

variable {artifacts : List Artifact} {ls : List Layout}

/-- The tables of an entity have such headers. -/
theorem Generated.headed (h : Generated s spec ls artifacts) :
    List.Forall₂ (fun l a => a.kind = .table → Headed s spec l a) ls artifacts := by
  cases h with
  | hub hkind hnames _ hheader =>
    obtain ⟨description, hheader⟩ := hheader
    exact .cons (fun _ => headed_hub hkind hnames hheader) .nil
  | link hkind hnames _ hheader =>
    obtain ⟨description, hheader⟩ := hheader
    exact .cons (fun _ => headed_link hkind hnames hheader) .nil
  | satellite hkind hnames _ hbase hmerges =>
    refine .cons (fun _ => headed_base hkind hnames hbase) ?_
    rcases hmerges with ⟨-, rfl, rfl⟩ | ⟨merge, hmerge, -, rfl, rfl⟩
    · exact .nil
    · have hoperation := (builtBy_merge hmerge).kind_eq
      exact .cons (fun htable => nomatch hoperation.symm.trans htable) .nil

end

/-! ## 4. Headers and statements -/

/-- Under accepted settings whose vault columns have other names than the key
columns, the header of each table documents exactly the columns that the rows of
its statement have, clusters by at most four of them in their order, and
partitions by one of them. -/
theorem headers_describe_columns (s : Settings) (spec : EntitySpec) (artifacts : List Artifact)
    (hvalid : s.validate = .ok ()) (hapart : VaultApart s spec)
    (hgenerated : generate s spec = .ok artifacts) :
    ∃ ls, layouts s spec = .ok ls ∧
      List.Forall₂ (fun l a => a.kind = l.statement.kind ∧ a.body = l.statement.toSql s.dialect ∧
        l.statement.RowsHave l.statement.columns ∧
          (a.kind = .table → Describes a.header l.statement.columns)) ls artifacts := by
  obtain ⟨ls, hls, h⟩ := generated_of_generate hgenerated
  have hbuilt := (List.forall₂_and_left ls artifacts).mpr ⟨h.checked hvalid, h.builtBy⟩
  refine ⟨ls, hls, List.Forall₂.mp ?_ hbuilt h.headed⟩
  rintro l a ⟨hchecked, hbuilt⟩ hheaded
  exact ⟨hbuilt.kind_eq, hbuilt.body_eq, hchecked.rows,
    fun htable => (hheaded htable).describes hchecked hapart⟩

/-- The header of a snapshot under the standard settings. -/
theorem headers_describe_columns_sample : ∃ base merge,
    generate .standard sampleSpec = .ok [base, merge] ∧
      base.header.columns.map Prod.fst =
        ["customer_id_hk", "customer_id_bk", "email", "hash_diff", "load_dts", "record_source"] ∧
      Describes base.header (baseLayout .standard sampleSpec sampleNames).statement.columns := by
  have hapart : VaultApart .standard sampleSpec := by
    unfold VaultApart
    decide +kernel
  obtain ⟨artifacts, hgenerated⟩ : ∃ artifacts, generate .standard sampleSpec = .ok artifacts :=
    exists_of_isOk (by decide +kernel)
  obtain ⟨ls, hls, hfits⟩ :=
    headers_describe_columns .standard sampleSpec artifacts rfl hapart hgenerated
  obtain rfl := Except.ok.inj ((layouts_sampleSpec .standard).symm.trans hls)
  obtain _ | ⟨⟨hkind, -, -, hbase⟩, _ | ⟨-, ⟨⟩⟩⟩ := hfits
  exact ⟨_, _, hgenerated, (hbase hkind).documented, hbase hkind⟩

end DataVault.Generate
