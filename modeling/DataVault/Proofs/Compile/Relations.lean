/-
DataVault.Proofs.Compile.Relations — which relations a run writes.

A table artifact is the relation of its name in its schema. A merge writes
the relation that its statement names, and that is named after the entity and
not after the artifact (`writes_iff`). Artifact names are claimed and these
are not, so a merge can meet the snapshot of another entity: the satellite
`customer_base` is merged into the table that is the snapshot of the
satellite `customer`.

`relations_apart_iff` is that nothing else can be met. The artifacts of
different entities write different relations exactly if no merge is into a
table with the name of a snapshot. `snapshot_merged_into` is a run in which
one is.
-/
import DataVault.Proofs.Compile.Planning
import DataVault.Proofs.Sql.References
import Mathlib.Data.List.Pairwise

namespace DataVault.Compile

open DataVault.Artifact DataVault.Entity DataVault.Generate DataVault.Guard DataVault.Metadata
  DataVault.Output DataVault.Sql DataVault.Text

/-! ## 1. Written relations -/

/-- The artifact writes the relation: a table is the one of its name in its
schema, and an operation merges into the one that its statement names. -/
def Writes (d : Dialect) (x : Artifact) (t : TableRef) : Prop :=
  match x.kind with
  | .table => t.parts.map Ident.text = [x.header.schema, x.targetName.text]
  | .operation => ∃ rest, x.body = "MERGE INTO " ++ d.resolve t ++ " AS " ++ rest

/-- The name of the relation that an artifact writes. -/
def writtenName (x : Artifact) : Ident :=
  if x.role = .satelliteMerge then x.entity else x.targetName

/-- A merge begins with the relation that it is into. -/
theorem exists_toSql (d : Dialect) (m : Merge) :
    ∃ rest, m.toSql d = "MERGE INTO " ++ d.resolve m.target ++ " AS " ++ rest := by
  unfold Merge.toSql Merge.render statement
  rw [List.cons_append, List.cons_append, String.intercalate_cons_append, String.append_assoc,
    String.append_assoc]
  exact ⟨_, rfl⟩

/-- A statement merges into one relation. -/
theorem merge_target_inj {d : Dialect} {t u : TableRef} {rest rest' : String}
    (h : "MERGE INTO " ++ d.resolve t ++ " AS " ++ rest =
      "MERGE INTO " ++ d.resolve u ++ " AS " ++ rest') : t = u := by
  have hchars (t : TableRef) (rest : String) :
      ("MERGE INTO " ++ d.resolve t ++ " AS " ++ rest).toList =
        "MERGE INTO ".toList ++ ((d.resolve t).toList ++ (" AS ".toList ++ rest.toList)) :=
    String.toList_append.trans ((toList_concat _ _ _).trans (toList_concat _ _ _))
  have hends (rest : List Char) : EndsReference (" AS ".toList ++ rest) := by
    rintro _ ⟨⟩
    decide
  have hlists := congrArg String.toList h
  rw [hchars, hchars] at hlists
  exact (resolve_append_inj (hends _) (hends _) (List.append_cancel_left hlists)).1

theorem table_eq_iff {schema name : Ident} {t : TableRef} :
    t.parts.map Ident.text = [schema.text, name.text] ↔ t = .inSchema schema name := by
  constructor
  · intro h
    refine parts_inj (List.map_injective_iff.mpr (fun _ _ => Ident.ext_text) ?_)
    exact h
  · rintro rfl
    rfl

/-- An artifact writes one relation of the vault. -/
theorem writes_iff {s : Settings} {spec : EntitySpec} {role : ArtifactRole} {x : Artifact}
    (hx : ArtifactOf s spec role x) {t : TableRef} :
    Writes s.dialect x t ↔ t = s.vaultTable (writtenName x) := by
  unfold Writes writtenName Settings.vaultTable
  rw [hx.kind_eq, hx.role_eq]
  by_cases hmerge : role = .satelliteMerge
  · simp only [hmerge, if_true]
    obtain ⟨n, hbody⟩ := hx.body_eq hmerge
    obtain ⟨rest, hrest⟩ := exists_toSql s.dialect (mergeStatement s spec n)
    rw [hbody, hrest, hx.entity_eq]
    constructor
    · rintro ⟨rest', h⟩
      exact (merge_target_inj h).symm
    · rintro rfl
      exact ⟨rest, rfl⟩
  · simp only [hmerge, if_false]
    rw [hx.schema_eq]
    exact table_eq_iff

/-- Relations of the vault are the same if their names are. -/
theorem eqIgnoreCase_dotted (s : Settings) (a b : Ident) :
    eqIgnoreCase (s.vaultTable a).dotted (s.vaultTable b).dotted = a.sameName b :=
  eqIgnoreCase_append_left (s.schema.text ++ ".") a.text b.text

/-! ## 2. The names of two entities -/

section
variable {s : Settings} {separator : Char} {rows : List Row}

/-- The snapshot of a satellite is not named like the satellite. -/
theorem base_ne_entity {spec : EntitySpec} {x : Artifact}
    (hx : ArtifactOf s spec .satelliteBase x) : x.targetName.sameName spec.name = false := by
  have htext : x.targetName.text = spec.name.text ++ "_" ++ "base" := parse_eq_ok hx.name_eq
  rw [Bool.eq_false_iff, Ne, sameName_iff, htext]
  intro h
  have hlength := congrArg (fun text => text.toList.length) h
  simp [toList_lower] at hlength

/-- Entities that are kept have different names, and so have their
artifacts. -/
theorem keptOf_apart {a b : Accepted} (ha : a ∈ (keptOf s separator rows).accepted)
    (hb : b ∈ (keptOf s separator rows).accepted) (hne : a ≠ b) :
    a.spec.name.sameName b.spec.name = false ∧ NamesApart s a b := by
  have hnames : Std.Symm fun a b : Accepted => a.spec.name.sameName b.spec.name = false :=
    ⟨fun _ _ => sameName_eq_false_symm⟩
  have hapart : Std.Symm (NamesApart s) :=
    ⟨fun _ _ h m hm n hn => sameName_eq_false_symm (h n hn m hm)⟩
  exact ⟨covers_keptOf.distinct.forall ha hb hne, apart_keptOf.forall ha hb hne⟩

/-- A table is named like another entity only if it is a snapshot. -/
theorem targetName_ne {spec : EntitySpec} {role : ArtifactRole} {x : Artifact} {name : Ident}
    (hx : ArtifactOf s spec role x) (htable : role ≠ .satelliteMerge)
    (hname : spec.name.sameName name = false)
    (hbase : role = .satelliteBase → x.targetName.sameName name = false) :
    x.targetName.sameName name = false := by
  cases role with
  | primary =>
    have htarget : spec.name = x.targetName := Except.ok.inj hx.name_eq
    exact htarget ▸ hname
  | satelliteBase => exact hbase rfl
  | satelliteMerge => exact absurd rfl htable

/-- The artifact is a snapshot with the name of the entity that the other one
merges. -/
def Meets (x y : Artifact) : Prop :=
  x.role = .satelliteBase ∧ y.role = .satelliteMerge ∧ x.targetName.sameName y.entity = true

/-- Artifacts of two entities write different relations unless one meets the
other. -/
theorem writtenName_apart {a b : Accepted} {x y : Artifact}
    (ha : a ∈ generatedOf s separator rows) (hb : b ∈ generatedOf s separator rows)
    (hne : a ≠ b) (hx : x ∈ artifactsOf s a.spec) (hy : y ∈ artifactsOf s b.spec)
    (hxy : ¬ Meets x y) (hyx : ¬ Meets y x) :
    (writtenName x).sameName (writtenName y) = false := by
  obtain ⟨hakept, hagenerated⟩ := List.mem_filter.mp ha
  obtain ⟨hbkept, hbgenerated⟩ := List.mem_filter.mp hb
  obtain ⟨hnames, hapart⟩ := keptOf_apart hakept hbkept hne
  have hxa := artifactOf_of_artifactsOf hx
  have hyb := artifactOf_of_artifactsOf hy
  unfold writtenName
  by_cases hxmerge : x.role = .satelliteMerge <;> by_cases hymerge : y.role = .satelliteMerge
  · rw [if_pos hxmerge, if_pos hymerge, hxa.entity_eq, hyb.entity_eq]
    exact hnames
  · rw [if_pos hxmerge, if_neg hymerge, hxa.entity_eq]
    refine sameName_eq_false_symm (targetName_ne hyb hymerge (sameName_eq_false_symm hnames) ?_)
    intro hbase
    rw [Bool.eq_false_iff, ← hxa.entity_eq]
    exact fun hsame => hyx ⟨hbase, hxmerge, hsame⟩
  · rw [if_neg hxmerge, if_pos hymerge, hyb.entity_eq]
    refine targetName_ne hxa hxmerge hnames ?_
    intro hbase
    rw [Bool.eq_false_iff, ← hyb.entity_eq]
    exact fun hsame => hxy ⟨hbase, hymerge, hsame⟩
  · rw [if_neg hxmerge, if_neg hymerge]
    have hclaimed {c : Accepted} {z : Artifact} (hc : isGenerated s c = true)
        (hz : z ∈ artifactsOf s c.spec) : z.targetName ∈ artifactNames s c.spec := by
      rw [artifactNames_of_generate (artifactsOf_eq hc)]
      exact List.mem_map_of_mem hz
    exact hapart _ (hclaimed hagenerated hx) _ (hclaimed hbgenerated hy)

end

/-! ## 3. The relations of a run -/

/-- Every artifact of a run writes one relation. No relation is written for
two entities, exactly if no merge is into a table with the name of a
snapshot. -/
theorem relations_apart_iff {σ : Type} (s : Settings) (separator : Char) (sink : Sink σ)
    (now : String) (rows : List Row) (st st' : σ) (summary : Summary)
    (h : compile s separator sink now rows st = (.ok summary, st')) :
    (∀ x ∈ summary.artifacts, ∃! t, Writes s.dialect x t) ∧
      ((∀ x ∈ summary.artifacts, ∀ y ∈ summary.artifacts, x.entity ≠ y.entity →
          ∀ t u, Writes s.dialect x t → Writes s.dialect y u →
            eqIgnoreCase t.dotted u.dotted = false) ↔
        ∀ x ∈ summary.artifacts, ∀ y ∈ summary.artifacts, ¬ Meets x y) := by
  have hran := ran_of_compile h
  refine ⟨?_, ?_, ?_⟩
  · intro x hx
    obtain ⟨a, -, hxa⟩ := hran.exists_generated hx
    have hwrites := @writes_iff _ _ _ _ (artifactOf_of_artifactsOf hxa)
    exact ⟨_, hwrites.mpr rfl, fun t ht => hwrites.mp ht⟩
  · rintro hapart x hx y hy ⟨hbase, hmerge, hsame⟩
    obtain ⟨a, -, hxa⟩ := hran.exists_generated hx
    obtain ⟨b, -, hyb⟩ := hran.exists_generated hy
    have hxof := artifactOf_of_artifactsOf hxa
    have hyof := artifactOf_of_artifactsOf hyb
    have hentity : x.entity ≠ y.entity := by
      intro heq
      rw [← heq, hxof.entity_eq, base_ne_entity (hbase ▸ hxof)] at hsame
      cases hsame
    have hfalse := hapart x hx y hy hentity _ _ ((writes_iff hxof).mpr rfl)
      ((writes_iff hyof).mpr rfl)
    rw [eqIgnoreCase_dotted, writtenName, writtenName, if_pos hmerge, hbase,
      if_neg (by decide), hsame] at hfalse
    cases hfalse
  · intro hmeets x hx y hy hentity t u ht hu
    obtain ⟨a, ha, hxa⟩ := hran.exists_generated hx
    obtain ⟨b, hb, hyb⟩ := hran.exists_generated hy
    have hxof := artifactOf_of_artifactsOf hxa
    have hyof := artifactOf_of_artifactsOf hyb
    have hne : a ≠ b := by
      rintro rfl
      exact hentity (hxof.entity_eq.trans hyof.entity_eq.symm)
    rw [(writes_iff hxof).mp ht, (writes_iff hyof).mp hu, eqIgnoreCase_dotted]
    exact writtenName_apart ha hb hne hxa hyb (hmeets x hx y hy) (hmeets y hy x hx)

/-- Two satellites, the second one with the name of the snapshot of the
first if the ending is that of a snapshot. -/
def twoSatellites (ending : String) : List Row :=
  [⟨"customer", "satellite", .joined "customer_id", .joined "email", "stg.customer"⟩,
    ⟨"customer" ++ ending, "satellite", .joined "customer_id", .joined "status", "stg.status"⟩]

theorem relations_apart_iff_satellites :
    ∃ summary kept, compile .standard ',' memorySink "" (twoSatellites "_status") [] =
        (.ok summary, kept) ∧
      (∀ x ∈ summary.artifacts, ∃! t, Writes Settings.standard.dialect x t) ∧
      ((∀ x ∈ summary.artifacts, ∀ y ∈ summary.artifacts, x.entity ≠ y.entity →
          ∀ t u, Writes Settings.standard.dialect x t → Writes Settings.standard.dialect y u →
            eqIgnoreCase t.dotted u.dotted = false) ↔
        ∀ x ∈ summary.artifacts, ∀ y ∈ summary.artifacts, ¬ Meets x y) := by
  obtain ⟨summary, kept, h⟩ := exists_compile_memorySink (s := .standard) (by decide) ',' ""
    (twoSatellites "_status") []
  exact ⟨summary, kept, h, relations_apart_iff .standard ',' memorySink ""
    (twoSatellites "_status") [] kept summary h⟩

/-- The second satellite is merged into the snapshot of the first. -/
theorem snapshot_merged_into :
    ∃ summary kept, compile .standard ',' memorySink "" (twoSatellites "_base") [] =
        (.ok summary, kept) ∧
      ∃ x ∈ summary.artifacts, ∃ y ∈ summary.artifacts, x.entity ≠ y.entity ∧
        ∃ t u, Writes Settings.standard.dialect x t ∧ Writes Settings.standard.dialect y u ∧
          eqIgnoreCase t.dotted u.dotted = true := by
  obtain ⟨summary, kept, h⟩ := exists_compile_memorySink (s := .standard) (by decide) ',' ""
    (twoSatellites "_base") []
  have hran := ran_of_compile h
  have hfirst : ∃ a ∈ generatedOf .standard ',' (twoSatellites "_base"),
      a.spec.name.text = "customer" ∧ .satelliteBase ∈ artifactRoles .standard a.spec.kind := by
    decide +kernel
  have hsecond : ∃ b ∈ generatedOf .standard ',' (twoSatellites "_base"),
      b.spec.name.text = "customer_base" ∧
        .satelliteMerge ∈ artifactRoles .standard b.spec.kind := by
    decide +kernel
  obtain ⟨a, ha, haname, harole⟩ := hfirst
  obtain ⟨b, hb, hbname, hbrole⟩ := hsecond
  obtain ⟨x, hx, hxof⟩ := hran.exists_artifact ha harole
  obtain ⟨y, hy, hyof⟩ := hran.exists_artifact hb hbrole
  have htarget : x.targetName.text = "customer" ++ "_" ++ "base" :=
    haname ▸ parse_eq_ok hxof.name_eq
  refine ⟨summary, kept, h, x, hx, y, hy, ?_, _, _, (writes_iff hxof).mpr rfl,
    (writes_iff hyof).mpr rfl, ?_⟩
  · rw [hxof.entity_eq, hyof.entity_eq]
    intro hentity
    have htexts := congrArg Ident.text hentity
    rw [haname, hbname] at htexts
    exact absurd htexts (by decide)
  · rw [eqIgnoreCase_dotted, writtenName, writtenName, hxof.role_eq, hyof.role_eq,
      if_neg (by decide), if_pos rfl, hyof.entity_eq, sameName_iff, htarget, hbname]
    rfl

end DataVault.Compile
