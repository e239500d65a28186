/-
DataVault.Proofs.Generate.Recovery — artifacts determine the specification.

The statement of a table gives its lines back, and so the texts of its items and
the table that it reads (`tableSelect_inj`). `ProjectedAs` says where in these
texts the declared fields are: behind the digests, each business key field with
the column that it is renamed to, then the descriptive fields under their own
names, and at the end the columns that every table of the kind has. The numbers
of items before and behind the fields depend on the kind and on how many there
are, a field under its own name holds no blank, and so the fields are read back
(`ProjectedAs.inj`). With the name of an artifact that is all of the
specification (`artifacts_determine_spec`).
-/
import DataVault.Proofs.Generate.KeyItems
import DataVault.Proofs.Sql.Lines

namespace DataVault.Generate

open DataVault.Artifact DataVault.Entity DataVault.Lists DataVault.Results DataVault.Sql

/-! ## 1. Texts of fields -/

/-- The text of a business key field in a projection. -/
def businessKeyText (field : Ident) : String :=
  field.text ++ " AS " ++ (field.text ++ "_bk")

theorem businessKeyText_inj : Function.Injective businessKeyText := by
  intro a b h
  have hblank : ∀ name : Ident, ∀ c ∈ (" AS ".toList ++ (name.text ++ "_bk").toList).head?,
      Ident.isPart c = false := by
    rintro name _ ⟨⟩
    decide
  have hchars := congrArg String.toList h
  unfold businessKeyText at hchars
  rw [String.append_assoc, String.append_assoc, String.toList_append, String.toList_append,
    String.toList_append (s := b.text), String.toList_append (s := " AS ")] at hchars
  exact (ident_append_inj (hblank a) (hblank b) hchars).1

theorem text_inj : Function.Injective Ident.text := fun _ _ => Ident.ext_text

/-- The text has a blank in it. -/
def hasBlank (text : String) : Bool := text.toList.contains ' '

theorem hasBlank_businessKeyText (field : Ident) : hasBlank (businessKeyText field) = true := by
  unfold hasBlank businessKeyText
  rw [List.contains_iff_mem, String.toList_append, String.toList_append]
  exact List.mem_append_left _ (List.mem_append_right _ (by decide))

theorem hasBlank_text (field : Ident) : hasBlank field.text = false := by
  unfold hasBlank
  rw [Bool.eq_false_iff, Ne, List.contains_iff_mem]
  exact notMem_of_isPart_eq_false (by decide)

/-- Business keys end before the first field under its own name. -/
theorem fieldTexts_inj {keys keys' fields fields' : List Ident}
    (h : keys.map businessKeyText ++ fields.map Ident.text =
      keys'.map businessKeyText ++ fields'.map Ident.text) : keys = keys' ∧ fields = fields' := by
  have hkeys : ∀ keys : List Ident, ∀ text ∈ keys.map businessKeyText, hasBlank text = true :=
    fun keys => List.forall_mem_map.mpr fun field _ => hasBlank_businessKeyText field
  have hfields : ∀ fields : List Ident, ∀ text ∈ (fields.map Ident.text).head?,
      hasBlank text = false := by
    intro fields text htext
    obtain ⟨field, -, rfl⟩ := List.mem_map.mp (List.mem_of_mem_head? htext)
    exact hasBlank_text field
  obtain ⟨hsame, hrest⟩ :=
    append_inj_of_all (hkeys keys) (hkeys keys') (hfields fields) (hfields fields') h
  exact ⟨List.map_injective_iff.mpr businessKeyText_inj hsame,
    List.map_injective_iff.mpr text_inj hrest⟩

/-- The alias of a renamed field is longer than the field, so it is written. -/
theorem render_renamed {d : Dialect} {field name : Ident}
    (h : name.text = field.text ++ "_" ++ "bk") :
    (SelectItem.aliased (.field field) name).render d = businessKeyText field := by
  have hname : name.text = field.text ++ "_bk" := by
    rw [h, String.append_assoc]
    rfl
  have hne : (Expr.field field).render d ≠ name.text := by
    rw [hname, Expr.field, Expr.render]
    intro hsame
    have hlength := congrArg String.length hsame
    rw [String.length_append, show "_bk".length = 3 from rfl] at hlength
    omega
  rw [SelectItem.aliased, SelectItem.render, if_neg hne, hname, Expr.field, Expr.render]
  rfl

theorem render_renamedItems {d : Dialect} {fields names : List Ident}
    (h : Suffixed "bk" fields names) :
    (renamedItems fields names).map (SelectItem.render d) = fields.map businessKeyText := by
  induction h with
  | nil => rfl
  | cons hname _ ih =>
    unfold renamedItems at ih ⊢
    rw [List.zipWith_cons_cons, List.map_cons, List.map_cons, render_renamed hname, ih]

/-- A field under its own name. -/
def fieldItem (field : Ident) : SelectItem := .expr (.field field) none

theorem render_fieldItems (d : Dialect) (fields : List Ident) :
    (fields.map fieldItem).map (SelectItem.render d) = fields.map Ident.text := by
  rw [List.map_map]
  refine List.map_congr_left fun field _ => ?_
  rw [Function.comp_apply, fieldItem, SelectItem.render, Expr.field, Expr.render]

/-! ## 2. Where the fields stand -/

/-- What a table projects beside the declared fields: digests before them, the
columns that every table of the kind has behind them, and for the business key
the names that it is renamed to. -/
structure Projection where
  distinct : Bool
  digests : List SelectItem
  names : List Ident
  others : List SelectItem

/-- The selection of the declared fields from the source of the entity. -/
def Projection.select (p : Projection) (spec : EntitySpec) : Select where
  distinct := p.distinct
  items := p.digests ++ (renamedItems spec.businessKey p.names ++ spec.descriptive.map fieldItem) ++
    p.others
  source := .table spec.source
  filter := none
  firstPer := none

/-- The artifact projects the fields, with as many digests and other columns as
the kind has. -/
structure ProjectedAs (s : Settings) (spec : EntitySpec) (a : Artifact) (p : Projection) :
    Prop where
  body_eq : a.body = (Query.select (p.select spec)).toSql s.dialect
  suffixed : Suffixed "bk" spec.businessKey p.names
  digests_length :
    p.digests.length = 1 + if spec.kind = .link then spec.businessKey.length else 0
  others_length : p.others.length = if spec.kind = .satellite then 3 else 2

section
variable {s : Settings} {spec other : EntitySpec} {a b : Artifact} {p q : Projection}

/-- One body is written for one list of keys, one of fields and one table. -/
theorem ProjectedAs.inj (h : ProjectedAs s spec a p) (h' : ProjectedAs s other b q)
    (hkind : spec.kind = other.kind) (hbody : a.body = b.body) :
    spec.businessKey = other.businessKey ∧ spec.descriptive = other.descriptive ∧
      spec.source = other.source := by
  rw [h.body_eq, h'.body_eq] at hbody
  obtain ⟨hitems, hsource⟩ := tableSelect_inj hbody
  simp only [List.map_append, render_renamedItems h.suffixed, render_renamedItems h'.suffixed,
    render_fieldItems] at hitems
  have hothers : p.others.length = q.others.length := by
    rw [h.others_length, h'.others_length, hkind]
  obtain ⟨hfront, -⟩ := List.append_inj' hitems (by rw [List.length_map, List.length_map, hothers])
  -- A link digests each key once more, and has no other fields by which to miscount its keys.
  have hdigests : p.digests.length = q.digests.length := by
    have hlength := congrArg List.length hfront
    simp only [List.length_append, List.length_map, h.digests_length, h'.digests_length]
      at hlength
    rw [h.digests_length, h'.digests_length]
    by_cases hlink : spec.kind = .link
    · have hnone := descriptive_eq_nil (congrArg EntityKind.describes hlink)
      have hnone' := descriptive_eq_nil (congrArg EntityKind.describes (hkind.symm.trans hlink))
      rw [← hkind, if_pos hlink, if_pos hlink, hnone, hnone'] at hlength
      rw [← hkind, if_pos hlink, if_pos hlink]
      simp only [List.length_nil] at hlength
      omega
    · rw [← hkind, if_neg hlink, if_neg hlink]
  obtain ⟨-, hfields⟩ := List.append_inj hfront (by rw [List.length_map, List.length_map, hdigests])
  obtain ⟨hkeys, hdescriptive⟩ := fieldTexts_inj hfields
  exact ⟨hkeys, hdescriptive, hsource⟩

variable {artifacts : List Artifact} {ls : List Layout}

/-- The first artifact of every entity projects its fields. -/
theorem Generated.projectedAs (h : Generated s spec ls artifacts) :
    ∃ a rest p, artifacts = a :: rest ∧ ProjectedAs s spec a p := by
  cases h with
  | @hub n a hkind hnames hbuilt _ =>
    have hnone := descriptive_eq_nil (congrArg EntityKind.describes hkind)
    have hsuffixed := suffixed_businessKeyNames (HubNames.of_eq_ok hnames).2
    refine ⟨a, [], ⟨true, [.aliased (s.digestOf none spec.businessKey) n.hashKey],
      n.businessKeys, s.loadItems spec⟩, rfl, ?_, hsuffixed, ?_, ?_⟩
    · rw [Projection.select, hnone, List.map_nil, List.append_nil]
      exact hbuilt.body_eq
    · simp [hkind]
    · simp [hkind, Settings.loadItems]
  | @link n a hkind hnames hbuilt _ =>
    obtain ⟨-, hhub, hkeys⟩ := LinkNames.of_eq_ok hnames
    have hlength := (suffixed_hubKeyNames hhub).length_eq
    have hnone := descriptive_eq_nil (congrArg EntityKind.describes hkind)
    refine ⟨a, [], ⟨true, .aliased (s.digestOf none spec.businessKey) n.hashKey ::
        hubKeyItems s spec.businessKey n.hubKeys, n.businessKeys, s.loadItems spec⟩,
      rfl, ?_, suffixed_businessKeyNames hkeys, ?_, ?_⟩
    · rw [Projection.select, hnone, List.map_nil, List.append_nil]
      exact hbuilt.body_eq
    · simp [hkind, hubKeyItems, ← hlength, Nat.add_comm]
    · simp [hkind, Settings.loadItems]
  | @satellite n base _ merges hkind hnames _ hbase _ =>
    refine ⟨base, merges, ⟨false, [.aliased (s.digestOf none spec.businessKey) n.hashKey],
      n.businessKeys,
      .aliased (s.digestOf none spec.descriptive) s.columns.hashDiff :: s.loadItems spec⟩,
      rfl, ?_, businessKeys_text hnames, ?_, ?_⟩
    · exact (builtBy_base hbase).body_eq
    · simp [hkind]
    · simp [hkind, Settings.loadItems]

/-! ## 3. Names -/

theorem artifactName_inj {role : ArtifactRole} {name : Ident}
    (h : spec.artifactName role = .ok name) (h' : other.artifactName role = .ok name) :
    spec.name = other.name := by
  unfold EntitySpec.artifactName at h h'
  cases hsuffix : role.suffix? with
  | none =>
    rw [hsuffix] at h h'
    exact (Except.ok.inj h).trans (Except.ok.inj h').symm
  | some suffix =>
    rw [hsuffix] at h h'
    have htext := (parse_eq_ok h).symm.trans (parse_eq_ok h')
    rw [String.append_assoc, String.append_assoc] at htext
    exact Ident.ext_text ((String.append_left_inj ("_" ++ suffix)).mp htext)

/-- The first artifacts of two entities of one kind have the same role. -/
theorem name_inj {roles : List ArtifactRole} {rest rest' : List Artifact}
    (h : List.Forall₂ (ArtifactOf s spec) roles (a :: rest))
    (h' : List.Forall₂ (ArtifactOf s other) roles (b :: rest'))
    (hname : a.targetName = b.targetName) : spec.name = other.name := by
  obtain _ | ⟨hfirst, -⟩ := h
  obtain _ | ⟨hfirst', -⟩ := h'
  exact artifactName_inj hfirst.name_eq (hname ▸ hfirst'.name_eq)

theorem spec_ext (hname : spec.name = other.name) (hkind : spec.kind = other.kind)
    (hkeys : spec.businessKey = other.businessKey)
    (hdescriptive : spec.descriptive = other.descriptive) (hsource : spec.source = other.source) :
    spec = other := by
  cases spec
  cases other
  cases hname
  cases hkind
  cases hkeys
  cases hdescriptive
  cases hsource
  rfl

end

/-! ## 4. Recovery -/

/-- Of two accepted entities of one kind, the same statements are generated only
if they have the same fields in the same order and the same source, and the same
statements under the same names only if they are one entity. -/
theorem artifacts_determine_spec (s : Settings) (spec other : EntitySpec) (as bs : List Artifact)
    (hkind : spec.kind = other.kind) (hspec : generate s spec = .ok as)
    (hother : generate s other = .ok bs) :
    (as.map Artifact.body = bs.map Artifact.body →
      spec.businessKey = other.businessKey ∧ spec.descriptive = other.descriptive ∧
        spec.source = other.source) ∧
    (as.map Artifact.targetName = bs.map Artifact.targetName ∧
      as.map Artifact.body = bs.map Artifact.body ↔ spec = other) := by
  obtain ⟨ls, -, hgenerated⟩ := generated_of_generate hspec
  obtain ⟨ms, -, hgenerated'⟩ := generated_of_generate hother
  obtain ⟨a, rest, _, hfirst, ha⟩ := hgenerated.projectedAs
  obtain ⟨b, rest', _, hfirst', hb⟩ := hgenerated'.projectedAs
  have hfields : as.map Artifact.body = bs.map Artifact.body →
      spec.businessKey = other.businessKey ∧ spec.descriptive = other.descriptive ∧
        spec.source = other.source := by
    intro hbodies
    rw [hfirst, hfirst'] at hbodies
    exact ha.inj hb hkind (List.cons.inj hbodies).1
  refine ⟨hfields, ?_, ?_⟩
  · rintro ⟨hnames, hbodies⟩
    obtain ⟨hkeys, hdescriptive, hsource⟩ := hfields hbodies
    have hroles := artifacts_of_generate hspec
    have hroles' := artifacts_of_generate hother
    rw [hfirst] at hroles hnames
    rw [hfirst'] at hroles' hnames
    rw [← hkind] at hroles'
    exact spec_ext (name_inj hroles hroles' (List.cons.inj hnames).1) hkind hkeys hdescriptive
      hsource
  · rintro rfl
    rw [hspec] at hother
    rw [Except.ok.inj hother]
    exact ⟨rfl, rfl⟩

/-- The same link with its keys the other way round. -/
def purchaseLinkTurned : EntitySpec :=
  { purchaseLink with businessKey := purchaseLink.businessKey.reverse, distinct := by decide }

/-- The keys of a link the other way round make another statement under the same
name. -/
theorem artifacts_determine_spec_turned : ∃ as bs,
    generate .standard purchaseLink = .ok as ∧ generate .standard purchaseLinkTurned = .ok bs ∧
      purchaseLink.businessKey.Perm purchaseLinkTurned.businessKey ∧
      as.map Artifact.targetName = bs.map Artifact.targetName ∧
      as.map Artifact.body ≠ bs.map Artifact.body := by
  obtain ⟨as, has⟩ : ∃ as, generate .standard purchaseLink = .ok as :=
    exists_of_isOk (by decide +kernel)
  obtain ⟨bs, hbs⟩ : ∃ bs, generate .standard purchaseLinkTurned = .ok bs :=
    exists_of_isOk (by decide +kernel)
  have hfields :=
    (artifacts_determine_spec .standard purchaseLink purchaseLinkTurned as bs rfl has hbs).1
  refine ⟨as, bs, has, hbs, .swap _ _ _, ?_, fun hbodies => ?_⟩
  · rw [← artifactNames_of_generate has, ← artifactNames_of_generate hbs]
    rfl
  · exact absurd (hfields hbodies).1 (by decide)

end DataVault.Generate
