/-
DataVault.Proofs.Generate.KeyItems — the kinds of entities agree on keys.

A link is joined to its hubs, and a satellite to its hub, by the hash keys that
their statements project. The generators derive them on their own: the digest
from the fields, the name of a hash key from the fields together, and that of a
hub key from one field. `hash_keys_agree` says that they come to the same items.
What is projected as the hash key depends on the business key alone, not on the
kind, and a link projects for each of its fields the hash key of the hub that is
keyed by this field.
-/
import DataVault.Proofs.Generate.Acceptance
import DataVault.Proofs.Generate.ColumnNames

namespace DataVault.Generate

open DataVault.Artifact DataVault.Digest DataVault.Entity DataVault.Lists DataVault.Results
  DataVault.Sql

/-! ## 1. Projected items -/

/-- The selection that reads the source of an entity: a table is made by it, and
a merge stages its rows. -/
def Statement.selection? : Statement → Option Select
  | .table s => some s
  | .merge m =>
      match m.source with
      | .withQueries ((_, .select s) :: _) _ => some s
      | _ => none

/-- The items that are projected from the source. -/
def Statement.items (st : Statement) : List SelectItem :=
  (st.selection?.map Select.items).getD []

/-- The hash key is projected first. -/
def Statement.hashKeyItem? (st : Statement) : Option SelectItem := st.items.head?

/-! ## 2. Texts of items -/

section
variable {s : Settings} {d : Dialect}

/-- A sign that no name holds, so an alias is always written behind such a text. -/
theorem render_aliased {e : Expr} {name : Ident} {c : Char} (hc : c ∈ (e.render d).toList)
    (hsign : Ident.isPart c = false) :
    (SelectItem.aliased e name).render d = e.render d ++ " AS " ++ name.text := by
  refine if_neg fun htext => notMem_of_isPart_eq_false (i := name) hsign ?_
  rwa [← htext]

theorem mem_digest (qualifier : Option Ident) (fields : List Ident) :
    '(' ∈ ((s.digestOf qualifier fields).render d).toList := by
  have hcall : ∀ text, '(' ∈ (d.hexDigest text).toList := by
    intro text
    unfold Dialect.hexDigest
    cases d <;> simp only [String.toList_append, List.mem_append] <;> exact .inl (.inl (by decide))
  unfold Settings.digestOf KeyEncoding.digestExpr
  rw [Expr.render]
  exact hcall _

theorem render_digestItem (fields : List Ident) (name : Ident) :
    (SelectItem.aliased (s.digestOf none fields) name).render d =
      (s.digestOf none fields).render d ++ " AS " ++ name.text :=
  render_aliased (mem_digest none fields) (by decide)

end

/-! ## 3. Hash keys -/

section
variable {s : Settings} {spec other : EntitySpec} {artifacts : List Artifact} {ls : List Layout}

/-- The statements of an entity project the item as its hash key, a digest of the
business key under the name that is derived from it. -/
structure ProjectsKey (s : Settings) (spec : EntitySpec) (ls : List Layout) (item : SelectItem) :
    Prop where
  first : ∀ l ∈ ls, l.statement.hashKeyItem? = some item
  text : item.render s.dialect =
    (s.digestOf none spec.businessKey).render s.dialect ++ " AS " ++ hashKeyText spec

theorem Generated.projectsKey (h : Generated s spec ls artifacts) {name : Ident}
    (hname : spec.hashKeyName = .ok name) :
    ProjectsKey s spec ls (.aliased (s.digestOf none spec.businessKey) name) := by
  refine ⟨?_, by rw [render_digestItem, text_of_hashKeyName hname]⟩
  have hsame : ∀ {own : Ident}, spec.hashKeyName = .ok own → own = name :=
    fun hown => Except.ok.inj (hown.symm.trans hname)
  cases h with
  | hub _ hnames _ _ =>
    obtain rfl := hsame (HubNames.of_eq_ok hnames).1
    exact List.forall_mem_singleton.mpr rfl
  | link _ hnames _ _ =>
    obtain rfl := hsame (LinkNames.of_eq_ok hnames).1
    exact List.forall_mem_singleton.mpr rfl
  | satellite _ hnames _ _ hmerges =>
    obtain rfl := hsame (SatelliteNames.of_eq_ok hnames).1
    refine List.forall_mem_cons.mpr ⟨rfl, ?_⟩
    rcases hmerges with ⟨-, rfl, -⟩ | ⟨-, -, -, rfl, -⟩
    · nofun
    · exact List.forall_mem_singleton.mpr rfl

theorem Generated.exists_hashKeyName (h : Generated s spec ls artifacts) :
    ∃ name, spec.hashKeyName = .ok name := by
  cases h with
  | hub _ hnames _ _ => exact ⟨_, (HubNames.of_eq_ok hnames).1⟩
  | link _ hnames _ _ => exact ⟨_, (LinkNames.of_eq_ok hnames).1⟩
  | satellite _ hnames _ _ _ => exact ⟨_, (SatelliteNames.of_eq_ok hnames).1⟩

/-- The name of the hash key comes from the business key alone. -/
theorem hashKeyName_congr (h : spec.businessKey = other.businessKey) :
    spec.hashKeyName = other.hashKeyName := by
  unfold EntitySpec.hashKeyName EntitySpec.keyLabel
  rw [h]

/-! ## 4. Hub keys -/

/-- Each field of a list has its item in the combination with related names. -/
theorem exists_mem_zipWith (item : Ident → Ident → SelectItem) {R : Ident → Ident → Prop}
    {fields names : List Ident} (h : List.Forall₂ R fields names) {field : Ident}
    (hfield : field ∈ fields) :
    ∃ name, R field name ∧ item field name ∈ List.zipWith item fields names := by
  induction h with
  | nil => cases hfield
  | cons hname _ ih =>
    rcases List.mem_cons.mp hfield with rfl | hrest
    · exact ⟨_, hname, List.mem_cons_self⟩
    · obtain ⟨name, hname, hmem⟩ := ih hrest
      exact ⟨name, hname, List.mem_cons_of_mem _ hmem⟩

/-- A link projects the hash key of the hub of each of its fields. -/
theorem Generated.hubKey_mem (h : Generated s spec ls artifacts) (hkind : spec.kind = .link)
    {field : Ident} (hfield : field ∈ spec.businessKey) (hother : other.businessKey = [field])
    {name : Ident} (hname : other.hashKeyName = .ok name) :
    ∀ l ∈ ls, .aliased (s.digestOf none other.businessKey) name ∈ l.statement.items := by
  cases h with
  | hub hhub _ _ _ => cases hhub.symm.trans hkind
  | satellite hsatellite _ _ _ _ => cases hsatellite.symm.trans hkind
  | @link n _ _ hnames _ _ =>
    refine List.forall_mem_singleton.mpr ?_
    have hhubs := suffixed_hubKeyNames (LinkNames.of_eq_ok hnames).2.1
    obtain ⟨hubKey, htext, hmem⟩ :=
      exists_mem_zipWith (fun field name => .aliased (s.digestOf none [field]) name) hhubs hfield
    have hsame : name = hubKey := by
      refine Ident.ext_text ?_
      rw [hashKeyName_text hname, hother, textsJoined_singleton, htext]
    rw [hsame, hother]
    exact List.mem_cons_of_mem _
      (List.mem_append_left _ (List.mem_append_left _ hmem))

end

/-! ## 5. Agreement -/

/-- Two entities with one business key project the same item as their hash keys.
A link projects for each of its fields the item that a hub keyed by this field
projects as its hash key. -/
theorem hash_keys_agree (s : Settings) (spec other : EntitySpec) (as bs : List Artifact)
    (hspec : generate s spec = .ok as) (hother : generate s other = .ok bs) :
    ∃ ls ms, layouts s spec = .ok ls ∧ List.Forall₂ (BuiltBy s) ls as ∧
      layouts s other = .ok ms ∧ List.Forall₂ (BuiltBy s) ms bs ∧
      (spec.businessKey = other.businessKey →
        ∃ item, ProjectsKey s spec ls item ∧ ProjectsKey s other ms item) ∧
      (spec.kind = .link → ∀ field ∈ spec.businessKey, other.businessKey = [field] →
        ∃ item, ProjectsKey s other ms item ∧ ∀ l ∈ ls, item ∈ l.statement.items) := by
  obtain ⟨ls, hls, hgenerated⟩ := generated_of_generate hspec
  obtain ⟨ms, hms, hgenerated'⟩ := generated_of_generate hother
  obtain ⟨name, hname⟩ := hgenerated'.exists_hashKeyName
  refine ⟨ls, ms, hls, hgenerated.builtBy, hms, hgenerated'.builtBy, fun hkey => ?_,
    fun hkind field hfield hkey => ?_⟩
  · refine ⟨_, hgenerated.projectsKey ((hashKeyName_congr hkey).trans hname), ?_⟩
    rw [hkey]
    exact hgenerated'.projectsKey hname
  · exact ⟨_, hgenerated'.projectsKey hname, hgenerated.hubKey_mem hkind hfield hkey hname⟩

/-- The key of the customers that the satellite describes. -/
def customerId : Ident := sampleSpec.businessKey.head (by decide)

/-- The hub of the customers. -/
def customerHub : EntitySpec where
  name := ⟨"customer_hub", by decide, by decide⟩
  kind := .hub
  businessKey := [customerId]
  descriptive := []
  source := sampleSpec.source
  enoughKeys := by decide
  describes_eq := Eq.refl false
  distinct := by decide

/-- The names of its columns. -/
def customerNames : HubNames where
  hashKey := sampleNames.hashKey
  businessKeys := sampleNames.businessKeys

theorem customerNames_of : HubNames.of customerHub = .ok customerNames := by
  have hhash : customerHub.derived customerHub.hashKeyName = .ok customerNames.hashKey := by
    decide +kernel
  have hkeys : customerHub.derived customerHub.businessKeyNames =
      .ok customerNames.businessKeys := by
    decide +kernel
  unfold HubNames.of
  rw [hhash, hkeys]
  rfl

theorem layouts_customerHub (s : Settings) :
    layouts s customerHub = .ok [hubLayout s customerHub customerNames] := by
  change (HubNames.of customerHub >>= _) = _
  rw [customerNames_of]
  rfl

/-- The link of purchases to their customers. -/
def purchaseLink : EntitySpec where
  name := ⟨"customer_purchase", by decide, by decide⟩
  kind := .link
  businessKey := [customerId, ⟨"purchase_id", by decide, by decide⟩]
  descriptive := []
  source := .bare ⟨"purchases", by decide, by decide⟩
  enoughKeys := by decide
  describes_eq := Eq.refl false
  distinct := by decide

/-- The hub of the customers, a satellite of theirs and a link to them have one
item in common. -/
theorem hash_keys_agree_customers : ∃ hub satellite link item,
    layouts .standard customerHub = .ok hub ∧ layouts .standard sampleSpec = .ok satellite ∧
      layouts .standard purchaseLink = .ok link ∧
      (∀ l ∈ hub ++ satellite, l.statement.hashKeyItem? = some item) ∧
      (∀ l ∈ link, item ∈ l.statement.items) ∧
      item.render .bigQuery =
        "TO_HEX(SHA256(COALESCE(CAST(customer_id AS STRING), ''))) AS customer_id_hk" := by
  have haccepted : ∀ spec, (generate .standard spec).isOk = true →
      ∃ artifacts, generate .standard spec = .ok artifacts := fun _ => exists_of_isOk
  obtain ⟨hubs, hhubs⟩ := haccepted customerHub (by decide +kernel)
  obtain ⟨satellites, hsatellites⟩ := haccepted sampleSpec (by decide +kernel)
  obtain ⟨links, hlinks⟩ := haccepted purchaseLink (by decide +kernel)
  obtain ⟨satellite, hub, hsatellite, -, hhub, -, hsame, -⟩ :=
    hash_keys_agree .standard sampleSpec customerHub satellites hubs hsatellites hhubs
  obtain ⟨link, hub', hlink, -, hhub', -, -, hjoined⟩ :=
    hash_keys_agree .standard purchaseLink customerHub links hubs hlinks hhubs
  obtain rfl := Except.ok.inj ((layouts_customerHub _).symm.trans hhub)
  obtain rfl := Except.ok.inj ((layouts_customerHub _).symm.trans hhub')
  obtain ⟨item, hfirst, hsecond⟩ := hsame rfl
  obtain ⟨item', hthird, hmem⟩ := hjoined rfl _ List.mem_cons_self rfl
  have hitem : item' = item := Option.some.inj
    ((hthird.first _ List.mem_cons_self).symm.trans (hsecond.first _ List.mem_cons_self))
  refine ⟨_, satellite, link, item, hhub, hsatellite, hlink,
    List.forall_mem_append.mpr ⟨hsecond.first, hfirst.first⟩, hitem ▸ hmem,
    hsecond.text.trans ?_⟩
  decide +kernel

end DataVault.Generate
