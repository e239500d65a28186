/-
DataVault.Proofs.Generate.HubRows — the rows of a hub.

The rows of a hub are distinct, and each of them holds the business key beside
its hash key. The hash key comes from the text of the key, in which a missing
value counts as the empty text, but the business key columns are projected as
they are. So there is one row for each key that the source holds
(`selectRows_hubSelect`), and where the encoding is unambiguous and no two texts
have one digest, two rows have one hash key exactly if their keys differ in
nothing but missing and empty values (`hub_hash_keys`). A source that holds both
gives two rows with one hash key (`hub_hash_key_repeated`).
-/
import DataVault.Proofs.Digest.Decoding
import DataVault.Proofs.Digest.Separator
import DataVault.Proofs.Generate.KeyItems
import DataVault.Proofs.Generate.SatelliteSource
import DataVault.Proofs.Warehouse.Selection
import Mathlib.Data.List.Nodup

namespace DataVault.Generate

open DataVault.Artifact DataVault.Digest DataVault.Digest.KeyEncoding DataVault.Entity
  DataVault.Lists DataVault.Results DataVault.Sql DataVault.Warehouse

/-! ## 1. Rows -/

/-- The digest of the text of a key. -/
def hashKeyOf (encoding : KeyEncoding) (key : List (Option String)) : String :=
  Sha256.hexDigest (encoding.joinedText (key.map textOf))

section
variable (s : Settings) (spec : EntitySpec) (n : HubNames) (stamp : Datum)

/-- The columns of the row that a key has in a hub. -/
def hubColumns (key : List (Option String)) : List (Ident × Datum) :=
  (n.hashKey, .text (hashKeyOf s.keyEncoding key)) :: n.businessKeys.zip (key.map .ofText?) ++
    [(s.columns.loadTime, stamp),
     (s.columns.recordSource, .text (s.recordSource.getD spec.source.dotted))]

/-- The row that a key has in a hub. -/
def hubRow (key : List (Option String)) : Row := Row.named (hubColumns s spec n stamp key)

end

/-- The column that stands first in a row of a hub. -/
def hashKeyCell (row : Row) : Option Cell := row.head?

/-- The keys that are in the source of an entity, row by row. All of them have a
text, and no two of the texts have one digest. -/
structure KeyedSource (s : Settings) (spec : EntitySpec) (db : Database)
    (keys : List (List (Option String))) : Prop where
  rows : ∃ rows, db.contents spec.source = some rows ∧
    List.Forall₂ (fun row key => HasTexts row spec.businessKey key) rows keys
  encoded : ∀ key ∈ keys, ∃ text, s.keyEncoding.encode key = .ok text
  noCollision : ∀ a ∈ keys, ∀ b ∈ keys, ∀ text other,
    s.keyEncoding.encode a = .ok text → s.keyEncoding.encode b = .ok other →
      Sha256.hexDigest text = Sha256.hexDigest other → text = other

section
variable {s : Settings} {spec : EntitySpec} {n : HubNames} {db : Database}
  {keys : List (List (Option String))}

/-- A source row is projected to the row of its key. -/
theorem yields_hubSelect {row : Row} {key : List (Option String)} {text : String}
    (hkey : HasTexts row spec.businessKey key) (htext : s.keyEncoding.encode key = .ok text)
    (hlength : n.businessKeys.length = spec.businessKey.length) (relation : Ident) :
    Yields db [(relation, row)] (hubSelect s spec n).items
      (hubColumns s spec n (s.stamp db.toSession db.now) key) := by
  have hdigest : s.keyEncoding.digest key = .ok (hashKeyOf s.keyEncoding key) :=
    digest_eq_ok_iff.mpr ⟨text, htext, congrArg _ (encode_eq_ok_iff.mp htext).2.symm⟩
  unfold hubSelect hubColumns
  refine List.rel_append (.cons ?_ ?_) (.cons ?_ (.cons ?_ .nil))
  · exact itemCells_aliased (eval_digestOf (businessKey_ne_nil spec) hkey hdigest relation)
  · exact yields_renamed hkey hlength
  · exact itemCells_aliased (eval_loadExpr s db.toSession _)
  · exact itemCells_aliased rfl

theorem ofText?_inj : Function.Injective Datum.ofText? := by
  rintro (_ | a) (_ | b) h <;> cases h <;> rfl

/-- The business key columns of a row give its key back. -/
theorem hubRow_inj {stamp : Datum} {a b : List (Option String)}
    (ha : a.length = n.businessKeys.length) (hb : b.length = n.businessKeys.length)
    (h : hubRow s spec n stamp a = hubRow s spec n stamp b) : a = b := by
  have hcells : Function.Injective fun c : Ident × Datum => (some c.1, c.2) := by
    rintro ⟨name, datum⟩ ⟨name', datum'⟩ hcell
    cases hcell
    rfl
  have hcolumns := List.map_injective_iff.mpr hcells h
  have hkeys := List.append_cancel_right (List.cons.inj hcolumns).2
  have hdata := congrArg (List.map Prod.snd) hkeys
  rw [List.map_snd_zip (by rw [List.length_map, ha]),
    List.map_snd_zip (by rw [List.length_map, hb])] at hdata
  exact List.map_injective_iff.mpr ofText?_inj hdata

namespace KeyedSource

variable (h : KeyedSource s spec db keys)
include h

theorem length_eq : ∀ key ∈ keys, key.length = spec.businessKey.length := by
  intro key hkey
  obtain ⟨rows, -, hrows⟩ := h.rows
  obtain ⟨row, -, htexts⟩ := exists_of_mem_right hrows hkey
  exact htexts.length_eq.symm

/-- A hub has one row for each key of its source. -/
theorem selectRows_hubSelect (hlength : n.businessKeys.length = spec.businessKey.length)
    (named : Named) :
    selectRows db named (hubSelect s spec n) =
      some (keys.eraseDups.map (hubRow s spec n (s.stamp db.toSession db.now))) := by
  obtain ⟨rows, hsource, hrows⟩ := h.rows
  have hprojected : (rows.map fun row => [(spec.source.name, row)]).mapM
      (project db (hubSelect s spec n).items) =
        some (keys.map (hubRow s spec n (s.stamp db.toSession db.now))) := by
    rw [mapM_eq_some_iff, List.forall₂_map_left_iff, List.forall₂_map_right_iff]
    refine ((List.forall₂_and_left keys rows).mpr ⟨h.encoded, hrows.flip⟩).flip.imp ?_
    rintro row key ⟨⟨text, htext⟩, hkey⟩
    exact project_of_yields (yields_hubSelect hkey htext hlength spec.source.name)
  have hall : selectRows db named { hubSelect s spec n with distinct := false } =
      some (keys.map (hubRow s spec n (s.stamp db.toSession db.now))) :=
    selectRows_eq (sourceScopes_single hsource) rfl rfl hprojected rfl
  have hwidth : ∀ key ∈ keys, key.length = n.businessKeys.length :=
    fun key hkey => (h.length_eq key hkey).trans hlength.symm
  rw [← eraseDups_map fun a ha b hb => hubRow_inj (hwidth a ha) (hwidth b hb)]
  exact (selectRows_distinct (hubSelect s spec n) true).trans
    (congrArg (Option.map List.eraseDups) hall)

/-! ## 2. Hash keys -/

/-- Keys have one hash key exactly if they are the same but for missing and empty
values. -/
theorem hashKeyOf_eq_iff (hunambiguous : s.keyEncoding.Unambiguous) {a b : List (Option String)}
    (ha : a ∈ keys) (hb : b ∈ keys) :
    hashKeyOf s.keyEncoding a = hashKeyOf s.keyEncoding b ↔ a.map textOf = b.map textOf := by
  constructor
  · intro hhash
    obtain ⟨text, htext⟩ := h.encoded a ha
    obtain ⟨other, hother⟩ := h.encoded b hb
    unfold hashKeyOf at hhash
    rw [(encode_eq_ok_iff.mp htext).2, (encode_eq_ok_iff.mp hother).2] at hhash
    obtain rfl := h.noCollision a ha b hb text other htext hother hhash
    exact hunambiguous a b ((h.length_eq a ha).trans (h.length_eq b hb).symm) text htext hother
  · intro htexts
    unfold hashKeyOf
    rw [htexts]

theorem nodup_hashKeys_iff (hunambiguous : s.keyEncoding.Unambiguous) (stamp : Datum) :
    ((keys.eraseDups.map (hubRow s spec n stamp)).map hashKeyCell).Nodup ↔
      ∀ a ∈ keys, ∀ b ∈ keys, a.map textOf = b.map textOf → a = b := by
  have hcell : ∀ a b,
      hashKeyCell (hubRow s spec n stamp a) = hashKeyCell (hubRow s spec n stamp b) ↔
        hashKeyOf s.keyEncoding a = hashKeyOf s.keyEncoding b := by
    intro a b
    simp [hashKeyCell, hubRow, hubColumns, Row.named]
  rw [List.map_map, List.nodup_map_iff_inj_on (nodup_eraseDups keys)]
  simp only [List.mem_eraseDups, Function.comp_apply, hcell]
  exact forall₂_congr fun a ha => forall₂_congr fun b hb => by
    rw [h.hashKeyOf_eq_iff hunambiguous ha hb]

end KeyedSource

end

/-- Counts of characters and separators of one character leave no ambiguity. -/
theorem unambiguous_of_single {encoding : KeyEncoding}
    (h : encoding = .lengthPrefixed ∨ ∃ c : Char, encoding = .delimited (String.singleton c)) :
    encoding.Unambiguous := by
  rcases h with rfl | ⟨c, rfl⟩
  · exact lengthPrefixed_unambiguous
  · have hchars : (String.singleton c).toList = [c] := String.toList_singleton c
    refine delimited_unambiguous (fun hempty => ?_) (hchars ▸ unbordered_singleton c)
    rw [hempty] at hchars
    cases hchars

/-! ## 3. Hubs -/

/-- A hub has one row for each key that its source holds, a missing value being
another one than the empty text. Two rows have one hash key exactly if their keys
are the same once missing values are read as empty, so the hash keys differ
exactly if no two keys of the source differ in that alone. -/
theorem hub_hash_keys (s : Settings) (spec : EntitySpec) (artifacts : List Artifact)
    (db : Database) (keys : List (List (Option String))) (hkind : spec.kind = .hub)
    (hgenerated : generate s spec = .ok artifacts)
    (hencoding : s.keyEncoding = .lengthPrefixed ∨
      ∃ c : Char, s.keyEncoding = .delimited (String.singleton c))
    (hsource : KeyedSource s spec db keys) :
    ∃ n, HubNames.of spec = .ok n ∧
      artifacts.map Artifact.body = [(Query.select (hubSelect s spec n)).toSql s.dialect] ∧
      ∃ rows, selectRows db [] (hubSelect s spec n) = some rows ∧
        rows = keys.eraseDups.map (hubRow s spec n (s.stamp db.toSession db.now)) ∧
        (∀ a ∈ keys, ∀ b ∈ keys, hashKeyOf s.keyEncoding a = hashKeyOf s.keyEncoding b ↔
          a.map textOf = b.map textOf) ∧
        ((rows.map hashKeyCell).Nodup ↔
          ∀ a ∈ keys, ∀ b ∈ keys, a.map textOf = b.map textOf → a = b) := by
  have hunambiguous := unambiguous_of_single hencoding
  obtain ⟨ls, -, h⟩ := generated_of_generate hgenerated
  cases h with
  | link hlink _ _ _ => cases hlink.symm.trans hkind
  | satellite hsatellite _ _ _ _ => cases hsatellite.symm.trans hkind
  | @hub n a _ hnames hbuilt _ =>
    have hlength := (suffixed_businessKeyNames (HubNames.of_eq_ok hnames).2).length_eq.symm
    refine ⟨n, hnames, congrArg (fun body => [body]) hbuilt.body_eq, _,
      hsource.selectRows_hubSelect hlength [], rfl, ?_, ?_⟩
    · exact fun a ha b hb => hsource.hashKeyOf_eq_iff hunambiguous ha hb
    · exact hsource.nodup_hashKeys_iff hunambiguous _

/-- A row of the customers' source. -/
def customerRow (value : Option String) : Row := Row.named [(customerId, .ofText? value)]

theorem hasTexts_customerRow (value : Option String) :
    HasTexts (customerRow value) customerHub.businessKey [value] := by
  have hdistinct : DistinctFields ([(customerId, Datum.ofText? value)].map Prod.fst) :=
    List.pairwise_singleton _ _
  have hread : (customerRow value).read? customerId = some (.ofText? value) :=
    Row.read?_named (c := (customerId, Datum.ofText? value)) hdistinct List.mem_cons_self
  exact List.forall₂_cons.mpr ⟨hread, .nil⟩

/-- A warehouse that holds rows of customers with these values. -/
def customerDatabase (values : List (Option String)) : Database where
  dialect := .bigQuery
  now := 0
  dayStart := id
  contents table := if table = customerHub.source then some (values.map customerRow) else none

theorem keyedSource_customers (values : List (Option String))
    (hencoded : ∀ value ∈ values,
      Settings.standard.keyEncoding.encode [value] = .ok (textOf value))
    (hdigests : ∀ a ∈ values, ∀ b ∈ values,
      Sha256.hexDigest (textOf a) = Sha256.hexDigest (textOf b) → textOf a = textOf b) :
    KeyedSource .standard customerHub (customerDatabase values)
      (values.map fun value => [value]) := by
  have hrows : (customerDatabase values).contents customerHub.source =
      some (values.map customerRow) := by
    simp only [customerDatabase, if_true]
  refine ⟨⟨_, hrows, ?_⟩,
    List.forall_mem_map.mpr fun value hvalue => ⟨_, hencoded value hvalue⟩,
    List.forall_mem_map.mpr fun a ha => List.forall_mem_map.mpr fun b hb => ?_⟩
  · rw [List.forall₂_map_left_iff, List.forall₂_map_right_iff, List.forall₂_same]
    exact fun value _ => hasTexts_customerRow value
  · intro text other htext hother hsame
    obtain rfl := Except.ok.inj ((hencoded a ha).symm.trans htext)
    obtain rfl := Except.ok.inj ((hencoded b hb).symm.trans hother)
    exact hdigests a ha b hb hsame

/-- Two customers, of whom one has two rows in the source, have two rows in the hub. -/
theorem hub_hash_keys_customers : ∃ rows,
    selectRows (customerDatabase [some "a", some "b", some "a"]) []
        (hubSelect .standard customerHub customerNames) = some rows ∧
      rows.length = 2 ∧ (rows.map hashKeyCell).Nodup := by
  have hsource := keyedSource_customers [some "a", some "b", some "a"]
    (by decide +kernel) (by decide +kernel)
  obtain ⟨artifacts, hgenerated⟩ : ∃ artifacts, generate .standard customerHub = .ok artifacts :=
    exists_of_isOk (by decide +kernel)
  obtain ⟨n, hn, -, rows, hrows, hkeys, -, hnodup⟩ := hub_hash_keys .standard customerHub artifacts
    _ _ rfl hgenerated (.inr ⟨'\x1f', rfl⟩) hsource
  obtain rfl := Except.ok.inj (customerNames_of.symm.trans hn)
  refine ⟨rows, hrows, ?_, hnodup.mpr (by decide +kernel)⟩
  rw [hkeys, List.length_map]
  decide +kernel

/-- A customer without a number and one whose number is empty have two rows with
one hash key, since one and the same text is digested for them. -/
theorem hub_hash_key_repeated :
    (generate .standard customerHub).isOk = true ∧
      Settings.standard.keyEncoding = .delimited (String.singleton '\x1f') ∧
      KeyedSource .standard customerHub (customerDatabase [none, some ""]) [[none], [some ""]] ∧
      ∃ rows, selectRows (customerDatabase [none, some ""]) []
          (hubSelect .standard customerHub customerNames) = some rows ∧
        rows.length = 2 ∧ ¬ (rows.map hashKeyCell).Nodup := by
  have hsource := keyedSource_customers [none, some ""] (by decide +kernel)
    (by decide +kernel)
  have hunambiguous : Settings.standard.keyEncoding.Unambiguous :=
    unambiguous_of_single (.inr ⟨'\x1f', rfl⟩)
  refine ⟨by decide +kernel, rfl, hsource, _, hsource.selectRows_hubSelect rfl [], ?_, ?_⟩
  · rw [List.length_map]
    decide +kernel
  · rw [hsource.nodup_hashKeys_iff hunambiguous]
    decide +kernel

end DataVault.Generate
