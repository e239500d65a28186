/-
DataVault.Proofs.Generate.SatelliteSource — the rows that a satellite's merge
reads.

The source of the merge is a union over the staged snapshot. The staged
rows are those that `stagedOf` keeps, in another order
(`stagedFirsts_perm`): taking the first row by digest of each key and
replacing a row by a later one with a smaller digest drop and keep the same
rows, one more row at a time. Each staged row is there once with its key,
and once more without one if it replaces the current version of its key
(`queryRows_mergeSource`).
-/
import DataVault.Proofs.Generate.SatelliteRows
import DataVault.Proofs.History.Merging

namespace DataVault.Generate

open DataVault.Digest DataVault.Digest.KeyEncoding DataVault.Entity DataVault.History
  DataVault.Lists DataVault.Results DataVault.Sql DataVault.Warehouse

/-! ## 1. Which rows are staged -/

/-- Of each key the first row with the least digest. -/
def stagedFirsts (rows : List Staged) : List Staged :=
  firstOfEach (fun a b => a.hashKey == b.hashKey) (fun a b => a.hashDiff < b.hashDiff) [] rows

/-- The order of digests stages the rows that staging one by one keeps. -/
theorem stagedFirsts_perm (rows : List Staged) : (stagedFirsts rows).Perm (stagedOf rows) := by
  induction rows using List.reverseRecOn with
  | nil => exact .nil
  | append_singleton rows new ih =>
    have hstaged := stagedFrom_stagedOf rows
    have hbeats : (fun old : Staged => !(new.hashKey == old.hashKey) ||
        !decide (new.hashDiff < old.hashDiff)) = fun old => decide ¬ new.Beats old := by
      funext old
      rw [Bool.eq_iff_iff, decide_eq_true_iff]
      simp only [Staged.Beats, Bool.or_eq_true, Bool.not_eq_true', beq_eq_false_iff_ne,
        decide_eq_false_iff_not, not_and_or, ne_eq]
      rw [@eq_comm _ new.hashKey]
    have hleads : (([] : List Staged).all (fun e => !(e.hashKey == new.hashKey) ||
          decide (new.hashDiff < e.hashDiff)) ∧
        rows.all fun a => !(a.hashKey == new.hashKey) || decide (new.hashDiff < a.hashDiff)) ↔
          new.Leads (stagedOf rows) := by
      rw [hstaged.leads_iff]
      simp only [Staged.Leads, List.all_nil, true_and, List.all_eq_true, Bool.or_eq_true,
        Bool.not_eq_true', beq_eq_false_iff_ne, decide_eq_true_iff, imp_iff_not_or, ne_eq]
    unfold stagedFirsts
    rw [firstOfEach_concat, stagedOf_concat, hbeats, if_congr hleads rfl rfl]
    exact ((ih.filter _).append_right _).trans (addStaged_perm hstaged.distinct).symm

/-! ## 2. The staged snapshot -/

section
variable {s : Settings} {spec : EntitySpec} {n : SatelliteNames} {db : Database}

/-- Renamed fields yield the values of the fields. -/
theorem yields_renamed {relation : Ident} {row : Row} : ∀ {fields names : List Ident}
    {values : List (Option String)}, HasTexts row fields values → names.length = fields.length →
    Yields db [(relation, row)] (renamedItems fields names) (names.zip (values.map .ofText?))
  | [], [], [], _, _ => .nil
  | field :: fields, name :: names, value :: values, h, hlength => by
      obtain ⟨hvalue, hvalues⟩ := List.forall₂_cons.mp h
      refine .cons (itemCells_aliased ?_) (yields_renamed hvalues (Nat.succ.inj hlength))
      rw [Expr.field, eval, Scope.read_none]
      exact hvalue

theorem yields_fields {relation : Ident} {row : Row} : ∀ {fields : List Ident}
    {values : List (Option String)}, HasTexts row fields values →
    Yields db [(relation, row)] (fields.map fun field => .expr (.field field) none)
      (fields.zip (values.map .ofText?))
  | [], [], _ => .nil
  | field :: fields, value :: values, h => by
      obtain ⟨hvalue, hvalues⟩ := List.forall₂_cons.mp h
      refine .cons ?_ (yields_fields hvalues)
      rw [itemCells, Expr.field, eval, Scope.read_none, hvalue]
      rfl

/-- A digest of fields is the digest of their values. -/
theorem eval_digestOf {row : Row} {fields : List Ident} {values : List (Option String)}
    {digest : String} (hne : fields ≠ []) (htexts : HasTexts row fields values)
    (hdigest : s.keyEncoding.digest values = .ok digest) (relation : Ident) :
    eval db.toSession (Scope.read [(relation, row)]) (s.digestOf none fields) =
      some (.text digest) := by
  refine eval_digestExpr_of_digest hne (htexts.imp fun name value h => ?_) hdigest
  rw [Scope.read_none]
  exact h

/-- A source row with the row of the snapshot that it is staged as. -/
structure Sourced (s : Settings) (spec : EntitySpec) (p : Row × Staged) : Prop where
  read : ReadAs spec p.1 p.2.row
  hashKey : s.keyEncoding.digest p.2.row.key = .ok p.2.hashKey
  hashDiff : s.keyEncoding.digest p.2.row.attributes = .ok p.2.hashDiff

variable (hs : WellNamed s spec n) {p : Row × Staged} (hp : Sourced s spec p) (relation : Ident)
include hs hp

theorem eval_sourceKey :
    eval db.toSession (Scope.read [(relation, p.1)]) (s.digestOf none spec.businessKey) =
      some (.text p.2.hashKey) :=
  eval_digestOf hs.keyed hp.read.key hp.hashKey relation

theorem eval_sourceDiff :
    eval db.toSession (Scope.read [(relation, p.1)]) (s.digestOf none spec.descriptive) =
      some (.text p.2.hashDiff) :=
  eval_digestOf hs.described hp.read.attributes hp.hashDiff relation

/-- The projection of a source row is the staged row. -/
theorem yields_snapshotItems :
    Yields db [(relation, p.1)] (snapshotItems s spec n)
      (stagedColumns s spec n (s.stamp db.toSession db.now) p.2) := by
  unfold snapshotItems stagedColumns
  refine List.rel_append (List.rel_append (.cons ?_ ?_) ?_) (.cons ?_ (.cons ?_ (.cons ?_ .nil)))
  · exact itemCells_aliased (eval_sourceKey hs hp relation)
  · exact yields_renamed hp.read.key hs.width
  · exact yields_fields hp.read.attributes
  · exact itemCells_aliased (eval_sourceDiff hs hp relation)
  · exact itemCells_aliased (eval_loadExpr s db.toSession _)
  · exact itemCells_aliased rfl

end

/-- What a source row is ranked by is what its staged row is. -/
def rankedAs (relation : Ident) (p : Row × Staged) : Ranked :=
  ⟨[.text p.2.hashKey], [.text p.2.hashDiff], [(relation, p.1)]⟩

/-- The source rows that are staged. -/
def sourceFirsts (pairs : List (Row × Staged)) : List (Row × Staged) :=
  firstOfEach (fun a b => a.2.hashKey == b.2.hashKey) (fun a b => a.2.hashDiff < b.2.hashDiff) []
    pairs

theorem sourceFirsts_map_snd (pairs : List (Row × Staged)) :
    (sourceFirsts pairs).map Prod.snd = stagedFirsts (pairs.map Prod.snd) :=
  (firstOfEach_map (fun a b : Staged => a.hashKey == b.hashKey)
    (fun a b => a.hashDiff < b.hashDiff) Prod.snd pairs []).symm

theorem firstOfEach_rankedAs (relation : Ident) (pairs : List (Row × Staged)) :
    firstOfEach (fun a b => a.partition == b.partition) (fun a b => precedesAll a.order b.order) []
      (pairs.map (rankedAs relation)) = (sourceFirsts pairs).map (rankedAs relation) := by
  have hsame : (fun a b => (rankedAs relation a).partition == (rankedAs relation b).partition) =
      fun a b => a.2.hashKey == b.2.hashKey := by
    funext a b
    rw [Bool.eq_iff_iff, beq_iff_eq, beq_iff_eq]
    simp [rankedAs]
  have hbefore : (fun a b => precedesAll (rankedAs relation a).order (rankedAs relation b).order) =
      fun a b => decide (a.2.hashDiff < b.2.hashDiff) := by
    funext a b
    simp only [rankedAs, precedesAll, Datum.precedes, Bool.and_false, Bool.or_false]
  have hmap := firstOfEach_map (fun a b : Ranked => a.partition == b.partition)
    (fun a b => precedesAll a.order b.order) (rankedAs relation) pairs []
  rwa [hsame, hbefore] at hmap

section
variable {s : Settings} {spec : EntitySpec} {n : SatelliteNames} {db : Database}
  (hs : WellNamed s spec n) {pairs : List (Row × Staged)} (hpairs : ∀ p ∈ pairs, Sourced s spec p)
include hs hpairs

/-- Of the source rows, those that are staged are kept. -/
theorem deduplicated_sources :
    deduplicated db (stagedSelect s spec n).firstPer
        (pairs.map fun p => [(spec.source.name, p.1)]) =
      some ((sourceFirsts pairs).map fun p => [(spec.source.name, p.1)]) := by
  have hranked : (pairs.map fun p => [(spec.source.name, p.1)]).mapM
      (rank db ⟨[s.digestOf none spec.businessKey], [s.digestOf none spec.descriptive]⟩) =
        some (pairs.map (rankedAs spec.source.name)) := by
    rw [List.mapM_map]
    refine mapM_eq_some_map fun p hp => ?_
    have hkey : eval db.toSession (Scope.read [(spec.source.name, p.1)])
        (s.digestOf none spec.businessKey) = some (.text p.2.hashKey) :=
      eval_sourceKey hs (hpairs p hp) spec.source.name
    have hdiff : eval db.toSession (Scope.read [(spec.source.name, p.1)])
        (s.digestOf none spec.descriptive) = some (.text p.2.hashDiff) :=
      eval_sourceDiff hs (hpairs p hp) spec.source.name
    simp [rank, evalAll, hkey, hdiff, rankedAs]
  have hscope : ((sourceFirsts pairs).map (rankedAs spec.source.name)).map Ranked.scope =
      (sourceFirsts pairs).map fun p => [(spec.source.name, p.1)] := by
    rw [List.map_map]
    rfl
  simp only [deduplicated, stagedSelect, hranked, firstOfEach_rankedAs, hscope,
    Option.bind_eq_bind, Option.bind_some, Option.pure_def]

/-- The staged snapshot has one row for each staged row. -/
theorem selectRows_stagedSelect (hsource : db.contents spec.source = some (pairs.map Prod.fst))
    (named : Named) :
    selectRows db named (stagedSelect s spec n) =
      some ((stagedFirsts (pairs.map Prod.snd)).map
        (stagedRow s spec n (s.stamp db.toSession db.now))) := by
  have hscopes : sourceScopes db named (stagedSelect s spec n).source =
      some ((pairs.map Prod.fst).map fun row => [(spec.source.name, row)]) :=
    sourceScopes_single hsource
  rw [List.map_map] at hscopes
  have hprojected : ((sourceFirsts pairs).map fun p => [(spec.source.name, p.1)]).mapM
      (project db (snapshotItems s spec n)) =
        some ((sourceFirsts pairs).map fun p =>
          stagedRow s spec n (s.stamp db.toSession db.now) p.2) := by
    rw [List.mapM_map]
    refine mapM_eq_some_map fun p hp => ?_
    have hmem := (firstOfEach_sublist _ _ pairs []).subset hp
    exact project_of_yields (yields_snapshotItems hs (hpairs p hmem) spec.source.name)
  rw [← sourceFirsts_map_snd, List.map_map]
  exact selectRows_eq hscopes rfl (deduplicated_sources hs hpairs) hprojected rfl

end

/-! ## 3. Conditions -/

section
variable {s : Settings} {spec : EntitySpec} {n : SatelliteNames} {session : Session}
  {read : Reader} {relation : Ident} {key : Expr} {v : Version}

/-- A version is current and has the key that it is compared with. -/
theorem holds_currentVersionOf {hashKey : String}
    (hhash : read (some relation) n.hashKey = some (.text v.hashKey))
    (hcurrent : read (some relation) s.columns.isCurrent = some (.bool v.isCurrent))
    (hkey : eval session read key = some (.text hashKey)) :
    holds session read (currentVersionOf s n relation key) = some (v.isCurrentOf hashKey) := by
  apply holds_eq
  simp [currentVersionOf, Expr.of, eval, evalAll, hhash, hcurrent, hkey, Datum.compare,
    Datum.ofEquality, Datum.conjunction, Datum.both, Version.isCurrentOf, Bool.and_comm]

/-- A NULL key matches no version. -/
theorem holds_currentVersionOf_null
    (hhash : read (some relation) n.hashKey = some (.text v.hashKey))
    (hcurrent : read (some relation) s.columns.isCurrent = some (.bool v.isCurrent))
    (hkey : eval session read key = some .null) :
    holds session read (currentVersionOf s n relation key) = some false := by
  unfold holds
  cases h : v.isCurrent <;>
    simp [currentVersionOf, Expr.of, eval, evalAll, hhash, hcurrent, hkey, h, Datum.compare,
      Datum.ofEquality, Datum.conjunction, Datum.both]

/-- The attributes of a version have another digest. -/
def differs (encoding : KeyEncoding) (hashDiff : String) (v : Version) : Bool :=
  Sha256.hexDigest (encoding.joinedText (v.attributes.map textOf)) != hashDiff

theorem differs_eq {encoding : KeyEncoding} {hashDiff digest : String}
    (h : encoding.digest v.attributes = .ok digest) :
    differs encoding hashDiff v = (digest != hashDiff) := by
  obtain ⟨text, htext, rfl⟩ := digest_eq_ok_iff.mp h
  rw [differs, (encode_eq_ok_iff.mp htext).2]

theorem holds_changedFrom (hs : WellNamed s spec n) {digest : Expr} {hashDiff : String}
    (hattributes : List.Forall₂
      (fun name value => read (some relation) name = some (.ofText? value)) spec.descriptive
      v.attributes)
    (hdigest : eval session read digest = some (.text hashDiff)) :
    holds session read (changedFrom s spec relation digest) =
      some (differs s.keyEncoding hashDiff v) := by
  have hvalue : eval session read (s.keyEncoding.digestExpr (some relation) spec.descriptive) =
      some (.text (Sha256.hexDigest (s.keyEncoding.joinedText (v.attributes.map textOf)))) :=
    eval_digestExpr hs.described hattributes
  apply holds_eq
  simp [changedFrom, Settings.digestOf, eval, hvalue, hdigest, Datum.compare, Datum.ofEquality,
    differs, bne]

end

/-- Only a replaced version of the key has other attributes. -/
theorem current_differs {t : Table} {encoding : KeyEncoding} {r : Staged} {e : Effect}
    (h : Fits t encoding r e) {α : Type} (a : α) :
    ((t.current? r.hashKey).toList.filter (differs encoding r.hashDiff)).map (fun _ => a) =
      if e = .replace then [a] else [] := by
  cases h with
  | insert hnone => simp [hnone]
  | keep hcurrent hdigest => simp [hcurrent, differs_eq hdigest]
  | replace hcurrent hdigest hne => simp [hcurrent, differs_eq hdigest, hne]

/-! ## 4. The union -/

/-- A branch puts a merge key in front of the staged columns. -/
theorem project_keyed {s : Settings} {spec : EntitySpec} {n : SatelliteNames} {db : Database}
    {scope : Scope} {e : Expr} {stamp : Datum} {m : Option String × Staged}
    (hkey : eval db.toSession scope.read e = some (.ofText? m.1))
    (hcolumns : scope.columns? (some stagedName) = some (stagedRow s spec n stamp m.2)) :
    project db [.aliased e mergeKey, .wildcard (some stagedName)] scope =
      some (keyedRow s spec n stamp m) := by
  simp [project, SelectItem.aliased, itemCells, hkey, hcolumns, keyedRow, stagedRow, mergedColumns,
    Row.named]

/-- What a warehouse holds when the merge is run, and what the merge is going
to do: the source rows with their staged rows, the vault rows with their
versions, and the staged rows with their effects. -/
structure Prepared (s : Settings) (spec : EntitySpec) (n : SatelliteNames) (db : Database)
    (t : Table) (source : List (Row × Staged)) (stored : List (Row × Version))
    (changes : List (Staged × Effect)) : Prop where
  wellNamed : WellNamed s spec n
  sourceRows : db.contents spec.source = some (source.map Prod.fst)
  sourced : ∀ p ∈ source, Sourced s spec p
  vaultRows : db.contents (s.vaultTable spec.name) = some (stored.map Prod.fst)
  storedAs : ∀ p ∈ stored, StoredAs s spec n db.toSession p.1 p.2
  current : ∀ hashKey, (stored.map Prod.snd).filter (Version.isCurrentOf hashKey) =
    (t.current? hashKey).toList
  staged : changes.map Prod.fst = stagedFirsts (source.map Prod.snd)
  fits : ∀ c ∈ changes, Fits t s.keyEncoding c.1 c.2
  distinct : changes.Pairwise fun a b => a.1.hashKey ≠ b.1.hashKey

/-- Every change with every stored version. -/
def joinPairs (changes : List (Staged × Effect)) (stored : List (Row × Version)) :
    List ((Staged × Effect) × (Row × Version)) :=
  changes.flatMap fun c => stored.map fun p => (c, p)

theorem mem_joinPairs {changes : List (Staged × Effect)} {stored : List (Row × Version)}
    {q : (Staged × Effect) × (Row × Version)} :
    q ∈ joinPairs changes stored ↔ q.1 ∈ changes ∧ q.2 ∈ stored := by
  obtain ⟨c, p⟩ := q
  simp [joinPairs]

/-- The rows of the union: each staged row with its key, and each that
replaces a version without one. -/
def mergedRows (changes : List (Staged × Effect)) : List (Option String × Staged) :=
  (changes.map fun c => (some c.1.hashKey, c.1)) ++
    (changes.filter fun c => c.2 = .replace).map fun c => (none, c.1)

theorem mem_mergedRows {changes : List (Staged × Effect)} {m : Option String × Staged}
    (hm : m ∈ mergedRows changes) : ∃ c ∈ changes, c.1 = m.2 := by
  rcases List.mem_append.mp hm with hkeyed | hchanged
  · obtain ⟨c, hc, rfl⟩ := List.mem_map.mp hkeyed
    exact ⟨c, hc, rfl⟩
  · obtain ⟨c, hc, rfl⟩ := List.mem_map.mp hchanged
    exact ⟨c, List.mem_of_mem_filter hc, rfl⟩

theorem keyed_mem_mergedRows {changes : List (Staged × Effect)} {c : Staged × Effect}
    (hc : c ∈ changes) : (some c.1.hashKey, c.1) ∈ mergedRows changes :=
  List.mem_append_left _ (List.mem_map.mpr ⟨c, hc, rfl⟩)

/-- What the branch of changed rows reads: a staged row and a vault row. -/
def joinedScope (s : Settings) (spec : EntitySpec) (n : SatelliteNames) (stamp : Datum)
    (q : (Staged × Effect) × (Row × Version)) : Scope :=
  [(stagedName, stagedRow s spec n stamp q.1.1), (currentName, q.2.1)]

namespace Prepared

variable {s : Settings} {spec : EntitySpec} {n : SatelliteNames} {db : Database} {t : Table}
  {source : List (Row × Staged)} {stored : List (Row × Version)}
  {changes : List (Staged × Effect)} (h : Prepared s spec n db t source stored changes)
include h

theorem filled {c : Staged × Effect} (hc : c ∈ changes) : Filled spec c.1.row := by
  have hmem : c.1 ∈ stagedFirsts (source.map Prod.snd) := h.staged ▸ List.mem_map_of_mem hc
  have hrow := (firstOfEach_sublist _ _ _ []).subset hmem
  obtain ⟨p, hp, hsnd⟩ := List.mem_map.mp hrow
  rw [← hsnd]
  exact (h.sourced p hp).read.filled

theorem read?_stagedKey {c : Staged × Effect} (hc : c ∈ changes) (stamp : Datum) :
    (stagedRow s spec n stamp c.1).read? n.hashKey = some (.text c.1.hashKey) :=
  read?_stagedRow h.wellNamed (h.filled hc) (hashKey_mem_staged c.1)

theorem read?_stagedDiff {c : Staged × Effect} (hc : c ∈ changes) (stamp : Datum) :
    (stagedRow s spec n stamp c.1).read? s.columns.hashDiff = some (.text c.1.hashDiff) :=
  read?_stagedRow h.wellNamed (h.filled hc) (hashDiff_mem_staged c.1)

/-- Every staged row with its hash key. -/
theorem selectRows_keyedSelect (stamp : Datum) :
    selectRows db [(stagedName, changes.map fun c => stagedRow s spec n stamp c.1)]
        (keyedSelect n) =
      some (changes.map fun c => keyedRow s spec n stamp (some c.1.hashKey, c.1)) := by
  have hrows : relationRows db [(stagedName, changes.map fun c => stagedRow s spec n stamp c.1)]
      (.named stagedName) = some (changes.map fun c => stagedRow s spec n stamp c.1) :=
    relationRows_named db stagedName _ []
  have hprojected : ((changes.map fun c => stagedRow s spec n stamp c.1).map fun row =>
        [(stagedName, row)]).mapM (project db (keyedSelect n).items) =
      some (changes.map fun c => keyedRow s spec n stamp (some c.1.hashKey, c.1)) := by
    rw [List.map_map, List.mapM_map]
    refine mapM_eq_some_map fun c hc => project_keyed ?_ (Scope.columns?_single stagedName _)
    rw [Function.comp_apply, Expr.of, eval, Scope.read_single]
    exact h.read?_stagedKey hc stamp
  exact selectRows_eq (sourceScopes_single hrows) rfl rfl hprojected rfl

/-- Of the pairs of a change and a stored version, those that the join and the
condition keep are one for each replaced version. -/
theorem map_changed {α : Type} (f : Staged × Effect → α) :
    (((joinPairs changes stored).filter fun q => q.2.2.isCurrentOf q.1.1.hashKey).filter fun q =>
        differs s.keyEncoding q.1.1.hashDiff q.2.2).map (fun q => f q.1) =
      (changes.filter fun c => c.2 = .replace).map f := by
  unfold joinPairs
  rw [List.filter_flatMap, List.filter_flatMap, List.map_flatMap, ← flatMap_ite]
  refine List.flatMap_congr fun c hc => ?_
  rw [← current_differs (h.fits c hc), ← h.current, List.filter_map, List.filter_map,
    List.filter_map, List.filter_map, List.map_map, List.map_map]
  rfl

section
variable {q : (Staged × Effect) × (Row × Version)} (hq : q ∈ joinPairs changes stored)
  (stamp : Datum)
include hq

theorem holds_join :
    holds db.toSession (joinedScope s spec n stamp q).read
        (currentVersionOf s n currentName (.of stagedName n.hashKey)) =
      some (q.2.2.isCurrentOf q.1.1.hashKey) := by
  obtain ⟨hc, hp⟩ := mem_joinPairs.mp hq
  have hstored := h.storedAs q.2 hp
  refine holds_currentVersionOf ?_ ?_ ?_
  · rw [joinedScope, Scope.read_right (by decide)]
    exact hstored.hashKey
  · rw [joinedScope, Scope.read_right (by decide)]
    exact hstored.isCurrent
  · rw [Expr.of, eval, joinedScope, Scope.read_left (by decide)]
    exact h.read?_stagedKey hc stamp

theorem holds_changed :
    holds db.toSession (joinedScope s spec n stamp q).read
        (changedFrom s spec currentName (.of stagedName s.columns.hashDiff)) =
      some (differs s.keyEncoding q.1.1.hashDiff q.2.2) := by
  obtain ⟨hc, hp⟩ := mem_joinPairs.mp hq
  have hattributes := (h.storedAs q.2 hp).attributes
  refine holds_changedFrom h.wellNamed (hattributes.imp fun name value hread => ?_) ?_
  · rw [joinedScope, Scope.read_right (by decide)]
    exact hread
  · rw [Expr.of, eval, joinedScope, Scope.read_left (by decide)]
    exact h.read?_stagedDiff hc stamp

end

/-- The join of the staged rows with the current versions. -/
theorem sourceScopes_changedSelect (stamp : Datum) :
    sourceScopes db [(stagedName, changes.map fun c => stagedRow s spec n stamp c.1)]
        (changedSelect s spec n).source =
      some (((joinPairs changes stored).filter fun q => q.2.2.isCurrentOf q.1.1.hashKey).map
        (joinedScope s spec n stamp)) := by
  have hscopes : ((changes.map fun c => stagedRow s spec n stamp c.1).map fun row =>
        [(stagedName, row)]).flatMap
      (fun scope => (stored.map Prod.fst).map fun row => scope ++ [(currentName, row)]) =
        (joinPairs changes stored).map (joinedScope s spec n stamp) := by
    unfold joinPairs
    rw [List.map_map, List.flatMap_map, List.map_flatMap]
    simp only [List.map_map]
    rfl
  have hkept : keepWhere (fun scope : Scope => holds db.toSession scope.read
        (currentVersionOf s n currentName (.of stagedName n.hashKey)))
      ((joinPairs changes stored).map (joinedScope s spec n stamp)) =
        some (((joinPairs changes stored).filter fun q => q.2.2.isCurrentOf q.1.1.hashKey).map
          (joinedScope s spec n stamp)) :=
    keepWhere_map fun q hq => h.holds_join hq stamp
  have hrows : relationRows db [(stagedName, changes.map fun c => stagedRow s spec n stamp c.1)]
      (.named stagedName) = some (changes.map fun c => stagedRow s spec n stamp c.1) :=
    relationRows_named db stagedName _ []
  rw [← hscopes] at hkept
  exact sourceScopes_join hrows h.vaultRows hkept

/-- Every staged row that replaces a version, without a key. -/
theorem selectRows_changedSelect (stamp : Datum) :
    selectRows db [(stagedName, changes.map fun c => stagedRow s spec n stamp c.1)]
        (changedSelect s spec n) =
      some ((changes.filter fun c => c.2 = .replace).map fun c =>
        keyedRow s spec n stamp (none, c.1)) := by
  have hkept : keepWhere (fun scope : Scope => holds db.toSession scope.read
        (changedFrom s spec currentName (.of stagedName s.columns.hashDiff)))
      (((joinPairs changes stored).filter fun q => q.2.2.isCurrentOf q.1.1.hashKey).map
        (joinedScope s spec n stamp)) =
        some ((((joinPairs changes stored).filter fun q => q.2.2.isCurrentOf q.1.1.hashKey).filter
          fun q => differs s.keyEncoding q.1.1.hashDiff q.2.2).map
            (joinedScope s spec n stamp)) :=
    keepWhere_map fun q hq => h.holds_changed (List.mem_of_mem_filter hq) stamp
  have hprojected : ((((joinPairs changes stored).filter fun q =>
        q.2.2.isCurrentOf q.1.1.hashKey).filter fun q =>
          differs s.keyEncoding q.1.1.hashDiff q.2.2).map (joinedScope s spec n stamp)).mapM
      (project db [.aliased .null mergeKey, .wildcard (some stagedName)]) =
        some ((changes.filter fun c => c.2 = .replace).map fun c =>
          keyedRow s spec n stamp (none, c.1)) := by
    rw [← h.map_changed, List.mapM_map]
    refine mapM_eq_some_map fun q hq => project_keyed rfl ?_
    rw [joinedScope, Scope.columns?_left (by decide)]
  exact selectRows_eq (h.sourceScopes_changedSelect stamp) hkept rfl hprojected rfl

/-- The rows of the union have the same columns. -/
theorem sameColumns_merged (stamp : Datum) :
    sameColumns ((mergedRows changes).map (keyedRow s spec n stamp)) = true := by
  have hnames : ∀ m ∈ mergedRows changes,
      (keyedRow s spec n stamp m).map Prod.fst =
        (mergeKey :: (n.hashKey :: n.businessKeys ++ spec.descriptive ++
          [s.columns.hashDiff, s.columns.loadTime, s.columns.recordSource])).map some := by
    intro m hm
    have hfilled : Filled spec m.2.row := by
      obtain ⟨c, hc, hrow⟩ := mem_mergedRows hm
      exact hrow ▸ h.filled hc
    rw [keyedRow, Row.named_names, mergedColumns, List.map_cons,
      stagedColumns_names h.wellNamed hfilled]
  unfold sameColumns
  simp only [List.all_map, List.all_eq_true, Function.comp_apply]
  intro a ha b hb
  rw [hnames a ha, hnames b hb, beq_self_eq_true]

/-- The source of the merge: every staged row with its key, and those that
replace a version once more without one. -/
theorem queryRows_mergeSource :
    queryRows db [] (mergeSource s spec n) =
      some ((mergedRows changes).map (keyedRow s spec n (s.stamp db.toSession db.now))) := by
  have hstaged : selectRows db [] (stagedSelect s spec n) =
      some (changes.map fun c => stagedRow s spec n (s.stamp db.toSession db.now) c.1) := by
    rw [selectRows_stagedSelect h.wellNamed h.sourced h.sourceRows, ← h.staged, List.map_map]
    rfl
  have hmerged : (mergedRows changes).map (keyedRow s spec n (s.stamp db.toSession db.now)) =
      (changes.map fun c =>
        keyedRow s spec n (s.stamp db.toSession db.now) (some c.1.hashKey, c.1)) ++
      ((changes.filter fun c => c.2 = .replace).map fun c =>
        keyedRow s spec n (s.stamp db.toSession db.now) (none, c.1)) := by
    unfold mergedRows
    rw [List.map_append, List.map_map, List.map_map]
    rfl
  have hsame := h.sameColumns_merged (s.stamp db.toSession db.now)
  rw [hmerged] at hsame ⊢
  simp only [mergeSource, queryRows, addNamed, hstaged, unionRows, List.mapM_cons, List.mapM_nil,
    h.selectRows_keyedSelect, h.selectRows_changedSelect, Option.bind_eq_bind, Option.bind_some,
    Option.pure_def, List.flatten_cons, List.flatten_nil, List.append_nil, hsame, if_true]

end Prepared

end DataVault.Generate
