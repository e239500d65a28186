/-
DataVault.Proofs.Warehouse.Rows — laws of rows, scopes and selections.

A row is read and written by name, so its laws are those of a record: a
column that no other one shares its name with reads as its datum
(`Row.read?_named`), and a column that is set reads as what it was set to
while the others stay (`Row.read?_set?`). Reading in a scope comes down to
reading one of its rows.

The last section says what is left of a list of rows after the first one of
each partition has been taken, one more row at a time
(`firstOfEach_concat`).
-/
import DataVault.Entity.Spec
import DataVault.Proofs.Lists
import DataVault.Proofs.Results
import DataVault.Proofs.Sql.Names
import DataVault.Proofs.Warehouse.Relation

namespace DataVault.Warehouse

open DataVault.Entity DataVault.Lists DataVault.Results DataVault.Sql DataVault.Text

/-! ## 1. Names -/

/-- The same name finds the same columns. -/
theorem isNamed_congr {a b : Ident} (h : a.sameName b = true) :
    Cell.isNamed a = Cell.isNamed b := by
  funext ⟨name, datum⟩
  cases name with
  | none => rfl
  | some name =>
    rw [Bool.eq_iff_iff]
    unfold Cell.isNamed
    rw [Option.any_some, Option.any_some, sameName_iff, sameName_iff, sameName_iff.mp h]

/-! ## 2. Columns of a row -/

/-- A row with these columns. -/
def Row.named (columns : List (Ident × Datum)) : Row := columns.map fun c => (some c.1, c.2)

theorem only?_eq_some_iff {α : Type} {as : List α} {a : α} : only? as = some a ↔ as = [a] := by
  match as with
  | [] => simp [only?]
  | [b] => simp [only?]
  | _ :: _ :: _ => simp [only?]

theorem Row.read?_eq_some_iff {row : Row} {name : Ident} {datum : Datum} :
    row.read? name = some datum ↔
      ∃ own, row.filter (Cell.isNamed name) = [(own, datum)] := by
  simp only [Row.read?, Option.map_eq_some_iff, only?_eq_some_iff, Prod.exists]
  constructor
  · rintro ⟨own, _, h, rfl⟩
    exact ⟨own, h⟩
  · rintro ⟨own, h⟩
    exact ⟨own, datum, h, rfl⟩

/-- A column with a name of its own is read by it. -/
theorem Row.read?_named {columns : List (Ident × Datum)}
    (hdistinct : DistinctFields (columns.map Prod.fst)) {c : Ident × Datum} (hc : c ∈ columns) :
    (Row.named columns).read? c.1 = some c.2 := by
  refine Row.read?_eq_some_iff.mpr ⟨some c.1, ?_⟩
  refine filter_eq_singleton ?_ (List.mem_map.mpr ⟨c, hc, rfl⟩) (sameName_refl c.1)
  unfold DistinctFields at hdistinct
  rw [List.pairwise_map] at hdistinct
  unfold Row.named
  rw [List.pairwise_map]
  refine hdistinct.imp fun hab ha hb => ?_
  have hsame := (sameName_iff.mp ha).trans (sameName_iff.mp hb).symm
  rw [sameName_iff.mpr hsame] at hab
  cases hab

/-- Setting a column leaves the other columns, and sets that one. -/
theorem Row.read?_set? {row set : Row} {name : Ident} {datum : Datum}
    (h : row.set? name datum = some set) (other : Ident) :
    set.read? other = if name.sameName other then some datum else row.read? other := by
  obtain ⟨old, hold, rfl⟩ := Option.map_eq_some_iff.mp h
  have hnames : ∀ cell : Cell, Cell.isNamed other
      (if Cell.isNamed name cell then (cell.1, datum) else cell) = Cell.isNamed other cell := by
    intro cell
    split <;> rfl
  have hfilter : (row.map fun cell =>
      if Cell.isNamed name cell then (cell.1, datum) else cell).filter (Cell.isNamed other) =
        (row.filter (Cell.isNamed other)).map fun cell =>
          if Cell.isNamed name cell then (cell.1, datum) else cell := by
    rw [List.filter_map]
    congr 1
    exact List.filter_congr fun cell _ => hnames cell
  split
  · next hsame =>
    obtain ⟨own, hown⟩ := Row.read?_eq_some_iff.mp hold
    have hnamed : Cell.isNamed name (own, old) = true :=
      (List.mem_filter.mp (hown ▸ List.mem_singleton.mpr rfl)).2
    refine Row.read?_eq_some_iff.mpr ⟨own, ?_⟩
    rw [hfilter, ← isNamed_congr hsame, hown, List.map_singleton, if_pos hnamed]
  · next hother =>
    unfold Row.read?
    rw [hfilter]
    congr 2
    refine (List.map_congr_left fun cell hcell => ?_).trans (List.map_id _)
    obtain ⟨own, held⟩ := cell
    refine if_neg fun hnamed => hother ?_
    have hcell := (List.mem_filter.mp hcell).2
    cases own with
    | none => cases hnamed
    | some own =>
      exact sameName_iff.mpr ((sameName_iff.mp hnamed).symm.trans (sameName_iff.mp hcell))

/-- A column that can be read can be set. -/
theorem Row.exists_set? {row : Row} {name : Ident} {old : Datum} (h : row.read? name = some old)
    (datum : Datum) : ∃ set, row.set? name datum = some set := by
  unfold Row.set?
  rw [h]
  exact ⟨_, rfl⟩

/-- Columns with different names are set one after another, and the others
stay. -/
theorem Row.exists_setAll : ∀ {columns : List (Ident × Datum)} {row : Row},
    (∀ c ∈ columns, ∃ old, row.read? c.1 = some old) → DistinctFields (columns.map Prod.fst) →
    ∃ set, columns.foldlM (fun row c => Row.set? row c.1 c.2) row = some set ∧
      (∀ c ∈ columns, set.read? c.1 = some c.2) ∧
      ∀ name, (∀ c ∈ columns, c.1.sameName name = false) → set.read? name = row.read? name
  | [], row, _, _ => ⟨row, rfl, by simp, fun _ _ => rfl⟩
  | c :: columns, row, hread, hdistinct => by
      obtain ⟨hc, hrest⟩ := List.pairwise_cons.mp hdistinct
      obtain ⟨⟨old, hold⟩, holds⟩ := List.forall_mem_cons.mp hread
      obtain ⟨first, hfirst⟩ := Row.exists_set? hold c.2
      have hne : ∀ d ∈ columns, c.1.sameName d.1 = false :=
        fun d hd => hc d.1 (List.mem_map_of_mem hd)
      have hothers : ∀ d ∈ columns, ∃ old, first.read? d.1 = some old := by
        intro d hd
        rw [Row.read?_set? hfirst, hne d hd]
        exact holds d hd
      obtain ⟨set, hset, hnew, hkept⟩ := Row.exists_setAll hothers hrest
      refine ⟨set, ?_, List.forall_mem_cons.mpr ⟨?_, hnew⟩, ?_⟩
      · rw [List.foldlM_cons, hfirst]
        exact hset
      · rw [hkept c.1 fun d hd => sameName_eq_false_symm (hne d hd), Row.read?_set? hfirst,
          sameName_refl]
        rfl
      · intro name hname
        obtain ⟨hfirstName, hlater⟩ := List.forall_mem_cons.mp hname
        rw [hkept name hlater, Row.read?_set? hfirst, hfirstName]
        rfl

/-! ## 3. Scopes -/

theorem Scope.read_none (relation name : Ident) (row : Row) :
    Scope.read [(relation, row)] none name = row.read? name := by
  simp [Scope.read, Scope.columns?]

theorem Scope.columns?_single (relation : Ident) (row : Row) :
    Scope.columns? [(relation, row)] (some relation) = some row := by
  simp [Scope.columns?, sameName_refl, only?]

theorem Scope.read_single (relation name : Ident) (row : Row) :
    Scope.read [(relation, row)] (some relation) name = row.read? name := by
  unfold Scope.read
  rw [Scope.columns?_single]
  rfl

section
variable {left right : Ident} (h : left.sameName right = false) (leftRow rightRow : Row)
include h

theorem Scope.columns?_left :
    Scope.columns? [(left, leftRow), (right, rightRow)] (some left) = some leftRow := by
  simp [Scope.columns?, sameName_refl, sameName_eq_false_symm h, only?]

theorem Scope.columns?_right :
    Scope.columns? [(left, leftRow), (right, rightRow)] (some right) = some rightRow := by
  simp [Scope.columns?, sameName_refl, h, only?]

theorem Scope.read_left (name : Ident) :
    Scope.read [(left, leftRow), (right, rightRow)] (some left) name = leftRow.read? name := by
  unfold Scope.read
  rw [Scope.columns?_left h]
  rfl

theorem Scope.read_right (name : Ident) :
    Scope.read [(left, leftRow), (right, rightRow)] (some right) name = rightRow.read? name := by
  unfold Scope.read
  rw [Scope.columns?_right h]
  rfl

end

/-! ## 4. Selections -/

/-- A test that does not fail filters. The members are given as images, so
that the filter can go by what they come from. -/
theorem keepWhere_map {α β : Type} {f : β → α} {test : α → Option Bool} {p : β → Bool} :
    ∀ {bs : List β}, (∀ b ∈ bs, test (f b) = some (p b)) →
      keepWhere test (bs.map f) = some ((bs.filter p).map f)
  | [], _ => rfl
  | b :: rest, h => by
      obtain ⟨hb, hrest⟩ := List.forall_mem_cons.mp h
      rw [List.map_cons, keepWhere, hb, keepWhere_map hrest, List.filter_cons]
      cases p b <;> rfl

theorem holds_eq {session : Session} {read : Reader} {condition : Expr} {value : Bool}
    (h : eval session read condition = some (.bool value)) :
    holds session read condition = some value := by
  unfold holds
  rw [h]

/-- The latest query of a name is the one that is read. -/
theorem relationRows_named (db : Database) (name : Ident) (rows : List Row) (named : Named) :
    relationRows db ((name, rows) :: named) (.named name) = some rows := by
  simp [relationRows, sameName_refl]

/-- One relation is read row by row. -/
theorem sourceScopes_single {db : Database} {named : Named} {relation : Relation}
    {asName : Option Ident} {rows : List Row} (h : relationRows db named relation = some rows) :
    sourceScopes db named ⟨relation, asName, []⟩ =
      some (rows.map fun row => [(aliasOf relation asName, row)]) := by
  unfold sourceScopes
  rw [h]
  rfl

/-- A join is read pair by pair, where its condition holds. -/
theorem sourceScopes_join {db : Database} {named : Named} {relation : Relation}
    {asName : Option Ident} {j : Join} {rows others : List Row} {kept : List Scope}
    (h : relationRows db named relation = some rows)
    (hother : relationRows db named j.relation = some others)
    (hkept : keepWhere (fun scope => holds db.toSession (Scope.read scope) j.on)
      ((rows.map fun row => [(aliasOf relation asName, row)]).flatMap fun scope =>
        others.map fun row => scope ++ [(j.asName, row)]) = some kept) :
    sourceScopes db named ⟨relation, asName, [j]⟩ = some kept := by
  simp only [sourceScopes, joinRows, h, hother, hkept, List.foldlM_cons, List.foldlM_nil,
    Option.bind_eq_bind, Option.bind_some, Option.pure_def]

/-- A selection is read, filtered, reduced and projected, in this order. -/
theorem selectRows_eq {db : Database} {named : Named} {s : Select}
    {scopes kept firsts : List Scope} {rows : List Row}
    (hscopes : sourceScopes db named s.source = some scopes)
    (hkept : filtered db s.filter scopes = some kept)
    (hfirsts : deduplicated db s.firstPer kept = some firsts)
    (hrows : firsts.mapM (project db s.items) = some rows) (hall : s.distinct = false) :
    selectRows db named s = some rows := by
  simp only [selectRows, hscopes, hkept, hfirsts, hrows, hall, Option.bind_eq_bind,
    Option.bind_some, Option.pure_def]
  rfl

/-- The items give the row these columns. -/
def Yields (db : Database) (scope : Scope) (items : List SelectItem)
    (columns : List (Ident × Datum)) : Prop :=
  List.Forall₂ (fun item c => itemCells db scope item = some (Row.named [c])) items columns

theorem Row.flatten_named : ∀ columns : List (Ident × Datum),
    (columns.map fun c => Row.named [c]).flatten = Row.named columns
  | [] => rfl
  | c :: rest => by
      rw [List.map_cons, List.flatten_cons, Row.flatten_named rest]
      rfl

theorem project_of_yields {db : Database} {scope : Scope} {items : List SelectItem}
    {columns : List (Ident × Datum)} (h : Yields db scope items columns) :
    project db items scope = some (Row.named columns) := by
  have hcells : items.mapM (itemCells db scope) = some (columns.map fun c => Row.named [c]) := by
    rw [mapM_eq_some_iff, List.forall₂_map_right_iff]
    exact h
  unfold project
  rw [hcells]
  exact congrArg some (Row.flatten_named columns)

theorem Row.named_names (columns : List (Ident × Datum)) :
    (Row.named columns).map Prod.fst = (columns.map Prod.fst).map some := by
  unfold Row.named
  rw [List.map_map, List.map_map]
  rfl

theorem itemCells_aliased {db : Database} {scope : Scope} {e : Expr} {name : Ident}
    {datum : Datum} (h : eval db.toSession scope.read e = some datum) :
    itemCells db scope (.aliased e name) = some (Row.named [(name, datum)]) := by
  rw [SelectItem.aliased, itemCells, h]
  rfl

/-- The name of the column that an item stands for, if it is one and has a
name. -/
def itemName? : SelectItem → Option Ident
  | .expr e asName => asName <|> columnName? e
  | .wildcard _ => none

theorem itemName?_aliased (e : Expr) (name : Ident) :
    itemName? (.aliased e name) = some name := rfl

/-- The columns of a selection, by their names. -/
def columnNames (s : Select) : List Ident := s.items.filterMap itemName?

theorem names_of_itemCells {db : Database} {scope : Scope} {item : SelectItem} {name : Ident}
    {cells : Row} (hname : itemName? item = some name)
    (h : itemCells db scope item = some cells) : cells.map Prod.fst = [some name] := by
  cases item with
  | expr e asName =>
    obtain ⟨datum, -, hcells⟩ := Option.bind_eq_some_iff.mp h
    cases hcells
    exact congrArg (fun n => [n]) hname
  | wildcard qualifier => cases hname

theorem names_of_cells {db : Database} {scope : Scope} {items : List SelectItem} {cells : List Row}
    (hnamed : ∀ item ∈ items, (itemName? item).isSome)
    (h : List.Forall₂ (fun item row => itemCells db scope item = some row) items cells) :
    cells.flatten.map Prod.fst = (items.filterMap itemName?).map some := by
  induction h with
  | nil => rfl
  | cons hcells _ ih =>
    obtain ⟨hitem, hitems⟩ := List.forall_mem_cons.mp hnamed
    obtain ⟨name, hname⟩ := Option.isSome_iff_exists.mp hitem
    rw [List.flatten_cons, List.map_append, names_of_itemCells hname hcells, ih hitems,
      List.filterMap_cons_some hname, List.map_cons, List.singleton_append]

/-- The rows of a selection have its columns, if all of these have names. -/
theorem names_of_selectRows {db : Database} {named : Named} {s : Select} {rows : List Row}
    (hnamed : ∀ item ∈ s.items, (itemName? item).isSome) (h : selectRows db named s = some rows) :
    ∀ row ∈ rows, row.map Prod.fst = (columnNames s).map some := by
  unfold selectRows at h
  obtain ⟨scopes, -, h⟩ := Option.bind_eq_some_iff.mp h
  obtain ⟨kept, -, h⟩ := Option.bind_eq_some_iff.mp h
  obtain ⟨firsts, -, h⟩ := Option.bind_eq_some_iff.mp h
  obtain ⟨projected, hprojected, h⟩ := Option.bind_eq_some_iff.mp h
  have hall : ∀ row ∈ projected, row.map Prod.fst = (columnNames s).map some := by
    intro row hrow
    obtain ⟨scope, -, hscope⟩ := exists_of_mem_right (mapM_eq_some_iff.mp hprojected) hrow
    obtain ⟨cells, hcells, hflat⟩ := Option.bind_eq_some_iff.mp hscope
    cases hflat
    exact names_of_cells hnamed (mapM_eq_some_iff.mp hcells)
  cases h
  split
  · exact fun row hrow => hall row (List.mem_eraseDups.mp hrow)
  · exact hall

/-- Assigned columns stand in the order of the assignments. -/
theorem names_of_assigned {db : Database} {scope : Scope} {assignments : List Assignment}
    {columns : List (Ident × Datum)} (h : assigned db scope assignments = some columns) :
    columns.map Prod.fst = assignments.map Assignment.column := by
  rw [← List.forall₂_eq_eq_eq, List.forall₂_map_left_iff, List.forall₂_map_right_iff]
  refine (mapM_eq_some_iff.mp h).flip.imp fun column a hassigned => ?_
  obtain ⟨datum, -, hcolumn⟩ := Option.bind_eq_some_iff.mp hassigned
  cases hcolumn
  rfl

/-! ## 5. The first of each partition -/

section
variable {α : Type} (same before : α → α → Bool)

/-- One more member drops the ones that it comes before, and stays if it
comes before all others of its partition. -/
theorem firstOfEach_concat (new : α) : ∀ (as earlier : List α),
    firstOfEach same before earlier (as ++ [new]) =
      (firstOfEach same before earlier as).filter (fun a => !same new a || !before new a) ++
        if (earlier.all fun e => !same e new || before new e) ∧
            (as.all fun a => !same a new || before new a) then [new] else []
  | [], earlier => by simp [firstOfEach]
  | a :: as, earlier => by
      have hlast : (((a :: earlier).all fun e => !same e new || before new e) ∧
            (as.all fun a => !same a new || before new a)) ↔
          (earlier.all fun e => !same e new || before new e) ∧
            ((a :: as).all fun a => !same a new || before new a) := by
        simp only [List.all_cons, Bool.and_eq_true]
        tauto
      have hfirst : ((earlier.all fun e => !same e a || before a e) &&
            ((as ++ [new]).all fun l => !same l a || !before l a)) =
          (((earlier.all fun e => !same e a || before a e) &&
            (as.all fun l => !same l a || !before l a)) && (!same new a || !before new a)) := by
        simp [List.all_append, Bool.and_assoc]
      rw [List.cons_append, firstOfEach, firstOfEach_concat new as (a :: earlier), firstOfEach,
        hfirst, if_congr hlast rfl rfl]
      by_cases hkept : ((earlier.all fun e => !same e a || before a e) &&
          (as.all fun l => !same l a || !before l a)) = true
      · by_cases hnew : (!same new a || !before new a) = true
        · rw [if_pos (by rw [hkept, hnew]; rfl), if_pos hkept, List.filter_cons,
            if_pos hnew, List.cons_append]
        · rw [if_neg (by rw [hkept, Bool.true_and]; exact hnew), if_pos hkept,
            List.filter_cons, if_neg hnew]
      · rw [if_neg (by rw [Bool.and_eq_true]; exact fun h => hkept h.1), if_neg hkept]

theorem firstOfEach_sublist : ∀ as earlier : List α,
    (firstOfEach same before earlier as).Sublist as
  | [], _ => .slnil
  | a :: as, earlier => by
      rw [firstOfEach]
      split
      · exact (firstOfEach_sublist as (a :: earlier)).cons_cons a
      · exact (firstOfEach_sublist as (a :: earlier)).cons a

/-- Taking the first ones commutes with a map that partition and order see
through. -/
theorem firstOfEach_map {β : Type} (f : β → α) : ∀ (bs earlier : List β),
    firstOfEach same before (earlier.map f) (bs.map f) =
      (firstOfEach (fun a b => same (f a) (f b)) (fun a b => before (f a) (f b)) earlier bs).map f
  | [], _ => rfl
  | b :: bs, earlier => by
      have ih := firstOfEach_map f bs (b :: earlier)
      rw [List.map_cons] at ih
      simp only [List.map_cons, firstOfEach, ih, List.all_map, Function.comp_def]
      split <;> simp

end

end DataVault.Warehouse
