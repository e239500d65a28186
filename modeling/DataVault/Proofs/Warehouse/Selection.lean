/-
DataVault.Proofs.Warehouse.Selection — which rows the lines of a selection
stand for.

Two plain selections with the same lines agree in every part that has a trace
in the text (`explicit_eq_of_render_eq`), and writing out what the text leaves
open keeps the rows (`selectRows_explicit`). What is left is `DISTINCT`, which
PostgreSQL leaves out where it keeps the first row of each partition. The rows
are then still the same exactly if there is nothing for it to remove
(`lines_determine_rows`).
-/
import DataVault.Proofs.Sql.SelectionText
import DataVault.Proofs.Warehouse.Relation

namespace DataVault.Warehouse

open DataVault.Lists DataVault.Sql

/-! ## 1. Relations by their texts -/

/-- One text names one relation. A warehouse knows no more than the text. -/
def TextsName (d : Dialect) (db : Database) (named : Named) : Prop :=
  ∀ p q : Relation, p.render d = q.render d → relationRows db named p = relationRows db named q

section
variable {d : Dialect} {db : Database} {named : Named}

theorem render_explicit (r : Relation) : (r.explicit d).render d = r.render d := by
  cases d with
  | bigQuery => cases r <;> rfl
  | postgres =>
    cases r with
    | table t => rfl
    | named name => exact textsJoined_singleton "." name

theorem explicit_eq_of_texts {p q : Relation} (h : p.render d = q.render d) :
    p.explicit d = q.explicit d :=
  (relation_append_inj endsReference_nil endsReference_nil
    (congrArg (fun text => text.toList ++ []) h)).1

/-- In BigQuery the texts of all relations differ. -/
theorem textsName_bigQuery : TextsName .bigQuery db named := by
  intro p q h
  have hsame := explicit_eq_of_texts h
  cases p <;> cases q <;> exact congrArg (relationRows db named) hsame

/-- In PostgreSQL a bare table is written like the named query with its name. -/
theorem textsName_postgres
    (h : ∀ name, relationRows db named (.table (.bare name)) =
      relationRows db named (.named name)) :
    TextsName .postgres db named := by
  have hexplicit : ∀ r : Relation,
      relationRows db named (r.explicit .postgres) = relationRows db named r := by
    intro r
    cases r with
    | table t => rfl
    | named name => exact h name
  intro p q htexts
  rw [← hexplicit p, explicit_eq_of_texts htexts, hexplicit q]

/-! ## 2. What is written out -/

theorem relationRows_explicit (h : TextsName d db named) (r : Relation) :
    relationRows db named (r.explicit d) = relationRows db named r :=
  h _ _ (render_explicit r)

theorem aliasOf_explicit (r : Relation) (asName : Option Ident) :
    aliasOf (r.explicit d) asName = aliasOf r asName := by
  cases d <;> cases r <;> rfl

theorem itemCells_explicit (scope : Scope) (item : SelectItem) :
    itemCells db scope item.explicit = itemCells db scope item := by
  unfold SelectItem.explicit
  split <;> rfl

theorem project_explicit (items : List SelectItem) :
    project db (items.map SelectItem.explicit) = project db items := by
  funext scope
  unfold project
  rw [List.mapM_map]
  simp only [Function.comp_def, itemCells_explicit]

theorem joinRows_explicit (h : TextsName d db named) (scopes : List Scope) (j : Join) :
    joinRows db named scopes (j.explicit d) = joinRows db named scopes j := by
  unfold joinRows Join.explicit
  rw [relationRows_explicit h]

theorem sourceScopes_explicit (h : TextsName d db named) (f : FromClause) :
    sourceScopes db named (f.explicit d) = sourceScopes db named f := by
  unfold sourceScopes FromClause.explicit
  simp only [relationRows_explicit h, aliasOf_explicit, List.foldlM_map, joinRows_explicit h]

/-- Writing out what the text leaves open keeps the rows. -/
theorem selectRows_explicit (h : TextsName d db named) (s : Select) :
    selectRows db named (s.explicit d) = selectRows db named s := by
  unfold selectRows Select.explicit
  simp only [sourceScopes_explicit h, project_explicit]

/-! ## 3. Distinct rows -/

theorem selectRows_distinct (s : Select) (distinct : Bool) :
    selectRows db named { s with distinct := distinct } =
      (selectRows db named { s with distinct := false }).map fun rows =>
        if distinct then rows.eraseDups else rows := by
  simp only [selectRows, Option.map_eq_bind, Option.bind_eq_bind, Option.bind_assoc,
    Function.comp_def, Option.pure_def, Option.bind_some, Bool.false_eq_true, if_false]

/-- Selections that differ in nothing but `DISTINCT` have the same rows exactly if no row of them
occurs twice. -/
theorem selectRows_distinct_eq_iff (s : Select) {distinct distinct' : Bool} :
    selectRows db named { s with distinct := distinct } =
        selectRows db named { s with distinct := distinct' } ↔
      (distinct ≠ distinct' → ∀ rows,
        selectRows db named { s with distinct := false } = some rows → rows.Nodup) := by
  rw [selectRows_distinct s distinct, selectRows_distinct s distinct']
  cases selectRows db named { s with distinct := false } with
  | none => simp
  | some rows =>
    have herased : rows = rows.eraseDups ↔ rows.Nodup := eq_comm.trans eraseDups_eq_self_iff
    cases distinct <;> cases distinct' <;> simp [eraseDups_eq_self_iff, herased]

end

/-- Plain selections with the same lines differ at most in `DISTINCT`, and that only where
PostgreSQL keeps the first row of each partition. Whatever the tables hold, they have the same rows
exactly if they do not differ, or if no row occurs twice. -/
theorem lines_determine_rows {d : Dialect} {s t : Select} (hs : s.IsPlain d) (ht : t.IsPlain d)
    (h : s.render d = t.render d) :
    (s.distinct ≠ t.distinct → d = .postgres ∧ s.firstPer.isSome = true) ∧
      ∀ (db : Database) (named : Named), TextsName d db named →
        (selectRows db named s = selectRows db named t ↔
          (s.distinct ≠ t.distinct → ∀ rows,
            selectRows db named { s with distinct := false } = some rows → rows.Nodup)) := by
  obtain ⟨hsame, hdistinct⟩ := explicit_eq_of_render_eq hs ht h
  refine ⟨fun hne => hdistinct.resolve_right hne, fun db named hnames => ?_⟩
  have ht : selectRows db named t = selectRows db named { s with distinct := t.distinct } := by
    rw [← selectRows_explicit hnames t, hsame]
    exact selectRows_explicit hnames { s with distinct := t.distinct }
  rw [ht]
  exact selectRows_distinct_eq_iff s

/-- A bare table and a named query, a column and the column under its own name. -/
theorem lines_determine_rows_postgres :
    let source : Ident := ⟨"src", rfl, by decide⟩
    let key : Ident := ⟨"k", rfl, by decide⟩
    let active : Ident := ⟨"active", rfl, by decide⟩
    let s : Select := ⟨true, [.expr (.field key) none], .table (.bare source),
      some (.field active), none⟩
    let t : Select := ⟨true, [.expr (.field key) (some key)], .named source,
      some (.field active), none⟩
    s.IsPlain .postgres ∧ t.IsPlain .postgres ∧ s.render .postgres = t.render .postgres ∧
      ∀ (db : Database) (named : Named), TextsName .postgres db named →
        selectRows db named s = selectRows db named t := by
  intro source key active s t
  have hs : s.IsPlain .postgres := by decide
  have ht : t.IsPlain .postgres := by decide
  have hlines : s.render .postgres = t.render .postgres := by decide +kernel
  exact ⟨hs, ht, hlines, fun db named hnames =>
    ((lines_determine_rows hs ht hlines).2 db named hnames).mpr fun hne => absurd rfl hne⟩

/-- PostgreSQL keeps one row of each key, and both of them show the same value. Whether the rows are
to be distinct makes no difference to the lines. -/
theorem lines_hide_distinct :
    let key : Ident := ⟨"k", rfl, by decide⟩
    let value : Ident := ⟨"v", rfl, by decide⟩
    let selection (distinct : Bool) : Select := ⟨distinct, [.expr (.field value) none],
      .table (.inSchema ⟨"stg", rfl, by decide⟩ ⟨"src", rfl, by decide⟩), none,
      some ⟨[.field key], [.field value]⟩⟩
    let row (k : String) : Row := [(some key, .text k), (some value, .text "x")]
    let db : Database :=
      { dialect := .postgres
        now := 0
        dayStart := id
        contents := fun
          | .inSchema _ _ => some [row "1", row "2"]
          | _ => none }
    (∀ distinct, (selection distinct).IsPlain .postgres) ∧
      (selection true).render .postgres = (selection false).render .postgres ∧
      TextsName .postgres db [] ∧
      selectRows db [] (selection true) = some [[(some value, .text "x")]] ∧
      selectRows db [] (selection false) =
        some [[(some value, .text "x")], [(some value, .text "x")]] := by
  intro key value selection row db
  exact ⟨by decide, by decide +kernel, textsName_postgres fun _ => rfl, by decide +kernel,
    by decide +kernel⟩

end DataVault.Warehouse
