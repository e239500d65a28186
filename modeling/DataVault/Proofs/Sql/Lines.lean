/-
DataVault.Proofs.Sql.Lines — the lines of a statement.

Statements are made line by line. No part of a line holds a control character:
names and keywords do not, and a literal escapes those of its value. No line is
empty either, as each of them has a keyword, a name or an indentation
(`isLine_query`, `isLine_merge`). So the text of a statement gives its lines
back, whatever values are written into it (`statementLines?_statement`), and a
selection from one table is told from its text by the texts of its items and by
the table (`tableSelect_inj`).
-/
import DataVault.Proofs.Sql.Literals
import DataVault.Proofs.Sql.SelectionText
import DataVault.Proofs.Text.Cutting
import DataVault.Sql.Merge

namespace DataVault.Sql

open DataVault.Text

/-! ## 1. Texts on one line -/

/-- The text holds no control character, and so no line feed. -/
def OneLine (text : String) : Prop := ∀ c ∈ text.toList, isControl c = false

instance : DecidablePred OneLine :=
  fun text => List.decidableBAll (fun c => isControl c = false) text.toList

namespace OneLine

variable {a b : String}

theorem append (ha : OneLine a) (hb : OneLine b) : OneLine (a ++ b) := by
  unfold OneLine
  rw [String.toList_append]
  exact List.forall_mem_append.mpr ⟨ha, hb⟩

theorem intercalate {glue : String} (hglue : OneLine glue) {texts : List String}
    (h : ∀ text ∈ texts, OneLine text) : OneLine (String.intercalate glue texts) :=
  forall_mem_intercalate hglue h

theorem notMem (h : OneLine a) {c : Char} (hc : isControl c = true) : c ∉ a.toList := by
  intro hmem
  rw [h c hmem] at hc
  cases hc

end OneLine

/-! ## 2. Names and references -/

theorem isControl_of_isPart {c : Char} (h : Ident.isPart c = true) : isControl c = false :=
  eq_false_of_isPart (by decide +kernel) h

theorem oneLine_ident (name : Ident) : OneLine name.text :=
  fun _ hc => isControl_of_isPart (isPart_of_mem hc)

theorem oneLine_quotedName (name : Ident) : OneLine (Dialect.quotedName name) :=
  (OneLine.append (by decide) (oneLine_ident name)).append (by decide)

theorem oneLine_resolve (d : Dialect) (t : TableRef) : OneLine (d.resolve t) := by
  have hname := oneLine_quotedName
  cases d with
  | postgres => exact .intercalate (by decide) (List.forall_mem_map.mpr fun i _ => oneLine_ident i)
  | bigQuery =>
    cases t with
    | bare name => exact (OneLine.append (by decide) (hname name)).append (by decide)
    | inSchema schema name =>
      exact (((OneLine.append (by decide) (hname schema)).append (by decide)).append
        (hname name)).append (by decide)
    | inDatabase database schema name =>
      exact (((((OneLine.append (by decide) (hname database)).append (by decide)).append
        (hname schema)).append (by decide)).append (hname name)).append (by decide)

/-! ## 3. Expressions -/

section
variable (d : Dialect)

theorem oneLine_castText {text : String} (h : OneLine text) : OneLine (d.castText text) := by
  unfold Dialect.castText
  refine (((OneLine.append (by decide) h).append (by decide)).append ?_).append (by decide)
  cases d <;> decide

theorem oneLine_hexDigest {text : String} (h : OneLine text) : OneLine (d.hexDigest text) := by
  unfold Dialect.hexDigest
  cases d <;> exact (OneLine.append (by decide) h).append (by decide)

theorem oneLine_concat {parts : List String} (h : ∀ part ∈ parts, OneLine part) :
    OneLine (d.concat parts) :=
  (OneLine.append (by decide) (.intercalate (by decide) h)).append (by decide)

mutual

/-- The text of an expression is on one line: what is put between its parts is, and the literals
are. -/
theorem oneLine_render : ∀ e : Expr, OneLine (e.render d)
  | .column none name => by
      rw [Expr.render]
      exact oneLine_ident name
  | .column (some qualifier) name => by
      rw [Expr.render]
      exact ((oneLine_ident qualifier).append (by decide)).append (oneLine_ident name)
  | .str value => by
      rw [Expr.render]
      exact Literal.isControl_stringLiteral d value
  | .bool true | .bool false | .null | .and [] => by
      rw [Expr.render]
      decide
  | .currentTimestamp | .currentDate => by
      rw [Expr.render]
      cases d <;> decide
  | .castText e => by
      rw [Expr.render]
      exact oneLine_castText d (oneLine_render e)
  | .coalesce args => by
      rw [Expr.render]
      exact (OneLine.append (by decide) (.intercalate (by decide) (oneLine_renderAll args))).append
        (by decide)
  | .concat [part] => by
      rw [Expr.render]
      exact oneLine_render part
  | .concat [] => by
      rw [Expr.render]
      · exact oneLine_concat d (oneLine_renderAll [])
      · nofun
  | .concat (part :: next :: parts) => by
      rw [Expr.render]
      · exact oneLine_concat d (oneLine_renderAll (part :: next :: parts))
      · nofun
  | .charLength e => by
      rw [Expr.render]
      exact (OneLine.append (by decide) (oneLine_render e)).append (by decide)
  | .hexDigest e => by
      rw [Expr.render]
      exact oneLine_hexDigest d (oneLine_render e)
  | .compare op left right => by
      rw [Expr.render]
      exact ((((oneLine_render left).append (by decide)).append (by cases op <;> decide)).append
        (by decide)).append (oneLine_render right)
  | .and [term] => by
      rw [Expr.render]
      exact oneLine_render term
  | .and (term :: next :: terms) => by
      rw [Expr.render]
      · exact .intercalate (by decide) (oneLine_renderAll (term :: next :: terms))
      · nofun
      · nofun

theorem oneLine_renderAll : ∀ es : List Expr, ∀ text ∈ Expr.renderAll d es, OneLine text
  | [] => nofun
  | e :: es => List.forall_mem_cons.mpr ⟨oneLine_render e, oneLine_renderAll es⟩

end

end

/-! ## 4. Lines -/

/-- A line of a statement: it is not empty, and no control character is in it. -/
structure IsLine (text : String) : Prop where
  ne_empty : text ≠ ""
  oneLine : OneLine text

instance : DecidablePred IsLine := fun text =>
  decidable_of_iff (text ≠ "" ∧ OneLine text) ⟨fun h => ⟨h.1, h.2⟩, fun h => ⟨h.1, h.2⟩⟩

theorem IsLine.append {a b : String} (ha : IsLine a) (hb : OneLine b) : IsLine (a ++ b) :=
  ⟨fun h => ha.ne_empty (String.append_eq_empty_iff.mp h).1, ha.oneLine.append hb⟩

theorem OneLine.before {a b : String} (ha : OneLine a) (hb : IsLine b) : IsLine (a ++ b) :=
  ⟨fun h => hb.ne_empty (String.append_eq_empty_iff.mp h).2, ha.append hb.oneLine⟩

theorem isLine_indent {lines : List String} (h : ∀ line ∈ lines, IsLine line) :
    ∀ line ∈ indent lines, IsLine line := by
  refine List.forall_mem_map.mpr fun line hline => ?_
  split
  · exact h line hline
  · exact IsLine.append (by decide) (h line hline).oneLine

/-! ## 5. Selections -/

section
variable {d : Dialect}

theorem oneLine_renderList (es : List Expr) : OneLine (Expr.renderList d es) :=
  .intercalate (by decide) (oneLine_renderAll d es)

theorem oneLine_relation (r : Relation) : OneLine (r.render d) := by
  cases r with
  | table t => exact oneLine_resolve d t
  | named name => exact oneLine_ident name

theorem oneLine_item (item : SelectItem) : OneLine (item.render d) := by
  match item with
  | .expr e none => exact oneLine_render d e
  | .expr e (some asName) =>
    rw [SelectItem.render]
    split
    · exact oneLine_render d e
    · exact ((oneLine_render d e).append (by decide)).append (oneLine_ident asName)
  | .wildcard none => exact show OneLine "*" by decide
  | .wildcard (some qualifier) => exact (oneLine_ident qualifier).append (by decide)

theorem oneLine_commaEnded {lines : List String} (h : ∀ line ∈ lines, OneLine line) :
    ∀ line ∈ commaEnded lines, OneLine line := by
  induction lines with
  | nil => exact h
  | cons line lines ih =>
    obtain ⟨hline, hrest⟩ := List.forall_mem_cons.mp h
    cases lines with
    | nil => exact h
    | cons => exact List.forall_mem_cons.mpr ⟨hline.append (by decide), ih hrest⟩

/-- Lines behind a prefix, with commas between them. -/
theorem isLine_commaEnded {start : String} (hstart : IsLine start) {lines : List String}
    (h : ∀ line ∈ lines, OneLine line) :
    ∀ line ∈ (commaEnded lines).map (start ++ ·), IsLine line :=
  List.forall_mem_map.mpr fun line hline => hstart.append (oneLine_commaEnded h line hline)

theorem isLine_join (j : Join) : ∀ line ∈ j.render d, IsLine line := by
  have hrelation : IsLine ("INNER JOIN " ++ j.relation.render d) :=
    IsLine.append (by decide) (oneLine_relation j.relation)
  exact List.forall_mem_cons.mpr ⟨(hrelation.append (by decide)).append (oneLine_ident j.asName),
    List.forall_mem_singleton.mpr (IsLine.append (by decide) (oneLine_render d j.on))⟩

theorem isLine_source (f : FromClause) : ∀ line ∈ f.render d, IsLine line := by
  have hrelation : IsLine ("FROM " ++ f.relation.render d) :=
    IsLine.append (by decide) (oneLine_relation f.relation)
  refine List.forall_mem_cons.mpr ⟨?_, List.forall_mem_flatMap.mpr fun j _ => isLine_join j⟩
  cases f.asName with
  | none => exact hrelation
  | some name => exact (hrelation.append (by decide)).append (oneLine_ident name)

theorem isLine_head (s : Select) : IsLine (s.head d) := by
  unfold Select.head
  split
  · exact (IsLine.append (by decide) (oneLine_renderList _)).append (by decide)
  · split <;> decide

theorem isLine_where (s : Select) : ∀ line ∈ s.whereLines d, IsLine line := by
  unfold Select.whereLines
  split
  · exact List.forall_mem_singleton.mpr (IsLine.append (by decide) (oneLine_render d _))
  · exact List.forall_mem_singleton.mpr (by decide)
  · nofun

theorem isLine_dedup (s : Select) : ∀ line ∈ s.dedupLines d, IsLine line := by
  unfold Select.dedupLines
  cases s.firstPer with
  | none => nofun
  | some first =>
    have hpartition := oneLine_renderList (d := d) first.partitionBy
    have horder := oneLine_renderList (d := d) first.orderBy
    cases d with
    | bigQuery =>
      refine List.forall_mem_singleton.mpr (IsLine.append ?_ (by decide))
      exact ((IsLine.append (by decide) hpartition).append (by decide)).append horder
    | postgres =>
      refine List.forall_mem_singleton.mpr ?_
      exact ((IsLine.append (by decide) hpartition).append (by decide)).append horder

/-- The lines of a selection are lines, each part by itself. -/
theorem isLine_select (s : Select) : ∀ line ∈ s.render d, IsLine line := by
  have hitems : ∀ text ∈ s.items.map (SelectItem.render d), OneLine text :=
    List.forall_mem_map.mpr fun item _ => oneLine_item item
  have hlist := isLine_commaEnded (show IsLine "  " by decide) hitems
  refine List.forall_mem_append.mpr ⟨List.forall_mem_append.mpr ⟨?_, isLine_where s⟩,
    isLine_dedup s⟩
  exact List.forall_mem_append.mpr
    ⟨List.forall_mem_cons.mpr ⟨isLine_head s, hlist⟩, isLine_source s.source⟩

/-! ## 6. Queries and merges -/

theorem isLine_union : ∀ branches : List Select,
    ∀ line ∈ Query.renderUnion d branches, IsLine line
  | [] => nofun
  | [branch] => isLine_select branch
  | branch :: next :: rest =>
      List.forall_mem_append.mpr
        ⟨isLine_select branch, List.forall_mem_cons.mpr ⟨by decide, isLine_union (next :: rest)⟩⟩

mutual

/-- The lines of a query are lines. Those of a query in parentheses are indented, and stay so. -/
theorem isLine_query : ∀ q : Query, ∀ line ∈ q.render d, IsLine line
  | .select s => by
      rw [Query.render]
      exact isLine_select s
  | .unionAll branches => by
      rw [Query.render]
      exact isLine_union branches
  | .withQueries named body => by
      rw [Query.render]
      exact List.forall_mem_append.mpr ⟨isLine_named named (by decide), isLine_query body⟩

theorem isLine_named : ∀ (named : List (Ident × Query)) {keyword : String}, OneLine keyword →
    ∀ line ∈ Query.renderNamed d keyword named, IsLine line
  | [], _, _ => nofun
  | [(name, query)], _, hkeyword =>
      List.forall_mem_append.mpr
        ⟨isLine_body name query hkeyword, List.forall_mem_singleton.mpr (by decide)⟩
  | (name, query) :: next :: rest, _, hkeyword =>
      have hothers := isLine_named (next :: rest) (show OneLine "" by decide)
      List.forall_mem_append.mpr
        ⟨isLine_body name query hkeyword, List.forall_mem_cons.mpr ⟨by decide, hothers⟩⟩

/-- The lines of one named query, up to its last one: the name keeps the first of them from being
empty. -/
theorem isLine_body (name : Ident) (query : Query) {keyword : String} (hkeyword : OneLine keyword) :
    ∀ line ∈ (keyword ++ name.text ++ " AS (") :: indent (query.render d), IsLine line :=
  List.forall_mem_cons.mpr
    ⟨(hkeyword.append (oneLine_ident name)).before (by decide), isLine_indent (isLine_query query)⟩

end

theorem oneLine_assignment (a : Assignment) : OneLine (a.render d) :=
  ((oneLine_ident a.column).append (by decide)).append (oneLine_render d a.value)

theorem isLine_clause (clause : MergeClause) : ∀ line ∈ clause.render d, IsLine line := by
  cases clause with
  | matchedUpdate condition assignments =>
    have hset : ∀ text ∈ assignments.map (Assignment.render d), OneLine text :=
      List.forall_mem_map.mpr fun a _ => oneLine_assignment a
    refine List.forall_mem_cons.mpr
      ⟨?_, List.forall_mem_cons.mpr ⟨by decide, isLine_commaEnded (by decide) hset⟩⟩
    cases condition with
    | none => exact show IsLine "WHEN MATCHED THEN" by decide
    | some c => exact (IsLine.append (by decide) (oneLine_render d c)).append (by decide)
  | notMatchedInsert values =>
    have hcolumns : ∀ text ∈ values.map (·.column.text), OneLine text :=
      List.forall_mem_map.mpr fun a _ => oneLine_ident a.column
    have hvalues : ∀ text ∈ values.map (·.value.render d), OneLine text :=
      List.forall_mem_map.mpr fun a _ => oneLine_render d a.value
    have hlist : ∀ {start : String} {texts : List String}, IsLine start →
        (∀ text ∈ texts, OneLine text) → IsLine (start ++ String.intercalate ", " texts ++ ")") :=
      fun hstart htexts => (hstart.append (.intercalate (by decide) htexts)).append (by decide)
    exact List.forall_mem_cons.mpr ⟨by decide, List.forall_mem_cons.mpr
      ⟨hlist (by decide) hcolumns, List.forall_mem_singleton.mpr (hlist (by decide) hvalues)⟩⟩

/-- The lines of a merge are lines: each has a keyword, or is one of its source. -/
theorem isLine_merge (m : Merge) : ∀ line ∈ m.render d, IsLine line := by
  have hinto : IsLine ("MERGE INTO " ++ d.resolve m.target ++ " AS " ++ m.targetAlias.text) :=
    ((IsLine.append (by decide) (oneLine_resolve d m.target)).append (by decide)).append
      (oneLine_ident m.targetAlias)
  have hends : ∀ line ∈ [") AS " ++ m.sourceAlias.text, "ON " ++ m.on.render d], IsLine line :=
    List.forall_mem_cons.mpr ⟨IsLine.append (by decide) (oneLine_ident m.sourceAlias),
      List.forall_mem_singleton.mpr (IsLine.append (by decide) (oneLine_render d m.on))⟩
  refine List.forall_mem_append.mpr ⟨List.forall_mem_append.mpr ⟨?_, hends⟩,
    List.forall_mem_flatMap.mpr fun clause _ => isLine_clause clause⟩
  exact List.forall_mem_cons.mpr
    ⟨hinto, List.forall_mem_cons.mpr ⟨by decide, isLine_indent (isLine_query m.source)⟩⟩

end

/-! ## 7. Statements -/

/-- The lines of the text of a statement: what is left without the terminator and the line feed
at the end, cut at line feeds. -/
def statementLines? (d : Dialect) (sql : String) : Option (List String) :=
  (sql.toList.dropSuffix? (d.terminator ++ "\n").toList).map fun text =>
    splitOn '\n' (String.ofList text)

/-- The text of a statement gives its lines back. -/
theorem statementLines?_statement {d : Dialect} {lines : List String}
    (h : ∀ line ∈ lines, IsLine line) (hne : lines ≠ []) :
    statementLines? d (statement d lines) = some lines := by
  have hend : (statement d lines).toList.dropSuffix? (d.terminator ++ "\n").toList =
      some (String.intercalate "\n" lines).toList := by
    unfold statement
    rw [String.append_assoc, String.toList_append]
    exact List.dropSuffix?_eq_some_iff.mpr ⟨_, rfl, beq_self_eq_true _⟩
  have hfree : ∀ line ∈ lines, '\n' ∉ line.toList :=
    fun line hline => (h line hline).oneLine.notMem (by decide)
  rw [statementLines?, hend, Option.map_some, String.ofList_toList,
    splitOn_intercalate rfl hfree hne]

theorem statement_inj {d : Dialect} {lines others : List String}
    (h : ∀ line ∈ lines, IsLine line) (hothers : ∀ line ∈ others, IsLine line) (hne : lines ≠ [])
    (hne' : others ≠ []) (heq : statement d lines = statement d others) : lines = others := by
  have hlines := congrArg (statementLines? d) heq
  rw [statementLines?_statement h hne, statementLines?_statement hothers hne'] at hlines
  exact Option.some.inj hlines

/-! ## 8. Selections from one table -/

section
variable {d : Dialect}

/-- The lines of a selection from one table. -/
theorem render_tableSelect (distinct : Bool) (items : List SelectItem) (t : TableRef) :
    (Select.mk distinct items (.table t) none none).render d =
      (if distinct then "SELECT DISTINCT" else "SELECT") ::
        ((commaEnded (items.map (SelectItem.render d))).map ("  " ++ ·) ++
          ["FROM " ++ d.resolve t]) := by
  have hwhere : (Select.mk distinct items (.table t) none none).whereLines d = [] := rfl
  have hdedup : (Select.mk distinct items (.table t) none none).dedupLines d = [] := rfl
  unfold Select.render
  rw [hwhere, hdedup, List.append_nil, List.append_nil]
  rfl

/-- The text of a selection from one table gives the texts of its items and the table back. -/
theorem tableSelect_inj {distinct distinct' : Bool} {items items' : List SelectItem}
    {t t' : TableRef}
    (h : (Query.select ⟨distinct, items, .table t, none, none⟩).toSql d =
      (Query.select ⟨distinct', items', .table t', none, none⟩).toSql d) :
    items.map (SelectItem.render d) = items'.map (SelectItem.render d) ∧ t = t' := by
  have hfrom : ∀ (t : TableRef), ∀ line ∈ ["FROM " ++ d.resolve t].head?,
      isIndented line = false :=
    fun t => isIndented_fromLine (String.toList_append) []
  have hlines := statement_inj (isLine_select _) (isLine_select _)
    (by rw [render_tableSelect]; nofun) (by rw [render_tableSelect]; nofun) h
  rw [render_tableSelect, render_tableSelect] at hlines
  obtain ⟨hitems, hsource⟩ :=
    itemTexts_append_inj (hfrom t) (hfrom t') (List.cons.inj hlines).2
  have htable := (String.append_right_inj "FROM ").mp (List.cons.inj hsource).1
  exact ⟨hitems, resolve_injective d htable⟩

end

end DataVault.Sql
