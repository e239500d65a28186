/-
DataVault.Proofs.Sql.Nesting — a query inside a statement is only indented.

A query stands in another one as a branch of a union, behind named queries, or
as one of these, in parentheses (`Query.Holds`); a merge has its source in
parentheses. Each pair of parentheses puts two spaces before the lines between
them, and no line is empty, so the lines of a query stand in a row in whatever
it is a part of, all behind the same spaces (`lines_of_holds`). Indenting would
change a literal that went on over several lines, and none does: the text of a
statement, cut at its line feeds, is the lines that were made for it
(`nesting_only_indents`).
-/
import DataVault.Proofs.Sql.Lines

namespace DataVault.Sql

/-! ## 1. Parts of a statement -/

/-- The first query is the second one or has it as a part, in `depth` pairs of parentheses. -/
inductive Query.Holds : Query → Nat → Query → Prop where
  | self (q : Query) : Holds q 0 q
  | branch {branches : List Select} {s : Select} (hmem : s ∈ branches) :
      Holds (.unionAll branches) 0 (.select s)
  | body {named : List (Ident × Query)} {body part : Query} {depth : Nat}
      (hpart : Holds body depth part) : Holds (.withQueries named body) depth part
  | named {named : List (Ident × Query)} {name : Ident} {query body part : Query} {depth : Nat}
      (hmem : (name, query) ∈ named) (hpart : Holds query depth part) :
      Holds (.withQueries named body) (depth + 1) part

/-- A query or a merge, as a statement of its own. -/
inductive Command where
  | query (q : Query)
  | merge (m : Merge)

namespace Command

def render (d : Dialect) : Command → List String
  | query q => q.render d
  | merge m => m.render d

def toSql (d : Dialect) : Command → String
  | query q => q.toSql d
  | merge m => m.toSql d

/-- The query is a part of the statement, in `depth` pairs of parentheses. -/
inductive Holds : Command → Nat → Query → Prop where
  | query {q part : Query} {depth : Nat} (hpart : q.Holds depth part) :
      Holds (.query q) depth part
  | source {m : Merge} {part : Query} {depth : Nat} (hpart : m.source.Holds depth part) :
      Holds (.merge m) (depth + 1) part

/-- Each union in the statement has a branch. -/
def HasBranches (s : Command) : Prop :=
  ∀ depth branches, s.Holds depth (.unionAll branches) → branches ≠ []

end Command

/-! ## 2. Indentation -/

/-- Two spaces for each pair of parentheses. -/
def indentation : Nat → String
  | 0 => ""
  | depth + 1 => "  " ++ indentation depth

theorem map_indentation_zero (lines : List String) : lines.map (indentation 0 ++ ·) = lines :=
  List.map_id'' (fun _ => String.empty_append) lines

theorem indent_map_indentation {lines : List String} (h : ∀ line ∈ lines, IsLine line)
    (depth : Nat) :
    indent (lines.map (indentation depth ++ ·)) = lines.map (indentation (depth + 1) ++ ·) := by
  unfold indent
  rw [List.map_map]
  refine List.map_congr_left fun line hline => ?_
  -- An empty line would get no spaces, but there is none.
  have hne : ¬ (indentation depth ++ line).isEmpty = true := by
    rw [String.isEmpty_iff, String.append_eq_empty_iff]
    exact fun hempty => (h line hline).ne_empty hempty.2
  rw [Function.comp_apply, if_neg hne, ← String.append_assoc]
  rfl

/-- What stands in a row behind spaces does so behind two more in the indented lines. -/
theorem indented {lines around : List String} (hlines : ∀ line ∈ lines, IsLine line) {depth : Nat}
    (h : lines.map (indentation depth ++ ·) <:+: around) :
    lines.map (indentation (depth + 1) ++ ·) <:+: indent around := by
  rw [← indent_map_indentation hlines]
  exact h.map _

/-! ## 3. Lines of the parts -/

section
variable {d : Dialect}

/-- A branch of a union is not indented. -/
theorem branch_lines {branches : List Select} {s : Select} (h : s ∈ branches) :
    s.render d <:+: Query.renderUnion d branches := by
  induction branches with
  | nil => cases h
  | cons branch rest ih =>
    cases rest with
    | nil =>
      cases List.mem_singleton.mp h
      exact List.infix_refl _
    | cons next rest =>
      rcases List.mem_cons.mp h with rfl | hrest
      · exact (List.prefix_append _ _).isInfix
      · have hlater := (ih hrest).trans (List.suffix_cons "UNION ALL" _).isInfix
        exact hlater.trans (List.suffix_append _ _).isInfix

/-- A named query is indented once, whether it is the first one or not. -/
theorem named_lines {named : List (Ident × Query)} {name : Ident} {query : Query}
    (h : (name, query) ∈ named) (keyword : String) :
    indent (query.render d) <:+: Query.renderNamed d keyword named := by
  induction named generalizing keyword with
  | nil => cases h
  | cons first rest ih =>
    obtain ⟨name', query'⟩ := first
    cases rest with
    | nil =>
      cases List.mem_singleton.mp h
      exact ⟨[_], [")"], rfl⟩
    | cons next rest =>
      rcases List.mem_cons.mp h with hfirst | hrest
      · cases hfirst
        exact ⟨[_], ")," :: Query.renderNamed d "" (next :: rest), rfl⟩
      · have hlater := (ih hrest "").trans (List.suffix_cons ")," _).isInfix
        exact hlater.trans (List.suffix_append _ _).isInfix

/-- The lines of a part stand in a row in the query, behind two spaces for each pair of
parentheses around it. -/
theorem lines_of_holds {q part : Query} {depth : Nat} (h : q.Holds depth part) :
    (part.render d).map (indentation depth ++ ·) <:+: q.render d := by
  induction h with
  | self q => simpa only [map_indentation_zero] using List.infix_refl (q.render d)
  | branch hmem =>
    rw [map_indentation_zero, Query.render, Query.render]
    exact branch_lines hmem
  | body _ ih =>
    rw [Query.render]
    exact ih.trans (List.suffix_append _ _).isInfix
  | named hmem _ ih =>
    rw [Query.render]
    have hnamed := (indented (isLine_query _) ih).trans (named_lines hmem "WITH ")
    exact hnamed.trans (List.prefix_append _ _).isInfix

/-- A query has lines unless it ends in a union without branches. -/
theorem render_ne_nil : ∀ {q : Query},
    (∀ branches, q.Holds 0 (.unionAll branches) → branches ≠ []) → q.render d ≠ []
  | .select s, _ => by
      rw [Query.render]
      exact List.cons_ne_nil _ _
  | .unionAll [], h => absurd rfl (h [] (.self _))
  | .unionAll [branch], _ => by
      rw [Query.render]
      exact List.cons_ne_nil _ _
  | .unionAll (branch :: next :: rest), _ => by
      rw [Query.render]
      exact List.cons_ne_nil _ _
  | .withQueries named body, h => by
      rw [Query.render]
      exact List.append_ne_nil_of_right_ne_nil _
        (render_ne_nil fun branches hunion => h branches (.body hunion))

/-! ## 4. Statements -/

namespace Command

theorem toSql_eq (s : Command) : s.toSql d = statement d (s.render d) := by
  cases s <;> rfl

theorem isLine_render (s : Command) : ∀ line ∈ s.render d, IsLine line := by
  cases s with
  | query q => exact isLine_query q
  | merge m => exact isLine_merge m

theorem HasBranches.render_ne_nil {s : Command} (h : s.HasBranches) : s.render d ≠ [] := by
  cases s with
  | query q => exact Sql.render_ne_nil fun branches hunion => h 0 branches (.query hunion)
  | merge m => exact List.cons_ne_nil _ _

theorem Holds.lines {s : Command} {part : Query} {depth : Nat} (h : s.Holds depth part) :
    (part.render d).map (indentation depth ++ ·) <:+: s.render d := by
  cases h with
  | query hpart => exact lines_of_holds hpart
  | @source m _ _ hpart =>
    have hsource : indent (m.source.render d) <:+: m.render d := by
      rw [Merge.render, List.append_assoc]
      exact ⟨[_, _], _, rfl⟩
    exact (indented (isLine_query part) (lines_of_holds hpart)).trans hsource

end Command

end

/-- No line of a statement has a line break in it, so the text of the statement is cut into
exactly its lines, and those of each query in it are there in a row, behind spaces alone. -/
theorem nesting_only_indents (d : Dialect) (s : Command) :
    (∀ line ∈ s.render d, '\n' ∉ line.toList ∧ '\r' ∉ line.toList) ∧
      (s.HasBranches → statementLines? d (s.toSql d) = some (s.render d)) ∧
      ∀ depth part, s.Holds depth part →
        (part.render d).map (indentation depth ++ ·) <:+: s.render d := by
  refine ⟨fun line hline => ?_, fun hbranches => ?_, fun depth part hpart => hpart.lines⟩
  · have honeLine := (s.isLine_render line hline).oneLine
    exact ⟨honeLine.notMem (by decide), honeLine.notMem (by decide)⟩
  · rw [Command.toSql_eq]
    exact statementLines?_statement s.isLine_render hbranches.render_ne_nil

/-- A union without branches has no lines, but its text is not without any. -/
example : statementLines? .bigQuery ((Query.unionAll []).toSql .bigQuery) = some [""] := by decide

/-- A selection of a text with line breaks in it. -/
def sampleBranch : Select :=
  ⟨false, [.aliased (.str "two\r\nlines") ⟨"note", by decide, by decide⟩],
    .table (.bare ⟨"src", by decide, by decide⟩), none, none⟩

/-- A merge from a named query that is a union. -/
def sampleNested : Command :=
  let notes : Ident := ⟨"notes", by decide, by decide⟩
  .merge ⟨.bare ⟨"sat", by decide, by decide⟩, ⟨"kept", by decide, by decide⟩,
    .withQueries [(notes, .unionAll [sampleBranch, sampleBranch])]
      (.select ⟨false, [.wildcard none], .named notes, none, none⟩),
    ⟨"given", by decide, by decide⟩, .bool true, []⟩

/-- Two pairs of parentheses are around the branches of the union, and the line breaks of the
constant do not become some of the statement. -/
theorem nesting_only_indents_sample :
    sampleNested.HasBranches ∧ sampleNested.Holds 2 (.unionAll [sampleBranch, sampleBranch]) ∧
      statementLines? .postgres (sampleNested.toSql .postgres) =
        some (sampleNested.render .postgres) ∧
      ["    SELECT", "      E'two\\x0d\\x0alines' AS note", "    FROM src", "    UNION ALL",
        "    SELECT", "      E'two\\x0d\\x0alines' AS note", "    FROM src"] <:+:
          sampleNested.render .postgres := by
  have hheld : sampleNested.Holds 2 (.unionAll [sampleBranch, sampleBranch]) :=
    .source (.named (List.mem_singleton_self _) (.self _))
  have hbranches : sampleNested.HasBranches := by
    intro depth branches hunion
    cases hunion with
    | source hpart =>
      cases hpart with
      | body hpart => cases hpart
      | named hmem hpart =>
        cases List.mem_singleton.mp hmem
        cases hpart with
        | self => exact List.cons_ne_nil _ _
  obtain ⟨-, hcut, hparts⟩ := nesting_only_indents .postgres sampleNested
  have hlines : ((Query.unionAll [sampleBranch, sampleBranch]).render .postgres).map
      (indentation 2 ++ ·) =
        ["    SELECT", "      E'two\\x0d\\x0alines' AS note", "    FROM src", "    UNION ALL",
          "    SELECT", "      E'two\\x0d\\x0alines' AS note", "    FROM src"] := by decide +kernel
  exact ⟨hbranches, hheld, hcut hbranches, hlines ▸ hparts 2 _ hheld⟩

end DataVault.Sql
