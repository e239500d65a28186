/-
DataVault.Proofs.Sql.Placeholders — what a statement for BigQuery opens as a
placeholder.

A dollar sign with an opening brace behind it begins a placeholder, wherever it
stands. `placeholders` counts them, and the count of a text made of two is the
sum of the counts if the two signs do not meet where the texts do
(`openings_append`). No part of a statement ends in a dollar sign, so the
counts add up over the whole tree: each table opens one, names and keywords
none, and a string constant as many as its value does, since none of the two
signs is escaped in a literal (`placeholders_query`, `placeholders_merge`).
-/
import DataVault.Proofs.Sql.Literals
import DataVault.Proofs.Sql.Names
import DataVault.Proofs.Sql.SelectionText
import DataVault.Sql.Merge
import Mathlib.Algebra.BigOperators.Group.List.Basic
import Mathlib.Algebra.GroupWithZero.Nat

namespace DataVault.Sql

open DataVault.Text

/-! ## 1. Counting -/

/-- How often a dollar sign has an opening brace behind it. -/
def openings : List Char → Nat
  | [] => 0
  | c :: cs => (if c = '$' ∧ cs.head? = some '\x7b' then 1 else 0) + openings cs

/-- How many placeholders a text opens. -/
def placeholders (text : String) : Nat := openings text.toList

/-- Texts open their placeholders on their own, unless the two signs meet between them. -/
theorem openings_append {as bs : List Char}
    (h : as.getLast? ≠ some '$' ∨ bs.head? ≠ some '\x7b') :
    openings (as ++ bs) = openings as + openings bs := by
  induction as with
  | nil => rw [List.nil_append, openings, Nat.zero_add]
  | cons a as ih =>
    cases as with
    | nil =>
      have hnone : ¬ (a = '$' ∧ bs.head? = some '\x7b') := by
        rintro ⟨rfl, hb⟩
        exact h.elim (fun ha => ha rfl) (fun hb' => hb' hb)
      rw [List.cons_append, List.nil_append, openings, openings, if_neg hnone,
        if_neg (fun ha => nomatch ha.2), openings, Nat.add_zero]
    | cons a' as =>
      rw [List.getLast?_cons_cons] at h
      have hhead : (a' :: as ++ bs).head? = (a' :: as).head? := rfl
      rw [List.cons_append, openings, hhead, ih h, ← Nat.add_assoc]
      rfl

theorem openings_eq_zero {cs : List Char} (h : '$' ∉ cs) : openings cs = 0 := by
  induction cs with
  | nil => rfl
  | cons c cs ih =>
    rw [List.mem_cons, not_or] at h
    rw [openings, ih h.2, if_neg fun hc => h.1 hc.1.symm]

/-- The text opens so many placeholders, and does not end in the first sign of one. -/
def Opens (text : String) (n : Nat) : Prop :=
  placeholders text = n ∧ text.toList.getLast? ≠ some '$'

theorem opens_zero {text : String} (h : '$' ∉ text.toList) : Opens text 0 :=
  ⟨openings_eq_zero h, fun hlast => h (List.mem_of_getLast? hlast)⟩

theorem Opens.append {a b : String} {m n : Nat} (ha : Opens a m) (hb : Opens b n) :
    Opens (a ++ b) (m + n) := by
  unfold Opens placeholders
  rw [String.toList_append, openings_append (.inl ha.2), List.getLast?_append]
  refine ⟨congrArg₂ (· + ·) ha.1 hb.1, ?_⟩
  cases hlast : b.toList.getLast? with
  | none => exact ha.2
  | some c =>
    have hend := hb.2
    rw [hlast] at hend
    exact hend

theorem opens_ident (name : Ident) : Opens name.text 0 :=
  opens_zero (notMem_of_isPart_eq_false (by decide))

/-! ## 2. Lists of texts -/

/-- The texts open so many placeholders together. -/
inductive OpensAll : List String → Nat → Prop where
  | nil : OpensAll [] 0
  | cons {text : String} {texts : List String} {m n : Nat} (h : Opens text m)
      (hs : OpensAll texts n) : OpensAll (text :: texts) (m + n)

theorem opensAll_singleton {text : String} {n : Nat} (h : Opens text n) : OpensAll [text] n :=
  .cons h .nil

theorem OpensAll.append {as bs : List String} {m n : Nat} (ha : OpensAll as m)
    (hb : OpensAll bs n) : OpensAll (as ++ bs) (m + n) := by
  induction ha with
  | nil => rwa [Nat.zero_add]
  | cons h _ ih => rw [Nat.add_assoc]; exact .cons h ih

/-- Each member gives a text. -/
theorem opensAll_map {α : Type} {f : α → String} {count : α → Nat} {as : List α}
    (h : ∀ a ∈ as, Opens (f a) (count a)) : OpensAll (as.map f) (as.map count).sum := by
  induction as with
  | nil => exact .nil
  | cons a as ih =>
    obtain ⟨ha, hrest⟩ := List.forall_mem_cons.mp h
    exact .cons ha (ih hrest)

/-- Each member gives several texts. -/
theorem opensAll_flatMap {α : Type} {f : α → List String} {count : α → Nat} {as : List α}
    (h : ∀ a ∈ as, OpensAll (f a) (count a)) : OpensAll (as.flatMap f) (as.map count).sum := by
  induction as with
  | nil => exact .nil
  | cons a as ih =>
    obtain ⟨ha, hrest⟩ := List.forall_mem_cons.mp h
    exact ha.append (ih hrest)

/-- Something done to each text that leaves what it opens. -/
theorem OpensAll.map {f : String → String} (hf : ∀ text n, Opens text n → Opens (f text) n)
    {texts : List String} {n : Nat} (h : OpensAll texts n) : OpensAll (texts.map f) n := by
  induction h with
  | nil => exact .nil
  | cons h _ ih => exact .cons (hf _ _ h) ih

theorem opensAll_names {α : Type} (f : α → Ident) (as : List α) :
    OpensAll (as.map fun a => (f a).text) 0 := by
  have hnames := opensAll_map fun a (_ : a ∈ as) => opens_ident (f a)
  rwa [List.map_const', List.sum_replicate_nat, Nat.mul_zero] at hnames

theorem Opens.before {start text : String} {n : Nat} (hstart : '$' ∉ start.toList)
    (h : Opens text n) : Opens (start ++ text) n := by
  have hboth := (opens_zero hstart).append h
  rwa [Nat.zero_add] at hboth

theorem Opens.behind {text rest : String} {n : Nat} (h : Opens text n)
    (hrest : '$' ∉ rest.toList) : Opens (text ++ rest) n := h.append (opens_zero hrest)

/-- A line that opens nothing, with others below it. -/
theorem OpensAll.under {line : String} {lines : List String} {n : Nat} (hline : '$' ∉ line.toList)
    (h : OpensAll lines n) : OpensAll (line :: lines) n := by
  have hlines := OpensAll.cons (opens_zero hline) h
  rwa [Nat.zero_add] at hlines

theorem OpensAll.intercalate {glue : String} (hglue : '$' ∉ glue.toList) {texts : List String}
    {n : Nat} (h : OpensAll texts n) : Opens (String.intercalate glue texts) n := by
  induction h with
  | nil => exact opens_zero (by simp)
  | @cons text texts m n htext hrest ih =>
    cases hrest with
    | nil => rwa [String.intercalate_singleton]
    | cons =>
      rw [String.intercalate_cons_cons, String.append_assoc]
      exact htext.append (ih.before hglue)

theorem OpensAll.indent {lines : List String} {n : Nat} (h : OpensAll lines n) :
    OpensAll (indent lines) n := by
  refine h.map fun line n hline => ?_
  split
  · exact hline
  · exact hline.before (by decide)

theorem OpensAll.commaEnded {lines : List String} {n : Nat} (h : OpensAll lines n) :
    OpensAll (commaEnded lines) n := by
  induction h with
  | nil => exact .nil
  | cons hline hrest ih =>
    cases hrest with
    | nil => exact .cons hline .nil
    | cons => exact .cons (hline.behind (by decide)) ih

/-! ## 3. Literals and references -/

/-- A piece of a literal is the character itself, or an escape without the two signs. -/
theorem bigQueryPiece_eq_or (c : Char) :
    Literal.bigQueryPiece c = [c] ∨
      c ≠ '$' ∧ c ≠ '\x7b' ∧ '$' ∉ Literal.bigQueryPiece c ∧
        (Literal.bigQueryPiece c).head? = some '\\' := by
  unfold Literal.bigQueryPiece
  split
  · next h => subst h; exact .inr ⟨by decide, by decide, by decide, rfl⟩
  split
  · next h => subst h; exact .inr ⟨by decide, by decide, by decide, rfl⟩
  split
  · next hcontrol =>
    have hdigit : ∀ n < 16, '$' ≠ hexDigit n := by decide
    have hc := Literal.toNat_of_isControl hcontrol
    have hhigh := hdigit (c.toNat / 16) (by omega)
    have hlow := hdigit (c.toNat % 16) (by omega)
    refine .inr ⟨?_, ?_, ?_, rfl⟩
    · rintro rfl
      exact absurd hcontrol (by decide)
    · rintro rfl
      exact absurd hcontrol (by decide)
    · have hpadded : hexPadded 2 c.toNat = [hexDigit (c.toNat / 16), hexDigit (c.toNat % 16)] :=
        hexPadded_byte (by omega)
      rw [hpadded]
      simp [hhigh, hlow]
  · exact .inl rfl

/-- Escapes neither make nor hide a placeholder. -/
theorem openings_pieces (value : List Char) :
    openings (value.flatMap Literal.bigQueryPiece) = openings value := by
  induction value with
  | nil => rfl
  | cons c value ih =>
    rw [List.flatMap_cons]
    rcases bigQueryPiece_eq_or c with hself | ⟨hdollar, -, hfree, -⟩
    · have hhead : (value.flatMap Literal.bigQueryPiece).head? = some '\x7b' ↔
          value.head? = some '\x7b' := by
        cases value with
        | nil => rfl
        | cons next value =>
          rw [List.flatMap_cons, List.head?_cons, List.head?_append]
          rcases bigQueryPiece_eq_or next with hnext | ⟨-, hbrace, -, hnext⟩
          · rw [hnext]
            rfl
          · rw [hnext, Option.some_or]
            exact iff_of_false (by decide) fun h => hbrace (Option.some.inj h)
      rw [hself, List.cons_append, List.nil_append, openings, openings, ih]
      simp only [hhead]
    · have hlast : (Literal.bigQueryPiece c).getLast? ≠ some '$' :=
        fun h => hfree (List.mem_of_getLast? h)
      rw [openings_append (.inl hlast), openings_eq_zero hfree, ih, openings,
        if_neg fun h => hdollar h.1]

/-- A literal opens what its value does, and the quotes keep the signs apart from others. -/
theorem opens_literal (value : String) :
    Opens (Dialect.bigQuery.stringLiteral value) (placeholders value) := by
  have htext : (Dialect.bigQuery.stringLiteral value).toList =
      ['\''] ++ (value.toList.flatMap Literal.bigQueryPiece ++ ['\'']) := by
    change (Literal.bigQuery value).toList = _
    rw [Literal.bigQuery, String.toList_ofList]
    rfl
  unfold Opens placeholders
  rw [htext, openings_append (.inl (by decide)), openings_append (.inr (by decide)),
    openings_pieces, ← List.append_assoc, List.getLast?_concat]
  exact ⟨Nat.zero_add _, by decide⟩

theorem opens_quotedName (name : Ident) : Opens (Dialect.quotedName name) 0 :=
  ((opens_ident name).before (by decide)).behind (by decide)

/-- A reference to a table opens one placeholder. -/
theorem opens_resolve (t : TableRef) : Opens (Dialect.bigQuery.resolve t) 1 := by
  have hopen : Opens "$\x7bref(" 1 := ⟨by decide, by decide⟩
  have hrecord : Opens "$\x7bref(\x7bdatabase: " 1 := ⟨by decide, by decide⟩
  have hname := opens_quotedName
  cases t with
  | bare name => exact (hopen.append (hname name)).behind (by decide)
  | inSchema schema name =>
    exact (((hopen.append (hname schema)).behind (by decide)).append (hname name)).behind
      (by decide)
  | inDatabase database schema name =>
    exact (((((hrecord.append (hname database)).behind (by decide)).append (hname schema)).behind
      (by decide)).append (hname name)).behind (by decide)

/-! ## 4. Expressions -/

namespace Expr

mutual

/-- The string constants of an expression. -/
def strings : Expr → List String
  | str value => [value]
  | column _ _ | bool _ | null | currentTimestamp | currentDate => []
  | castText e | charLength e | hexDigest e => strings e
  | coalesce args | concat args | and args => stringsAll args
  | compare _ left right => strings left ++ strings right

/-- The string constants of several expressions. -/
def stringsAll : List Expr → List String
  | [] => []
  | e :: es => strings e ++ stringsAll es

end

theorem stringsAll_eq_flatMap (es : List Expr) : stringsAll es = es.flatMap strings := by
  induction es with
  | nil => rfl
  | cons e es ih => rw [stringsAll, ih, List.flatMap_cons]

end Expr

/-- How many placeholders the texts open. -/
def openedBy (texts : List String) : Nat := (texts.map placeholders).sum

@[simp] theorem openedBy_nil : openedBy [] = 0 := rfl

@[simp] theorem openedBy_append (as bs : List String) :
    openedBy (as ++ bs) = openedBy as + openedBy bs := by
  rw [openedBy, List.map_append, List.sum_append]
  rfl

theorem openedBy_flatMap {α : Type} (f : α → List String) (as : List α) :
    openedBy (as.flatMap f) = (as.map fun a => openedBy (f a)).sum := by
  induction as with
  | nil => rfl
  | cons a as ih => rw [List.flatMap_cons, openedBy_append, ih, List.map_cons, List.sum_cons]

mutual

/-- An expression opens the placeholders of its string constants. -/
theorem opens_render : ∀ e : Expr, Opens (e.render .bigQuery) (openedBy e.strings)
  | .column none name => by
      rw [Expr.render]
      exact opens_ident name
  | .column (some qualifier) name => by
      rw [Expr.render]
      exact ((opens_ident qualifier).behind (by decide)).append (opens_ident name)
  | .str value => by
      rw [Expr.render]
      exact opens_literal value
  | .bool true | .bool false | .null | .currentTimestamp | .currentDate | .and [] =>
      opens_zero (by decide)
  | .castText e => by
      rw [Expr.render]
      exact ((((opens_render e).before (by decide)).behind (by decide)).behind (by decide)).behind
        (by decide)
  | .coalesce args => by
      rw [Expr.render]
      exact (((opensAll_render args).intercalate (by decide)).before (by decide)).behind (by decide)
  | .concat [part] => by
      rw [Expr.render, Expr.strings, Expr.stringsAll, Expr.stringsAll, List.append_nil]
      exact opens_render part
  | .concat [] => opens_zero (by decide)
  | .concat (part :: next :: parts) =>
      have hparts := (opensAll_render (part :: next :: parts)).intercalate (by decide)
      (hparts.before (by decide)).behind (by decide)
  | .charLength e => by
      rw [Expr.render]
      exact ((opens_render e).before (by decide)).behind (by decide)
  | .hexDigest e => by
      rw [Expr.render]
      exact ((opens_render e).before (by decide)).behind (by decide)
  | .compare op left right => by
      rw [Expr.render, Expr.strings, openedBy_append]
      refine Opens.append ?_ (opens_render right)
      exact (((opens_render left).behind (by decide)).behind (by cases op <;> decide)).behind
        (by decide)
  | .and [term] => by
      rw [Expr.render, Expr.strings, Expr.stringsAll, Expr.stringsAll, List.append_nil]
      exact opens_render term
  | .and (term :: next :: terms) =>
      (opensAll_render (term :: next :: terms)).intercalate (by decide)

theorem opensAll_render : ∀ es : List Expr,
    OpensAll (Expr.renderAll .bigQuery es) (openedBy (Expr.stringsAll es))
  | [] => .nil
  | e :: es => by
      rw [Expr.renderAll, Expr.stringsAll, openedBy_append]
      exact .cons (opens_render e) (opensAll_render es)

end

/-- How many placeholders the string constants of expressions open. -/
def openedIn (es : List Expr) : Nat := openedBy (es.flatMap Expr.strings)

@[simp] theorem openedIn_append (es fs : List Expr) :
    openedIn (es ++ fs) = openedIn es + openedIn fs := by
  rw [openedIn, List.flatMap_append, openedBy_append]
  rfl

@[simp] theorem openedIn_singleton (e : Expr) : openedIn [e] = openedBy e.strings := by
  rw [openedIn, List.flatMap_cons, List.flatMap_nil, List.append_nil]

theorem openedIn_flatMap {α : Type} (f : α → List Expr) (as : List α) :
    openedIn (as.flatMap f) = (as.map fun a => openedIn (f a)).sum := by
  rw [openedIn, List.flatMap_assoc, openedBy_flatMap]
  rfl

theorem openedIn_map {α : Type} (f : α → Expr) (as : List α) :
    openedIn (as.map f) = (as.map fun a => openedBy (f a).strings).sum := by
  rw [openedIn, List.flatMap_map, openedBy_flatMap]

theorem opens_renderList (es : List Expr) :
    Opens (Expr.renderList .bigQuery es) (openedIn es) := by
  rw [openedIn, ← Expr.stringsAll_eq_flatMap]
  exact (opensAll_render es).intercalate (by decide)

/-! ## 5. Selections -/

/-- The tables that a relation is. -/
def Relation.tables : Relation → Nat
  | table _ => 1
  | named _ => 0

/-- The tables that a selection reads. -/
def Select.tables (s : Select) : Nat :=
  s.source.relation.tables + (s.source.joins.map fun j => j.relation.tables).sum

theorem opens_relation (r : Relation) : Opens (r.render .bigQuery) r.tables := by
  cases r with
  | table t => exact opens_resolve t
  | named name => exact opens_ident name

theorem opens_item (i : SelectItem) : Opens (i.render .bigQuery) (openedIn i.exprs) := by
  cases i with
  | expr e asName =>
    rw [SelectItem.exprs, openedIn_singleton]
    cases asName with
    | none => exact opens_render e
    | some name =>
      simp only [SelectItem.render]
      split
      · exact opens_render e
      · exact ((opens_render e).behind (by decide)).append (opens_ident name)
  | wildcard qualifier =>
    cases qualifier with
    | none => exact opens_zero (by decide)
    | some qualifier => exact (opens_ident qualifier).behind (by decide)

theorem opensAll_items (items : List SelectItem) :
    OpensAll ((commaEnded (items.map (SelectItem.render .bigQuery))).map ("  " ++ ·))
      (openedIn (items.flatMap SelectItem.exprs)) := by
  rw [openedIn_flatMap]
  exact (opensAll_map fun i _ => opens_item i).commaEnded.map fun _ _ h => h.before (by decide)

theorem opensAll_join (j : Join) :
    OpensAll (j.render .bigQuery) (j.relation.tables + openedBy j.on.strings) := by
  refine .cons ?_ (opensAll_singleton ((opens_render j.on).before (by decide)))
  exact (((opens_relation j.relation).before (by decide)).behind (by decide)).append
    (opens_ident j.asName)

theorem opensAll_source (f : FromClause) :
    OpensAll (f.render .bigQuery) (f.relation.tables +
      (f.joins.map fun j => j.relation.tables + openedBy j.on.strings).sum) := by
  refine .cons ?_ (opensAll_flatMap fun j _ => opensAll_join j)
  have hrelation := (opens_relation f.relation).before (show '$' ∉ "FROM ".toList by decide)
  cases f.asName with
  | none => exact hrelation
  | some name => exact (hrelation.behind (by decide)).append (opens_ident name)

theorem opensAll_where (s : Select) :
    OpensAll (s.whereLines .bigQuery) (openedIn s.filter.toList) := by
  rw [whereLines_eq, Select.condition?]
  cases s.filter with
  | some condition =>
    rw [Option.toList_some, openedIn_singleton]
    exact opensAll_singleton ((opens_render condition).before (by decide))
  | none =>
    cases s.firstPer with
    | some first => exact opensAll_singleton (opens_zero (by decide))
    | none => exact .nil

theorem opensAll_dedup (s : Select) :
    OpensAll (s.dedupLines .bigQuery) (openedIn (s.firstPer.toList.flatMap FirstPer.exprs)) := by
  unfold Select.dedupLines
  cases s.firstPer with
  | none => exact .nil
  | some first =>
    rw [Option.toList_some, List.flatMap_cons, List.flatMap_nil, List.append_nil, FirstPer.exprs,
      openedIn_append]
    refine opensAll_singleton (Opens.behind ?_ (by decide))
    exact (((opens_renderList first.partitionBy).before (by decide)).behind (by decide)).append
      (opens_renderList first.orderBy)

theorem head_bigQuery (s : Select) :
    s.head .bigQuery = if s.distinct then "SELECT DISTINCT" else "SELECT" :=
  (head_eq s).resolve_left fun h => nomatch h.1

/-- A selection opens a placeholder for each table that it reads, and those of its string
constants. -/
theorem opensAll_select (s : Select) :
    OpensAll (s.render .bigQuery) (s.tables + openedIn s.exprs) := by
  have hhead : Opens (s.head .bigQuery) 0 := by
    rw [head_bigQuery]
    cases s.distinct <;> exact opens_zero (by decide)
  have hlines := (((OpensAll.cons hhead (opensAll_items s.items)).append
    (opensAll_source s.source)).append (opensAll_where s)).append (opensAll_dedup s)
  have hcount : 0 + openedIn (s.items.flatMap SelectItem.exprs) +
      (s.source.relation.tables +
        (s.source.joins.map fun j => j.relation.tables + openedBy j.on.strings).sum) +
      openedIn s.filter.toList + openedIn (s.firstPer.toList.flatMap FirstPer.exprs) =
        s.tables + openedIn s.exprs := by
    rw [List.sum_map_add, Select.tables, Select.exprs]
    simp only [openedIn_append, openedIn_map]
    omega
  rwa [hcount] at hlines

/-! ## 6. Queries and merges -/

namespace Query

mutual

/-- The tables that a query reads. -/
def tables : Query → Nat
  | select s => s.tables
  | unionAll branches => (branches.map Select.tables).sum
  | withQueries named body => namedTables named + tables body

def namedTables : List (Ident × Query) → Nat
  | [] => 0
  | (_, query) :: rest => tables query + namedTables rest

end

mutual

/-- The expressions of a query, in all its parts. -/
def exprs : Query → List Expr
  | select s => s.exprs
  | unionAll branches => branches.flatMap Select.exprs
  | withQueries named body => namedExprs named ++ exprs body

def namedExprs : List (Ident × Query) → List Expr
  | [] => []
  | (_, query) :: rest => exprs query ++ namedExprs rest

end

end Query

theorem opensAll_union (branches : List Select) :
    OpensAll (Query.renderUnion .bigQuery branches)
      ((branches.map Select.tables).sum + openedIn (branches.flatMap Select.exprs)) := by
  induction branches with
  | nil => exact .nil
  | cons branch branches ih =>
    have hcount : branch.tables + openedIn branch.exprs +
        ((branches.map Select.tables).sum + openedIn (branches.flatMap Select.exprs)) =
          ((branch :: branches).map Select.tables).sum +
            openedIn ((branch :: branches).flatMap Select.exprs) := by
      rw [List.map_cons, List.sum_cons, List.flatMap_cons, openedIn_append]
      omega
    rw [← hcount]
    cases branches with
    | nil => exact opensAll_select branch
    | cons next rest => exact (opensAll_select branch).append (ih.under (by decide))

mutual

/-- A query opens a placeholder for each table that it reads, and those of its string constants. -/
theorem opensAll_query : ∀ q : Query,
    OpensAll (q.render .bigQuery) (q.tables + openedIn q.exprs)
  | .select s => by
      rw [Query.render, Query.tables, Query.exprs]
      exact opensAll_select s
  | .unionAll branches => by
      rw [Query.render, Query.tables, Query.exprs]
      exact opensAll_union branches
  | .withQueries named body => by
      have hlines := (opensAll_named named (show '$' ∉ "WITH ".toList by decide)).append
        (opensAll_query body)
      rw [Query.render, Query.tables, Query.exprs, openedIn_append, Nat.add_add_add_comm]
      exact hlines

theorem opensAll_named : ∀ (named : List (Ident × Query)) {keyword : String},
    '$' ∉ keyword.toList → OpensAll (Query.renderNamed .bigQuery keyword named)
      (Query.namedTables named + openedIn (Query.namedExprs named))
  | [], _, _ => .nil
  | [(name, query)], _, hkeyword => by
      rw [Query.renderNamed, Query.namedTables, Query.namedTables, Query.namedExprs,
        Query.namedExprs, List.append_nil, Nat.add_zero]
      exact (opensAll_body name query hkeyword).append (opensAll_singleton (opens_zero (by decide)))
  | (name, query) :: next :: rest, _, hkeyword => by
      have hothers := opensAll_named (next :: rest) (show '$' ∉ "".toList by decide)
      rw [Query.namedTables, Query.namedExprs, openedIn_append, Nat.add_add_add_comm]
      exact (opensAll_body name query hkeyword).append (hothers.under (by decide))

/-- The lines of one named query, up to its last one. -/
theorem opensAll_body (name : Ident) (query : Query) {keyword : String}
    (hkeyword : '$' ∉ keyword.toList) :
    OpensAll ((keyword ++ name.text ++ " AS (") :: indent (query.render .bigQuery))
      (query.tables + openedIn query.exprs) := by
  have hlines := OpensAll.cons (((opens_ident name).before hkeyword).behind
    (show '$' ∉ " AS (".toList by decide)) (opensAll_query query).indent
  rwa [Nat.zero_add] at hlines

end

/-- The expressions of a clause of a merge. -/
def MergeClause.exprs : MergeClause → List Expr
  | matchedUpdate condition assignments => condition.toList ++ assignments.map Assignment.value
  | notMatchedInsert values => values.map Assignment.value

/-- The tables of a merge: the one that it writes, and those that its source reads. -/
def Merge.tables (m : Merge) : Nat := 1 + m.source.tables

/-- The expressions of a merge, in all its parts. -/
def Merge.exprs (m : Merge) : List Expr :=
  m.source.exprs ++ m.on :: m.clauses.flatMap MergeClause.exprs

theorem opens_assignment (a : Assignment) :
    Opens (a.render .bigQuery) (openedBy a.value.strings) := by
  have htext := ((opens_ident a.column).behind (show '$' ∉ " = ".toList by decide)).append
    (opens_render a.value)
  rwa [Nat.zero_add] at htext

theorem opensAll_clause (clause : MergeClause) :
    OpensAll (clause.render .bigQuery) (openedIn clause.exprs) := by
  cases clause with
  | matchedUpdate condition assignments =>
    rw [MergeClause.exprs, openedIn_append, openedIn_map]
    refine .cons ?_ ?_
    · cases condition with
      | none => exact opens_zero (by decide)
      | some c =>
        rw [Option.toList_some, openedIn_singleton]
        exact ((opens_render c).before (by decide)).behind (by decide)
    · have hset := opensAll_map fun a (_ : a ∈ assignments) => opens_assignment a
      exact OpensAll.under (by decide) (hset.commaEnded.map fun _ _ h => h.before (by decide))
  | notMatchedInsert values =>
    have hcomma : '$' ∉ ", ".toList := by decide
    have hnames := (opensAll_names Assignment.column values).intercalate hcomma
    have hvalues := (opensAll_map fun a (_ : a ∈ values) => opens_render a.value).intercalate hcomma
    have hlines := OpensAll.cons
      ((hnames.before (show '$' ∉ "  INSERT (".toList by decide)).behind
        (show '$' ∉ ")".toList by decide))
      (opensAll_singleton ((hvalues.before (show '$' ∉ "  VALUES (".toList by decide)).behind
        (show '$' ∉ ")".toList by decide)))
    rw [Nat.zero_add] at hlines
    rw [MergeClause.exprs, openedIn_map]
    exact hlines.under (by decide)

/-- A merge opens a placeholder for each of its tables, and those of its string constants. -/
theorem opensAll_merge (m : Merge) :
    OpensAll (m.render .bigQuery) (m.tables + openedIn m.exprs) := by
  have htarget := (((opens_resolve m.target).before
    (show '$' ∉ "MERGE INTO ".toList by decide)).behind (show '$' ∉ " AS ".toList by decide)).append
      (opens_ident m.targetAlias)
  have halias := (opens_ident m.sourceAlias).before (show '$' ∉ ") AS ".toList by decide)
  have hon := (opens_render m.on).before (show '$' ∉ "ON ".toList by decide)
  have hclauses := opensAll_flatMap fun c (_ : c ∈ m.clauses) => opensAll_clause c
  have husing := (opensAll_query m.source).indent.under (show '$' ∉ "USING (".toList by decide)
  have hsource := OpensAll.cons htarget husing
  have hlines := (hsource.append (.cons halias (opensAll_singleton hon))).append hclauses
  have hcount : m.tables + openedIn m.exprs =
      1 + 0 + (m.source.tables + openedIn m.source.exprs) + (0 + openedBy m.on.strings) +
        (m.clauses.map fun c => openedIn c.exprs).sum := by
    have hexprs : m.exprs = m.source.exprs ++ ([m.on] ++ m.clauses.flatMap MergeClause.exprs) := rfl
    rw [hexprs, Merge.tables, openedIn_append, openedIn_append, openedIn_singleton,
      openedIn_flatMap]
    omega
  rw [hcount]
  exact hlines

/-! ## 7. Statements -/

theorem placeholders_statement {lines : List String} {n : Nat} (h : OpensAll lines n) :
    placeholders (statement .bigQuery lines) = n :=
  (((h.intercalate (by decide)).behind (by decide)).behind (by decide)).1

theorem placeholders_query (q : Query) :
    placeholders (q.toSql .bigQuery) = q.tables + openedIn q.exprs :=
  placeholders_statement (opensAll_query q)

theorem placeholders_merge (m : Merge) :
    placeholders (m.toSql .bigQuery) = m.tables + openedIn m.exprs :=
  placeholders_statement (opensAll_merge m)

end DataVault.Sql
