/-
DataVault.Proofs.Sql.SelectionText — what the lines of a selection say.

The expressions of a plain selection are columns and string literals, and none
of its columns without a qualifier is named like a constant. Its lines give
back every part of it (`explicit_eq_of_render_eq`), but for what is written in
two ways: an alias that repeats the name of a column is left out, and in
PostgreSQL a bare table is written like a named query (`Select.explicit`
writes both out). Whether a selection is `DISTINCT` is lost where PostgreSQL
keeps the first row of each partition, and only there.

The lines are cut from the front. An item is indented, a join begins with
`INNER JOIN` and a condition with `WHERE`, so each part ends before the first
line that begins in another way.
-/
import DataVault.Proofs.Sql.ExpressionText
import DataVault.Sql.Query

namespace DataVault.Sql

open DataVault.Lists DataVault.Text

/-! ## 1. Plain selections -/

/-- A column that is not named like a constant, or a string literal. -/
def Expr.IsPlain (d : Dialect) : Expr → Prop
  | .column none name => constant? d name = none
  | .column (some _) _ | .str _ => True
  | _ => False

instance (d : Dialect) : DecidablePred (Expr.IsPlain d)
  | .column none name => inferInstanceAs (Decidable (constant? d name = none))
  | .column (some _) _ | .str _ => isTrue trivial
  | .bool _ | .null | .castText _ | .coalesce _ | .concat _ | .charLength _ | .hexDigest _
  | .currentTimestamp | .currentDate | .compare _ _ _ | .and _ => isFalse id

def SelectItem.exprs : SelectItem → List Expr
  | expr e _ => [e]
  | wildcard _ => []

def FirstPer.exprs (f : FirstPer) : List Expr := f.partitionBy ++ f.orderBy

def Select.exprs (s : Select) : List Expr :=
  s.items.flatMap SelectItem.exprs ++ s.source.joins.map Join.on ++ s.filter.toList ++
    s.firstPer.toList.flatMap FirstPer.exprs

def Select.IsPlain (d : Dialect) (s : Select) : Prop := ∀ e ∈ s.exprs, e.IsPlain d

instance (d : Dialect) : DecidablePred (Select.IsPlain d) :=
  fun s => inferInstanceAs (Decidable (∀ e ∈ s.exprs, e.IsPlain d))

/-- The item with the name of its column written out. -/
def SelectItem.explicit : SelectItem → SelectItem
  | expr (.column qualifier name) none => expr (.column qualifier name) (some name)
  | item => item

/-- The relation that a text is taken for. PostgreSQL writes a named query like a bare table. -/
def Relation.explicit : Dialect → Relation → Relation
  | .postgres, named name => table (.bare name)
  | _, relation => relation

def Join.explicit (d : Dialect) (j : Join) : Join := { j with relation := j.relation.explicit d }

def FromClause.explicit (d : Dialect) (f : FromClause) : FromClause :=
  ⟨f.relation.explicit d, f.asName, f.joins.map (Join.explicit d)⟩

/-- The selection with everything written out that its text leaves open. -/
def Select.explicit (d : Dialect) (s : Select) : Select :=
  { s with
    items := s.items.map SelectItem.explicit
    source := s.source.explicit d }

section
variable {d : Dialect}

theorem chain_plain {e : Expr} (h : e.IsPlain d) : e.chain d = .single e := by
  cases e with
  | column qualifier name =>
    cases qualifier with
    | none =>
      rw [Expr.chain, meaningOf, show constant? d name = none from h]
      rfl
    | some qualifier => rfl
  | str value => rfl
  | _ => cases h

/-- The text of a plain expression gives it back, with the text that follows. -/
theorem plain_append_inj {e f : Expr} (he : e.IsPlain d) (hf : f.IsPlain d) {r t : List Char}
    (hr : EndsText r) (ht : EndsText t)
    (h : (e.render d).toList ++ r = (f.render d).toList ++ t) : e = f ∧ r = t := by
  obtain ⟨hchain, hrest⟩ := chain_append_inj hr ht h
  rw [chain_plain he, chain_plain hf] at hchain
  exact ⟨congrArg Chain.first hchain, hrest⟩

theorem plain_inj {e f : Expr} (he : e.IsPlain d) (hf : f.IsPlain d)
    (h : e.render d = f.render d) : e = f :=
  (plain_append_inj he hf endsText_nil endsText_nil (congrArg (fun text => text.toList ++ []) h)).1

/-! ## 2. Lists of expressions -/

/-- The text ends a list of expressions. -/
def EndsList (rest : List Char) : Prop := link? rest = none ∧ ∀ c ∈ rest.head?, c = ' ' ∨ c = ')'

theorem endsList_nil : EndsList [] := ⟨rfl, nofun⟩

theorem endsList_of_head {rest : List Char} (hlink : link? rest = none) {c : Char}
    (hhead : rest.head? = some c) (hc : c = ' ' ∨ c = ')') : EndsList rest := by
  refine ⟨hlink, fun c' hc' => ?_⟩
  cases hhead.symm.trans hc'
  exact hc

theorem EndsList.endsText {rest : List Char} (h : EndsList rest) : EndsText rest := by
  refine ⟨fun c hc => ?_, h.1⟩
  rcases h.2 c hc with rfl | rfl <;> decide

theorem endsText_comma (rest : List Char) : EndsText (", ".toList ++ rest) :=
  ⟨endsOperand_of_head (c := ',') rfl (by decide) rest, rfl⟩

/-- Expressions with a comma before each of them. -/
def commaBefore (d : Dialect) (es : List Expr) : List Char :=
  es.flatMap fun e => ", ".toList ++ (e.render d).toList

theorem toList_renderList_cons (e : Expr) (es : List Expr) :
    (Expr.renderList d (e :: es)).toList = (e.render d).toList ++ commaBefore d es := by
  unfold Expr.renderList commaBefore
  rw [Expr.renderAll]
  induction es generalizing e with
  | nil => rw [Expr.renderAll, String.intercalate_singleton, List.flatMap_nil, List.append_nil]
  | cons next es ih =>
    rw [Expr.renderAll, String.intercalate_cons_cons, String.toList_append, String.toList_append,
      ih, List.flatMap_cons, List.append_assoc, List.append_assoc]

theorem commaBefore_cons_append (e : Expr) (es : List Expr) (r : List Char) :
    commaBefore d (e :: es) ++ r =
      ", ".toList ++ ((e.render d).toList ++ (commaBefore d es ++ r)) := by
  rw [commaBefore, List.flatMap_cons, List.append_assoc, List.append_assoc]
  rfl

theorem endsText_commaBefore {r : List Char} (hr : EndsList r) (es : List Expr) :
    EndsText (commaBefore d es ++ r) := by
  cases es with
  | nil => exact hr.endsText
  | cons e es =>
    rw [commaBefore_cons_append]
    exact endsText_comma _

theorem commaBefore_append_inj {es fs : List Expr} (hes : ∀ e ∈ es, e.IsPlain d)
    (hfs : ∀ f ∈ fs, f.IsPlain d) {r t : List Char} (hr : EndsList r) (ht : EndsList t)
    (h : commaBefore d es ++ r = commaBefore d fs ++ t) : es = fs ∧ r = t := by
  have hcomma : ∀ {r more : List Char}, EndsList r → r ≠ ", ".toList ++ more := by
    intro r more hr he
    exact absurd (hr.2 ',' (he ▸ rfl)) (by decide)
  induction es generalizing fs with
  | nil =>
    cases fs with
    | nil => exact ⟨rfl, h⟩
    | cons f fs => exact absurd (h.trans (commaBefore_cons_append f fs t)) (hcomma hr)
  | cons e es ih =>
    cases fs with
    | nil => exact absurd (h.symm.trans (commaBefore_cons_append e es r)) (hcomma ht)
    | cons f fs =>
      rw [List.forall_mem_cons] at hes hfs
      rw [commaBefore_cons_append, commaBefore_cons_append] at h
      obtain ⟨rfl, hrest⟩ := plain_append_inj hes.1 hfs.1 (endsText_commaBefore hr es)
        (endsText_commaBefore ht fs) (List.append_cancel_left h)
      obtain ⟨rfl, hend⟩ := ih hes.2 hfs.2 hrest
      exact ⟨rfl, hend⟩

/-- The text of a list of plain expressions gives it back, with the text that follows. -/
theorem renderList_append_inj {es fs : List Expr} (hes : ∀ e ∈ es, e.IsPlain d)
    (hfs : ∀ f ∈ fs, f.IsPlain d) {r t : List Char} (hr : EndsList r) (ht : EndsList t)
    (h : (Expr.renderList d es).toList ++ r = (Expr.renderList d fs).toList ++ t) :
    es = fs ∧ r = t := by
  have hempty : ∀ {r more : List Char} {f : Expr} {fs : List Expr}, EndsList r →
      r ≠ (Expr.renderList d (f :: fs)).toList ++ more := by
    intro r more f fs hr he
    obtain ⟨c, cs, hc, hstart⟩ := (readsAs_render (d := d) f).starts
    rw [toList_renderList_cons, hc] at he
    have hsigns : ∀ c, c = ' ' ∨ c = ')' → ¬ (c = '\'' ∨ Ident.isStart c = true) := by
      rintro _ (rfl | rfl) <;> decide
    exact hsigns c (hr.2 c (he ▸ rfl)) hstart
  cases es with
  | nil =>
    cases fs with
    | nil => exact ⟨rfl, h⟩
    | cons f fs => exact absurd h (hempty hr)
  | cons e es =>
    cases fs with
    | nil => exact absurd h.symm (hempty ht)
    | cons f fs =>
      rw [List.forall_mem_cons] at hes hfs
      rw [toList_renderList_cons, toList_renderList_cons, List.append_assoc,
        List.append_assoc] at h
      obtain ⟨rfl, hrest⟩ := plain_append_inj hes.1 hfs.1 (endsText_commaBefore hr es)
        (endsText_commaBefore ht fs) h
      obtain ⟨rfl, hend⟩ := commaBefore_append_inj hes.2 hfs.2 hr ht hrest
      exact ⟨rfl, hend⟩

/-! ## 3. Names behind `AS` -/

/-- What a name adds to the text that it is given to. -/
def asText : Option Ident → List Char
  | none => []
  | some name => " AS ".toList ++ name.text.toList

theorem asText_inj {a b : Option Ident} (h : asText a = asText b) : a = b := by
  cases a with
  | none =>
    cases b with
    | none => rfl
    | some b => cases h
  | some a =>
    cases b with
    | none => cases h
    | some b =>
      have hname := String.toList_inj.mp (List.append_cancel_left h)
      exact congrArg some (Ident.ext_text hname)

theorem endsText_asText (a : Option Ident) : EndsText (asText a) := by
  cases a with
  | none => exact endsText_nil
  | some a => exact ⟨endsOperand_of_head (c := ' ') rfl (by decide) _, rfl⟩

/-! ## 4. Items -/

/-- No expression is written like a name but the column with that name. -/
theorem eq_field_of_render {e : Expr} (he : e.IsPlain d) {name : Ident}
    (h : e.render d = name.text) : e = .field name := by
  match e, he with
  | .column none own, _ =>
    rw [Expr.render] at h
    rw [Ident.ext_text h]
    rfl
  | .column (some qualifier) own, _ =>
    rw [Expr.render] at h
    refine absurd (show '.' ∈ name.text.toList from ?_) (notMem_of_isPart_eq_false (by decide))
    rw [← h, String.toList_append, String.toList_append]
    simp
  | .str value, _ =>
    have hread : Literal.read? d ((d.stringLiteral value).toList ++ []) = some (value, []) :=
      Literal.read?_stringLiteral (by decide) d value
    rw [Expr.render] at h
    rw [h, literal_read?_word name.spelled d (by decide)] at hread
    cases hread

/-- The text of an item: that of its expression, and its name unless that is the text already. -/
theorem toList_render_expr (e : Expr) (a : Option Ident) :
    ∃ written, ((SelectItem.expr e a).render d).toList = (e.render d).toList ++ asText written ∧
      (written = a ∨ ∃ name, a = some name ∧ written = none ∧ e.render d = name.text) := by
  cases a with
  | none => exact ⟨none, (List.append_nil _).symm, .inl rfl⟩
  | some name =>
    simp only [SelectItem.render]
    split
    · next hsame => exact ⟨none, (List.append_nil _).symm, .inr ⟨name, rfl, rfl, hsame⟩⟩
    · refine ⟨some name, ?_, .inl rfl⟩
      rw [String.toList_append, String.toList_append, List.append_assoc]
      rfl

/-- An alias that is left out is that of a column with its name. -/
theorem explicit_of_written {e : Expr} (he : e.IsPlain d) {a written : Option Ident}
    (h : written = a ∨ ∃ name, a = some name ∧ written = none ∧ e.render d = name.text) :
    (SelectItem.expr e a).explicit = (SelectItem.expr e written).explicit := by
  rcases h with rfl | ⟨name, rfl, rfl, hsame⟩
  · rfl
  · rw [eq_field_of_render he hsame]
    rfl

/-- All columns of a relation are no operand. -/
theorem readChain_wildcard (qualifier : Ident) :
    readChain d (qualifier.text.toList ++ ".*".toList) = none := by
  have hstop : ∀ c ∈ (".*".toList).head?, Ident.isPart c = false := by
    rintro _ ⟨⟩
    rfl
  have hname : readName d (qualifier.text.toList ++ ".*".toList) = none := by
    rw [readName, nameAt?_append qualifier hstop, (wordAt_append qualifier.spelled hstop).2]
    rfl
  rw [readChain, readOperand, literal_read?_word qualifier.spelled d (by decide)]
  simp only [call?_eq_none qualifier.spelled hstop (by decide), hname]
  rfl

theorem expr_ne_wildcard {e : Expr} {a q : Option Ident} :
    (SelectItem.expr e a).render d ≠ (SelectItem.wildcard q).render d := by
  intro h
  obtain ⟨written, htext, -⟩ := toList_render_expr (d := d) e a
  rw [h] at htext
  have hreads := readsAs_render (d := d) e
  cases q with
  | none =>
    obtain ⟨c, rest, hc, hstart⟩ := startsOperand_append hreads.starts (asText written)
    rw [← htext, SelectItem.render] at hc
    have hfirst : some '*' = some c := congrArg List.head? hc
    rw [← Option.some.inj hfirst] at hstart
    exact absurd hstart (by decide)
  | some q =>
    have hchain := hreads.readChain_eq (endsText_asText written).1 (endsText_asText written).2
    rw [← htext, SelectItem.render, String.toList_append, readChain_wildcard] at hchain
    cases hchain

theorem item_render_inj {i j : SelectItem} (hi : ∀ e ∈ i.exprs, e.IsPlain d)
    (hj : ∀ e ∈ j.exprs, e.IsPlain d) (h : i.render d = j.render d) : i.explicit = j.explicit := by
  cases i with
  | expr e a =>
    cases j with
    | expr f b =>
      have he := hi e (List.mem_singleton.mpr rfl)
      have hf := hj f (List.mem_singleton.mpr rfl)
      obtain ⟨written, htext, hwritten⟩ := toList_render_expr (d := d) e a
      obtain ⟨written', htext', hwritten'⟩ := toList_render_expr (d := d) f b
      rw [h, htext'] at htext
      obtain ⟨rfl, hnames⟩ :=
        plain_append_inj hf he (endsText_asText written') (endsText_asText written) htext
      rw [explicit_of_written he hwritten, explicit_of_written he hwritten', asText_inj hnames]
    | wildcard q => exact absurd h expr_ne_wildcard
  | wildcard p =>
    cases j with
    | expr f b => exact absurd h.symm expr_ne_wildcard
    | wildcard q =>
      have hstar : ∀ q : Ident, (q.text ++ ".*").toList ≠ "*".toList := by
        intro q he
        obtain ⟨c, rest, hc, hstart⟩ := startsOperand_word q.spelled
        rw [String.toList_append, hc] at he
        have hfirst : some c = some '*' := congrArg List.head? he
        rw [Option.some.inj hfirst] at hstart
        exact absurd hstart (by decide)
      cases p with
      | none =>
        cases q with
        | none => rfl
        | some q => exact absurd (congrArg String.toList h).symm (hstar q)
      | some p =>
        cases q with
        | none => exact absurd (congrArg String.toList h) (hstar p)
        | some q => rw [Ident.ext_text ((String.append_left_inj ".*").mp h)]

/-! ## 5. Lines of items -/

theorem commaEnded_inj {as bs : List String} (h : commaEnded as = commaEnded bs) : as = bs := by
  induction as generalizing bs with
  | nil =>
    match bs, h with
    | [], _ => rfl
    | b :: bs, h => cases bs <;> cases h
  | cons a as ih =>
    match as, bs, h with
    | [], [], h => cases h
    | [], [b], h => exact h
    | [], b :: b' :: bs, h => cases bs <;> cases h
    | a' :: as, [], h => cases h
    | a' :: as, [b], h => cases as <;> cases h
    | a' :: as, b :: b' :: bs, h =>
      obtain ⟨hfirst, hrest⟩ := List.cons.inj h
      rw [(String.append_left_inj ",").mp hfirst, ih hrest]

/-- The line is indented. -/
def isIndented (line : String) : Bool := line.toList.head? == some ' '

theorem items_inj {is js : List SelectItem} (his : ∀ e ∈ is.flatMap SelectItem.exprs, e.IsPlain d)
    (hjs : ∀ e ∈ js.flatMap SelectItem.exprs, e.IsPlain d)
    (h : is.map (SelectItem.render d) = js.map (SelectItem.render d)) :
    is.map SelectItem.explicit = js.map SelectItem.explicit := by
  induction is generalizing js with
  | nil =>
    cases js with
    | nil => rfl
    | cons j js => cases h
  | cons i is ih =>
    cases js with
    | nil => cases h
    | cons j js =>
      rw [List.flatMap_cons, List.forall_mem_append] at his hjs
      obtain ⟨hfirst, hrest⟩ := List.cons.inj h
      rw [List.map_cons, List.map_cons, item_render_inj his.1 hjs.1 hfirst, ih his.2 hjs.2 hrest]

/-- The lines of the items end before the first line that is not indented, and give their texts
back. -/
theorem itemTexts_append_inj {as bs r t : List String}
    (hr : ∀ line ∈ r.head?, isIndented line = false)
    (ht : ∀ line ∈ t.head?, isIndented line = false)
    (h : (commaEnded as).map ("  " ++ ·) ++ r = (commaEnded bs).map ("  " ++ ·) ++ t) :
    as = bs ∧ r = t := by
  have hindented : ∀ lines : List String, ∀ l ∈ lines.map ("  " ++ ·), isIndented l = true := by
    intro lines
    refine List.forall_mem_map.mpr fun l _ => ?_
    rw [isIndented, String.toList_append]
    rfl
  have hinjective : Function.Injective ("  " ++ · : String → String) :=
    fun _ _ => (String.append_right_inj "  ").mp
  obtain ⟨hlines, hrest⟩ := append_inj_of_all (hindented _) (hindented _) hr ht h
  exact ⟨commaEnded_inj (List.map_injective_iff.mpr hinjective hlines), hrest⟩

theorem itemLines_append_inj {is js : List SelectItem}
    (his : ∀ e ∈ is.flatMap SelectItem.exprs, e.IsPlain d)
    (hjs : ∀ e ∈ js.flatMap SelectItem.exprs, e.IsPlain d) {r t : List String}
    (hr : ∀ line ∈ r.head?, isIndented line = false)
    (ht : ∀ line ∈ t.head?, isIndented line = false)
    (h : (commaEnded (is.map (SelectItem.render d))).map ("  " ++ ·) ++ r =
      (commaEnded (js.map (SelectItem.render d))).map ("  " ++ ·) ++ t) :
    is.map SelectItem.explicit = js.map SelectItem.explicit ∧ r = t := by
  obtain ⟨htexts, hrest⟩ := itemTexts_append_inj hr ht h
  exact ⟨items_inj his hjs htexts, hrest⟩

/-! ## 6. What a selection reads -/

/-- A name behind `AS` ends a reference. -/
theorem endsReference_asText (a : Option Ident) : EndsReference (asText a) :=
  fun c hc => ⟨((endsText_asText a).1 c hc).1, ((endsText_asText a).1 c hc).2.1⟩

theorem head?_placeholder (t : TableRef) (r : List Char) :
    ((Dialect.bigQuery.resolve t).toList ++ r).head? = some '$' := by
  cases t with
  | bare name => rw [toList_bare]; rfl
  | inSchema schema name => rw [toList_inSchema]; rfl
  | inDatabase database schema name => rw [toList_inDatabase]; rfl

/-- The text of a relation gives back what it is taken for, with the text that follows. -/
theorem relation_append_inj {p q : Relation} {r t : List Char} (hr : EndsReference r)
    (ht : EndsReference t) (h : (p.render d).toList ++ r = (q.render d).toList ++ t) :
    p.explicit d = q.explicit d ∧ r = t := by
  cases d with
  | bigQuery =>
    -- A placeholder begins with a dollar sign, which no name does.
    have hkinds : ∀ (u : TableRef) (name : Ident) (r t : List Char),
        (Dialect.bigQuery.resolve u).toList ++ r ≠ name.text.toList ++ t := by
      intro u name r t he
      obtain ⟨c, cs, hc, hstart⟩ := startsOperand_word name.spelled
      have hhead := head?_placeholder u r
      rw [he, hc, List.cons_append, List.head?_cons] at hhead
      rw [Option.some.inj hhead] at hstart
      exact absurd hstart (by decide)
    cases p with
    | table u =>
      cases q with
      | table v =>
        obtain ⟨rfl, hrest⟩ := placeholder_append_inj h
        exact ⟨rfl, hrest⟩
      | named name => exact absurd h (hkinds u name r t)
    | named name =>
      cases q with
      | table v => exact absurd h.symm (hkinds v name t r)
      | named other =>
        obtain ⟨rfl, hrest⟩ :=
          ident_append_inj (endsReference_isPart hr) (endsReference_isPart ht) h
        exact ⟨rfl, hrest⟩
  | postgres =>
    have hdotted : ∀ p : Relation, ∃ u, p.explicit .postgres = .table u ∧
        p.render .postgres = u.dotted := by
      intro p
      cases p with
      | table u => exact ⟨u, rfl, rfl⟩
      | named name => exact ⟨.bare name, rfl, (textsJoined_singleton "." name).symm⟩
    obtain ⟨u, hu, htext⟩ := hdotted p
    obtain ⟨v, hv, htext'⟩ := hdotted q
    rw [htext, htext'] at h
    obtain ⟨rfl, hrest⟩ := dotted_append_inj hr ht h
    exact ⟨hu.trans hv.symm, hrest⟩

theorem FromClause.render_eq (f : FromClause) :
    ∃ line, f.render d = line :: f.joins.flatMap (Join.render d) ∧
      line.toList = "FROM ".toList ++ ((f.relation.render d).toList ++ asText f.asName) := by
  refine ⟨_, rfl, ?_⟩
  cases f.asName with
  | none => rw [String.toList_append, asText, List.append_nil]
  | some name => simp only [String.toList_append, List.append_assoc, asText]

theorem toList_joinLine (j : Join) :
    ("INNER JOIN " ++ j.relation.render d ++ " AS " ++ j.asName.text).toList =
      "INNER JOIN ".toList ++ ((j.relation.render d).toList ++ asText (some j.asName)) := by
  simp only [String.toList_append, List.append_assoc, asText]

theorem join_inj {j k : Join} (hj : j.on.IsPlain d) (hk : k.on.IsPlain d)
    (h : j.render d = k.render d) : j.explicit d = k.explicit d := by
  obtain ⟨hline, hcondition, -⟩ : _ ∧ _ ∧ _ := by simpa only [Join.render, List.cons.injEq] using h
  have hchars := congrArg String.toList hline
  rw [toList_joinLine, toList_joinLine] at hchars
  obtain ⟨hrelation, hnames⟩ := relation_append_inj (endsReference_asText _)
    (endsReference_asText _) (List.append_cancel_left hchars)
  have hon := plain_inj hj hk ((String.append_right_inj "  ON ").mp hcondition)
  unfold Join.explicit
  rw [hrelation, Option.some.inj (asText_inj hnames), hon]

/-- The line is the first one of a join. -/
def isJoin (line : String) : Bool := line.toList.head? == some 'I'

/-- The joins end before the first line that begins none. -/
theorem joins_append_inj {js ks : List Join} (hjs : ∀ j ∈ js, j.on.IsPlain d)
    (hks : ∀ k ∈ ks, k.on.IsPlain d) {r t : List String}
    (hr : ∀ line ∈ r.head?, isJoin line = false) (ht : ∀ line ∈ t.head?, isJoin line = false)
    (h : js.flatMap (Join.render d) ++ r = ks.flatMap (Join.render d) ++ t) :
    js.map (Join.explicit d) = ks.map (Join.explicit d) ∧ r = t := by
  have hjoin : ∀ {r more : List String} {k : Join}, (∀ line ∈ r.head?, isJoin line = false) →
      r ≠ k.render d ++ more := by
    intro r more k hr he
    rw [he] at hr
    have hline := hr _ rfl
    rw [isJoin, toList_joinLine] at hline
    cases hline
  induction js generalizing ks with
  | nil =>
    cases ks with
    | nil => exact ⟨rfl, h⟩
    | cons k ks =>
      rw [List.flatMap_cons, List.append_assoc] at h
      exact absurd h (hjoin hr)
  | cons j js ih =>
    cases ks with
    | nil =>
      rw [List.flatMap_cons, List.append_assoc] at h
      exact absurd h.symm (hjoin ht)
    | cons k ks =>
      rw [List.forall_mem_cons] at hjs hks
      rw [List.flatMap_cons, List.flatMap_cons, List.append_assoc, List.append_assoc] at h
      obtain ⟨hfirst, hrest⟩ := List.append_inj h rfl
      obtain ⟨hothers, hend⟩ := ih hjs.2 hks.2 hrest
      rw [List.map_cons, List.map_cons, join_inj hjs.1 hks.1 hfirst, hothers]
      exact ⟨rfl, hend⟩

/-! ## 7. Conditions and first rows -/

/-- The condition that is written, if there is one. -/
def Select.condition? (d : Dialect) (s : Select) : Option Expr :=
  match s.filter, s.firstPer, d.rowDedup with
  | some condition, _, _ => some condition
  | none, some _, .qualify => some (.bool true)
  | none, _, _ => none

theorem whereLines_eq (s : Select) :
    s.whereLines d = (s.condition? d).toList.map fun c => "WHERE " ++ c.render d := by
  unfold Select.whereLines Select.condition?
  cases s.filter with
  | some condition => rfl
  | none =>
    cases s.firstPer with
    | some first => cases d <;> rfl
    | none => rfl

/-- The line is a condition. -/
def isCondition (line : String) : Bool := line.toList.head? == some 'W'

theorem isCondition_of_mem {s : Select} : ∀ line ∈ s.whereLines d, isCondition line = true := by
  rw [whereLines_eq]
  refine List.forall_mem_map.mpr fun c _ => ?_
  rw [isCondition, String.toList_append]
  rfl

/-- No condition is written like the one that stands where there is none. -/
theorem render_ne_true {e : Expr} (he : e.IsPlain d) : e.render d ≠ (Expr.bool true).render d := by
  intro h
  have hchain := chain_eq_of_render_eq h
  rw [chain_plain he] at hchain
  cases congrArg Chain.first hchain
  exact he

theorem filter_inj {s t : Select} (hs : ∀ e ∈ s.filter, e.IsPlain d)
    (ht : ∀ e ∈ t.filter, e.IsPlain d) (h : s.whereLines d = t.whereLines d) :
    s.filter = t.filter := by
  have htext : ∀ {e f : Expr}, ["WHERE " ++ e.render d] = ["WHERE " ++ f.render d] →
      e.render d = f.render d :=
    fun h => (String.append_right_inj "WHERE ").mp (List.cons.inj h).1
  have halone : ∀ {e : Expr} {t : Select}, e.IsPlain d → t.filter = none →
      ["WHERE " ++ e.render d] ≠ t.whereLines d := by
    intro e t he ht h
    rw [whereLines_eq, Select.condition?, ht] at h
    cases hfirst : t.firstPer with
    | none => rw [hfirst] at h; cases h
    | some first =>
      rw [hfirst] at h
      cases d with
      | bigQuery => exact render_ne_true he (htext h)
      | postgres => cases h
  have hwritten : ∀ {s : Select} {e : Expr}, s.filter = some e →
      s.whereLines d = ["WHERE " ++ e.render d] := by
    intro s e he
    rw [whereLines_eq, Select.condition?, he]
    rfl
  cases hes : s.filter with
  | none =>
    cases het : t.filter with
    | none => rfl
    | some f => exact absurd (h.trans (hwritten het)).symm (halone (ht f het) hes)
  | some e =>
    cases het : t.filter with
    | none => exact absurd ((hwritten hes).symm.trans h) (halone (hs e hes) het)
    | some f =>
      rw [hwritten hes, hwritten het] at h
      rw [plain_inj (hs e hes) (ht f het) (htext h)]

/-- BigQuery writes what the first rows are taken by into one line. -/
theorem toList_qualify (partition order : String) :
    ("QUALIFY ROW_NUMBER() OVER (PARTITION BY " ++ partition ++ " ORDER BY " ++ order ++
        ") = 1").toList =
      "QUALIFY ROW_NUMBER() OVER (PARTITION BY ".toList ++ (partition.toList ++
        (" ORDER BY ".toList ++ (order.toList ++ ") = 1".toList))) := by
  simp only [String.toList_append, List.append_assoc]

/-- The line gives both lists back: no expression goes on with the words behind it. -/
theorem qualify_inj {f g : FirstPer} (hf : ∀ e ∈ f.exprs, e.IsPlain .bigQuery)
    (hg : ∀ e ∈ g.exprs, e.IsPlain .bigQuery)
    (h : "QUALIFY ROW_NUMBER() OVER (PARTITION BY " ++ Expr.renderList .bigQuery f.partitionBy ++
        " ORDER BY " ++ Expr.renderList .bigQuery f.orderBy ++ ") = 1" =
      "QUALIFY ROW_NUMBER() OVER (PARTITION BY " ++ Expr.renderList .bigQuery g.partitionBy ++
        " ORDER BY " ++ Expr.renderList .bigQuery g.orderBy ++ ") = 1") : f = g := by
  obtain ⟨hpartition, horder⟩ := List.forall_mem_append.mp hf
  obtain ⟨hpartition', horder'⟩ := List.forall_mem_append.mp hg
  have hends (rest : List Char) : EndsList (" ORDER BY ".toList ++ rest) :=
    endsList_of_head rfl rfl (.inl rfl)
  have hlast : EndsList ") = 1".toList := endsList_of_head rfl rfl (.inr rfl)
  have hchars := congrArg String.toList h
  rw [toList_qualify, toList_qualify] at hchars
  obtain ⟨hby, hrest⟩ := renderList_append_inj hpartition hpartition' (hends _) (hends _)
    (List.append_cancel_left hchars)
  obtain ⟨hthen, -⟩ := renderList_append_inj horder horder' hlast hlast
    (List.append_cancel_left hrest)
  cases f
  cases g
  cases hby
  cases hthen
  rfl

/-- PostgreSQL writes the partition into the first line, and again before the order. -/
theorem distinctOn_inj {f g : FirstPer} (hf : ∀ e ∈ f.exprs, e.IsPlain .postgres)
    (hg : ∀ e ∈ g.exprs, e.IsPlain .postgres)
    (hhead : "SELECT DISTINCT ON (" ++ Expr.renderList .postgres f.partitionBy ++ ")" =
      "SELECT DISTINCT ON (" ++ Expr.renderList .postgres g.partitionBy ++ ")")
    (hlast : "ORDER BY " ++ Expr.renderList .postgres f.partitionBy ++ ", " ++
        Expr.renderList .postgres f.orderBy =
      "ORDER BY " ++ Expr.renderList .postgres g.partitionBy ++ ", " ++
        Expr.renderList .postgres g.orderBy) : f = g := by
  obtain ⟨hpartition, horder⟩ := List.forall_mem_append.mp hf
  obtain ⟨hpartition', horder'⟩ := List.forall_mem_append.mp hg
  have hclose : EndsList ")".toList := endsList_of_head rfl rfl (.inr rfl)
  have hchars := congrArg String.toList hhead
  simp only [String.toList_append, List.append_assoc] at hchars
  obtain ⟨hby, -⟩ := renderList_append_inj hpartition hpartition' hclose hclose
    (List.append_cancel_left hchars)
  rw [hby] at hlast
  have horders := congrArg String.toList ((String.append_right_inj _).mp hlast)
  obtain ⟨hthen, -⟩ := renderList_append_inj horder horder' endsList_nil endsList_nil
    (congrArg (· ++ []) horders)
  cases f
  cases g
  cases hby
  cases hthen
  rfl

/-- What the first rows are taken by is read from the line behind the condition, and in PostgreSQL
from the first line as well. -/
theorem firstPer_inj {s t : Select} (hs : ∀ f ∈ s.firstPer, ∀ e ∈ f.exprs, e.IsPlain d)
    (ht : ∀ f ∈ t.firstPer, ∀ e ∈ f.exprs, e.IsPlain d) (hhead : s.head d = t.head d)
    (h : s.dedupLines d = t.dedupLines d) : s.firstPer = t.firstPer := by
  unfold Select.dedupLines at h
  unfold Select.head at hhead
  cases hfs : s.firstPer with
  | none =>
    cases hft : t.firstPer with
    | none => rfl
    | some g =>
      rw [hfs, hft] at h
      cases d <;> cases h
  | some f =>
    cases hft : t.firstPer with
    | none =>
      rw [hfs, hft] at h
      cases d <;> cases h
    | some g =>
      rw [hfs, hft] at h hhead
      cases d with
      | bigQuery => exact congrArg some (qualify_inj (hs f hfs) (ht g hft) (List.cons.inj h).1)
      | postgres =>
        exact congrArg some (distinctOn_inj (hs f hfs) (ht g hft) hhead (List.cons.inj h).1)

/-- The first line says whether the rows are distinct, but where PostgreSQL keeps the first row of
each partition. -/
theorem head_eq (s : Select) :
    d = .postgres ∧ s.firstPer.isSome = true ∨
      s.head d = if s.distinct then "SELECT DISTINCT" else "SELECT" := by
  unfold Select.head
  cases s.firstPer with
  | none => exact .inr rfl
  | some first =>
    cases d with
    | bigQuery => exact .inr rfl
    | postgres => exact .inl ⟨rfl, rfl⟩

theorem distinct_inj {s t : Select} (hfirst : s.firstPer = t.firstPer)
    (hhead : s.head d = t.head d) :
    d = .postgres ∧ s.firstPer.isSome = true ∨ s.distinct = t.distinct := by
  rcases head_eq (d := d) s with hlost | hs
  · exact .inl hlost
  rcases head_eq (d := d) t with hlost | ht
  · exact .inl (hfirst ▸ hlost)
  · right
    rw [hs, ht] at hhead
    revert hhead
    cases s.distinct <;> cases t.distinct <;> decide

/-! ## 8. Selections -/

theorem head?_dedupLine {s : Select} :
    ∀ line ∈ s.dedupLines d, line.toList.head? = some 'Q' ∨ line.toList.head? = some 'O' := by
  unfold Select.dedupLines
  cases s.firstPer with
  | none => nofun
  | some first =>
    cases d with
    | bigQuery =>
      refine List.forall_mem_singleton.mpr (.inl ?_)
      rw [toList_qualify]
      rfl
    | postgres =>
      refine List.forall_mem_singleton.mpr (.inr ?_)
      simp only [String.toList_append, List.append_assoc]
      rfl

/-- A condition ends before the line that keeps the first rows. -/
theorem isCondition_dedupLine {s : Select} : ∀ line ∈ s.dedupLines d, isCondition line = false := by
  intro line hline
  unfold isCondition
  rcases head?_dedupLine line hline with hsign | hsign <;> rw [hsign] <;> rfl

/-- The joins end before a condition, and before the line that keeps the first rows. -/
theorem isJoin_behindJoins {s : Select} :
    ∀ line ∈ (s.whereLines d ++ s.dedupLines d).head?, isJoin line = false := by
  intro line hline
  unfold isJoin
  rcases List.mem_append.mp (List.mem_of_mem_head? hline) with hwhere | hdedup
  · have hsign := isCondition_of_mem line hwhere
    unfold isCondition at hsign
    rw [eq_of_beq hsign]
    rfl
  · rcases head?_dedupLine line hdedup with hsign | hsign <;> rw [hsign] <;> rfl

/-- The items end before the line that names the relation. -/
theorem isIndented_fromLine {line : String} {more : List Char}
    (h : line.toList = "FROM ".toList ++ more) (rest : List String) :
    ∀ l ∈ (line :: rest).head?, isIndented l = false := by
  rintro _ ⟨⟩
  rw [isIndented, h]
  rfl

/-- The lines of a plain selection give back every part of it, but for whether its rows are distinct
where PostgreSQL keeps the first row of each partition. -/
theorem explicit_eq_of_render_eq {s t : Select} (hs : s.IsPlain d) (ht : t.IsPlain d)
    (h : s.render d = t.render d) :
    t.explicit d = { s.explicit d with distinct := t.distinct } ∧
      (d = .postgres ∧ s.firstPer.isSome = true ∨ s.distinct = t.distinct) := by
  unfold Select.IsPlain Select.exprs at hs ht
  simp only [List.forall_mem_append, List.forall_mem_map, Option.mem_toList] at hs ht
  obtain ⟨⟨⟨hitems, hjoins⟩, hfilter⟩, hfirst⟩ := hs
  obtain ⟨⟨⟨hitems', hjoins'⟩, hfilter'⟩, hfirst'⟩ := ht
  simp only [List.forall_mem_flatMap, Option.mem_toList] at hfirst hfirst'
  simp only [Select.render, List.cons_append, List.append_assoc, List.cons.injEq] at h
  obtain ⟨hhead, hlines⟩ := h
  obtain ⟨line, hfrom, hline⟩ := s.source.render_eq (d := d)
  obtain ⟨line', hfrom', hline'⟩ := t.source.render_eq (d := d)
  rw [hfrom, hfrom', List.cons_append, List.cons_append] at hlines
  obtain ⟨hitemsEq, hsources⟩ := itemLines_append_inj hitems hitems'
    (isIndented_fromLine hline _) (isIndented_fromLine hline' _) hlines
  obtain ⟨rfl, hothers⟩ := List.cons.inj hsources
  rw [hline] at hline'
  obtain ⟨hrelation, hnames⟩ := relation_append_inj (endsReference_asText _)
    (endsReference_asText _) (List.append_cancel_left hline')
  obtain ⟨hjoinsEq, hconditions⟩ :=
    joins_append_inj hjoins hjoins' isJoin_behindJoins isJoin_behindJoins hothers
  obtain ⟨hwhereEq, hdedupEq⟩ := append_inj_of_all isCondition_of_mem isCondition_of_mem
    (fun l hl => isCondition_dedupLine l (List.mem_of_mem_head? hl))
    (fun l hl => isCondition_dedupLine l (List.mem_of_mem_head? hl)) hconditions
  have hfirstPer := firstPer_inj hfirst hfirst' hhead hdedupEq
  refine ⟨?_, distinct_inj hfirstPer hhead⟩
  unfold Select.explicit FromClause.explicit
  rw [hitemsEq, hrelation, asText_inj hnames, hjoinsEq, filter_inj hfilter hfilter' hwhereEq,
    hfirstPer]

end

end DataVault.Sql
