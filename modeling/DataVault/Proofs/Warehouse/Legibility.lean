/-
DataVault.Proofs.Warehouse.Legibility — when the text of an expression says
what the expression means.

A text is read with comparisons before conjunctions, and comparisons from the
left. A tree is `Legible` if that is how it is built, and if none of its
columns is named like a constant. The chain of a legible tree then stands for
a tree with the same value (`eval_toExpr`), so that legible trees with one
text have one value, whatever the columns hold.
-/
import DataVault.Proofs.Sql.ExpressionText
import DataVault.Proofs.Warehouse.Expression

/-! ## 1. Legible trees -/

namespace DataVault.Sql.Expr

/-- How close the parts of a text hang together. -/
inductive Level where
  | operand
  | comparison
  | conjunction
  deriving DecidableEq

/-- The level of the text of a tree. A list of one part is that part. -/
def level : Expr → Level
  | compare _ _ _ => .comparison
  | and (_ :: _ :: _) => .conjunction
  | and [e] | concat [e] => level e
  | _ => .operand

mutual

/-- No column is named like a constant, and no parentheses are missing: a comparison is between
an operand on the right and what is no conjunction on the left. -/
def Legible (d : Dialect) : Expr → Prop
  | column none name => constant? d name = none
  | column (some _) _ | str _ | bool _ | null | currentTimestamp | currentDate => True
  | castText e | charLength e | hexDigest e => Legible d e
  | coalesce args | concat args | and args => LegibleAll d args
  | compare _ left right =>
      Legible d left ∧ Legible d right ∧ left.level ≠ .conjunction ∧ right.level = .operand

def LegibleAll (d : Dialect) : List Expr → Prop
  | [] => True
  | e :: es => Legible d e ∧ LegibleAll d es

end

end DataVault.Sql.Expr

namespace DataVault.Warehouse

open DataVault.Sql

/-! ## 2. Conjunctions -/

theorem Datum.both_assoc (a b c : Datum) :
    (do Datum.both (← Datum.both a b) c) = (do Datum.both a (← Datum.both b c)) := by
  rcases a with _ | _ | (_ | _) | _ | _ <;> rcases b with _ | _ | (_ | _) | _ | _ <;>
    rcases c with _ | _ | (_ | _) | _ | _ <;> rfl

section
variable {session : Session} {read : Reader}

theorem eval_and_singleton (e : Expr) : eval session read (.and [e]) = eval session read e := by
  simp only [eval, evalAll]
  cases eval session read e <;> rfl

theorem eval_and_cons (e : Expr) {es : List Expr} (hes : es ≠ []) :
    eval session read (.and (e :: es)) =
      (do Datum.both (← eval session read e) (← eval session read (.and es))) := by
  obtain ⟨next, rest, rfl⟩ := List.exists_cons_of_ne_nil hes
  simp only [eval, evalAll]
  cases eval session read e with
  | none => rfl
  | some a =>
    cases eval session read next with
    | none => rfl
    | some b => cases evalAll session read rest <;> rfl

/-- A conjunction of two lists of terms is that of their conjunctions. -/
theorem eval_and_append {xs ys : List Expr} (hxs : xs ≠ []) (hys : ys ≠ []) :
    eval session read (.and (xs ++ ys)) =
      (do Datum.both (← eval session read (.and xs)) (← eval session read (.and ys))) := by
  induction xs with
  | nil => exact absurd rfl hxs
  | cons x xs ih =>
    rw [List.cons_append, eval_and_cons x (List.append_ne_nil_of_right_ne_nil xs hys)]
    cases xs with
    | nil => rw [List.nil_append, eval_and_singleton]
    | cons next rest =>
      rw [ih (List.cons_ne_nil _ _), eval_and_cons x (List.cons_ne_nil _ _)]
      cases eval session read x with
      | none => rfl
      | some a =>
        cases eval session read (.and (next :: rest)) with
        | none => rfl
        | some b =>
          cases eval session read (.and ys) with
          | none => simp
          | some c => exact (Datum.both_assoc a b c).symm

/-! ## 3. Grouped chains -/

/-- The terms of a chain are complete but for the last one, which goes on with what is linked to
the chain. -/
def Groups (c : Chain) (complete : List Expr) (last : Expr) : Prop :=
  ∀ more, Chain.terms c.first (c.links ++ more) = complete ++ Chain.terms last more

theorem groups_single (e : Expr) : Groups (.single e) [] e := fun _ => rfl

theorem Groups.compare {a b : Chain} {complete : List Expr} {last : Expr}
    (ha : Groups a complete last) (hb : b.links = []) (op : CompareOp) :
    Groups (a.link (.compare op) b) complete (.compare op last b.first) := by
  intro more
  simp only [Chain.link, Chain.extend, hb, List.append_assoc, List.cons_append, List.nil_append]
  rw [ha, Chain.terms]

theorem Groups.and {a b : Chain} {complete complete' : List Expr} {last last' : Expr}
    (ha : Groups a complete last) (hb : Groups b complete' last') :
    Groups (a.link .and b) (complete ++ last :: complete') last' := by
  intro more
  simp only [Chain.link, Chain.extend, List.append_assoc, List.cons_append]
  rw [ha, Chain.terms, hb]

theorem Groups.toExpr_eq {c : Chain} {complete : List Expr} {last : Expr}
    (h : Groups c complete last) : c.toExpr = .and (complete ++ [last]) := by
  have hterms := h []
  rw [List.append_nil] at hterms
  rw [Chain.toExpr, hterms]
  rfl

/-- The chain is grouped to something with the value of the tree, and is not longer than the
level of the tree allows. -/
def StandsFor (session : Session) (read : Reader) (c : Chain) (e : Expr) : Prop :=
  ∃ complete last, Groups c complete last ∧
    eval session read (.and (complete ++ [last])) = eval session read e ∧
    (e.level ≠ .conjunction → complete = []) ∧ (e.level = .operand → c.links = [])

theorem standsFor_single {e f : Expr} (h : eval session read f = eval session read e) :
    StandsFor session read (.single f) e :=
  ⟨[], f, groups_single f, (eval_and_singleton f).trans h, fun _ => rfl, fun _ => rfl⟩

theorem StandsFor.eval_toExpr {c : Chain} {e : Expr} (h : StandsFor session read c e) :
    eval session read c.toExpr = eval session read e := by
  obtain ⟨complete, last, hgroups, hvalue, -⟩ := h
  rw [hgroups.toExpr_eq, hvalue]

/-- The value and the level are all that counts. -/
theorem StandsFor.congr {c : Chain} {e f : Expr} (h : StandsFor session read c e)
    (hvalue : eval session read f = eval session read e) (hlevel : f.level = e.level) :
    StandsFor session read c f := by
  obtain ⟨complete, last, hgroups, heval, hconj, hop⟩ := h
  exact ⟨complete, last, hgroups, heval.trans hvalue.symm, hlevel ▸ hconj, hlevel ▸ hop⟩

/-- Without a conjunction on the left and with an operand on the right, a comparison is read back
as it is. -/
theorem StandsFor.compare {a b : Chain} {left right : Expr}
    (ha : StandsFor session read a left) (hb : StandsFor session read b right)
    (hleft : left.level ≠ .conjunction) (hright : right.level = .operand) (op : CompareOp) :
    StandsFor session read (a.link (.compare op) b) (.compare op left right) := by
  obtain ⟨complete, last, hgroups, hvalue, hcomplete, -⟩ := ha
  obtain ⟨complete', last', hgroups', hvalue', -, hlinks⟩ := hb
  cases hcomplete hleft
  have hfirst : eval session read b.first = eval session read right := by
    have hterms := hgroups' []
    rw [List.append_nil, hlinks hright] at hterms
    rw [← eval_and_singleton, ← hvalue']
    exact congrArg (fun ts => eval session read (.and ts)) hterms
  rw [List.nil_append, eval_and_singleton] at hvalue
  refine ⟨[], .compare op last b.first, hgroups.compare (hlinks hright) op, ?_, fun _ => rfl,
    nofun⟩
  rw [List.nil_append, eval_and_singleton, eval, eval, hvalue, hfirst]

/-- Conjunctions are flattened. -/
theorem standsFor_and {c : Chain} {e : Expr} {cs : List Chain} {es : List Expr}
    (hfirst : StandsFor session read c e) (h : List.Forall₂ (StandsFor session read) cs es) :
    StandsFor session read (c.conjoined cs) (.and (e :: es)) := by
  induction h generalizing c e with
  | nil => exact hfirst.congr (eval_and_singleton e) rfl
  | @cons c' e' cs es hnext _ ih =>
    obtain ⟨complete, last, hgroups, hvalue, -⟩ := hfirst
    obtain ⟨complete', last', hgroups', hvalue', -⟩ := ih hnext
    refine ⟨complete ++ last :: complete', last', hgroups.and hgroups', ?_,
      fun h => absurd rfl h, nofun⟩
    have hsplit : complete ++ last :: complete' ++ [last'] =
        (complete ++ [last]) ++ (complete' ++ [last']) := by simp
    rw [hsplit, eval_and_append (by simp) (by simp), hvalue, hvalue',
      eval_and_cons e (List.cons_ne_nil _ _)]

/-! ## 4. Values -/

theorem evalAll_toExpr {cs : List Chain} {es : List Expr}
    (h : List.Forall₂ (StandsFor session read) cs es) :
    evalAll session read (cs.map Chain.toExpr) = evalAll session read es := by
  induction h with
  | nil => rfl
  | cons hfirst _ ih => rw [List.map_cons, evalAll, evalAll, hfirst.eval_toExpr, ih]

theorem eval_concat_singleton (e : Expr) :
    eval session read (.concat [e]) = eval session read e := by
  simp only [eval, evalAll]
  cases eval session read e <;> rfl

mutual

/-- The text of a legible tree stands for something with its value. -/
theorem standsFor_chain {d : Dialect} :
    ∀ e : Expr, e.Legible d → StandsFor session read (e.chain d) e
  | .column none name, h => by
      have hmeaning : meaningOf d name = .field name := by
        rw [meaningOf, show constant? d name = none from h]
        rfl
      rw [Expr.chain, hmeaning]
      exact standsFor_single rfl
  | .column (some _) _, _ | .str _, _ | .bool _, _ | .null, _ | .currentTimestamp, _
  | .currentDate, _ => standsFor_single rfl
  | .castText e, h | .charLength e, h | .hexDigest e, h => by
      have hvalue := (standsFor_chain e h).eval_toExpr
      exact standsFor_single (by rw [eval, eval, hvalue])
  | .coalesce args, h => by
      have hvalues := evalAll_toExpr (standsFor_chains args h)
      exact standsFor_single (by rw [eval, eval, hvalues])
  | .concat [part], h => (standsFor_chain part h.1).congr (eval_concat_singleton part) rfl
  | .concat [], _ => standsFor_single rfl
  | .concat (part :: next :: parts), h => by
      have hvalues := evalAll_toExpr (standsFor_chains (part :: next :: parts) h)
      exact standsFor_single (by rw [eval, eval, hvalues])
  | .compare op left right, h =>
      (standsFor_chain left h.1).compare (standsFor_chain right h.2.1) h.2.2.1 h.2.2.2 op
  | .and [], _ => standsFor_single rfl
  | .and (term :: terms), h => standsFor_and (standsFor_chain term h.1) (standsFor_chains terms h.2)

theorem standsFor_chains {d : Dialect} :
    ∀ es : List Expr, Expr.LegibleAll d es →
      List.Forall₂ (StandsFor session read) (Expr.chains d es) es
  | [], _ => .nil
  | e :: es, h => .cons (standsFor_chain e h.1) (standsFor_chains es h.2)

end

/-- Legible trees with one text have one value, whatever the session is and whatever the columns
hold. -/
theorem text_determines_value {d : Dialect} {e f : Expr} (he : e.Legible d) (hf : f.Legible d)
    (h : e.render d = f.render d) (session : Session) (read : Reader) :
    eval session read e = eval session read f := by
  rw [← (standsFor_chain e he).eval_toExpr, ← (standsFor_chain f hf).eval_toExpr,
    chain_eq_of_render_eq h]

end

/-- A conjunction inside another one, and a list of one part, leave no trace in the text. -/
theorem text_determines_value_nested :
    let name : Ident := ⟨"status", rfl, by decide⟩
    let nested : Expr := .and [.and [.compare .eq (.field name) (.str "new"), .null], .bool true]
    let flat : Expr := .and [.compare .eq (.concat [.field name]) (.str "new"), .null, .bool true]
    nested.Legible .postgres ∧ flat.Legible .postgres ∧
      nested.render .postgres = flat.render .postgres ∧
      ∀ session read, eval session read nested = eval session read flat := by
  intro name nested flat
  have hnested : nested.Legible .postgres :=
    ⟨⟨⟨rfl, trivial, nofun, rfl⟩, trivial, trivial⟩, trivial, trivial⟩
  have hflat : flat.Legible .postgres :=
    ⟨⟨⟨rfl, trivial⟩, trivial, nofun, rfl⟩, trivial, trivial, trivial⟩
  have htext : nested.render .postgres = flat.render .postgres := by decide +kernel
  exact ⟨hnested, hflat, htext, text_determines_value hnested hflat htext⟩

/-- A column that is named like a constant is written as that constant. An operand of a comparison
that is a conjunction or a comparison is written like the terms or the operands beside it. -/
theorem one_text_two_values :
    let session : Session := ⟨.bigQuery, 0, id⟩
    let read : Reader := fun _ _ => some (.bool false)
    let column : Expr := .field ⟨"TRUE", rfl, by decide⟩
    let no : Expr := .bool false
    let x : Expr := .str "x"
    (column.render .bigQuery = (Expr.bool true).render .bigQuery ∧
        eval session read column ≠ eval session read (.bool true)) ∧
      (Expr.render .bigQuery (.compare .eq no (.and [no, no])) =
          Expr.render .bigQuery (.and [.compare .eq no no, no]) ∧
        eval session read (.compare .eq no (.and [no, no])) ≠
          eval session read (.and [.compare .eq no no, no])) ∧
      Expr.render .bigQuery (.compare .eq x (.compare .eq x (.bool true))) =
          Expr.render .bigQuery (.compare .eq (.compare .eq x x) (.bool true)) ∧
        eval session read (.compare .eq x (.compare .eq x (.bool true))) ≠
          eval session read (.compare .eq (.compare .eq x x) (.bool true)) := by
  decide +kernel

end DataVault.Warehouse
