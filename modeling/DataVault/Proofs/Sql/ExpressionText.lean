/-
DataVault.Proofs.Sql.ExpressionText — what the text of an expression says.

No parentheses are put around an operand, so the text of an expression is a
chain: an operand, and further ones behind a comparison or an `AND`.
`readChain` reads the chain at the beginning of a text, as SQL does: a literal,
a call, or a name, which is a constant if it is the word for one. `chain` says
of a tree which chain its text is. Nested comparisons and conjunctions become
one chain there, and a column that is named like a constant becomes that
constant.

A text is read as its chain whatever stands behind it, as long as it does not
go on with what could belong to an operand (`ReadsAs`). That is preserved by
each way to put texts together, and so holds of every tree by induction
(`readsAs_render`). Trees with one text therefore have one chain
(`chain_eq_of_render_eq`).
-/
import DataVault.Proofs.Sql.Literals
import DataVault.Proofs.Sql.References
import DataVault.Sql.Expr

namespace DataVault.Sql

open DataVault.Text

/-! ## 1. Chains -/

/-- What stands between two operands. -/
inductive Link where
  | compare (op : CompareOp)
  | and

def Link.text : Link → String
  | compare op => " " ++ op.symbol ++ " "
  | and => " AND "

/-- An operand and those that are linked to it. -/
structure Chain where
  first : Expr
  links : List (Link × Expr)

namespace Chain

/-- A chain of one operand. -/
def single (e : Expr) : Chain := ⟨e, []⟩

/-- The chain with further operands. -/
def extend (c : Chain) (more : List (Link × Expr)) : Chain := ⟨c.first, c.links ++ more⟩

/-- Two chains with a link between them. -/
def link (a : Chain) (l : Link) (b : Chain) : Chain := a.extend ((l, b.first) :: b.links)

/-- Chains with `AND` between them. -/
def conjoined (c : Chain) : List Chain → Chain
  | [] => c
  | next :: rest => c.link .and (conjoined next rest)

/-- The terms between the `AND`s of a chain. Comparisons bind closer, and from the left. -/
def terms (left : Expr) : List (Link × Expr) → List Expr
  | [] => [left]
  | (.compare op, right) :: rest => terms (.compare op left right) rest
  | (.and, next) :: rest => left :: terms next rest

/-- The tree that a chain stands for. -/
def toExpr (c : Chain) : Expr := .and (terms c.first c.links)

@[simp] theorem extend_nil (c : Chain) : c.extend [] = c := by
  rw [extend, List.append_nil]

@[simp] theorem extend_extend (c : Chain) (some more : List (Link × Expr)) :
    (c.extend some).extend more = c.extend (some ++ more) := by
  simp only [extend, List.append_assoc]

end Chain

/-! ## 2. Words and calls -/

/-- The words that are constants, with what they stand for. -/
def constants : Dialect → List (String × Expr)
  | .bigQuery => [("TRUE", .bool true), ("FALSE", .bool false), ("NULL", .null)]
  | .postgres =>
      [("TRUE", .bool true), ("FALSE", .bool false), ("NULL", .null),
        ("CURRENT_TIMESTAMP", .currentTimestamp), ("CURRENT_DATE", .currentDate)]

/-- The constant that a name is the word for. -/
def constant? (d : Dialect) (name : Ident) : Option Expr := (constants d).lookup name.text

/-- What a name without a qualifier stands for. -/
def meaningOf (d : Dialect) (name : Ident) : Expr := (constant? d name).getD (.field name)

/-- A word with arguments in parentheses behind it. -/
structure CallForm where
  name : String
  /-- What stands between the name and the arguments. -/
  opening : String
  /-- What stands behind the arguments. -/
  closing : String
  /-- The call, if it takes that many arguments. -/
  build : List Expr → Option Expr

/-- The text of a call. -/
def CallForm.text (form : CallForm) (args : List String) : String :=
  form.name ++ form.opening ++ String.intercalate ", " args ++ form.closing

def noArgument (e : Expr) : List Expr → Option Expr
  | [] => some e
  | _ => none

def oneArgument (f : Expr → Expr) : List Expr → Option Expr
  | [e] => some (f e)
  | _ => none

def castForm (d : Dialect) : CallForm :=
  ⟨"CAST", "(", " AS " ++ d.textType ++ ")", oneArgument .castText⟩

def coalesceForm : CallForm := ⟨"COALESCE", "(", ")", some ∘ .coalesce⟩

def concatForm : CallForm := ⟨"CONCAT", "(", ")", some ∘ .concat⟩

def lengthForm : CallForm := ⟨"CHAR_LENGTH", "(", ")", oneArgument .charLength⟩

def digestForm : Dialect → CallForm
  | .bigQuery => ⟨"TO_HEX", "(SHA256(", "))", oneArgument .hexDigest⟩
  | .postgres =>
      ⟨"ENCODE", "(SHA256(CONVERT_TO(", ", 'UTF8')), 'hex')", oneArgument .hexDigest⟩

def timestampForm : CallForm := ⟨"CURRENT_TIMESTAMP", "(", ")", noArgument .currentTimestamp⟩

def dateForm : CallForm := ⟨"CURRENT_DATE", "(", ")", noArgument .currentDate⟩

/-- In BigQuery a clock is a call. -/
def clockForms : Dialect → List CallForm
  | .bigQuery => [timestampForm, dateForm]
  | .postgres => []

def callForms (d : Dialect) : List CallForm :=
  [castForm d, coalesceForm, concatForm, lengthForm, digestForm d] ++ clockForms d

/-! ## 3. Reading -/

/-- What stands behind the beginning of a text. -/
def after? (start : String) (cs : List Char) : Option (List Char) := cs.dropPrefix? start.toList

/-- The word at the beginning of a text. -/
def wordAt (cs : List Char) : String := String.ofList (cs.takeWhile Ident.isPart)

/-- What stands behind that word. -/
def behindWord (cs : List Char) : List Char := cs.dropWhile Ident.isPart

/-- The call that the text begins with, and what stands behind the sign that opens it. -/
def call? (d : Dialect) (cs : List Char) : Option (CallForm × List Char) := do
  let form ← (callForms d).find? fun form => form.name == wordAt cs
  let rest ← after? form.opening (behindWord cs)
  pure (form, rest)

/-- The name at the beginning of a text. -/
def nameAt? (cs : List Char) : Option Ident := (Ident.parse (wordAt cs)).toOption

/-- The column or the constant at the beginning of a text. -/
def readName (d : Dialect) (cs : List Char) : Option (Expr × List Char) := do
  let name ← nameAt? cs
  match behindWord cs with
  | '.' :: rest => pure (.column (some name) (← nameAt? rest), behindWord rest)
  | rest => pure (meaningOf d name, rest)

/-- The link that the text begins with. -/
def link? (cs : List Char) : Option (Link × List Char) :=
  [Link.compare .eq, .compare .ne, .and].findSome? fun l => (after? l.text cs).map (l, ·)

/-- The text, if it has fewer characters than that. What a reader leaves is shorter than what it
was given, and that is why readers that call each other end. -/
def below? (n : Nat) (cs : List Char) : Option {cs : List Char // cs.length < n} :=
  if h : cs.length < n then some ⟨cs, h⟩ else none

mutual

/-- The chain at the beginning of a text, and what stands behind it. -/
def readChain (d : Dialect) (cs : List Char) : Option (Chain × List Char) := do
  let (first, rest) ← readOperand d cs
  let ⟨rest, _⟩ ← below? cs.length rest
  let (links, rest) ← readLinks d rest
  pure (⟨first, links⟩, rest)
termination_by 4 * cs.length + 2

def readLinks (d : Dialect) (cs : List Char) : Option (List (Link × Expr) × List Char) :=
  match link? cs with
  | none => some ([], cs)
  | some (l, rest) => do
      let ⟨rest, _⟩ ← below? cs.length rest
      let (next, rest) ← readChain d rest
      pure ((l, next.first) :: next.links, rest)
termination_by 4 * cs.length

def readOperand (d : Dialect) (cs : List Char) : Option (Expr × List Char) :=
  match Literal.read? d cs with
  | some (value, rest) => some (.str value, rest)
  | none =>
      match call? d cs with
      | none => readName d cs
      | some (form, rest) => do
          let ⟨rest, _⟩ ← below? cs.length rest
          let (args, rest) ← readArgs d form "" rest
          pure (← form.build args, rest)
termination_by 4 * cs.length + 1

/-- The arguments of a call up to its end. A sign stands before each of them. -/
def readArgs (d : Dialect) (form : CallForm) (sign : String) (cs : List Char) :
    Option (List Expr × List Char) :=
  match after? form.closing cs with
  | some rest => some ([], rest)
  | none => do
      let ⟨more, _⟩ ← below? (cs.length + 1) (← after? sign cs)
      let (arg, rest) ← readChain d more
      let ⟨rest, _⟩ ← below? cs.length rest
      let (args, rest) ← readArgs d form ", " rest
      pure (arg.toExpr :: args, rest)
termination_by 4 * cs.length + 3

end

/-! ## 4. The chain of a tree -/

namespace Expr

mutual

/-- The chain that the text of an expression is. -/
def chain (d : Dialect) : Expr → Chain
  | column none name => .single (meaningOf d name)
  | column (some qualifier) name => .single (column (some qualifier) name)
  | str value => .single (str value)
  | bool value => .single (bool value)
  | null => .single null
  | castText e => .single (castText (chain d e).toExpr)
  | coalesce args => .single (coalesce ((chains d args).map Chain.toExpr))
  | concat [part] => chain d part
  | concat parts => .single (concat ((chains d parts).map Chain.toExpr))
  | charLength e => .single (charLength (chain d e).toExpr)
  | hexDigest e => .single (hexDigest (chain d e).toExpr)
  | currentTimestamp => .single currentTimestamp
  | currentDate => .single currentDate
  | compare op left right => (chain d left).link (.compare op) (chain d right)
  | and [] => .single (bool true)
  | and (term :: terms) => (chain d term).conjoined (chains d terms)

/-- The chains of several expressions. -/
def chains (d : Dialect) : List Expr → List Chain
  | [] => []
  | e :: es => chain d e :: chains d es

end

end Expr

/-! ## 5. Where an operand ends -/

/-- The text does not go on with what could belong to an operand. -/
def EndsOperand (rest : List Char) : Prop :=
  ∀ c ∈ rest.head?, Ident.isPart c = false ∧ c ≠ '.' ∧ c ≠ '\'' ∧ c ≠ '('

theorem endsOperand_nil : EndsOperand [] := nofun

/-- The sign does not belong to an operand. -/
theorem endsOperand_of_head {sign : String} {c : Char} (hsign : sign.toList.head? = some c)
    (hc : Ident.isPart c = false ∧ c ≠ '.' ∧ c ≠ '\'' ∧ c ≠ '(') (rest : List Char) :
    EndsOperand (sign.toList ++ rest) := by
  intro c' hc'
  rw [List.head?_append, hsign] at hc'
  cases hc'
  exact hc

/-- An operand begins with a quote or with a name. -/
def StartsOperand (text : List Char) : Prop :=
  ∃ c rest, text = c :: rest ∧ (c = '\'' ∨ Ident.isStart c = true)

theorem startsOperand_append {text : List Char} (h : StartsOperand text) (rest : List Char) :
    StartsOperand (text ++ rest) := by
  obtain ⟨c, cs, rfl, hc⟩ := h
  exact ⟨c, cs ++ rest, rfl, hc⟩

/-- What stands behind an operand is shorter. -/
theorem StartsOperand.length_lt {text : List Char} (h : StartsOperand text) (rest : List Char) :
    rest.length < (text ++ rest).length := by
  obtain ⟨c, cs, rfl, -⟩ := h
  rw [List.length_append, List.length_cons]
  omega

theorem below?_of_lt {n : Nat} {cs : List Char} (h : cs.length < n) :
    below? n cs = some ⟨cs, h⟩ :=
  dif_pos h

@[simp] theorem after?_append (start : String) (rest : List Char) :
    after? start (start.toList ++ rest) = some rest :=
  List.dropPrefix?_append_of_beq rest (beq_self_eq_true _)

/-- A text that begins in another way does not begin with the sign. -/
theorem after?_eq_none {start : String} {c : Char} {cs : List Char}
    (hstart : start.toList.head? = some c) (hcs : cs.head? ≠ some c) : after? start cs = none := by
  unfold after?
  obtain ⟨more, hmore⟩ := List.head?_eq_some_iff.mp hstart
  rw [hmore]
  cases cs with
  | nil => rfl
  | cons first rest =>
    have hfirst : (first == c) = false := beq_false_of_ne fun he => hcs (congrArg some he)
    rw [List.dropPrefix?, hfirst]
    rfl

/-! ## 6. Words -/

section
variable {word : String} {rest : List Char} (hword : Ident.spelledBy word.toList = true)
include hword

theorem startsOperand_word : StartsOperand word.toList := by
  cases hchars : word.toList with
  | nil => rw [hchars] at hword; cases hword
  | cons c cs =>
    rw [hchars, Ident.spelledBy, Bool.and_eq_true] at hword
    exact ⟨c, cs, rfl, .inr hword.1⟩

theorem wordAt_append (hrest : ∀ c ∈ rest.head?, Ident.isPart c = false) :
    wordAt (word.toList ++ rest) = word ∧ behindWord (word.toList ++ rest) = rest := by
  have hparts := isPart_of_spelledBy hword
  have hstop : rest.takeWhile Ident.isPart = [] ∧ rest.dropWhile Ident.isPart = rest := by
    cases rest with
    | nil => exact ⟨rfl, rfl⟩
    | cons c rest =>
      rw [List.takeWhile_cons, List.dropWhile_cons, hrest c rfl]
      exact ⟨rfl, rfl⟩
  rw [wordAt, behindWord, List.takeWhile_append_of_pos hparts, List.dropWhile_append_of_pos hparts,
    hstop.1, hstop.2, List.append_nil, String.ofList_toList]
  exact ⟨rfl, rfl⟩

/-- A word is no literal, also not where the letter of an escape string stands before a quote. -/
theorem literal_read?_word (d : Dialect) (hrest : rest.head? ≠ some '\'') :
    Literal.read? d (word.toList ++ rest) = none := by
  have hquote : ∀ c ∈ word.toList, c ≠ '\'' := by
    rintro _ hc rfl
    exact absurd (isPart_of_spelledBy hword _ hc) (by decide)
  cases hchars : word.toList with
  | nil => rw [hchars] at hword; cases hword
  | cons c cs =>
    obtain ⟨hc, hcs⟩ := List.forall_mem_cons.mp (hchars ▸ hquote)
    have hnext : ∀ more, cs ++ rest ≠ '\'' :: more := by
      intro more h
      cases cs with
      | nil => exact hrest (congrArg List.head? h)
      | cons c' cs => exact hcs c' List.mem_cons_self (List.cons.inj h).1
    unfold Literal.read? Literal.opened?
    split <;> simp_all

end

/-! ## 7. Reading chains -/

section
variable {d : Dialect}

/-- The text is read as the chain, whatever stands behind it. -/
structure ReadsAs (d : Dialect) (text : List Char) (c : Chain) : Prop where
  starts : StartsOperand text
  reads : ∀ rest, EndsOperand rest →
    readChain d (text ++ rest) =
      (readLinks d rest).map fun (links, after) => (c.extend links, after)

theorem readLinks_none {cs : List Char} (h : link? cs = none) : readLinks d cs = some ([], cs) := by
  rw [readLinks, h]

/-- A chain ends where neither an operand nor a link goes on. -/
theorem ReadsAs.readChain_eq {text rest : List Char} {c : Chain} (h : ReadsAs d text c)
    (hend : EndsOperand rest) (hlink : link? rest = none) :
    readChain d (text ++ rest) = some (c, rest) := by
  rw [h.reads rest hend, readLinks_none hlink]
  simp only [Option.map_some, Chain.extend_nil]

theorem readsAs_operand {text : List Char} {e : Expr} (hstarts : StartsOperand text)
    (hreads : ∀ rest, EndsOperand rest → readOperand d (text ++ rest) = some (e, rest)) :
    ReadsAs d text (.single e) := by
  refine ⟨hstarts, fun rest hrest => ?_⟩
  rw [readChain, hreads rest hrest]
  simp only [Option.bind_eq_bind, Option.bind_some, below?_of_lt (hstarts.length_lt rest)]
  cases readLinks d rest <;> rfl

theorem link?_text (l : Link) (rest : List Char) :
    link? (l.text.toList ++ rest) = some (l, rest) := by
  have hself : after? l.text (l.text.toList ++ rest) = some rest := after?_append l.text rest
  have hother : ∀ {l' : Link}, after? l'.text (l.text.toList ++ rest) = none →
      ((after? l'.text (l.text.toList ++ rest)).map (l', ·)) = none := fun h => by rw [h]; rfl
  unfold link?
  cases l with
  | compare op =>
    cases op with
    | eq => rw [List.findSome?_cons, hself]; rfl
    | ne => rw [List.findSome?_cons, hother rfl, List.findSome?_cons, hself]; rfl
  | and =>
    rw [List.findSome?_cons, hother rfl, List.findSome?_cons, hother rfl, List.findSome?_cons,
      hself]
    rfl

theorem endsOperand_link (l : Link) (rest : List Char) :
    EndsOperand (l.text.toList ++ rest) := by
  cases l with
  | compare op => exact endsOperand_of_head (c := ' ') (by cases op <;> rfl) (by decide) rest
  | and => exact endsOperand_of_head (c := ' ') rfl (by decide) rest

theorem length_link (l : Link) : 0 < l.text.toList.length := by
  cases l with
  | compare op => cases op <;> decide
  | and => decide

/-- Texts with a link between them are read as chains with that link between them. -/
theorem ReadsAs.link {s t : List Char} {a b : Chain} (ha : ReadsAs d s a) (l : Link)
    (hb : ReadsAs d t b) : ReadsAs d (s ++ l.text.toList ++ t) (a.link l b) := by
  refine ⟨?_, fun rest hrest => ?_⟩
  · rw [List.append_assoc]
    exact startsOperand_append ha.starts _
  · have hlinks : readLinks d (l.text.toList ++ (t ++ rest)) =
        (readLinks d rest).map fun (links, after) =>
          ((l, b.first) :: (b.links ++ links), after) := by
      have hshort : (t ++ rest).length < (l.text.toList ++ (t ++ rest)).length := by
        have hlink := length_link l
        simp only [List.length_append]
        omega
      rw [readLinks, link?_text]
      simp only [Option.bind_eq_bind, Option.bind_some, below?_of_lt hshort, hb.reads rest hrest]
      cases readLinks d rest <;> rfl
    rw [List.append_assoc, List.append_assoc, ha.reads _ (endsOperand_link l _), hlinks]
    cases readLinks d rest <;> simp [Chain.link]

/-- Texts with `AND` between them are read as their chains with `AND` between them. -/
theorem readsAs_conjoined {text : String} {c : Chain} {texts : List String} {cs : List Chain}
    (hfirst : ReadsAs d text.toList c)
    (h : List.Forall₂ (fun text c => ReadsAs d text.toList c) texts cs) :
    ReadsAs d (String.intercalate " AND " (text :: texts)).toList (c.conjoined cs) := by
  induction h generalizing text c with
  | nil => rwa [String.intercalate_singleton]
  | @cons next c' texts cs hnext _ ih =>
    rw [String.intercalate_cons_cons, String.toList_append, String.toList_append]
    exact hfirst.link .and (ih hnext)

/-! ## 8. Reading operands -/

/-- What the signs of a call have to be for its text to be read. -/
structure CallForm.Regular (form : CallForm) : Prop where
  name_spelled : Ident.spelledBy form.name.toList = true
  opening_head : form.opening.toList.head? = some '('
  closing_head : ∃ c, form.closing.toList.head? = some c ∧ (c = ' ' ∨ c = ',' ∨ c = ')')
  closing_link : ∀ rest, link? (form.closing.toList ++ rest) = none

/-- The calls of a dialect, one by one. -/
theorem forall_mem_callForms {P : CallForm → Prop} (hcast : P (castForm d))
    (hcoalesce : P coalesceForm) (hconcat : P concatForm) (hlength : P lengthForm)
    (hdigest : P (digestForm d)) (hclocks : ∀ form ∈ clockForms d, P form) :
    ∀ form ∈ callForms d, P form := by
  simp only [callForms, List.forall_mem_append, List.forall_mem_cons]
  exact ⟨⟨hcast, hcoalesce, hconcat, hlength, hdigest, nofun⟩, hclocks⟩

theorem regular_of_mem : ∀ form ∈ callForms d, form.Regular := by
  have hclocks : ∀ form ∈ clockForms d, form.Regular := by
    cases d with
    | bigQuery =>
      simp only [clockForms, List.forall_mem_cons]
      exact ⟨⟨rfl, rfl, ⟨_, rfl, by decide⟩, fun _ => rfl⟩,
        ⟨rfl, rfl, ⟨_, rfl, by decide⟩, fun _ => rfl⟩, nofun⟩
    | postgres => nofun
  refine forall_mem_callForms ?cast ?coalesce ?concat ?length ?digest hclocks
  case cast => cases d <;> exact ⟨rfl, rfl, ⟨_, rfl, by decide⟩, fun _ => rfl⟩
  case digest => cases d <;> exact ⟨rfl, rfl, ⟨_, rfl, by decide⟩, fun _ => rfl⟩
  all_goals exact ⟨rfl, rfl, ⟨_, rfl, by decide⟩, fun _ => rfl⟩

/-- No two calls have one name. -/
theorem find?_callForms : ∀ form ∈ callForms d,
    (callForms d).find? (fun f => f.name == form.name) = some form := by
  have hclocks : ∀ form ∈ clockForms d,
      (callForms d).find? (fun f => f.name == form.name) = some form := by
    cases d with
    | bigQuery =>
      simp only [clockForms, List.forall_mem_cons]
      exact ⟨rfl, rfl, nofun⟩
    | postgres => nofun
  refine forall_mem_callForms ?_ ?_ ?_ ?_ ?_ hclocks <;> cases d <;> rfl

/-- A word opens a call only with a parenthesis behind it. -/
theorem call?_eq_none {word : String} (hword : Ident.spelledBy word.toList = true)
    {rest : List Char} (hrest : ∀ c ∈ rest.head?, Ident.isPart c = false)
    (hparen : rest.head? ≠ some '(') : call? d (word.toList ++ rest) = none := by
  obtain ⟨hat, hbehind⟩ := wordAt_append hword hrest
  unfold call?
  rw [hat, hbehind]
  cases hform : (callForms d).find? fun form => form.name == word with
  | none => rfl
  | some form =>
    have hopening := (regular_of_mem form (List.mem_of_find?_eq_some hform)).opening_head
    simp only [Option.bind_eq_bind, Option.bind_some, after?_eq_none hopening hparen]
    rfl

theorem call?_opening {form : CallForm} (h : form ∈ callForms d) (rest : List Char) :
    call? d (form.name.toList ++ (form.opening.toList ++ rest)) = some (form, rest) := by
  have hregular := regular_of_mem form h
  have hstop : ∀ c ∈ (form.opening.toList ++ rest).head?, Ident.isPart c = false := by
    rw [List.head?_append, hregular.opening_head]
    rintro _ ⟨⟩
    decide
  obtain ⟨hat, hbehind⟩ := wordAt_append hregular.name_spelled hstop
  unfold call?
  rw [hat, hbehind, find?_callForms form h]
  simp only [Option.bind_eq_bind, Option.bind_some, after?_append]
  rfl

theorem nameAt?_append (name : Ident) {rest : List Char}
    (hrest : ∀ c ∈ rest.head?, Ident.isPart c = false) :
    nameAt? (name.text.toList ++ rest) = some name := by
  rw [nameAt?, (wordAt_append name.spelled hrest).1, parse_eq_ok_iff.mpr rfl]
  rfl

/-- A name is read as the column, or as the constant that it is the word for. -/
theorem readsAs_name (name : Ident) :
    ReadsAs d name.text.toList (.single (meaningOf d name)) := by
  refine readsAs_operand (startsOperand_word name.spelled) fun rest hrest => ?_
  have hstop : ∀ c ∈ rest.head?, Ident.isPart c = false := fun c hc => (hrest c hc).1
  have hparen : rest.head? ≠ some '(' := fun h => (hrest '(' h).2.2.2 rfl
  have hquote : rest.head? ≠ some '\'' := fun h => (hrest '\'' h).2.2.1 rfl
  rw [readOperand, literal_read?_word name.spelled d hquote]
  simp only [call?_eq_none name.spelled hstop hparen]
  rw [readName, nameAt?_append name hstop, (wordAt_append name.spelled hstop).2]
  simp only [Option.bind_eq_bind, Option.bind_some]
  split
  · exact absurd rfl (hrest '.' rfl).2.1
  · rfl

theorem readsAs_qualified (qualifier name : Ident) :
    ReadsAs d (qualifier.text ++ "." ++ name.text).toList
      (.single (.column (some qualifier) name)) := by
  have htext : (qualifier.text ++ "." ++ name.text).toList =
      qualifier.text.toList ++ '.' :: name.text.toList := by
    rw [String.toList_append, String.toList_append, List.append_assoc]
    rfl
  rw [htext]
  refine readsAs_operand (startsOperand_append (startsOperand_word qualifier.spelled) _)
    fun rest hrest => ?_
  have hstop : ∀ c ∈ rest.head?, Ident.isPart c = false := fun c hc => (hrest c hc).1
  have hdot := isPart_dot (r := name.text.toList ++ rest)
  rw [List.append_assoc, List.cons_append, readOperand,
    literal_read?_word qualifier.spelled d (by simp)]
  simp only [call?_eq_none qualifier.spelled hdot (by simp)]
  rw [readName, nameAt?_append qualifier hdot, (wordAt_append qualifier.spelled hdot).2]
  simp only [Option.bind_eq_bind, Option.bind_some]
  rw [nameAt?_append name hstop, (wordAt_append name.spelled hstop).2]
  rfl

theorem readsAs_literal (value : String) :
    ReadsAs d (d.stringLiteral value).toList (.single (.str value)) := by
  refine readsAs_operand ?_ fun rest hrest => ?_
  · cases d with
    | bigQuery => exact ⟨_, _, String.toList_ofList, .inl rfl⟩
    | postgres =>
      change StartsOperand (Literal.postgres value).toList
      unfold Literal.postgres
      split
      · exact ⟨_, _, String.toList_ofList, .inr rfl⟩
      · exact ⟨_, _, String.toList_ofList, .inl rfl⟩
  · have hquote : rest.head? ≠ some '\'' := fun h => (hrest '\'' h).2.2.1 rfl
    rw [readOperand, Literal.read?_stringLiteral hquote]

/-! ## 9. Reading calls -/

/-- The texts are read as the chains, one by one. -/
abbrev AllReadAs (d : Dialect) (texts : List String) (cs : List Chain) : Prop :=
  List.Forall₂ (fun text c => ReadsAs d text.toList c) texts cs

/-- An argument is read as the tree that its chain stands for, and the others after it. -/
theorem readArgs_cons {form : CallForm} {text sign : String} {c : Chain} {rest : List Char}
    (h : ReadsAs d text.toList c)
    (hsign : ∀ text, StartsOperand text → after? form.closing (sign.toList ++ text) = none)
    (hend : EndsOperand rest) (hlink : link? rest = none) :
    readArgs d form sign (sign.toList ++ (text.toList ++ rest)) =
      (readArgs d form ", " rest).map fun (args, after) => (c.toExpr :: args, after) := by
  have hmore : (text.toList ++ rest).length <
      (sign.toList ++ (text.toList ++ rest)).length + 1 := by
    simp only [List.length_append]
    omega
  have hrest : rest.length < (sign.toList ++ (text.toList ++ rest)).length := by
    have hshort := h.starts.length_lt rest
    rw [List.length_append]
    omega
  rw [readArgs, hsign _ (startsOperand_append h.starts _)]
  simp only [after?_append, Option.bind_eq_bind, Option.bind_some, below?_of_lt hmore,
    h.readChain_eq hend hlink, below?_of_lt hrest]
  cases readArgs d form ", " rest <;> rfl

section
variable {form : CallForm} (hform : form ∈ callForms d)
include hform

theorem endsOperand_closing (rest : List Char) : EndsOperand (form.closing.toList ++ rest) := by
  obtain ⟨c, hc, hsign⟩ := (regular_of_mem form hform).closing_head
  have hends : Ident.isPart c = false ∧ c ≠ '.' ∧ c ≠ '\'' ∧ c ≠ '(' := by
    rcases hsign with rfl | rfl | rfl <;> decide
  exact endsOperand_of_head hc hends rest

/-- No operand begins like what closes a call. -/
theorem closing_ne_operand {text : List Char} (h : StartsOperand text) :
    after? form.closing text = none := by
  obtain ⟨c, hc, hsign⟩ := (regular_of_mem form hform).closing_head
  obtain ⟨first, rest, rfl, hfirst⟩ := h
  refine after?_eq_none hc fun he => ?_
  have hstarts : ¬ (c = '\'' ∨ Ident.isStart c = true) := by
    rcases hsign with rfl | rfl | rfl <;> decide
  exact hstarts (Option.some.inj he ▸ hfirst)

/-- Arguments are read one after the other, up to what closes the call. What closes a call of more
than one argument does not begin like the sign between them. -/
theorem readArgs_texts {text : String} {c : Chain} {texts : List String} {cs : List Chain}
    (hfirst : ReadsAs d text.toList c) (h : AllReadAs d texts cs) (sign : String)
    (hsign : ∀ text, StartsOperand text → after? form.closing (sign.toList ++ text) = none)
    (hmany : texts = [] ∨ form.closing = ")") (rest : List Char) :
    readArgs d form sign (sign.toList ++
        ((String.intercalate ", " (text :: texts)).toList ++ (form.closing.toList ++ rest))) =
      some ((c :: cs).map Chain.toExpr, rest) := by
  have hlast : ∀ sign, readArgs d form sign (form.closing.toList ++ rest) = some ([], rest) := by
    intro sign
    rw [readArgs, after?_append]
  induction h generalizing text c sign with
  | nil =>
    rw [String.intercalate_singleton, readArgs_cons hfirst hsign (endsOperand_closing hform rest)
      ((regular_of_mem form hform).closing_link rest), hlast]
    rfl
  | @cons next c' texts cs hnext _ ih =>
    have hclosing : form.closing = ")" := hmany.resolve_left (List.cons_ne_nil _ _)
    have hcomma : ∀ text, StartsOperand text →
        after? form.closing (", ".toList ++ text) = none := by
      rw [hclosing]
      exact fun _ _ => rfl
    have hends (more : List Char) : EndsOperand (", ".toList ++ more) :=
      endsOperand_of_head rfl (by decide) more
    have hlink (more : List Char) : link? (", ".toList ++ more) = none := rfl
    rw [String.intercalate_cons_cons, String.toList_append, String.toList_append,
      List.append_assoc, List.append_assoc, readArgs_cons hfirst hsign (hends _) (hlink _),
      ih hnext ", " hcomma (.inr hclosing)]
    rfl

/-- A call is read as the call of what its arguments are read as. -/
theorem readsAs_call {texts : List String} {cs : List Chain} {e : Expr}
    (h : AllReadAs d texts cs) (hmany : texts.length ≤ 1 ∨ form.closing = ")")
    (hbuild : form.build (cs.map Chain.toExpr) = some e) :
    ReadsAs d (form.text texts).toList (.single e) := by
  have hregular := regular_of_mem form hform
  have htext : ∀ rest, (form.text texts).toList ++ rest =
      form.name.toList ++ (form.opening.toList ++
        ((String.intercalate ", " texts).toList ++ (form.closing.toList ++ rest))) := by
    intro rest
    simp only [CallForm.text, String.toList_append, List.append_assoc]
  have hargs : ∀ rest, readArgs d form ""
      ((String.intercalate ", " texts).toList ++ (form.closing.toList ++ rest)) =
        some (cs.map Chain.toExpr, rest) := by
    intro rest
    cases h with
    | nil =>
      rw [String.intercalate_nil, readArgs, String.toList_empty, List.nil_append, after?_append]
      rfl
    | cons hfirst hothers =>
      refine readArgs_texts hform hfirst hothers "" (fun _ => closing_ne_operand hform)
        (hmany.imp_left fun hlength => List.length_eq_zero_iff.mp ?_) rest
      simpa using hlength
  refine readsAs_operand ?_ fun rest hrest => ?_
  · have hstarts := startsOperand_append (startsOperand_word hregular.name_spelled)
      (form.opening.toList ++ ((String.intercalate ", " texts).toList ++ form.closing.toList))
    simpa only [CallForm.text, String.toList_append, List.append_assoc] using hstarts
  · have hquote : (form.opening.toList ++ ((String.intercalate ", " texts).toList ++
        (form.closing.toList ++ rest))).head? ≠ some '\'' := by
      rw [List.head?_append, hregular.opening_head]
      exact fun h => absurd (Option.some.inj h) (by decide)
    have hshort : ((String.intercalate ", " texts).toList ++ (form.closing.toList ++ rest)).length <
        ((form.name.toList ++ form.opening.toList) ++ ((String.intercalate ", " texts).toList ++
          (form.closing.toList ++ rest))).length :=
      (startsOperand_append (startsOperand_word hregular.name_spelled) _).length_lt _
    rw [List.append_assoc] at hshort
    rw [htext, readOperand, literal_read?_word hregular.name_spelled d hquote]
    simp only [call?_opening hform, below?_of_lt hshort, hargs, Option.bind_eq_bind,
      Option.bind_some, hbuild]
    rfl

end

/-! ## 10. Reading trees -/

theorem castText_eq_text (text : String) : d.castText text = (castForm d).text [text] := by
  apply String.toList_inj.mp
  simp only [Dialect.castText, castForm, CallForm.text, String.intercalate_singleton,
    String.toList_append, List.append_assoc]
  rfl

theorem hexDigest_eq_text (text : String) : d.hexDigest text = (digestForm d).text [text] := by
  have hbigQuery : "TO_HEX(SHA256(" = "TO_HEX" ++ "(SHA256(" := by decide
  have hpostgres : "ENCODE(SHA256(CONVERT_TO(" = "ENCODE" ++ "(SHA256(CONVERT_TO(" := by decide
  rw [CallForm.text, String.intercalate_singleton]
  cases d with
  | bigQuery => exact congrArg (· ++ text ++ "))") hbigQuery
  | postgres => exact congrArg (· ++ text ++ ", 'UTF8')), 'hex')") hpostgres

theorem charLength_eq_text (text : String) : d.charLength text = lengthForm.text [text] := by
  simp only [Dialect.charLength, lengthForm, CallForm.text, String.intercalate_singleton]
  rfl

/-- A constant is read from its word. -/
theorem readsAs_constant {word : String} (hword : Ident.spelledBy word.toList = true)
    (hshort : word.utf8ByteSize ≤ Ident.maxLength) {e : Expr}
    (he : (constants d).lookup word = some e) : ReadsAs d word.toList (.single e) := by
  have hreads := readsAs_name (d := d) ⟨word, hword, hshort⟩
  rwa [meaningOf, constant?, he] at hreads

theorem readsAs_currentTimestamp :
    ReadsAs d d.currentTimestamp.toList (.single .currentTimestamp) := by
  cases d with
  | bigQuery =>
    exact readsAs_call (show timestampForm ∈ callForms .bigQuery by simp [callForms, clockForms])
      .nil (.inr rfl) rfl
  | postgres => exact readsAs_constant rfl (by decide) rfl

theorem readsAs_currentDate : ReadsAs d d.currentDate.toList (.single .currentDate) := by
  cases d with
  | bigQuery =>
    exact readsAs_call (show dateForm ∈ callForms .bigQuery by simp [callForms, clockForms])
      .nil (.inr rfl) rfl
  | postgres => exact readsAs_constant rfl (by decide) rfl

theorem readsAs_oneArgument {form : CallForm} (hform : form ∈ callForms d) {f : Expr → Expr}
    (hbuild : form.build = oneArgument f) {text : String} {c : Chain}
    (h : ReadsAs d text.toList c) : ReadsAs d (form.text [text]).toList (.single (f c.toExpr)) := by
  refine readsAs_call hform (.cons h .nil) (.inl (le_refl 1)) ?_
  rw [hbuild]
  rfl

mutual

/-- The text of every tree is read as the chain of the tree. -/
theorem readsAs_render : ∀ e : Expr, ReadsAs d (e.render d).toList (e.chain d)
  | .column none name => by
      rw [Expr.render, Expr.chain]
      exact readsAs_name name
  | .column (some qualifier) name => by
      rw [Expr.render, Expr.chain]
      exact readsAs_qualified qualifier name
  | .str value => by
      rw [Expr.render, Expr.chain]
      exact readsAs_literal value
  | .bool true | .bool false | .null | .and [] => by
      rw [Expr.render, Expr.chain]
      exact readsAs_constant rfl (by decide) (by cases d <;> rfl)
  | .castText e => by
      rw [Expr.render, Expr.chain, castText_eq_text]
      exact readsAs_oneArgument (by simp [callForms]) rfl (readsAs_render e)
  | .coalesce args => by
      rw [Expr.render, Expr.chain]
      exact readsAs_call (show coalesceForm ∈ callForms d by simp [callForms])
        (allReadAs_renderAll args) (.inr rfl) rfl
  | .concat [part] => by
      rw [Expr.render, Expr.chain]
      exact readsAs_render part
  | .concat [] =>
      readsAs_call (show concatForm ∈ callForms d by simp [callForms]) .nil (.inr rfl) rfl
  | .concat (part :: next :: parts) =>
      readsAs_call (show concatForm ∈ callForms d by simp [callForms])
        (allReadAs_renderAll (part :: next :: parts)) (.inr rfl) rfl
  | .charLength e => by
      rw [Expr.render, Expr.chain, charLength_eq_text]
      exact readsAs_oneArgument (by simp [callForms]) rfl (readsAs_render e)
  | .hexDigest e => by
      rw [Expr.render, Expr.chain, hexDigest_eq_text]
      exact readsAs_oneArgument (by simp [callForms]) (by cases d <;> rfl) (readsAs_render e)
  | .currentTimestamp => by
      rw [Expr.render, Expr.chain]
      exact readsAs_currentTimestamp
  | .currentDate => by
      rw [Expr.render, Expr.chain]
      exact readsAs_currentDate
  | .compare op left right => by
      rw [Expr.render, Expr.chain]
      have hlink := (readsAs_render left).link (.compare op) (readsAs_render right)
      simpa only [Link.text, String.toList_append, List.append_assoc] using hlink
  | .and [term] => by
      rw [Expr.render, Expr.chain]
      exact readsAs_render term
  | .and (term :: next :: terms) =>
      readsAs_conjoined (readsAs_render term) (allReadAs_renderAll (next :: terms))

theorem allReadAs_renderAll : ∀ es : List Expr, AllReadAs d (Expr.renderAll d es) (Expr.chains d es)
  | [] => .nil
  | e :: es => .cons (readsAs_render e) (allReadAs_renderAll es)

end

/-- The text does not go on with an operand, nor with a further one. -/
def EndsText (rest : List Char) : Prop := EndsOperand rest ∧ link? rest = none

theorem endsText_nil : EndsText [] := ⟨endsOperand_nil, rfl⟩

/-- The text of a tree gives its chain, with the text that follows. -/
theorem chain_append_inj {e f : Expr} {r t : List Char} (hr : EndsText r) (ht : EndsText t)
    (h : (e.render d).toList ++ r = (f.render d).toList ++ t) :
    e.chain d = f.chain d ∧ r = t := by
  have hsame := (readsAs_render (d := d) e).readChain_eq hr.1 hr.2
  rw [h, (readsAs_render f).readChain_eq ht.1 ht.2] at hsame
  exact ⟨(Prod.mk.inj (Option.some.inj hsame)).1.symm, (Prod.mk.inj (Option.some.inj hsame)).2.symm⟩

/-- The text of a tree has only one chain. -/
theorem chain_eq_of_render_eq {e f : Expr} (h : e.render d = f.render d) :
    e.chain d = f.chain d :=
  (chain_append_inj endsText_nil endsText_nil (congrArg (fun text => text.toList ++ []) h)).1

end

end DataVault.Sql
