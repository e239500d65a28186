/-
DataVault.Proofs.Sql.Literals — string literals are read back.

`Literal.read?` reads the literal at the beginning of a text by the rules of a
dialect, and gives its value with what stands behind it. In BigQuery a
backslash escapes inside single quotes, and three quotes open a text that
three quotes close. In PostgreSQL a quote inside a plain text is written
twice, and a backslash escapes in an escape string. A code that is written
with `\x` is that of a character in BigQuery and a byte in PostgreSQL, where a
byte beyond ASCII is no character on its own. That PostgreSQL has no texts with
NUL in them is not a rule of reading, and is left out.

The reader goes on with whatever belongs to the text, so the statement that a
written literal is read back (`read?_stringLiteral`) is about every text
behind it that does not begin with a quote. A literal is a list of pieces, one
for each character of the value, and each piece is read as its character
whatever follows (`Quoting.Reads`). That is all the induction on the value
needs (`Quoting.read?_flatMap`).
-/
import DataVault.Sql.Dialect
import Mathlib.Data.List.TakeWhile

namespace DataVault.Sql.Literal

open DataVault.Text

/-! ## 1. Escapes -/

/-- How the code of a character is written: in which base, with how many digits at least and at
most, and below which bound. -/
structure CodeForm where
  base : Nat
  least : Nat
  most : Nat
  bound : Nat

/-- The value of a digit of either case. -/
def digit? (base : Nat) (c : Char) : Option Nat := (hexValue? c).filter (· < base)

/-- The character whose code is written, and the count of digits. -/
def CodeForm.read? (f : CodeForm) (cs : List Char) : Option (Char × Nat) :=
  let digits := (cs.take f.most).takeWhile fun c => (digit? f.base c).isSome
  let code := digits.foldl (fun n c => n * f.base + (digit? f.base c).getD 0) 0
  if f.least ≤ digits.length ∧ code < f.bound ∧ code.isValidChar then
    some (Char.ofNat code, digits.length)
  else none

/-- All codes are below this bound. -/
def codeBound : Nat := 0x110000

/-- The bytes that are characters on their own are below this bound. -/
def byteBound : Nat := 0x80

/-- What the characters behind a backslash stand for, and how many of them belong to it. -/
abbrev Escape := List Char → Option (Char × Nat)

/-- The digits stand behind a letter that says how they are read. -/
def CodeForm.behindLetter (f : CodeForm) : Escape :=
  fun cs => (f.read? cs).map fun (c, used) => (c, used + 1)

def bigQueryShort? : Char → Option Char
  | 'a' => some '\x07'
  | 'b' => some '\x08'
  | 'f' => some '\x0c'
  | 'n' => some '\n'
  | 'r' => some '\r'
  | 't' => some '\t'
  | 'v' => some '\x0b'
  | '\\' => some '\\'
  | '?' => some '?'
  | '"' => some '"'
  | '\'' => some '\''
  | '\x60' => some '\x60'
  | _ => none

/-- The escapes of BigQuery. No others may be written. -/
def bigQueryEscape? : Escape
  | [] => none
  | 'x' :: cs | 'X' :: cs => CodeForm.behindLetter ⟨16, 2, 2, codeBound⟩ cs
  | 'u' :: cs => CodeForm.behindLetter ⟨16, 4, 4, codeBound⟩ cs
  | 'U' :: cs => CodeForm.behindLetter ⟨16, 8, 8, codeBound⟩ cs
  | c :: cs =>
      if (digit? 8 c).isSome then CodeForm.read? ⟨8, 3, 3, codeBound⟩ (c :: cs)
      else (bigQueryShort? c).map (·, 1)

def postgresShort : Char → Char
  | 'b' => '\x08'
  | 'f' => '\x0c'
  | 'n' => '\n'
  | 'r' => '\r'
  | 't' => '\t'
  | c => c

/-- A byte in one digit or two. Without a digit the letter stands for itself. -/
def postgresByte? : Escape := fun cs =>
  if cs.head?.any fun c => (digit? 16 c).isSome then
    CodeForm.behindLetter ⟨16, 1, 2, byteBound⟩ cs
  else some ('x', 1)

/-- The escapes of a PostgreSQL escape string. Any other character behind a backslash stands for
itself. -/
def postgresEscape? : Escape
  | [] => none
  | 'u' :: cs => CodeForm.behindLetter ⟨16, 4, 4, codeBound⟩ cs
  | 'U' :: cs => CodeForm.behindLetter ⟨16, 8, 8, codeBound⟩ cs
  | 'x' :: cs => postgresByte? cs
  | c :: cs =>
      if (digit? 8 c).isSome then CodeForm.read? ⟨8, 1, 3, byteBound⟩ (c :: cs)
      else some (postgresShort c, 1)

/-! ## 2. Quoted texts -/

/-- How a text is quoted. -/
structure Quoting where
  /-- What a backslash begins, where it does not stand for itself. -/
  escape? : Option Escape
  /-- A quote that is written twice stands for one. -/
  doubled : Bool
  /-- What ends the text. -/
  closing : List Char
  /-- The text may go on in the next line. -/
  overLines : Bool

/-- What is found at a place of a quoted text. -/
inductive Found where
  | character (c : Char)
  | closing

namespace Quoting

/-- What a character begins, and how many characters behind it belong to that. -/
def next? (q : Quoting) (c : Char) (cs : List Char) : Option (Found × Nat) :=
  if q.doubled ∧ c = '\'' ∧ cs.head? = some '\'' then some (.character '\'', 1)
  else if q.closing.isPrefixOf (c :: cs) then some (.closing, q.closing.length - 1)
  else
    match q.escape?, decide (c = '\\') with
    | some escape?, true => (escape? cs).map fun (e, used) => (.character e, used)
    | _, _ => if !q.overLines && (c == '\n' || c == '\r') then none else some (.character c, 0)

/-- The text up to what ends it, and what stands behind that. -/
def read? (q : Quoting) : List Char → Option (List Char × List Char)
  | [] => none
  | c :: cs =>
      match q.next? c cs with
      | none => none
      | some (.closing, used) => some ([], cs.drop used)
      | some (.character e, used) =>
          (read? q (cs.drop used)).map fun (text, rest) => (e :: text, rest)
termination_by cs => cs.length
decreasing_by
  rw [List.length_drop, List.length_cons]
  omega

/-- The piece is read as the character, whatever stands behind it. -/
def Reads (q : Quoting) (piece : List Char) (e : Char) : Prop :=
  ∃ c cs, piece = c :: cs ∧ ∀ rest, q.next? c (cs ++ rest) = some (.character e, cs.length)

section
variable {q : Quoting}

theorem read?_closing {c : Char} {cs : List Char} {used : Nat}
    (h : q.next? c cs = some (.closing, used)) : q.read? (c :: cs) = some ([], cs.drop used) := by
  rw [read?, h]

theorem read?_append {piece : List Char} {e : Char} (h : q.Reads piece e) (rest : List Char) :
    q.read? (piece ++ rest) = (q.read? rest).map fun (text, after) => (e :: text, after) := by
  obtain ⟨c, cs, rfl, hnext⟩ := h
  rw [List.cons_append, read?, hnext rest]
  simp only [List.drop_left]

/-- A text that is written piece by piece is read up to what ends it. -/
theorem read?_flatMap {piece : Char → List Char} {value rest after : List Char}
    (hpieces : ∀ c ∈ value, q.Reads (piece c) c) (hend : q.read? rest = some ([], after)) :
    q.read? (value.flatMap piece ++ rest) = some (value, after) := by
  induction value with
  | nil => exact hend
  | cons c value ih =>
    obtain ⟨hpiece, hrest⟩ := List.forall_mem_cons.mp hpieces
    rw [List.flatMap_cons, List.append_assoc, read?_append hpiece, ih hrest]
    rfl

/-- A character without a meaning of its own stands for itself. -/
theorem reads_self {c : Char} (hclosing : q.closing.head? = some '\'') (hquote : c ≠ '\'')
    (hslash : q.escape? = none ∨ c ≠ '\\') (hline : q.overLines = true ∨ isControl c = false) :
    q.Reads [c] c := by
  refine ⟨c, [], rfl, fun rest => ?_⟩
  have hopen : q.closing.isPrefixOf (c :: rest) = false := by
    obtain ⟨signs, hsigns⟩ := List.head?_eq_some_iff.mp hclosing
    rw [hsigns, List.isPrefixOf_cons_cons, beq_false_of_ne (Ne.symm hquote), Bool.false_and]
  have hbreak : (!q.overLines && (c == '\n' || c == '\r')) = false := by
    rcases hline with h | h
    · simp [h]
    · have hne : c ≠ '\n' ∧ c ≠ '\r' := by
        constructor <;> (rintro rfl; exact absurd h (by decide))
      simp [hne]
  unfold next?
  rw [List.nil_append, if_neg (fun h => hquote h.2.1), hopen, hbreak]
  rcases hslash with h | h <;> simp [h]

end

end Quoting

/-! ## 3. Literals -/

def bigQueryQuoting : Quoting := ⟨some bigQueryEscape?, false, ['\''], false⟩

def bigQueryTriple : Quoting := ⟨some bigQueryEscape?, false, ['\'', '\'', '\''], true⟩

def postgresPlain : Quoting := ⟨none, true, ['\''], true⟩

def postgresEscaped : Quoting := ⟨some postgresEscape?, true, ['\''], true⟩

/-- The text behind the sign that opens it. -/
def opened? : Dialect → List Char → Option (List Char × List Char)
  | .bigQuery, '\'' :: '\'' :: '\'' :: cs => bigQueryTriple.read? cs
  | .bigQuery, '\'' :: cs => bigQueryQuoting.read? cs
  | .postgres, 'E' :: '\'' :: cs | .postgres, 'e' :: '\'' :: cs => postgresEscaped.read? cs
  | .postgres, '\'' :: cs => postgresPlain.read? cs
  | _, _ => none

/-- The value of the literal at the beginning of a text, and what stands behind it. -/
def read? (d : Dialect) (cs : List Char) : Option (String × List Char) :=
  (opened? d cs).map fun (value, rest) => (String.ofList value, rest)

/-- A quote that is followed by another one opens no text, but for three. -/
theorem opened?_bigQuery {cs : List Char} (h : ¬ ['\'', '\''] <+: cs) :
    opened? .bigQuery ('\'' :: cs) = bigQueryQuoting.read? cs := by
  unfold opened?
  split <;> simp_all

/-! ## 4. Written codes -/

theorem digit?_hexDigit : ∀ n < 16, digit? 16 (hexDigit n) = some n := by decide

/-- As many digits as are taken at most are all taken. -/
theorem CodeForm.read?_digits {f : CodeForm} {digits : List Char}
    (hdigits : ∀ c ∈ digits, (digit? f.base c).isSome) (hmost : digits.length = f.most)
    (hleast : f.least ≤ f.most) {n : Nat}
    (hcode : digits.foldl (fun n c => n * f.base + (digit? f.base c).getD 0) 0 = n)
    (hbound : n < f.bound) (hvalid : n.isValidChar) (rest : List Char) :
    f.read? (digits ++ rest) = some (Char.ofNat n, digits.length) := by
  have htaken : ((digits ++ rest).take f.most).takeWhile (fun c => (digit? f.base c).isSome) =
      digits := by
    rw [← hmost, List.take_left]
    exact List.takeWhile_eq_self_iff.mpr hdigits
  unfold CodeForm.read?
  simp only [htaken, hcode]
  exact if_pos ⟨hmost ▸ hleast, hbound, hvalid⟩

/-- The code of a control character has two digits. -/
theorem toNat_of_isControl {c : Char} (h : isControl c = true) : c.toNat < 0xA0 := by
  simp only [isControl, Bool.or_eq_true, Bool.and_eq_true, decide_eq_true_eq] at h
  omega

section
variable {c : Char} (hc : c.toNat < 0xA0)
include hc

/-- Two digits and zeros before them give the code back. -/
theorem CodeForm.read?_hexPadded {least more bound : Nat} (hleast : least ≤ more + 2)
    (hbound : c.toNat < bound) (rest : List Char) :
    CodeForm.read? ⟨16, least, more + 2, bound⟩ (hexPadded (more + 2) c.toNat ++ rest) =
      some (c, (hexPadded (more + 2) c.toNat).length) := by
  have hhigh := digit?_hexDigit (c.toNat / 16) (by omega)
  have hlow := digit?_hexDigit (c.toNat % 16) (by omega)
  have hzeros : ∀ more, (List.replicate more '0').foldl
      (fun n c => n * 16 + (digit? 16 c).getD 0) 0 = 0 := by
    intro more
    induction more with
    | zero => rfl
    | succ more ih => exact ih
  rw [hexPadded_byte (by omega)]
  refine (read?_digits ?_ ?_ hleast ?_ hbound (.inl (by omega)) rest).trans ?_
  · simp only [List.mem_append, List.mem_replicate, List.mem_cons, List.not_mem_nil, or_false]
    rintro d (⟨-, rfl⟩ | rfl | rfl)
    · rfl
    · rw [hhigh]
      rfl
    · rw [hlow]
      rfl
  · simp
  · simp only [List.foldl_append, hzeros, List.foldl_cons, List.foldl_nil, hhigh, hlow,
      Option.getD_some]
    omega
  · rw [Char.ofNat_toNat]

/-- No digit of a code is a control character. -/
theorem isControl_hexPadded (more : Nat) :
    ∀ d ∈ hexPadded (more + 2) c.toNat, isControl d = false := by
  have hdigit : ∀ n < 16, isControl (hexDigit n) = false := by decide
  rw [hexPadded_byte (by omega)]
  simp only [List.mem_append, List.mem_replicate, List.mem_cons, List.not_mem_nil, or_false]
  rintro d (⟨-, rfl⟩ | rfl | rfl)
  · decide
  · exact hdigit _ (by omega)
  · exact hdigit _ (by omega)

end

/-! ## 5. Pieces -/

theorem reads_bigQueryPiece (c : Char) : bigQueryQuoting.Reads (bigQueryPiece c) c := by
  unfold bigQueryPiece
  split
  · next h => subst h; exact ⟨'\\', ['\\'], rfl, fun _ => rfl⟩
  split
  · next h => subst h; exact ⟨'\\', ['\''], rfl, fun _ => rfl⟩
  split
  · next hcontrol =>
    have hc := toNat_of_isControl hcontrol
    refine ⟨'\\', 'x' :: hexPadded 2 c.toNat, rfl, fun rest => ?_⟩
    have hcode := CodeForm.read?_hexPadded hc (le_refl (0 + 2))
      (show c.toNat < codeBound by unfold codeBound; omega) rest
    change (CodeForm.behindLetter ⟨16, 2, 2, codeBound⟩ (hexPadded 2 c.toNat ++ rest)).map _ = _
    rw [CodeForm.behindLetter, hcode]
    rfl
  · next hslash hquote hcontrol =>
    exact Quoting.reads_self rfl hquote (.inr hslash) (.inr (Bool.eq_false_iff.mpr hcontrol))

theorem reads_escapePiece (c : Char) : postgresEscaped.Reads (escapePiece c) c := by
  unfold escapePiece
  split
  · next h => subst h; exact ⟨'\\', ['\\'], rfl, fun _ => rfl⟩
  split
  · next h => subst h; exact ⟨'\\', ['\''], rfl, fun _ => rfl⟩
  split
  · next hcontrol =>
    have hc := toNat_of_isControl hcontrol
    split
    · next hbyte =>
      refine ⟨'\\', 'x' :: hexPadded 2 c.toNat, rfl, fun rest => ?_⟩
      have hcode := CodeForm.read?_hexPadded hc (show 1 ≤ 0 + 2 by omega)
        (show c.toNat < byteBound from hbyte) rest
      have hdigit : (hexPadded 2 c.toNat ++ rest).head?.any fun c => (digit? 16 c).isSome := by
        rw [hexPadded_byte (by omega)]
        change (digit? 16 (hexDigit (c.toNat / 16))).isSome
        rw [digit?_hexDigit _ (by omega)]
        rfl
      change (postgresByte? (hexPadded 2 c.toNat ++ rest)).map _ = _
      rw [postgresByte?, if_pos hdigit]
      unfold CodeForm.behindLetter
      rw [hcode]
      rfl
    · refine ⟨'\\', 'u' :: hexPadded 4 c.toNat, rfl, fun rest => ?_⟩
      have hcode := CodeForm.read?_hexPadded hc (le_refl (2 + 2))
        (show c.toNat < codeBound by unfold codeBound; omega) rest
      change (CodeForm.behindLetter ⟨16, 4, 4, codeBound⟩ (hexPadded 4 c.toNat ++ rest)).map _ = _
      rw [CodeForm.behindLetter, hcode]
      rfl
  · next hslash hquote hcontrol => exact Quoting.reads_self rfl hquote (.inr hslash) (.inl rfl)

theorem reads_plainPiece (c : Char) : postgresPlain.Reads (plainPiece c) c := by
  unfold plainPiece
  split
  · next h => subst h; exact ⟨'\'', ['\''], rfl, fun _ => rfl⟩
  · next h => exact Quoting.reads_self rfl h (.inl rfl) (.inl rfl)

theorem isControl_pair {a b : Char} (ha : isControl a = false) (hb : isControl b = false) :
    ∀ c ∈ [a, b], isControl c = false :=
  List.forall_mem_cons.mpr ⟨ha, List.forall_mem_singleton.mpr hb⟩

theorem isControl_code {c : Char} (hc : c.toNat < 0xA0) {letter : Char}
    (hletter : isControl letter = false) (more : Nat) :
    ∀ d ∈ ['\\', letter] ++ hexPadded (more + 2) c.toNat, isControl d = false :=
  List.forall_mem_append.mpr ⟨isControl_pair (by decide) hletter, isControl_hexPadded hc more⟩

theorem isControl_bigQueryPiece (c : Char) : ∀ d ∈ bigQueryPiece c, isControl d = false := by
  unfold bigQueryPiece
  split
  · exact isControl_pair (by decide) (by decide)
  split
  · exact isControl_pair (by decide) (by decide)
  split
  · next hcontrol => exact isControl_code (toNat_of_isControl hcontrol) (by decide) 0
  · next hcontrol => exact List.forall_mem_singleton.mpr (Bool.eq_false_iff.mpr hcontrol)

theorem isControl_escapePiece (c : Char) : ∀ d ∈ escapePiece c, isControl d = false := by
  unfold escapePiece
  split
  · exact isControl_pair (by decide) (by decide)
  split
  · exact isControl_pair (by decide) (by decide)
  split
  · next hcontrol =>
    have hc := toNat_of_isControl hcontrol
    split
    · exact isControl_code hc (by decide) 0
    · exact isControl_code hc (by decide) 2
  · next hcontrol => exact List.forall_mem_singleton.mpr (Bool.eq_false_iff.mpr hcontrol)

theorem isControl_plainPiece {c : Char} (hc : isControl c = false) :
    ∀ d ∈ plainPiece c, isControl d = false := by
  unfold plainPiece
  split
  · exact isControl_pair (by decide) (by decide)
  · exact List.forall_mem_singleton.mpr hc

/-! ## 6. Written literals -/

/-- A written literal holds no control character. -/
theorem isControl_stringLiteral (d : Dialect) (value : String) :
    ∀ c ∈ (d.stringLiteral value).toList, isControl c = false := by
  have hquoted : ∀ {start : List Char} {piece : Char → List Char},
      (∀ c ∈ start, isControl c = false) →
      (∀ c ∈ value.toList, ∀ d ∈ piece c, isControl d = false) →
      ∀ c ∈ start ++ value.toList.flatMap piece ++ ['\''], isControl c = false := by
    intro start piece hstart hpieces
    refine List.forall_mem_append.mpr ⟨List.forall_mem_append.mpr ⟨hstart, ?_⟩, ?_⟩
    · exact List.forall_mem_flatMap.mpr hpieces
    · exact List.forall_mem_singleton.mpr (by decide)
  cases d with
  | bigQuery =>
    change ∀ c ∈ (bigQuery value).toList, _
    rw [bigQuery, String.toList_ofList]
    exact hquoted (List.forall_mem_singleton.mpr rfl) fun c _ => isControl_bigQueryPiece c
  | postgres =>
    change ∀ c ∈ (postgres value).toList, _
    unfold postgres
    split
    · rw [String.toList_ofList]
      exact hquoted (List.forall_mem_cons.mpr ⟨rfl, List.forall_mem_singleton.mpr rfl⟩)
        fun c _ => isControl_escapePiece c
    · next hplain =>
      rw [String.toList_ofList]
      refine hquoted (List.forall_mem_singleton.mpr rfl) fun c hc => isControl_plainPiece ?_
      simp only [needsEscape, List.any_eq_true, not_exists, not_and, Bool.not_eq_true,
        Bool.or_eq_false_iff] at hplain
      exact (hplain c hc).1

section
variable {rest : List Char} (hrest : rest.head? ≠ some '\'')
include hrest

/-- A quote without another one behind it ends a text. -/
theorem read?_quote {q : Quoting} (hclosing : q.closing = ['\'']) :
    q.read? ('\'' :: rest) = some ([], rest) := by
  have hnext : q.next? '\'' rest = some (.closing, 0) := by
    unfold Quoting.next?
    rw [if_neg (fun h => hrest h.2.2), hclosing]
    rfl
  rw [Quoting.read?_closing hnext, List.drop_zero]

/-- A written literal does not begin like one with three quotes. -/
theorem not_twoQuotes (value : List Char) :
    ¬ ['\'', '\''] <+: value.flatMap bigQueryPiece ++ '\'' :: rest := by
  cases value with
  | nil =>
    intro h
    obtain ⟨more, hmore⟩ := h
    cases rest with
    | nil => cases hmore
    | cons c rest =>
      cases hmore
      exact hrest rfl
  | cons c value =>
    obtain ⟨first, piece, hpiece, hfirst⟩ :
        ∃ first piece, bigQueryPiece c = first :: piece ∧ first ≠ '\'' := by
      unfold bigQueryPiece
      split
      · exact ⟨_, _, rfl, by decide⟩
      split
      · exact ⟨_, _, rfl, by decide⟩
      split
      · exact ⟨_, _, rfl, by decide⟩
      · next hquote _ => exact ⟨_, _, rfl, hquote⟩
    rw [List.flatMap_cons, hpiece]
    rintro ⟨more, hmore⟩
    exact hfirst (List.cons.inj hmore).1.symm

/-- The text of a literal is read up to its end, and what is read is its value. -/
theorem read?_stringLiteral (d : Dialect) (value : String) :
    read? d ((d.stringLiteral value).toList ++ rest) = some (value, rest) := by
  have hread : opened? d ((d.stringLiteral value).toList ++ rest) = some (value.toList, rest) := by
    cases d with
    | bigQuery =>
      have htext : (Dialect.bigQuery.stringLiteral value).toList ++ rest =
          '\'' :: (value.toList.flatMap bigQueryPiece ++ '\'' :: rest) := by
        change (bigQuery value).toList ++ rest = _
        rw [bigQuery, String.toList_ofList]
        simp
      rw [htext, opened?_bigQuery (not_twoQuotes hrest value.toList)]
      exact Quoting.read?_flatMap (fun c _ => reads_bigQueryPiece c) (read?_quote hrest rfl)
    | postgres =>
      change opened? .postgres ((postgres value).toList ++ rest) = _
      unfold postgres
      split
      · rw [String.toList_ofList]
        simp only [List.cons_append, List.append_assoc, List.nil_append]
        exact Quoting.read?_flatMap (fun c _ => reads_escapePiece c) (read?_quote hrest rfl)
      · rw [String.toList_ofList]
        simp only [List.cons_append, List.append_assoc, List.nil_append]
        exact Quoting.read?_flatMap (fun c _ => reads_plainPiece c) (read?_quote hrest rfl)
  rw [read?, hread]
  exact congrArg (fun text => some (text, rest)) String.ofList_toList

end

/-- A written literal holds no control character. In front of any text that does not begin with
a quote, it is read up to its end and gives its value back. -/
theorem literals_read_back (d : Dialect) (value : String) (rest : List Char)
    (hrest : rest.head? ≠ some '\'') :
    (∀ c ∈ (d.stringLiteral value).toList, isControl c = false) ∧
      read? d ((d.stringLiteral value).toList ++ rest) = some (value, rest) :=
  ⟨isControl_stringLiteral d value, read?_stringLiteral hrest d value⟩

/-- A control character beyond ASCII, with a quote and a backslash around it, in front of digits. -/
theorem literals_read_back_before_digits :
    Dialect.postgres.stringLiteral "'\u0085\\" = "E'\\'\\u0085\\\\'" ∧
      read? .postgres ("E'\\'\\u0085\\\\'".toList ++ ['0', 'a']) =
        some ("'\u0085\\", ['0', 'a']) := by
  have htext : Dialect.postgres.stringLiteral "'\u0085\\" = "E'\\'\\u0085\\\\'" := by
    decide +kernel
  exact ⟨htext, htext ▸ (literals_read_back .postgres "'\u0085\\" ['0', 'a'] (by decide)).2⟩

end DataVault.Sql.Literal
