/-
DataVault.Text.Occurs — one text inside another.

`occurs needle text` decides whether the characters of `needle` stand
somewhere in `text` without a gap; `occurs_iff` says so in the words of the
standard library.
-/
namespace DataVault.Text

/-- The needle stands somewhere in the characters. -/
def occursChars (needle : List Char) : List Char → Bool
  | [] => needle.isEmpty
  | c :: cs => needle.isPrefixOf (c :: cs) || occursChars needle cs

/-- The needle stands somewhere in the text. -/
def occurs (needle text : String) : Bool := occursChars needle.toList text.toList

theorem occursChars_iff {needle cs : List Char} :
    occursChars needle cs = true ↔ needle <:+: cs := by
  induction cs with
  | nil => simp [occursChars]
  | cons c cs ih => simp [occursChars, ih, List.infix_cons_iff]

theorem occurs_iff {needle text : String} :
    occurs needle text = true ↔ needle.toList <:+: text.toList := occursChars_iff

end DataVault.Text
