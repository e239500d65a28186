/-
DataVault.Yaml.Reader — reading YAML text.

A text holds one document or none; an empty text stands for an empty
document. The names of anchors and references are turned into numbers as
they are read, and a reference to a name that no anchor had before it is an
error.
-/
import DataVault.Yaml.Token
import DataVault.Yaml.Expand

namespace DataVault.Yaml

open DataVault.Document

/-! ## 1. State -/

/-- The tokens that are left, the names of anchors with their numbers, each
name once, and what the handles of tags stand for. -/
structure Parse where
  tokens : List Token
  anchors : List (String × Nat)
  handles : List (String × Octets)

/-- A step of reading; a text that breaks a rule has no document. -/
abbrev Reading := StateT Parse Option

/-- What the handles stand for where no directive says otherwise. -/
def standardHandles : List (String × Octets) :=
  [("!", octetsOf "!"), ("!!", Tag.standardOctets "")]

def refuse {α : Type} : Reading α := fun _ => none

/-- The next token. -/
def next : Reading Token := do return (← get).tokens.head?.getD .streamEnd

/-- Passes the next token. -/
def pass : Reading Unit := modify fun p => { p with tokens := p.tokens.drop 1 }

/-- Passes the next token if it is the given one. -/
def passIf (t : Token) : Reading Bool := do
  if (← next) = t then
    pass
    return true
  else return false

/-! ## 2. Properties -/

/-- The tag and the number of the anchor of a node. -/
structure Properties where
  tag : Option Tag
  number : Option Nat

/-- The tag with a handle. A tag without one is whole. -/
def tagOf (handle : String) (suffix : Octets) : Reading Tag := do
  if handle.isEmpty then return .ofOctets suffix
  else
    match (← get).handles.lookup handle with
    | some start => return .ofOctets (start ++ suffix)
    | none => refuse

/-- Gives a number to the name of an anchor. -/
def numberOf (name : String) : Reading Nat := do
  let anchors := (← get).anchors
  let number := anchors.length
  modify fun p => { p with anchors := (name, number) :: anchors.filter (·.1 != name) }
  return number

/-- The properties in front of a node, in either order. -/
def properties : Reading Properties := do
  match ← next with
  | .anchor name =>
      pass
      match ← next with
      | .tag handle suffix =>
          pass
          return ⟨some (← tagOf handle suffix), some (← numberOf name)⟩
      | _ => return ⟨none, some (← numberOf name)⟩
  | .tag handle suffix =>
      pass
      match ← next with
      | .anchor name =>
          pass
          return ⟨some (← tagOf handle suffix), some (← numberOf name)⟩
      | _ => return ⟨some (← tagOf handle suffix), none⟩
  | _ => return ⟨none, none⟩

/-- A node with its anchor. -/
def Properties.mark (props : Properties) (t : Tree) : Tree :=
  match props.number with
  | some number => .anchored number t
  | none => t

/-- The node that a name stands for. -/
def referenceTo (name : String) : Reading Tree := do
  match (← get).anchors.lookup name with
  | some number => return .reference number
  | none => refuse

/-! ## 3. Nodes -/

mutual

/-- A node. `block` admits block collections, `indentless` a sequence whose
dashes are not indented. -/
def node (fuel : Nat) (block indentless : Bool) : Reading Tree :=
  match fuel with
  | 0 => refuse
  | fuel + 1 => do
      match ← next with
      | .reference name =>
          pass
          referenceTo name
      | _ =>
          let props ← properties
          let list (read : Reading (List Tree)) : Reading Tree := do
            return props.mark (.list props.tag (← read))
          let table (read : Reading (List (Tree × Tree))) : Reading Tree := do
            return props.mark (.table props.tag (← read))
          match ← next with
          | .scalar text style =>
              pass
              return props.mark (.scalar props.tag style text)
          | token =>
              if indentless && token == .blockEntry then list (indentlessItems fuel)
              else if token == .flowSequenceStart then
                pass
                list (flowItems fuel true)
              else if token == .flowMappingStart then
                pass
                table (flowMembers fuel true)
              else if block && token == .blockSequenceStart then
                pass
                list (blockItems fuel)
              else if block && token == .blockMappingStart then
                pass
                table (blockMembers fuel)
              else if props.number.isSome || props.tag.isSome then
                return props.mark (.scalar props.tag .plain "")
              else refuse

/-- A node, unless one of the tokens that follow an absent one is next. -/
def nodeUnless (fuel : Nat) (block indentless : Bool) (ends : List Token) : Reading Tree :=
  match fuel with
  | 0 => refuse
  | fuel + 1 => do
      if ends.contains (← next) then return .empty else node fuel block indentless

/-- The items of an indented block sequence. -/
def blockItems (fuel : Nat) : Reading (List Tree) :=
  match fuel with
  | 0 => refuse
  | fuel + 1 => do
      if ← passIf .blockEntry then
        let item ← nodeUnless fuel true false [.blockEntry, .blockEnd]
        return item :: (← blockItems fuel)
      else if ← passIf .blockEnd then return []
      else refuse

/-- The items of a block sequence that is not indented. -/
def indentlessItems (fuel : Nat) : Reading (List Tree) :=
  match fuel with
  | 0 => refuse
  | fuel + 1 => do
      if ← passIf .blockEntry then
        let item ← nodeUnless fuel true false [.blockEntry, .key, .value, .blockEnd]
        return item :: (← indentlessItems fuel)
      else return []

/-- The value of a block mapping's key, if there is one. -/
def blockValue (fuel : Nat) : Reading Tree :=
  match fuel with
  | 0 => refuse
  | fuel + 1 => do
      if ← passIf .value then nodeUnless fuel true true [.key, .value, .blockEnd]
      else return .empty

/-- The keys and values of a block mapping. -/
def blockMembers (fuel : Nat) : Reading (List (Tree × Tree)) :=
  match fuel with
  | 0 => refuse
  | fuel + 1 => do
      if ← passIf .key then
        let key ← nodeUnless fuel true true [.key, .value, .blockEnd]
        let value ← blockValue fuel
        return (key, value) :: (← blockMembers fuel)
      else if ← passIf .blockEnd then return []
      else refuse

/-- The comma before an item that is not the first. -/
def comma (fuel : Nat) (first : Bool) : Reading Unit :=
  match fuel with
  | 0 => refuse
  | _ + 1 => do
      if first then return ()
      else if ← passIf .flowEntry then return ()
      else refuse

/-- The items of a bracketed sequence. -/
def flowItems (fuel : Nat) (first : Bool) : Reading (List Tree) :=
  match fuel with
  | 0 => refuse
  | fuel + 1 => do
      if ← passIf .flowSequenceEnd then return []
      else
        comma fuel first
        if ← passIf .flowSequenceEnd then return []
        else
          let item ← flowItem fuel
          return item :: (← flowItems fuel false)

/-- An item of a bracketed sequence: a node, or a single key with its
value. -/
def flowItem (fuel : Nat) : Reading Tree :=
  match fuel with
  | 0 => refuse
  | fuel + 1 => do
      if ← passIf .key then
        let key ← flowPairKey fuel
        let value ← flowValue fuel [.flowEntry, .flowSequenceEnd]
        return .table none [(key, value)]
      else node fuel false false

/-- The key of a single pair. Where it is missing, the sign after it is
passed with it. -/
def flowPairKey (fuel : Nat) : Reading Tree :=
  match fuel with
  | 0 => refuse
  | fuel + 1 => do
      if [.value, .flowEntry, .flowSequenceEnd].contains (← next) then
        pass
        return .empty
      else node fuel false false

/-- The value of a key inside brackets, if there is one. -/
def flowValue (fuel : Nat) (ends : List Token) : Reading Tree :=
  match fuel with
  | 0 => refuse
  | fuel + 1 => do
      if ← passIf .value then nodeUnless fuel false false ends else return .empty

/-- The keys and values of a bracketed mapping. -/
def flowMembers (fuel : Nat) (first : Bool) : Reading (List (Tree × Tree)) :=
  match fuel with
  | 0 => refuse
  | fuel + 1 => do
      if ← passIf .flowMappingEnd then return []
      else
        comma fuel first
        if ← passIf .flowMappingEnd then return []
        else if ← passIf .key then
          let key ← nodeUnless fuel false false [.value, .flowEntry, .flowMappingEnd]
          let value ← flowValue fuel [.flowEntry, .flowMappingEnd]
          return (key, value) :: (← flowMembers fuel false)
        else
          let key ← node fuel false false
          return (key, .empty) :: (← flowMembers fuel false)

end

/-! ## 4. Documents -/

/-- The directives in front of a document. Each handle may be declared once,
and the version once. -/
def directives (fuel : Nat) (versioned : Bool) (handles : List (String × Octets)) :
    Reading Bool :=
  match fuel with
  | 0 => refuse
  | fuel + 1 => do
      match ← next with
      | .versionDirective accepted =>
          if versioned || !accepted then refuse
          else
            pass
            directives fuel true handles
      | .tagDirective handle start =>
          if (handles.lookup handle).isSome then refuse
          else
            pass
            directives fuel versioned ((handle, start) :: handles)
      | _ =>
          modify fun p => { p with handles := handles ++ p.handles }
          return versioned || !handles.isEmpty

/-- Passes the marks that end a document; nothing may follow them. -/
def documentEnd (fuel : Nat) : Reading Unit :=
  match fuel with
  | 0 => refuse
  | fuel + 1 => do
      if ← passIf .documentEnd then documentEnd fuel
      else if (← next) = .streamEnd then return ()
      else refuse

/-- The node of the only document. -/
def document (fuel : Nat) : Reading Tree := do
  if (← next) = .streamEnd then return .empty
  else
    let declared ← directives fuel false []
    let marked ← passIf .documentStart
    if declared && !marked then refuse
    else
      let token ← next
      let absent :=
        marked &&
          match token with
          | .versionDirective _ | .tagDirective _ _ | .documentStart | .documentEnd
          | .streamEnd => true
          | _ => false
      let n ← if absent then pure .empty else node fuel true false
      documentEnd fuel
      return n

/-- The document that a text holds. -/
def written? (text : String) : Option Written := do
  let tokens ← tokens? text
  let (t, _) ← (document (4 * tokens.length + 8)).run ⟨tokens, [], standardHandles⟩
  some (.ofTree t)

/-- The document that a text holds, as far as the shape asks for it. -/
def read? (shape : Shape) (text : String) : Option Node := do (← written? text).expand? shape

end DataVault.Yaml
