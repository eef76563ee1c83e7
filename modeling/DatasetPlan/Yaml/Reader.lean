import DatasetPlan.Document.Dialect
import DatasetPlan.Yaml.Event
import DatasetPlan.Yaml.Writer

/-! YAML text as a document, with its aliases expanded, and what its scalars answer. -/

namespace DatasetPlan.Yaml

open Fault (Cause)

/-- The tag is none where it is one of the document's own; the node bears a mark then. -/
structure Scalar where
  text : String
  spelling : Spelling
  tag : Option String

inductive Leaf where
  | scalar (value : Scalar)
  | alias (number : Nat)

/-- The anchors so far. An anchor is numbered by how many different names came before it, so that
a name that is used again may share its number with a later one; the last place counts then. -/
structure Anchors where
  numbers : List (String × Nat) := []
  places : List (Nat × Nat) := []

def Anchors.add (a : Anchors) (place : Nat) : Option String → Anchors
  | none => a
  | some name =>
      let number := a.numbers.length
      { numbers := (name, number) :: a.numbers.filter (·.1 ≠ name)
        places := (number, place) :: a.places }

def isOwnTag (tag : String) : Bool :=
  tag.toList.head? = some '!'

def marks (p : Properties) : List Mark :=
  if p.tag.any isOwnTag then [.ownTag] else []

def linkFrom (place : Nat) (a : Anchors) :
    List Event → List (Tree.Event Leaf) × Anchors × Bool
  | [] => ([], a, true)
  | event :: rest =>
      let onward (a : Anchors) (linked : Tree.Event Leaf) :=
        let (events, a, complete) := linkFrom (place + 1) a rest
        (linked :: events, a, complete)
      match event with
      | .alias name =>
          match a.numbers.lookup name with
          | none => ([], a, false)
          | some number => onward a (.leaf [] (.alias number))
      | .scalar p text spelling =>
          onward (a.add place p.anchor)
            (.leaf (marks p) (.scalar ⟨text, spelling, p.tag.filter (!isOwnTag ·)⟩))
      | .enter p shape => onward (a.add place p.anchor) (.enter (marks p) shape)
      | .leave => onward a .leave

def repetitionFactor : Nat := 100

/-- Follows an alias, as long as the number of aliases that may be followed is not used up. -/
def followed (targets : Nat → Tree Leaf) (number : Nat) : StateM Nat (Tree Leaf) := do
  match ← get with
  | 0 => pure .broken
  | left + 1 =>
      set left
      pure (targets number)

def resolved (targets : Nat → Tree Leaf) (node : Tree Leaf) : StateM Nat (Tree Leaf) :=
  match node with
  | .leaf (.alias number) => Tree.marked .alias <$> followed targets number
  | _ => pure node

def remark (node : Tree Leaf) (bare : Tree Scalar) : Tree Scalar :=
  let tagged := if node.hasOwnTag then .marked .ownTag bare else bare
  if node.isAlias then .marked .alias tagged else tagged

/-- Puts the nodes that are referred to in place of the aliases. Nothing is put into lists and
dictionaries that are nested too deeply to be read. -/
def expand (targets : Nat → Tree Leaf) : (depth : Nat) → Tree Leaf → StateM Nat (Tree Scalar)
  | depth, node => do
      let node ← resolved targets node
      let bare ← match node.bare, depth with
        | .leaf (.scalar value), _ => pure (.leaf value)
        | .list _, 0 => pure (.list [])
        | .dict _, 0 => pure (.dict [])
        | .list items, depth + 1 => .list <$> items.mapM (expand targets depth)
        | .dict entries, depth + 1 =>
            .dict <$> entries.mapM fun entry => do
              let key ← expand targets depth entry.1
              let value ← expand targets depth entry.2
              pure (key, value)
        | _, _ => pure .broken
      pure (remark node bare)

def depthLimit : Nat := 128

def document (text : String) : Document Scalar :=
  let (events, whole) := Event.scan text
  let (linked, anchors, complete) := linkFrom 0 {} events
  let targets (number : Nat) : Tree Leaf :=
    match anchors.places.lookup number with
    | some place => .ofEvents (linked.drop place)
    | none => .broken
  let (root, _) := (expand targets depthLimit (.ofEvents linked)).run
    (repetitionFactor * linked.length)
  ⟨root, whole && complete⟩

def wording : Fault.Wording where
  null := "unit value"
  float := { positional := none, pointZero := true, plus := false, infinity := "inf", nan := "NaN" }
  showsPath := true

def coreTag (name : String) : String :=
  "tag:yaml.org,2002:" ++ name

def expecting (value : Option Found) (s : Scalar) (wanted : String) : Except Cause Found :=
  match value with
  | some found => pure found
  | none => throw (.wrongValue (.text s.text) wanted)

/-- A tag of the core schema says what a scalar has to be; without a tag, plain scalars are
resolved and all others are text. -/
def look (s : Scalar) : Except Cause Found :=
  let cs := s.text.toList
  match s.tag with
  | some tag =>
      if tag = coreTag "bool" then expecting ((bool? s.text).map .bool) s "a boolean"
      else if tag = coreTag "int" then
        expecting ((integer? (Width.span 128) (Width.signedBound 128) cs).map .int) s "an integer"
      else if tag = coreTag "float" then expecting ((float? cs).map .float) s "a float"
      else if tag = coreTag "null" then
        expecting (if isNullWord s.text then some .null else none) s "null"
      else pure (.text s.text)
  | none => pure (if s.spelling = .plain then resolve s.text else .text s.text)

/-- Scalars of the wanted kind are plain, or literal under the tag of that kind. -/
def readAs (tag : String) (read? : String → Option β) (wanted : String) (s : Scalar) :
    Except Cause β := do
  let mayBe := s.spelling = .plain || s.spelling = .literal && s.tag = some (coreTag tag)
  match if mayBe then read? s.text else none with
  | some value => pure value
  | none => throw (.wrongType (← look s) wanted)

def absent (s : Scalar) : Except Cause Bool :=
  if s.spelling ≠ .plain then pure false
  else
    match s.tag with
    | none => pure (s.text.isEmpty || isNullWord s.text)
    | some tag =>
        if tag ≠ coreTag "null" then pure false
        else if isNullWord s.text then pure true
        else throw (.wrongValue (.text s.text) "null")

def dialect : Dialect Scalar where
  depth := depthLimit
  wording := wording
  look := look
  text _ s := pure s.text
  bool := readAs "bool" bool? "a boolean"
  nat := readAs "int" (fun text => natural? (Width.span 64) text.toList) "usize"
  int := readAs "int"
    (fun text =>
      (integer? (Width.signedBound 64) (Width.signedBound 64) text.toList).map Int64.ofInt) "i64"
  float := readAs "float" (fun text => float? text.toList) "f64"
  isAbsent := absent
  isBlank s := s.spelling = .plain && s.text.isEmpty
  recordsAsLists := false
  surplus given _ := .wrongLength given ""

end DatasetPlan.Yaml
