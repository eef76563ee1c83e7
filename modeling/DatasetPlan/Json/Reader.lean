import DatasetPlan.Document.Dialect
import DatasetPlan.Json.Token
import DatasetPlan.Json.Writer

namespace DatasetPlan.Json

open DatasetPlan.Tree (Shape Event)

inductive Expected where
  | value
  | valueOrEnd
  | key
  | keyOrEnd
  | colon
  | commaOrEnd
  /-- The root is complete. -/
  | nothing

def afterValue : List Shape → Expected
  | [] => .nothing
  | _ => .commaOrEnd

def afterComma : List Shape → Expected
  | .dict :: _ => .key
  | _ => .value

structure State where
  expected : Expected
  opened : List Shape

def State.start : State :=
  ⟨.value, []⟩

def leaf (value : Leaf) : Event Leaf :=
  .leaf [] value

/-- Takes one token; none if it may not stand here. -/
def State.step (s : State) (token : Token) : Option (List (Event Leaf) × State) :=
  let takeValue : Option (List (Event Leaf) × State) :=
    match token with
    | .text value => some ([leaf (value.map .text)], ⟨afterValue s.opened, s.opened⟩)
    | .scalar value => some ([leaf value], ⟨afterValue s.opened, s.opened⟩)
    | .enter .list => some ([.enter [] .list], ⟨.valueOrEnd, .list :: s.opened⟩)
    | .enter .dict => some ([.enter [] .dict], ⟨.keyOrEnd, .dict :: s.opened⟩)
    | _ => none
  let takeKey : Option (List (Event Leaf) × State) :=
    match token with
    | .text value => some ([leaf (value.map .text)], ⟨.colon, s.opened⟩)
    | _ => none
  let takeEnd : Option (List (Event Leaf) × State) :=
    match token, s.opened with
    | .leave shape, innermost :: outer =>
        if shape = innermost then some ([.leave], ⟨afterValue outer, outer⟩) else none
    | _, _ => none
  match s.expected with
  | .value => takeValue
  | .valueOrEnd => takeEnd <|> takeValue
  | .key => takeKey
  | .keyOrEnd => takeEnd <|> takeKey
  | .colon =>
      match token with
      | .colon => some ([], ⟨.value, s.opened⟩)
      | _ => none
  | .commaOrEnd =>
      match token with
      | .comma => some ([], ⟨afterComma s.opened, s.opened⟩)
      | _ => takeEnd
  | .nothing => none

/-- The events up to the first token that may not stand where it does, and whether there is no
such token and the root is complete. -/
def State.run (s : State) : List Token → List (Event Leaf) × Bool
  | [] =>
      match s.expected with
      | .nothing => ([], true)
      | _ => ([], false)
  | token :: tokens =>
      match s.step token with
      | none => ([], false)
      | some (events, next) =>
          let (rest, whole) := next.run tokens
          (events ++ rest, whole)

def document (text : String) : Document Leaf :=
  let (events, whole) := State.start.run (Token.scan text)
  ⟨.ofEvents events, whole⟩

def wording : Fault.Wording where
  null := "null"
  float := floatLayout
  showsPath := false

def look : Leaf → Except Fault.Cause Found
  | some found => pure found
  | none => throw .malformed

/-- A list with too many items for a record is no well-formed document. -/
def dialect : Dialect Leaf :=
  .plain 127 wording (fun _ _ => .malformed) look

end DatasetPlan.Json
