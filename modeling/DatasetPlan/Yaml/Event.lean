import DatasetPlan.Document.Tree
import DatasetPlan.Yaml.Scanner

/-! From YAML tokens to events: the nodes of the first document in the order of their text. -/

namespace DatasetPlan.Yaml

open DatasetPlan.Tree (Shape)

structure Properties where
  anchor : Option String := none
  tag : Option String := none

def Properties.areGiven (p : Properties) : Bool :=
  p.anchor.isSome || p.tag.isSome

inductive Event where
  | alias (name : String)
  | scalar (properties : Properties) (text : String) (spelling : Spelling)
  | enter (properties : Properties) (shape : Shape)
  | leave

def Event.empty (properties : Properties) : Event :=
  .scalar properties "" .plain

/-- What may come next inside of a list or dictionary that is open. -/
inductive Place where
  | blockEntry
  /-- An entry of a list that is not further in than the key it belongs to. -/
  | looseEntry
  | blockKey
  | blockValue
  | flowItem (isFirst : Bool)
  | pairKey
  | pairValue
  | pairEnd
  | flowKey (isFirst : Bool)
  | flowValue
  /-- The value of a key without a colon. -/
  | flowNoValue

structure Progress where
  places : List Place
  tokens : List Token

abbrev Handles := List (String × String)

def standardHandles : Handles :=
  [("!", "!"), ("!!", "tag:yaml.org,2002:")]

def tagName? (handles : Handles) (handle suffix : String) : Option String :=
  if handle.isEmpty then some suffix else (handles.lookup handle).map (· ++ suffix)

def properties? (handles : Handles) : List Token → Option (Properties × List Token)
  | .anchor name :: .tag handle suffix :: rest
  | .tag handle suffix :: .anchor name :: rest => do
      some ({ anchor := name, tag := ← tagName? handles handle suffix }, rest)
  | .anchor name :: rest => some ({ anchor := name }, rest)
  | .tag handle suffix :: rest => do
      some ({ tag := ← tagName? handles handle suffix }, rest)
  | rest => some ({}, rest)

/-- Reads the beginning of a node. `isBlock` allows lists and dictionaries by indentation,
`isLoose` lists that are not further in than their key. -/
def node? (handles : Handles) (isBlock isLoose : Bool) (places : List Place)
    (tokens : List Token) : Option (Event × Progress) :=
  match tokens with
  | .alias name :: rest => some (.alias name, ⟨places, rest⟩)
  | _ => do
      let (properties, tokens) ← properties? handles tokens
      match tokens with
      | [] => none
      | token :: rest =>
          let enter (shape : Shape) (place : Place) (rest : List Token) :=
            some (Event.enter properties shape, Progress.mk (place :: places) rest)
          let other :=
            if properties.areGiven then some (Event.empty properties, ⟨places, tokens⟩) else none
          match token with
          | .scalar text spelling => some (.scalar properties text spelling, ⟨places, rest⟩)
          | .flowList => enter .list (.flowItem true) rest
          | .flowDict => enter .dict (.flowKey true) rest
          | .blockEntry => if isLoose then enter .list .looseEntry tokens else other
          | .blockList => if isBlock then enter .list .blockEntry rest else other
          | .blockDict => if isBlock then enter .dict .blockKey rest else other
          | _ => other

/-- A node, unless one of the tokens that cannot begin one says that it is empty. -/
def nodeOrEmpty? (handles : Handles) (isBlock isLoose : Bool) (ends : List Token)
    (place : Place) (outer : List Place) (tokens : List Token) : Option (Event × Progress) :=
  match tokens with
  | [] => none
  | token :: _ =>
      if token ∈ ends then some (.empty {}, ⟨place :: outer, tokens⟩)
      else node? handles isBlock isLoose (place :: outer) tokens

def emptyThen (place : Place) (outer : List Place) (tokens : List Token) :
    Option (Event × Progress) :=
  if tokens.isEmpty then none else some (.empty {}, ⟨place :: outer, tokens⟩)

def leave (outer : List Place) (tokens : List Token) : Option (Event × Progress) :=
  some (.leave, ⟨outer, tokens⟩)

def flowItem? (handles : Handles) (outer : List Place) : List Token → Option (Event × Progress)
  | .key :: rest => some (.enter {} .dict, ⟨.pairKey :: outer, rest⟩)
  | .flowListEnd :: rest => leave outer rest
  | tokens => node? handles false false (.flowItem false :: outer) tokens

def flowKey? (handles : Handles) (outer : List Place) : List Token → Option (Event × Progress)
  | .key :: rest =>
      nodeOrEmpty? handles false false [.value, .flowEntry, .flowDictEnd] .flowValue outer rest
  | .flowDictEnd :: rest => leave outer rest
  | tokens => node? handles false false (.flowNoValue :: outer) tokens

def next? (handles : Handles) (place : Place) (outer : List Place) (tokens : List Token) :
    Option (Event × Progress) :=
  match place, tokens with
  | .blockEntry, .blockEntry :: rest =>
      nodeOrEmpty? handles true false [.blockEntry, .blockEnd] .blockEntry outer rest
  | .blockEntry, .blockEnd :: rest => leave outer rest
  | .blockEntry, _ => none
  | .looseEntry, .blockEntry :: rest =>
      nodeOrEmpty? handles true false [.blockEntry, .key, .value, .blockEnd] .looseEntry outer rest
  | .looseEntry, [] => none
  | .looseEntry, tokens => leave outer tokens
  | .blockKey, .key :: rest =>
      nodeOrEmpty? handles true true [.key, .value, .blockEnd] .blockValue outer rest
  | .blockKey, .blockEnd :: rest => leave outer rest
  | .blockKey, _ => none
  | .blockValue, .value :: rest =>
      nodeOrEmpty? handles true true [.key, .value, .blockEnd] .blockKey outer rest
  | .blockValue, tokens => emptyThen .blockKey outer tokens
  | .flowItem _, .flowListEnd :: rest => leave outer rest
  | .flowItem true, tokens => flowItem? handles outer tokens
  | .flowItem false, .flowEntry :: rest => flowItem? handles outer rest
  | .flowItem false, _ => none
  | .pairKey, .value :: rest
  | .pairKey, .flowEntry :: rest
  | .pairKey, .flowListEnd :: rest => some (.empty {}, ⟨.pairValue :: outer, rest⟩)
  | .pairKey, tokens => node? handles false false (.pairValue :: outer) tokens
  | .pairValue, .value :: rest =>
      nodeOrEmpty? handles false false [.flowEntry, .flowListEnd] .pairEnd outer rest
  | .pairValue, tokens => emptyThen .pairEnd outer tokens
  | .pairEnd, tokens => leave (.flowItem false :: outer) tokens
  | .flowKey _, .flowDictEnd :: rest => leave outer rest
  | .flowKey true, tokens => flowKey? handles outer tokens
  | .flowKey false, .flowEntry :: rest => flowKey? handles outer rest
  | .flowKey false, _ => none
  | .flowValue, .value :: rest =>
      nodeOrEmpty? handles false false [.flowEntry, .flowDictEnd] (.flowKey false) outer rest
  | .flowValue, tokens => emptyThen (.flowKey false) outer tokens
  | .flowNoValue, tokens => emptyThen (.flowKey false) outer tokens

/-- The events until no place is open, and the tokens that are left then; none of these if the
tokens do not go on as they have to. -/
def eventsFrom (handles : Handles) :
    (fuel : Nat) → Progress → List Event × Option (List Token)
  | 0, _ => ([], none)
  | fuel + 1, p =>
      match p.places with
      | [] => ([], some p.tokens)
      | place :: outer =>
          match next? handles place outer p.tokens with
          | none => ([], none)
          | some (event, next) =>
              let (events, rest) := eventsFrom handles fuel next
              (event :: events, rest)

structure Directives where
  version : Bool := false
  handles : Handles := []

/-- The directives before a document; only versions 1.1 and 1.2 are known, and nothing may be
said twice. -/
def directives? : Directives → List Token → Option (Directives × List Token)
  | d, .version major minor :: rest =>
      if d.version || major ≠ 1 || !(minor = 1 || minor = 2) then none
      else directives? { d with version := true } rest
  | d, .tagHandle handle expansion :: rest =>
      if (d.handles.lookup handle).isSome then none
      else directives? { d with handles := (handle, expansion) :: d.handles } rest
  | d, rest => some (d, rest)

def begin? (tokens : List Token) : Option (Event × Progress × Handles) :=
  let implicit (tokens : List Token) := do
    let (event, p) ← node? standardHandles true false [] tokens
    some (event, p, standardHandles)
  let explicit (tokens : List Token) := do
    let (d, tokens) ← directives? {} tokens
    let handles := d.handles ++ standardHandles
    match tokens with
    | .documentStart :: rest =>
        match rest with
        | [] => none
        | .version .. :: _ | .tagHandle .. :: _ | .documentStart :: _ | .documentEnd :: _
        | .streamEnd :: _ => some (.empty {}, ⟨[], rest⟩, handles)
        | _ => do
            let (event, p) ← node? handles true false [] rest
            some (event, p, handles)
    | _ => none
  match tokens with
  | .streamEnd :: _ => some (.empty {}, ⟨[], tokens⟩, standardHandles)
  | .version .. :: _ | .tagHandle .. :: _ | .documentStart :: _ => explicit tokens
  | _ => implicit tokens

def endsHere (tokens : List Token) : Bool :=
  (tokens.dropWhile (· = .documentEnd)).head? = some .streamEnd

/-- The events of the first document, as far as it can be read, and whether it is whole and
nothing follows it. An empty text is an empty scalar. -/
def Event.scan (text : String) : List Event × Bool :=
  let tokens := Token.scan text
  match begin? tokens with
  | none => ([], false)
  | some (event, p, handles) =>
      let (events, rest) := eventsFrom handles (4 * tokens.length + 8) p
      (event :: events, rest.any endsHere)

end DatasetPlan.Yaml
