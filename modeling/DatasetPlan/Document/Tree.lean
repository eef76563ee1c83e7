/-! Documents as they are read: a tree of nodes whose leaves are not interpreted yet. -/

namespace DatasetPlan

inductive Mark where
  | ownTag
  /-- The node is written elsewhere and referred to here. -/
  | alias
deriving DecidableEq

/-- Where the text stops being readable, `broken` stands; the lists and dictionaries that are open
there end in it. -/
inductive Tree (α : Type) where
  | leaf (value : α)
  | list (items : List (Tree α))
  | dict (entries : List (Tree α × Tree α))
  | marked (mark : Mark) (node : Tree α)
  | broken
deriving Inhabited

namespace Tree

def bare : Tree α → Tree α
  | marked _ node => node.bare
  | node => node

def hasOwnTag : Tree α → Bool
  | marked mark node => mark = .ownTag || node.hasOwnTag
  | _ => false

def isAlias : Tree α → Bool
  | marked mark node => mark = .alias || node.isAlias
  | _ => false

inductive Shape where
  | list
  | dict
deriving DecidableEq

inductive Event (α : Type) where
  | leaf (marks : List Mark) (value : α)
  | enter (marks : List Mark) (shape : Shape)
  | leave

/-- A list or dictionary that is still open. Items are in reverse; a dictionary's are its keys
and values in turn. -/
structure Frame (α : Type) where
  marks : List Mark
  shape : Shape
  items : List (Tree α)

def mark (marks : List Mark) (node : Tree α) : Tree α :=
  marks.foldr marked node

/-- A key without a value is given a broken one. -/
def pairUp : List (Tree α) → List (Tree α × Tree α)
  | key :: value :: rest => (key, value) :: pairUp rest
  | [key] => [(key, broken)]
  | [] => []

def Frame.node (f : Frame α) : Tree α :=
  mark f.marks <|
    match f.shape with
    | .list => list f.items.reverse
    | .dict => dict (pairUp f.items.reverse)

/-- Ends every open frame with a broken item, so that no reader takes it for complete. -/
def breakOff (frames : List (Frame α)) : Tree α :=
  frames.foldl (fun node f => { f with items := broken :: node :: f.items : Frame α }.node) broken

/-- The first node that the events describe. -/
def ofEventsFrom : List (Frame α) → List (Event α) → Tree α
  | frames, [] => breakOff frames
  | [], .leaf marks value :: _ => mark marks (leaf value)
  | f :: frames, .leaf marks value :: events =>
      ofEventsFrom ({ f with items := mark marks (leaf value) :: f.items } :: frames) events
  | frames, .enter marks shape :: events =>
      ofEventsFrom (⟨marks, shape, []⟩ :: frames) events
  | [], .leave :: _ => broken
  | [f], .leave :: _ => f.node
  | f :: g :: frames, .leave :: events =>
      ofEventsFrom ({ g with items := f.node :: g.items } :: frames) events

def ofEvents (events : List (Event α)) : Tree α :=
  ofEventsFrom [] events

end Tree

/-- A document is whole when nothing is wrong with the text after its root. -/
structure Document (α : Type) where
  root : Tree α
  whole : Bool

end DatasetPlan
