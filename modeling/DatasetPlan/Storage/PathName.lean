import DatasetPlan.Text.Blank

namespace DatasetPlan.PathName

def separator : Char := '/'

def pieces (path : String) : List (List Char × Nat) :=
  (Text.pieces separator path.toList).zipIdx

/-- Empty pieces do not count, nor do single points other than at the beginning. -/
def counts (piece : List Char × Nat) : Bool :=
  !piece.1.isEmpty && (piece.1 ≠ ['.'] || piece.2 = 0)

def isAbsolute (path : String) : Bool :=
  path.toList.head? = some separator

def parts (path : String) : List String :=
  ((pieces path).filter counts).map fun piece => String.ofList piece.1

def endsInSeparator (path : String) : Bool :=
  path.toList.getLast? = some separator

def joinPieces : List (List Char) → List Char
  | [] => []
  | [piece] => piece
  | piece :: rest => piece ++ separator :: joinPieces rest

def withoutTail (reversed : List (List Char × Nat)) : List (List Char × Nat) :=
  reversed.dropWhile (!counts ·)

/-- The path without its last part; none if it has no part that could go. -/
def parent? (path : String) : Option String :=
  match withoutTail (pieces path).reverse with
  | [] => none
  | _ :: before =>
      let kept := (withoutTail before).reverse.map Prod.fst
      some <| String.ofList <|
        if kept.isEmpty && isAbsolute path then [separator] else joinPieces kept

def upwardsFrom : (count : Nat) → (path : String) → List String
  | 0, _ => []
  | count + 1, path =>
      path :: match parent? path with
        | some parent => upwardsFrom count parent
        | none => []

def upwards (path : String) : List String :=
  upwardsFrom (parts path).length path

/-- The last part, if it names something in the directory before it. -/
def fileName? (path : String) : Option String :=
  match (parts path).getLast? with
  | some name => if name = ".." ∨ name = "." then none else some name
  | none => none

/-- What follows the last point of the file name, which may not stand at its beginning. -/
def extension? (path : String) : Option String := do
  let name ← fileName? path
  let reversed := name.toList.reverse
  match reversed.dropWhile (· ≠ '.') with
  | _ :: _ :: _ => some (String.ofList (reversed.takeWhile (· ≠ '.')).reverse)
  | _ => none

end DatasetPlan.PathName
