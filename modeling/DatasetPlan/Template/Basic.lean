import DatasetPlan.Template.Recipes
import DatasetPlan.Text.Blank

namespace DatasetPlan

inductive Template where
  | pcaFeatures
  | simon
  | croc
  | dataCleaning
  | unicorn
  | sloth
  | duke
  | targetRanking
  | goatForward
  | goatReverse
  | join
  | timeSeriesFormatter
deriving DecidableEq, Repr

namespace Template

def all : List Template :=
  [pcaFeatures, simon, croc, dataCleaning, unicorn, sloth, duke, targetRanking, goatForward,
    goatReverse, join, timeSeriesFormatter]

def name : Template → String
  | pcaFeatures => "pca-features"
  | simon => "simon"
  | croc => "croc"
  | dataCleaning => "data-cleaning"
  | unicorn => "unicorn"
  | sloth => "sloth"
  | duke => "duke"
  | targetRanking => "target-ranking"
  | goatForward => "goat-forward"
  | goatReverse => "goat-reverse"
  | join => "join"
  | timeSeriesFormatter => "timeseries-formatter"

def ofName? (name : String) : Option Template :=
  all.find? (·.name = name)

def requiredParameters : Template → List String
  | croc | unicorn => ["target_columns", "output_labels"]
  | sloth => ["time_column", "value_column"]
  | targetRanking => ["target"]
  | goatForward => ["place_column"]
  | goatReverse => ["lat_column", "lon_column"]
  | join => ["left_column", "right_column", "accuracy"]
  | timeSeriesFormatter => ["main_resource_id", "file_col_index"]
  | pcaFeatures | simon | dataCleaning | duke => []

/-- The entries of a list that is written with commas; blank ones do not count. -/
def splitList (text : String) : List String :=
  ((Text.pieces ',' text.toList).map Text.trimmedChars).filterMap fun piece =>
    if piece.isEmpty then none else some (String.ofList piece)

def lowerAscii (c : Char) : Char :=
  if 'A' ≤ c ∧ c ≤ 'Z' then Char.ofNat (c.toNat + 32) else c

/-- Numerals, and the words for what is not finite in any case of letters. -/
def float? (text : String) : Option Float :=
  let cs := text.toList
  let (negative, body) := Numeral.splitSign cs
  let word := String.ofList (body.map lowerAscii)
  let signed (x : Float) : Float := if negative then -x else x
  if word = "inf" ∨ word = "infinity" then some (signed (1 / 0))
  else if word = "nan" then some (signed (0 / 0))
  else Numeral.float? cs

def index? (text : String) : Option Nat :=
  let digits := match text.toList with
    | '+' :: rest => rest
    | cs => cs
  if digits.isEmpty || !digits.all Numeral.isDigit then none
  else
    let n := Numeral.natOfDigits digits
    if Width.isUnsigned 64 n then some n else none

def readFloat (key text : String) : Except PlanError Float :=
  match float? text with
  | some x => pure x
  | none => throw (.invalidParameter key ("not a number: " ++ text))

def readIndex (key text : String) : Except PlanError Nat :=
  match index? text with
  | some n => pure n
  | none => throw (.invalidParameter key ("not a column index: " ++ text))

def requireParameters (t : Template) (parameters : Dictionary String) : Except PlanError Unit :=
  match t.requiredParameters.find? fun key => (parameters.find? key).isNone with
  | some key => throw (.invalidParameter key ("required by template '" ++ t.name ++ "'"))
  | none => pure ()

def recipe (t : Template) (parameters : Dictionary String) (vars : List Variable) :
    Except PlanError Recipe :=
  let get (key : String) : String := (parameters.find? key).getD ""
  match t with
  | pcaFeatures => pure Recipe.pcaFeatures
  | simon => pure Recipe.simon
  | croc => Recipe.croc (splitList (get "target_columns")) (splitList (get "output_labels"))
  | dataCleaning => pure Recipe.dataCleaning
  | unicorn => Recipe.unicorn (splitList (get "target_columns")) (splitList (get "output_labels"))
  | sloth => Recipe.sloth (get "time_column") (get "value_column") vars
  | duke => pure Recipe.duke
  | targetRanking => Recipe.targetRanking (get "target") vars
  | goatForward => pure (Recipe.goatForward (get "place_column"))
  | goatReverse => pure (Recipe.goatReverse (get "lat_column") (get "lon_column"))
  | join => do
      let accuracy ← readFloat "accuracy" (get "accuracy")
      Recipe.join (get "left_column") (get "right_column") accuracy
  | timeSeriesFormatter => do
      let index ← readIndex "file_col_index" (get "file_col_index")
      pure (Recipe.timeSeriesFormatter (get "main_resource_id") index)

def build (hash : TextHash) (t : Template) (name description : String)
    (parameters : Dictionary String) (vars : List Variable) : Except PlanError Plan := do
  t.requireParameters parameters
  (← t.recipe parameters vars).plan hash name description

end Template

end DatasetPlan
