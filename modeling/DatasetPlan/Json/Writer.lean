import DatasetPlan.Decimal.Layout
import DatasetPlan.Document.Value

namespace DatasetPlan.Json

/-- The digits of the leading one are written without an exponent mark from `10 ^ -5` to below
`10 ^ 16`. There are no words for what is not finite. -/
def floatLayout : FloatLayout where
  positional := some (-5, 16)
  pointZero := true
  plus := true
  infinity := "null"
  nan := "null"

def floatText (x : Float) : String :=
  if x.isFinite then floatLayout.text x else "null"

def escaped (c : Char) : List Char :=
  if c = '"' ∨ c = '\\' then ['\\', c]
  else if c = '\n' then ['\\', 'n']
  else if c = '\r' then ['\\', 'r']
  else if c = '\t' then ['\\', 't']
  else if c = '\x08' then ['\\', 'b']
  else if c = '\x0c' then ['\\', 'f']
  else if c.toNat < 32 then
    ['\\', 'u', '0', '0', Nat.digitChar (c.toNat / 16), Nat.digitChar (c.toNat % 16)]
  else [c]

def quoted (s : String) : List Char :=
  '"' :: s.toList.flatMap escaped ++ ['"']

def scalarChars : Value → List Char
  | .null => "null".toList
  | .bool b => (toString b).toList
  | .int n => (toString n).toList
  | .float x => (floatText x).toList
  | .text s => quoted s
  | _ => []

def joined (between : List Char) : List (List Char) → List Char
  | [] => []
  | [part] => part
  | part :: rest => part ++ between ++ joined between rest

mutual

def chars : Value → List Char
  | .list items => '[' :: joined [','] (itemChars items) ++ [']']
  | .dict entries => '{' :: joined [','] (entryChars entries) ++ ['}']
  | scalar => scalarChars scalar

def itemChars : List Value → List (List Char)
  | [] => []
  | value :: rest => chars value :: itemChars rest

def entryChars : List (String × Value) → List (List Char)
  | [] => []
  | (key, value) :: rest => (quoted key ++ ':' :: chars value) :: entryChars rest

end

def compact (value : Value) : String :=
  String.ofList (chars value)

def lineStart (indent : Nat) : List Char :=
  '\n' :: List.replicate indent ' '

def bracketed (opening closing : Char) (indent : Nat) (parts : List (List Char)) : List Char :=
  if parts.isEmpty then [opening, closing]
  else
    opening :: lineStart (indent + 2) ++ joined (',' :: lineStart (indent + 2)) parts ++
      lineStart indent ++ [closing]

mutual

def prettyChars (indent : Nat) : Value → List Char
  | .list items => bracketed '[' ']' indent (prettyItems (indent + 2) items)
  | .dict entries => bracketed '{' '}' indent (prettyEntries (indent + 2) entries)
  | scalar => scalarChars scalar

def prettyItems (indent : Nat) : List Value → List (List Char)
  | [] => []
  | value :: rest => prettyChars indent value :: prettyItems indent rest

def prettyEntries (indent : Nat) : List (String × Value) → List (List Char)
  | [] => []
  | (key, value) :: rest =>
      (quoted key ++ ':' :: ' ' :: prettyChars indent value) :: prettyEntries indent rest

end

def pretty (value : Value) : String :=
  String.ofList (prettyChars 0 value)

end DatasetPlan.Json
