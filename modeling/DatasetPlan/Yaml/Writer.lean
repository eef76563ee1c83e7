import DatasetPlan.Document.Value
import DatasetPlan.Yaml.Character
import DatasetPlan.Yaml.Scalar

/-! Values as YAML text in block style, with lines of any length. -/

namespace DatasetPlan.Yaml

def floatLayout : FloatLayout where
  positional := some (-5, 16)
  pointZero := true
  plus := false
  infinity := ".inf"
  nan := ".nan"

def indicatesAtStart : List Char → Bool
  | [] => false
  | c :: rest => isIndicator c || ((c = '?' || c = ':' || c = '-') && isGap rest.head?)

/-- A colon before a gap, or a number sign after one. -/
def indicatesInside : List Char → Bool
  | c :: d :: rest =>
      (d = ':' && isGap rest.head?) || (d = '#' && isGap (some c)) || indicatesInside (d :: rest)
  | _ => false

def anyPair (first second : Char → Bool) : List Char → Bool
  | c :: d :: rest => (first c && second d) || anyPair first second (d :: rest)
  | _ => false

structure TextForm where
  isPlain : Bool
  isSingle : Bool
  isLiteral : Bool
  isMultiline : Bool

def TextForm.of (cs : List Char) : TextForm :=
  let onlyDouble := !cs.all isPrintable || anyPair isSpace isBreak cs
  let breakThenSpace := anyPair isBreak isSpace cs
  let spaceAtEnd := cs.getLast?.any isSpace
  { isPlain := !onlyDouble && !cs.isEmpty && !cs.any isBreak && !cs.head?.any isSpace &&
      !spaceAtEnd && !startsLikeMarker cs && !indicatesAtStart cs && !indicatesInside cs
    isSingle := !onlyDouble && !breakThenSpace
    isLiteral := !onlyDouble && !cs.isEmpty && !spaceAtEnd
    isMultiline := cs.any isBreak }

inductive Style where
  | plain
  | single
  | double
  | literal
deriving DecidableEq

def staysText (s : String) : Bool :=
  match resolve s with
  | .text _ => !isZeroPadded s.toList
  | _ => false

/-- Texts with line feeds are written line by line, others plainly if they can be and are still
read as text. -/
def Style.of (s : String) : Style :=
  let cs := s.toList
  let form := TextForm.of cs
  if '\n' ∈ cs then if form.isLiteral then .literal else .double
  else if staysText s && form.isPlain then .plain
  else if form.isSingle then .single
  else .double

def spaces (n : Nat) : List Char :=
  List.replicate n ' '

/-- In single quotes a quote is written twice. After a break the text goes on at the
indentation. -/
def singleBody (indent : Nat) (afterBreak : Bool) : List Char → List Char
  | [] => if afterBreak then spaces indent else []
  | c :: rest =>
      if isBreak c then c :: singleBody indent true rest
      else
        (if afterBreak then spaces indent else []) ++ (if c = '\'' then ['\'', '\''] else [c]) ++
          singleBody indent false rest

def upperHexDigit (n : Nat) : Char :=
  (Nat.digitChar n).toUpper

def upperHex (width n : Nat) : List Char :=
  (List.range width).reverse.map fun i => upperHexDigit (n / Nat.pow 16 i % 16)

def numericEscape (n : Nat) : List Char :=
  if n ≤ 0xFF then 'x' :: upperHex 2 n
  else if n ≤ 0xFFFF then 'u' :: upperHex 4 n
  else 'U' :: upperHex 8 n

def escapeLetter? (c : Char) : Option Char :=
  [('\x00', '0'), ('\x07', 'a'), ('\x08', 'b'), ('\t', 't'), ('\n', 'n'), ('\x0b', 'v'),
    ('\x0c', 'f'), ('\r', 'r'), ('\x1b', 'e'), ('"', '"'), ('\\', '\\'), ('\u0085', 'N'),
    ('\u2028', 'L'), ('\u2029', 'P')].lookup c

def doubleEscaped (c : Char) : List Char :=
  match escapeLetter? c with
  | some letter => ['\\', letter]
  | none => if isPrintable c then [c] else '\\' :: numericEscape c.toNat

/-- The indentation is announced where the text itself begins with blank characters, and then what
becomes of the breaks at the end. -/
def literalHeader (cs : List Char) : List Char :=
  let announced := cs.head?.any fun c => isSpace c || isBreak c
  let reversed := cs.reverse
  let ending :=
    if !reversed.head?.any isBreak then ['-']
    else if (reversed.drop 1).head?.all isBreak then ['+']
    else []
  '|' :: (if announced then ['2'] else []) ++ ending

def literalBody (indent : Nat) (atLineStart : Bool) : List Char → List Char
  | [] => []
  | c :: rest =>
      if isBreak c then c :: literalBody indent true rest
      else (if atLineStart then spaces indent else []) ++ c :: literalBody indent false rest

def textChars (indent : Nat) (s : String) : List Char :=
  let cs := s.toList
  match Style.of s with
  | .plain => cs
  | .single => '\'' :: singleBody indent false cs ++ ['\'']
  | .double => '"' :: cs.flatMap doubleEscaped ++ ['"']
  | .literal => literalHeader cs ++ '\n' :: literalBody indent true cs

def ended (line : List Char) : List Char :=
  if line.getLast?.any isBreak then line else line ++ ['\n']

def scalarChars (indent : Nat) : Value → List Char
  | .null => "null".toList
  | .bool b => (toString b).toList
  | .int n => (toString n).toList
  | .float x => (floatLayout.text x).toList
  | .text s => textChars indent s
  | .list _ => ['[', ']']
  | .dict _ => ['{', '}']

def keyLimit : Nat := 128

/-- Keys on one line that are not too long in UTF-8 stand right before their colon. -/
def isSimpleKey (key : String) : Bool :=
  !(TextForm.of key.toList).isMultiline && key.utf8ByteSize ≤ keyLimit

mutual

def itemLines (indent : Nat) (isFirst : Bool) : List Value → List Char
  | [] => []
  | value :: rest =>
      (if isFirst then [] else spaces indent) ++ '-' :: ' ' :: inline (indent + 2) value ++
        itemLines indent false rest

def entryLines (indent : Nat) (isFirst : Bool) : List (String × Value) → List Char
  | [] => []
  | (key, value) :: rest =>
      (if isFirst then [] else spaces indent) ++
        (if isSimpleKey key then textChars (indent + 2) key ++ ':' :: afterKey indent value
        else
          '?' :: ' ' :: ended (textChars (indent + 2) key) ++ spaces indent ++
            ':' :: ' ' :: inline (indent + 2) value) ++
        entryLines indent false rest

/-- A value that begins on the line of its mark, with its own lines at the indentation. -/
def inline (indent : Nat) : Value → List Char
  | .list (item :: rest) => itemLines indent true (item :: rest)
  | .dict (entry :: rest) => entryLines indent true (entry :: rest)
  | scalar => ended (scalarChars indent scalar)

/-- A value after a simple key. Lists stand below their key, dictionaries further in. -/
def afterKey (indent : Nat) : Value → List Char
  | .list (item :: rest) => '\n' :: spaces indent ++ itemLines indent true (item :: rest)
  | .dict (entry :: rest) =>
      '\n' :: spaces (indent + 2) ++ entryLines (indent + 2) true (entry :: rest)
  | scalar => ' ' :: ended (scalarChars (indent + 2) scalar)

end

def text : Value → String
  | .list (item :: rest) => String.ofList (itemLines 0 true (item :: rest))
  | .dict (entry :: rest) => String.ofList (entryLines 0 true (entry :: rest))
  | scalar => String.ofList (ended (scalarChars 2 scalar))

end DatasetPlan.Yaml
