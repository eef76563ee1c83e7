import DatasetPlan.Yaml.Cursor

namespace DatasetPlan.Yaml

inductive Spelling where
  | plain
  | literal
  | other
deriving DecidableEq, Repr

inductive Token where
  | version (major minor : Nat)
  | tagHandle (handle expansion : String)
  | documentStart
  | documentEnd
  | blockList
  | blockDict
  | blockEnd
  | flowList
  | flowListEnd
  | flowDict
  | flowDictEnd
  | blockEntry
  | flowEntry
  | key
  | value
  | alias (name : String)
  | anchor (name : String)
  | tag (handle suffix : String)
  | scalar (text : String) (spelling : Spelling)
  | streamEnd
deriving DecidableEq, Repr

/-- Characters of tags outside of angle brackets; a percent sign begins an escape. -/
def isTagCharacter (c : Char) : Bool :=
  isWord c ||
    c ∈ [';', '/', '?', ':', '@', '&', '=', '+', '$', '.', '%', '!', '~', '*', '\'', '(', ')']

def escapedByte? : List Char → Option (Nat × List Char)
  | '%' :: a :: b :: rest => do some (← hexNumber? [a, b], rest)
  | _ => none

/-- How many bytes a character takes whose first byte this is, and what that byte contributes. -/
def leadingByte? (byte : Nat) : Option (Nat × Nat) :=
  if byte < 0x80 then some (0, byte)
  else if 0xC0 ≤ byte ∧ byte < 0xE0 then some (1, byte % 0x20)
  else if 0xE0 ≤ byte ∧ byte < 0xF0 then some (2, byte % 0x10)
  else if 0xF0 ≤ byte ∧ byte < 0xF8 then some (3, byte % 0x08)
  else none

def continuationBytes? : (count : Nat) → (value : Nat) → List Char → Option (Nat × List Char)
  | 0, value, rest => some (value, rest)
  | count + 1, value, rest => do
      let (byte, rest) ← escapedByte? rest
      if 0x80 ≤ byte ∧ byte < 0xC0 then continuationBytes? count (64 * value + byte % 64) rest
      else none

def escapedCharacter? (cs : List Char) : Option (Char × List Char) := do
  let (byte, rest) ← escapedByte? cs
  let (count, value) ← leadingByte? byte
  let (value, rest) ← continuationBytes? count value rest
  some (Char.ofNat value, rest)

def tagText? (isVerbatim : Bool) : (fuel : Nat) → List Char → Option (List Char × List Char)
  | 0, rest => some ([], rest)
  | fuel + 1, rest =>
      match rest with
      | '%' :: _ => do
          let (c, after) ← escapedCharacter? rest
          let (cs, after) ← tagText? isVerbatim fuel after
          some (c :: cs, after)
      | c :: after =>
          if isTagCharacter c || isVerbatim && (c = ',' || c = '[' || c = ']') then do
            let (cs, after) ← tagText? isVerbatim fuel after
            some (c :: cs, after)
          else some ([], rest)
      | [] => some ([], [])

def tagHandle? : List Char → Option (List Char × List Char)
  | '!' :: rest =>
      let word := rest.takeWhile isWord
      match rest.dropWhile isWord with
      | '!' :: after => some ('!' :: word ++ ['!'], after)
      | after => some ('!' :: word, after)
  | _ => none

def tagParts? (fuel : Nat) : List Char → Option (String × String × List Char)
  | '!' :: '<' :: rest => do
      let (suffix, rest) ← tagText? true fuel rest
      match suffix, rest with
      | _ :: _, '>' :: after => some ("", String.ofList suffix, after)
      | _, _ => none
  | cs => do
      let (handle, rest) ← tagHandle? cs
      let (suffix, after) ← tagText? false fuel rest
      if 1 < handle.length ∧ handle.getLast? = some '!' then
        if suffix.isEmpty then none
        else some (String.ofList handle, String.ofList suffix, after)
      else
        let suffix := handle.drop 1 ++ suffix
        if suffix.isEmpty then some ("", "!", after)
        else some ("!", String.ofList suffix, after)

def tag? (inBrackets : Bool) (fuel : Nat) (c : Cursor) : Option (Token × Cursor) := do
  let (handle, suffix, rest) ← tagParts? fuel c.rest
  if isGap rest.head? || inBrackets && rest.head? = some ',' then
    some (.tag handle suffix, c.advanceTo rest)
  else none

def versionNumber? (c : Cursor) : Option (Nat × Cursor) :=
  let (digits, c) := c.takeWhile Char.isDigit
  if digits.isEmpty ∨ 9 < digits.length then none
  else some (digits.foldl (fun n d => 10 * n + (d.toNat - '0'.toNat)) 0, c)

def versionDirective? (c : Cursor) : Option (Token × Cursor) := do
  let (major, c) ← versionNumber? (c.skipWhile isBlank)
  if c.head? ≠ some '.' then none
  else do
    let (minor, c) ← versionNumber? (c.advance 1)
    some (.version major minor, c)

/-- A handle that is more than an exclamation mark has to end in one. -/
def tagDirective? (fuel : Nat) (c : Cursor) : Option (Token × Cursor) := do
  let (handle, rest) ← tagHandle? (c.skipWhile isBlank).rest
  if (1 < handle.length ∧ handle.getLast? ≠ some '!') ∨ !rest.head?.any isBlank then none
  else do
    let (expansion, after) ← tagText? true fuel (rest.dropWhile isBlank)
    if expansion.isEmpty || !isGap after.head? then none
    else some (.tagHandle (String.ofList handle) (String.ofList expansion), c.advanceTo after)

def directive? (fuel : Nat) (c : Cursor) : Option (Token × Cursor) := do
  let (name, c) := (c.advance 1).takeWhile isWord
  if !isGap c.head? then none
  else do
    let (token, c) ←
      match String.ofList name with
      | "YAML" => versionDirective? c
      | "TAG" => tagDirective? fuel c
      | _ => none
    some (token, ← c.skipLineTail?)

def anchorName? (c : Cursor) : Option (String × Cursor) :=
  let (name, c) := (c.advance 1).takeWhile isWord
  if name.isEmpty then none
  else if isGap c.head? || c.head?.any (· ∈ ['?', ':', ',', ']', '}', '%', '@', '\x60']) then
    some (String.ofList name, c)
  else none

end DatasetPlan.Yaml
