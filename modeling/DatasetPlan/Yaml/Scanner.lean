import DatasetPlan.Yaml.Token

/-! What a line is worth depends on its indentation, and whether a scalar is a key is only known at
the colon behind it: until then it is a pending key, and the tokens from there on are not released. -/

namespace DatasetPlan.Yaml

/-- A token, and those that a colon behind it has put before it. -/
structure Slot where
  before : List Token
  token : Token

/-- A node that is a key if a colon follows it on its line. -/
structure PendingKey where
  slot : Nat
  required : Bool
  index : Nat
  line : Nat
  column : Nat

structure Scanner where
  cursor : Cursor
  /-- As many steps as there are characters, and some more. -/
  fuel : Nat
  slots : Array Slot
  /-- How many slots will not change any more. -/
  released : Nat
  /-- The column of the innermost block list or dictionary, `-1` outside of all. -/
  indent : Int
  outerIndents : List Int
  /-- The pending keys by the brackets around them, innermost first. -/
  keys : List (Option PendingKey)
  mayStartKey : Bool
  isDone : Bool

namespace Scanner

def start (text : List Char) : Scanner where
  cursor := .start text
  fuel := text.length + 2
  slots := #[]
  released := 0
  indent := -1
  outerIndents := []
  keys := [none]
  mayStartKey := true
  isDone := false

def inBrackets (s : Scanner) : Bool :=
  1 < s.keys.length

def push (s : Scanner) (token : Token) : Scanner :=
  { s with slots := s.slots.push ⟨[], token⟩ }

def take (s : Scanner) (count : Nat) (token : Token) : Scanner :=
  { s with cursor := s.cursor.advance count }.push token

def allowKey (s : Scanner) (allow : Bool) : Scanner :=
  { s with mayStartKey := allow }

def PendingKey.isStale (k : PendingKey) (c : Cursor) : Bool :=
  k.line < c.line || k.index + 1024 < c.index

/-- Gives up keys that can be none any more: those on an earlier line, or too far back. -/
def dropStaleKeys? (s : Scanner) : Option Scanner := do
  let keys ← s.keys.mapM fun key =>
    match key with
    | some k =>
        if PendingKey.isStale k s.cursor then if k.required then none else some none
        else some (some k)
    | none => some none
  some { s with keys := keys }

def dropKey? (s : Scanner) : Option Scanner :=
  match s.keys with
  | some k :: outer => if k.required then none else some { s with keys := none :: outer }
  | _ => some s

def noteKey? (s : Scanner) : Option Scanner :=
  if !s.mayStartKey then some s
  else do
    let s ← s.dropKey?
    let key : PendingKey :=
      { slot := s.slots.size
        required := !s.inBrackets && s.indent = s.cursor.column
        index := s.cursor.index
        line := s.cursor.line
        column := s.cursor.column }
    some { s with keys := some key :: s.keys.drop 1 }

/-- Opens a block at a column further in; its token goes before the slot, if one is named. -/
def openBlock (s : Scanner) (column : Nat) (token : Token) (slot : Option Nat) : Scanner :=
  if s.inBrackets || column ≤ s.indent then s
  else
    let s := { s with indent := column, outerIndents := s.indent :: s.outerIndents }
    match slot with
    | none => s.push token
    | some n =>
        { s with slots := s.slots.modify n fun t => { t with before := token :: t.before } }

def closeBlocksFrom (column : Int) : (indent : Int) → (outer : List Int) → Nat × Int × List Int
  | indent, [] => (0, indent, [])
  | indent, next :: outer =>
      if column < indent then
        let (count, indent, outer) := closeBlocksFrom column next outer
        (count + 1, indent, outer)
      else (0, indent, next :: outer)

def closeBlocks (s : Scanner) (column : Int) : Scanner :=
  if s.inBrackets then s
  else
    let (count, indent, outer) := closeBlocksFrom column s.indent s.outerIndents
    { s with
      indent := indent
      outerIndents := outer
      slots := s.slots ++ Array.replicate count ⟨[], .blockEnd⟩ }

/-- Goes over blanks, comments and breaks. Tabs do not count as blanks where a key may start in a
block, and there a new line lets a key start. -/
def skipGap : (fuel : Nat) → Scanner → Scanner
  | 0, s => s
  | fuel + 1, s =>
      let c := if s.cursor.index = 0 ∧ s.cursor.head? = some '\uFEFF' then s.cursor.advance 1
        else s.cursor
      let tabs := s.inBrackets || !s.mayStartKey
      let c := c.skipWhile fun x => x = ' ' || tabs && x = '\t'
      let c := if c.head? = some '#' then c.skipWhile fun _ => true else c
      match c.break? with
      | some (_, next) =>
          skipGap fuel { s with cursor := next, mayStartKey := s.mayStartKey || !s.inBrackets }
      | none => { s with cursor := c }

def atGapAfterMark (s : Scanner) : Bool :=
  isGap (s.cursor.peek? 1)

/-- The end of the text ends its last line too. -/
def finish? (s : Scanner) : Option Scanner := do
  let c := if s.cursor.column = 0 then s.cursor else s.cursor.newLine 0
  let s ← ({ s with cursor := c }.closeBlocks (-1)).dropKey?
  some { (s.allowKey false).push .streamEnd with isDone := true }

def markDocument? (s : Scanner) (token : Token) : Option Scanner := do
  let s ← (s.closeBlocks (-1)).dropKey?
  some ((s.allowKey false).take 3 token)

def direct? (s : Scanner) : Option Scanner := do
  let s ← (s.closeBlocks (-1)).dropKey?
  let (token, c) ← directive? s.fuel s.cursor
  some ({ s.allowKey false with cursor := c }.push token)

def openBrackets? (s : Scanner) (token : Token) : Option Scanner := do
  let s ← s.noteKey?
  some (({ s with keys := none :: s.keys }.allowKey true).take 1 token)

def closeBrackets? (s : Scanner) (token : Token) : Option Scanner := do
  let s ← s.dropKey?
  let keys := if s.inBrackets then s.keys.drop 1 else s.keys
  some (({ s with keys := keys }.allowKey false).take 1 token)

def separate? (s : Scanner) : Option Scanner := do
  let s ← s.dropKey?
  some ((s.allowKey true).take 1 .flowEntry)

def beginEntry? (s : Scanner) : Option Scanner :=
  if !s.inBrackets && !s.mayStartKey then none
  else do
    let s ← (s.openBlock s.cursor.column .blockList none).dropKey?
    some ((s.allowKey true).take 1 .blockEntry)

def beginKey? (s : Scanner) : Option Scanner :=
  if !s.inBrackets && !s.mayStartKey then none
  else do
    let s ← (s.openBlock s.cursor.column .blockDict none).dropKey?
    some ((s.allowKey !s.inBrackets).take 1 .key)

/-- A colon makes a key of what is pending; without any it begins the value of an empty key. -/
def beginValue? (s : Scanner) : Option Scanner :=
  match s.keys with
  | some k :: outer =>
      let s := { s with
        keys := none :: outer
        slots := s.slots.modify k.slot fun t => { t with before := .key :: t.before } }
      let s := s.openBlock k.column .blockDict (some k.slot)
      some ((s.allowKey false).take 1 .value)
  | _ =>
      if !s.inBrackets && !s.mayStartKey then none
      else
        let s := s.openBlock s.cursor.column .blockDict none
        some ((s.allowKey !s.inBrackets).take 1 .value)

/-- A token that may be the beginning of a key. -/
def takeNodePart? (s : Scanner) (read? : Cursor → Option (Token × Cursor)) : Option Scanner := do
  let s ← s.noteKey?
  let (token, c) ← read? s.cursor
  some ({ s.allowKey false with cursor := c }.push token)

def takeBlockScalar? (s : Scanner) (isLiteral : Bool) : Option Scanner := do
  let s ← s.dropKey?
  let (text, c) ← blockScalar? isLiteral s.indent s.fuel (s.cursor.advance 1)
  let spelling := if isLiteral then .literal else .other
  some ({ s.allowKey true with cursor := c }.push (.scalar (String.ofList text) spelling))

def takeQuoted? (s : Scanner) (isSingle : Bool) : Option Scanner :=
  s.takeNodePart? fun c => do
    let (text, c) ← quotedFrom? isSingle s.fuel (c.advance 1)
    some (.scalar (String.ofList text) .other, c)

/-- Behind a break a plain scalar leaves the scanner where a key may start. -/
def takePlain? (s : Scanner) : Option Scanner := do
  let s ← s.noteKey?
  let (text, isBroken, c) ←
    plainFrom? s.inBrackets (s.indent + 1).toNat s.fuel {} s.cursor
  some ({ s.allowKey isBroken with cursor := c }.push (.scalar (String.ofList text) .plain))

/-- Hyphens, question marks and colons begin plain scalars where they are no marks. -/
def startsPlain (s : Scanner) (x : Char) : Bool :=
  !(isGap (some x) || isIndicator x || x = '-' || x = '?' || x = ':') ||
    x = '-' && !(s.cursor.peek? 1).any isBlank ||
    !s.inBrackets && (x = '?' || x = ':') && !s.atGapAfterMark

/-- Reads one token, with those that changes of indentation put before it. -/
def fetch? (s : Scanner) : Option Scanner := do
  let s ← (skipGap s.fuel s).dropStaleKeys?
  let s := s.closeBlocks s.cursor.column
  match s.cursor.head? with
  | none => s.finish?
  | some x =>
      let marks := s.inBrackets || s.atGapAfterMark
      if s.cursor.column = 0 ∧ x = '%' then s.direct?
      else if s.cursor.atMarker then
        s.markDocument? (if x = '-' then .documentStart else .documentEnd)
      else
        match x with
        | '[' => s.openBrackets? .flowList
        | '{' => s.openBrackets? .flowDict
        | ']' => s.closeBrackets? .flowListEnd
        | '}' => s.closeBrackets? .flowDictEnd
        | ',' => s.separate?
        | '*' => s.takeNodePart? fun c => (anchorName? c).map fun r => (.alias r.1, r.2)
        | '&' => s.takeNodePart? fun c => (anchorName? c).map fun r => (.anchor r.1, r.2)
        | '!' => s.takeNodePart? (tag? s.inBrackets s.fuel)
        | '\'' => s.takeQuoted? true
        | '"' => s.takeQuoted? false
        | _ =>
            if x = '-' && s.atGapAfterMark then s.beginEntry?
            else if x = '?' && marks then s.beginKey?
            else if x = ':' && marks then s.beginValue?
            else if x = '|' && !s.inBrackets then s.takeBlockScalar? true
            else if x = '>' && !s.inBrackets then s.takeBlockScalar? false
            else if s.startsPlain x then s.takePlain?
            else none

/-- The slots up to the first that a colon may still change. -/
def settled (s : Scanner) : Nat :=
  s.keys.foldl (fun n key => key.elim n fun k => min n k.slot) s.slots.size

def run : (fuel : Nat) → Scanner → Scanner
  | 0, s => s
  | fuel + 1, s =>
      match s.dropStaleKeys? with
      | none => s
      | some s =>
          let s := { s with released := s.settled }
          if s.isDone then s
          else
            match s.fetch? with
            | none => s
            | some next => run fuel next

end Scanner

/-- The tokens of a text, up to the place where it cannot be read any further. A text with other
characters than those that are allowed has none. -/
def Token.scan (text : String) : List Token :=
  let cs := text.toList
  if !cs.all isAllowed then []
  else
    let s := Scanner.start cs
    let last := s.run s.fuel
    (last.slots.toList.take last.released).flatMap fun slot => slot.before ++ [slot.token]

end DatasetPlan.Yaml
