import DatasetPlan.Yaml.Character

/-! Places in a text, and the pieces of scalars that are read from there. -/

namespace DatasetPlan.Yaml

/-- A place in a text: what follows it, and its number, line and column, from zero. -/
structure Cursor where
  rest : List Char
  index : Nat
  line : Nat
  column : Nat

namespace Cursor

def start (text : List Char) : Cursor :=
  ⟨text, 0, 0, 0⟩

def head? (c : Cursor) : Option Char :=
  c.rest.head?

def peek? (c : Cursor) (offset : Nat) : Option Char :=
  c.rest[offset]?

def atEnd (c : Cursor) : Bool :=
  c.rest.isEmpty

def advance (c : Cursor) (count : Nat) : Cursor :=
  ⟨c.rest.drop count, c.index + count, c.line, c.column + count⟩

/-- The place where `rest`, which is on the same line, begins. -/
def advanceTo (c : Cursor) (rest : List Char) : Cursor :=
  c.advance (c.rest.length - rest.length)

/-- The characters up to the first that is not as wanted; none of them is a break. -/
def takeWhile (p : Char → Bool) (c : Cursor) : List Char × Cursor :=
  let taken := c.rest.takeWhile fun x => p x && !isBreak x
  (taken, c.advance taken.length)

def skipWhile (p : Char → Bool) (c : Cursor) : Cursor :=
  (c.takeWhile p).2

def newLine (c : Cursor) (count : Nat) : Cursor :=
  ⟨c.rest.drop count, c.index + count, c.line + 1, 0⟩

/-- A line break as scalars hold it, and the beginning of the next line. -/
def break? (c : Cursor) : Option (Char × Cursor) :=
  match c.rest with
  | '\r' :: '\n' :: _ => some ('\n', c.newLine 2)
  | x :: _ =>
      if x = '\u2028' ∨ x = '\u2029' then some (x, c.newLine 1)
      else if isBreak x then some ('\n', c.newLine 1)
      else none
  | [] => none

def skipBreak (c : Cursor) : Cursor :=
  match c.break? with
  | some (_, next) => next
  | none => c

/-- Whether a document marker stands here, on a line of its own or before a gap. -/
def atMarker (c : Cursor) : Bool :=
  c.column = 0 && startsLikeMarker c.rest && isGap (c.peek? 3)

def skipLineTail? (c : Cursor) : Option Cursor :=
  let c := c.skipWhile isBlank
  let c := if c.head? = some '#' then c.skipWhile fun _ => true else c
  if c.head?.all isBreak then some c.skipBreak else none

end Cursor

/-! Gaps in scalars -/

structure Gap where
  blanks : List Char := []
  isBroken : Bool := false
  first : Option Char := none
  further : List Char := []

namespace Gap

/-- A single line feed becomes a space, of several the first is dropped. -/
def text (g : Gap) : List Char :=
  if g.isBroken then
    match g.first with
    | some '\n' => if g.further.isEmpty then [' '] else g.further
    | first => first.toList ++ g.further
  else g.blanks

def addBreak (g : Gap) (b : Char) : Gap :=
  if g.isBroken then { g with further := g.further ++ [b] }
  else { isBroken := true, first := some b }

/-- Reads on to the next word. Tabs before column `indent` of a further line are refused. -/
def read? (indent : Nat) : (fuel : Nat) → Gap → Cursor → Option (Gap × Cursor)
  | 0, g, c => some (g, c)
  | fuel + 1, g, c =>
      match c.head? with
      | none => some (g, c)
      | some x =>
          if isBlank x then
            if g.isBroken then
              if x = '\t' ∧ c.column < indent then none
              else read? indent fuel g (c.advance 1)
            else read? indent fuel { g with blanks := g.blanks ++ [x] } (c.advance 1)
          else
            match c.break? with
            | some (b, next) => read? indent fuel (g.addBreak b) next
            | none => some (g, c)

end Gap

/-! Plain scalars -/

/-- The part of a plain scalar up to a gap or a mark that ends it. In brackets a colon may not
stand right before one of their marks. -/
def plainWord? (inBrackets : Bool) : List Char → Option (List Char)
  | [] => some []
  | x :: rest =>
      let next := rest.head?
      if isGap (some x) then some []
      else if inBrackets && x = ':' && next.any (fun y => isBracketMark y || y = '?') then none
      else if x = ':' && isGap next || inBrackets && isBracketMark x then some []
      else (x :: ·) <$> plainWord? inBrackets rest

def plainFrom? (inBrackets : Bool) (indent : Nat) :
    (fuel : Nat) → Gap → Cursor → Option (List Char × Bool × Cursor)
  | 0, g, c => some ([], g.isBroken, c)
  | fuel + 1, g, c =>
      if c.atMarker || c.head? = some '#' then some ([], g.isBroken, c)
      else do
        let word ← plainWord? inBrackets c.rest
        if word.isEmpty then some ([], g.isBroken, c)
        else do
          let c := c.advance word.length
          let (gap, next) ← Gap.read? indent fuel {} c
          let (tail, isBroken, c) ←
            if next.index = c.index then some ([], false, c)
            else if !inBrackets && next.column < indent then some ([], gap.isBroken, next)
            else plainFrom? inBrackets indent fuel gap next
          some (g.text ++ word ++ tail, isBroken, c)

/-! Quoted scalars -/

inductive RunEnd where
  | gap
  | quote
  /-- A backslash at the end of a line. -/
  | continuation

def hexValue? (c : Char) : Option Nat :=
  if '0' ≤ c ∧ c ≤ '9' then some (c.toNat - '0'.toNat)
  else if 'a' ≤ c ∧ c ≤ 'f' then some (c.toNat - 'a'.toNat + 10)
  else if 'A' ≤ c ∧ c ≤ 'F' then some (c.toNat - 'A'.toNat + 10)
  else none

def hexNumber? (cs : List Char) : Option Nat := do
  some ((← cs.mapM hexValue?).foldl (fun n d => 16 * n + d) 0)

def escape? (c : Char) : Option Char :=
  [('0', '\x00'), ('a', '\x07'), ('b', '\x08'), ('t', '\t'), ('\t', '\t'), ('n', '\n'),
    ('v', '\x0b'), ('f', '\x0c'), ('r', '\r'), ('e', '\x1b'), (' ', ' '), ('"', '"'), ('/', '/'),
    ('\\', '\\'), ('N', '\u0085'), ('_', '\u00A0'), ('L', '\u2028'), ('P', '\u2029')].lookup c

def escapeWidth? (c : Char) : Option Nat :=
  [('x', 2), ('u', 4), ('U', 8)].lookup c

def codePoint? (digits : List Char) : Option Char := do
  let n ← hexNumber? digits
  if (0xD800 ≤ n ∧ n ≤ 0xDFFF) ∨ 0x10FFFF < n then none else some (Char.ofNat n)

structure Run where
  text : List Char
  /-- How many characters it was written with. -/
  width : Nat
  ending : RunEnd

namespace Run

def none (ending : RunEnd) : Run :=
  ⟨[], 0, ending⟩

def cons (x : Char) (width : Nat) (run : Run) : Run :=
  { run with text := x :: run.text, width := width + run.width }

end Run

/-- The character behind a backslash, how many characters it was written with, and what follows
it. -/
def escaped? (x : Char) (after : List Char) : Option (Char × Nat × List Char) :=
  match escapeWidth? x with
  | some width =>
      let digits := after.take width
      if digits.length < width then none
      else (codePoint? digits).map (·, 2 + width, after.drop width)
  | none => (escape? x).map (·, 2, after)

def doubleRun? : (fuel : Nat) → List Char → Option Run
  | 0, _ => some (.none .gap)
  | fuel + 1, rest =>
      match rest with
      | '"' :: _ => some (.none .quote)
      | '\\' :: x :: after =>
          if isBreak x then some (.none .continuation)
          else do
            let (c, width, after) ← escaped? x after
            return .cons c width (← doubleRun? fuel after)
      | ['\\'] => none
      | x :: after =>
          if isGap (some x) then some (.none .gap)
          else do return .cons x 1 (← doubleRun? fuel after)
      | [] => some (.none .gap)

def singleRun : List Char → Run
  | '\'' :: '\'' :: after => .cons '\'' 2 (singleRun after)
  | '\'' :: _ => .none .quote
  | x :: after => if isGap (some x) then .none .gap else .cons x 1 (singleRun after)
  | [] => .none .gap

def quoteMark (isSingle : Bool) : Char :=
  if isSingle then '\'' else '"'

def quotedFrom? (isSingle : Bool) : (fuel : Nat) → Cursor → Option (List Char × Cursor)
  | 0, _ => none
  | fuel + 1, c =>
      if c.atMarker || c.atEnd then none
      else do
        let run ← if isSingle then some (singleRun c.rest) else doubleRun? fuel c.rest
        let c := c.advance run.width
        let (g, c) : Gap × Cursor := match run.ending with
          | .continuation => ({ isBroken := true }, (c.advance 1).skipBreak)
          | _ => ({}, c)
        if c.head? = some (quoteMark isSingle) then some (run.text, c.advance 1)
        else do
          let (g, c) ← Gap.read? 0 fuel g c
          let (tail, c) ← quotedFrom? isSingle fuel c
          some (run.text ++ g.text ++ tail, c)

/-! Block scalars -/

inductive Chomping where
  | strip
  | clip
  | keep
deriving DecidableEq

structure BlockHeader where
  chomping : Chomping
  increment : Option Nat

def chompingMark? (c : Option Char) : Option Chomping :=
  if c = some '+' then some .keep else if c = some '-' then some .strip else none

def incrementMark? (c : Option Char) : Option (Option Nat) :=
  match c with
  | some '0' => none
  | some x => if x.isDigit then some (some (x.toNat - '0'.toNat)) else some none
  | none => some none

def blockHeader? (c : Cursor) : Option (BlockHeader × Cursor) :=
  match chompingMark? c.head? with
  | some chomping => do
      let c := c.advance 1
      let increment ← incrementMark? c.head?
      some (⟨chomping, increment⟩, if increment.isSome then c.advance 1 else c)
  | none => do
      let increment ← incrementMark? c.head?
      let c := if increment.isSome then c.advance 1 else c
      match increment, chompingMark? c.head? with
      | some _, some chomping => some (⟨chomping, increment⟩, c.advance 1)
      | _, _ => some (⟨.clip, increment⟩, c)

/-- Empty lines before the next line with text: their breaks, the greatest column that spaces
reach, and where the text is. `indent` is none while it is still to be found. -/
def blockBreaks? (indent : Option Nat) :
    (fuel : Nat) → (reach : Nat) → Cursor → Option (List Char × Nat × Cursor)
  | 0, reach, c => some ([], reach, c)
  | fuel + 1, reach, c =>
      let room := match indent with
        | some n => n - c.column
        | none => c.rest.length
      let c := c.advance ((c.rest.take room).takeWhile isSpace).length
      let reach := max reach c.column
      if c.head? = some '\t' ∧ indent.all (c.column < ·) then none
      else
        match c.break? with
        | some (b, next) => do
            let (breaks, reach, c) ← blockBreaks? indent fuel reach next
            some (b :: breaks, reach, c)
        | none => some ([], reach, c)

structure BlockEnd where
  lastBreak : List Char := []
  further : List Char := []
  wasBlank : Bool := false

/-- A line joins the one before it when neither begins with a blank. -/
def BlockEnd.joint (e : BlockEnd) (isLiteral isBlank : Bool) : List Char :=
  if !isLiteral && e.lastBreak = ['\n'] && !e.wasBlank && !isBlank then
    if e.further.isEmpty then [' '] else e.further
  else e.lastBreak ++ e.further

def blockLines? (isLiteral : Bool) (indent : Nat) :
    (fuel : Nat) → (e : BlockEnd) → Cursor → Option (List Char × BlockEnd × Cursor)
  | 0, e, c => some ([], e, c)
  | fuel + 1, e, c =>
      if c.column ≠ indent ∨ c.atEnd then some ([], e, c)
      else do
        let blank := c.head?.any isBlank
        let joint := e.joint isLiteral blank
        let (line, c) := c.takeWhile fun _ => true
        let (lastBreak, c) := match c.break? with
          | some (b, next) => ([b], next)
          | none => ([], c)
        let (further, _, c) ← blockBreaks? (some indent) fuel 0 c
        let (text, e, c) ← blockLines? isLiteral indent fuel ⟨lastBreak, further, blank⟩ c
        some (joint ++ line ++ text, e, c)

/-- A block scalar after the mark that begins it, in a node with lines at `parent`. -/
def blockScalar? (isLiteral : Bool) (parent : Int) (fuel : Nat) (c : Cursor) :
    Option (List Char × Cursor) := do
  let (header, c) ← blockHeader? c
  let c ← c.skipLineTail?
  let given := header.increment.map fun n => (max parent 0).toNat + n
  let (breaks, reach, c) ← blockBreaks? given fuel 0 c
  let indent := given.getD (max (max reach (parent + 1).toNat) 1)
  let (text, e, c) ← blockLines? isLiteral indent fuel { further := breaks } c
  let ending := match header.chomping with
    | .strip => []
    | .clip => e.lastBreak
    | .keep => e.lastBreak ++ e.further
  some (text ++ ending, c)

end DatasetPlan.Yaml
