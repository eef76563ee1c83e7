namespace DatasetPlan.Yaml

/-- Line feed and carriage return, and the next-line, line-separator and paragraph-separator
characters. -/
def isBreak (c : Char) : Bool :=
  c = '\n' || c = '\r' || c = '\u0085' || c = '\u2028' || c = '\u2029'

def isSpace (c : Char) : Bool :=
  c = ' '

def isBlank (c : Char) : Bool :=
  c = ' ' || c = '\t'

/-- Blanks, breaks, and the end of the text. -/
def isGap : Option Char → Bool
  | none => true
  | some c => isBlank c || c = '\x00' || isBreak c

def isWord (c : Char) : Bool :=
  c.isAlphanum || c = '_' || c = '-'

def isAllowed (c : Char) : Bool :=
  let n := c.toNat
  c = '\t' || c = '\n' || c = '\r' || (0x20 ≤ n && n ≤ 0x7E) || n = 0x85 ||
    (0xA0 ≤ n && n ≤ 0xD7FF) || (0xE000 ≤ n && n ≤ 0xFFFD) || 0x10000 ≤ n

/-- Characters that are written as they are: the allowed ones but for the tab, the lone carriage
return, the next line and the byte order mark. -/
def isPrintable (c : Char) : Bool :=
  isAllowed c && c ≠ '\t' && c ≠ '\r' && c ≠ '\u0085' && c ≠ '\uFEFF'

/-- Characters that a plain scalar cannot begin with, whatever follows. -/
def isIndicator (c : Char) : Bool :=
  c ∈ ['#', ',', '[', ']', '{', '}', '&', '*', '!', '|', '>', '\'', '"', '%', '@', '\x60']

def isBracketMark (c : Char) : Bool :=
  c ∈ [',', '[', ']', '{', '}']

def startsLikeMarker (cs : List Char) : Bool :=
  cs.take 3 = ['-', '-', '-'] || cs.take 3 = ['.', '.', '.']

end DatasetPlan.Yaml
