namespace DatasetPlan.Width

def span (width : Nat) : Nat :=
  Nat.pow 2 width

/-- The bound between the signed integers of one width and those above them. -/
def signedBound (width : Nat) : Nat :=
  span (width - 1)

def isUnsigned (width : Nat) (n : Int) : Bool :=
  0 ≤ n && n < span width

def isSigned (width : Nat) (n : Int) : Bool :=
  -signedBound width ≤ n && n < signedBound width

end DatasetPlan.Width
