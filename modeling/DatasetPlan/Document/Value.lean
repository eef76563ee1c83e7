namespace DatasetPlan

/-- A dictionary keeps its entries in order. -/
inductive Value where
  | null
  | bool (value : Bool)
  | int (value : Int)
  | float (value : Float)
  | text (value : String)
  | list (items : List Value)
  | dict (entries : List (String × Value))
deriving Inhabited

namespace Value

def isText : Value → Bool
  | text _ => true
  | _ => false

end Value

end DatasetPlan
