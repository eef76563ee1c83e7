import DatasetPlan.Primitive

namespace DatasetPlan

inductive Step where
  | addType (columns : List Nat) (type : String)
  | removeType (columns : List Nat) (type : String)
  | removeColumns (resource : String) (columns : List Nat)
  | call (call : PrimitiveCall)

namespace Step

structure TypeChange where
  columns : List Nat
  type : String

def typeChangeRecord (title : String) : Record TypeChange where
  title := title
  blank := ⟨[], ""⟩
  fields := [
    .required "target_columns" (.list .nat) (·.columns) fun s x => { s with columns := x },
    .required "type_id" .text (·.type) fun s x => { s with type := x }]

structure Removal where
  resource : String
  columns : List Nat

def removalRecord : Record Removal where
  title := "struct variant Step::RemoveColumns"
  blank := ⟨"", []⟩
  fields := [
    .required "resource_id" .text (·.resource) fun s x => { s with resource := x },
    .required "columns" (.list .nat) (·.columns) fun s x => { s with columns := x }]

def asAddition? : Step → Option TypeChange
  | addType columns type => some ⟨columns, type⟩
  | _ => none

def asTypeRemoval? : Step → Option TypeChange
  | removeType columns type => some ⟨columns, type⟩
  | _ => none

def asRemoval? : Step → Option Removal
  | removeColumns resource columns => some ⟨resource, columns⟩
  | _ => none

def asCall? : Step → Option PrimitiveCall
  | call c => some c
  | _ => none

def variants : List (Variant Step) := [
  (typeChangeRecord "struct variant Step::AddSemanticType").variant "add_semantic_type"
    (fun s => addType s.columns s.type) asAddition?,
  (typeChangeRecord "struct variant Step::RemoveSemanticType").variant "remove_semantic_type"
    (fun s => removeType s.columns s.type) asTypeRemoval?,
  removalRecord.variant "remove_columns" (fun s => removeColumns s.resource s.columns) asRemoval?,
  PrimitiveCall.record.variant "primitive" call asCall?]

def codec : Codec Step :=
  Variant.codec "kind" "internally tagged enum Step" variants

/-- The method whose result the next step reads. -/
def outputMethod : Step → String
  | call c => c.outputs.headD "produce"
  | _ => "produce"

def columnsText (columns : List Nat) : String :=
  "[" ++ ", ".intercalate (columns.map toString) ++ "]"

def text : Step → String
  | addType columns type => "ADD-TYPE " ++ type ++ " -> " ++ columnsText columns
  | removeType columns type => "REMOVE-TYPE " ++ type ++ " <- " ++ columnsText columns
  | removeColumns resource columns =>
      "REMOVE-COLUMNS " ++ columnsText columns ++ " from resource " ++ resource
  | call c => "PRIMITIVE " ++ c.primitive.path

end Step

end DatasetPlan
