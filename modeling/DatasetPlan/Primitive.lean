import DatasetPlan.HyperValue

namespace DatasetPlan

structure Primitive where
  id : String
  version : String
  name : String
  /-- Where the engine finds the primitive. -/
  path : String
  digest : Option String := none
deriving DecidableEq

namespace Primitive

def record : Record Primitive where
  title := "struct Primitive"
  blank := ⟨"", "", "", "", none⟩
  fields := [
    .required "id" .text (·.id) fun p x => { p with id := x },
    .required "version" .text (·.version) fun p x => { p with version := x },
    .required "name" .text (·.name) fun p x => { p with name := x },
    .required "python_path" .text (·.path) fun p x => { p with path := x },
    .sparse "digest" (.option .text) Option.isNone (·.digest) fun p x => { p with digest := x }]

def codec : Codec Primitive :=
  record.codec

end Primitive

/-- A primitive with its hyperparameters. Without arguments of its own it reads what the call
before it gives. -/
structure PrimitiveCall where
  primitive : Primitive
  /-- The methods whose results are published; the first feeds the next call. -/
  outputs : List String := ["produce"]
  arguments : Dictionary String := ∅
  hyperparameters : Dictionary HyperValue := ∅

namespace PrimitiveCall

def record : Record PrimitiveCall where
  title := "struct PrimitiveStep"
  blank := { primitive := Primitive.record.blank }
  fields := [
    .required "primitive" Primitive.codec (·.primitive) fun c x => { c with primitive := x },
    .optional "outputs" (.list .text) (·.outputs) fun c x => { c with outputs := x },
    .sparse "arguments" (.dict .text) Dictionary.isEmpty (·.arguments) fun c x =>
      { c with arguments := x },
    .sparse "hyperparams" (.dict HyperValue.codec) Dictionary.isEmpty (·.hyperparameters)
      fun c x => { c with hyperparameters := x }]

def withHyperparameter (c : PrimitiveCall) (key : String) (value : HyperValue) : PrimitiveCall :=
  { c with hyperparameters := c.hyperparameters.insert key value }

def withArgument (c : PrimitiveCall) (key reference : String) : PrimitiveCall :=
  { c with arguments := c.arguments.insert key reference }

def withOutputs (c : PrimitiveCall) (outputs : List String) : PrimitiveCall :=
  { c with outputs := outputs }

end PrimitiveCall

def Primitive.call (p : Primitive) : PrimitiveCall :=
  { primitive := p }

end DatasetPlan
