import DatasetPlan.Blake3
import DatasetPlan.Json.Writer
import DatasetPlan.Step

/-! Digests: what a plan's identity is the hash of. The hash itself is a parameter. -/

namespace DatasetPlan

abbrev TextHash := String → String

def blake3 : TextHash := fun text =>
  "blake3:" ++ Blake3.hex (Blake3.digest text.toUTF8)

namespace Digest

def terminator : String := "\x00"

/-- The components with a null character after each. -/
def terminated (components : List String) : String :=
  String.join (components.map (· ++ terminator))

def ofComponents (hash : TextHash) (components : List String) : String :=
  hash (terminated components)

def indicesText (indices : List Nat) : String :=
  ",".intercalate (indices.map toString)

/-- The parts of a component stand with null characters between them. -/
def parts (texts : List String) : String :=
  terminator.intercalate texts

def ofCall (hash : TextHash) (c : PrimitiveCall) : String :=
  hash (parts ["primitive", c.primitive.id, ",".intercalate c.outputs,
    Json.compact ((Codec.dict .text).write c.arguments),
    Json.compact ((Codec.dict HyperValue.codec).write c.hyperparameters)])

def ofStep (hash : TextHash) : Step → String
  | .addType columns type => parts ["add", type, indicesText columns]
  | .removeType columns type => parts ["remove", type, indicesText columns]
  | .removeColumns resource columns => parts ["drop", resource, indicesText columns]
  | .call c => ofCall hash c

def ofPlan (hash : TextHash) (name : String) (steps : List Step) : String :=
  ofComponents hash (name :: steps.map (ofStep hash))

end Digest

end DatasetPlan
