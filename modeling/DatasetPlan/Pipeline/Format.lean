import DatasetPlan.Json.Reader
import DatasetPlan.Pipeline.Basic
import DatasetPlan.Storage.PathName
import DatasetPlan.Yaml.Reader
import DatasetPlan.Yaml.Writer

namespace DatasetPlan.Pipeline

inductive Format where
  | yaml
  | json
deriving DecidableEq, Repr

namespace Format

def ofName? : String → Option Format
  | "yaml" | "yml" => some yaml
  | "json" => some json
  | _ => none

/-- Files ending in `.json` are JSON, in any case of letters; all others are YAML. -/
def ofPath (path : String) : Format :=
  match PathName.extension? path with
  | some extension =>
      if extension.toList.map Char.toLower = "json".toList then json else yaml
  | none => yaml

def text : Format → Value → String
  | yaml => Yaml.text
  | json => Json.pretty

def read (c : Codec β) (text : String) : Format → Except String β
  | yaml =>
      (c.readDocument Yaml.dialect (Yaml.document text)).mapError (Fault.message Yaml.wording)
  | json =>
      (c.readDocument Json.dialect (Json.document text)).mapError (Fault.message Json.wording)

end Format

def render (format : Format) (p : Pipeline) : String :=
  format.text (codec.write p)

def parse (format : Format) (text : String) : Except String Pipeline :=
  format.read codec text

end DatasetPlan.Pipeline
