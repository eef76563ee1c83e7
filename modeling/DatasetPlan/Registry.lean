namespace DatasetPlan

/-! Semantic types are named by the identifiers that the execution engine knows. -/

namespace SemanticType

def integer : String := "http://schema.org/Integer"
def float : String := "http://schema.org/Float"
def boolean : String := "http://schema.org/Boolean"
def dateTime : String := "http://schema.org/DateTime"
def text : String := "http://schema.org/Text"
def image : String := "http://schema.org/ImageObject"
def categorical : String := "https://metadata.datadrivendiscovery.org/types/CategoricalData"
def floatVector : String := "https://metadata.datadrivendiscovery.org/types/FloatVector"
def timeSeries : String := "https://metadata.datadrivendiscovery.org/types/Timeseries"
def location : String := "https://metadata.datadrivendiscovery.org/types/Location"
def unknown : String := "https://metadata.datadrivendiscovery.org/types/UnknownType"

/-- Marks the column to be predicted; no label stands for it. -/
def trueTarget : String := "https://metadata.datadrivendiscovery.org/types/TrueTarget"

end SemanticType

/-- Labels with the types they stand for. The first entry of a label counts. -/
structure Registry where
  entries : List (String × String)

namespace Registry

def resolve (r : Registry) (label : String) : Option String :=
  r.entries.lookup label

def size (r : Registry) : Nat :=
  r.entries.length

/-- Several labels stand for one type: ordinals and places are categorical data to the engine. -/
def standard : Registry where
  entries := [
    ("address", SemanticType.text),
    ("index", SemanticType.integer),
    ("integer", SemanticType.integer),
    ("real", SemanticType.float),
    ("realVector", SemanticType.floatVector),
    ("boolean", SemanticType.boolean),
    ("dateTime", SemanticType.dateTime),
    ("ordinal", SemanticType.categorical),
    ("categorical", SemanticType.categorical),
    ("numerical", SemanticType.float),
    ("text", SemanticType.text),
    ("city", SemanticType.categorical),
    ("country", SemanticType.categorical),
    ("email", SemanticType.categorical),
    ("latitude", SemanticType.float),
    ("longitude", SemanticType.float),
    ("phone", SemanticType.categorical),
    ("postal_code", SemanticType.categorical),
    ("state", SemanticType.categorical),
    ("uri", SemanticType.categorical),
    ("image", SemanticType.image),
    ("timeseries", SemanticType.timeSeries),
    ("geocoordinate", SemanticType.location),
    ("unknown", SemanticType.unknown)]

end Registry

end DatasetPlan
