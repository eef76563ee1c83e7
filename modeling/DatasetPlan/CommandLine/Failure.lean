import DatasetPlan.PlanError
import DatasetPlan.Template.Basic

namespace DatasetPlan.CommandLine

inductive Failure where
  | unknownFormat (name : String)
  | unknownTemplate (name : String)
  /-- A template parameter without an equals sign. -/
  | parameterWithoutValue (text : String)
  | parameterWithoutKey (text : String)
  /-- The request has problems, which have been printed. -/
  | invalidRequest (problems : Nat)
  | plan (e : PlanError)
deriving DecidableEq

namespace Failure

def message : Failure → String
  | unknownFormat name => "unknown format '" ++ name ++ "' (expected yaml or json)"
  | unknownTemplate name =>
      "unknown template '" ++ name ++ "' (expected one of: " ++
        ", ".intercalate (Template.all.map Template.name) ++ ")"
  | parameterWithoutValue text => "invalid param '" ++ text ++ "': expected key=value"
  | parameterWithoutKey text => "invalid param '" ++ text ++ "': empty key"
  | invalidRequest problems => toString problems ++ " validation error(s)"
  | plan e => e.message

end Failure

end DatasetPlan.CommandLine
