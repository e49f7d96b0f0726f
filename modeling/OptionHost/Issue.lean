import OptionHost.Value.Shown

/-!
# Issues of a validation

What is wrong with one part of a document that was checked against a schema, and where.
-/

namespace OptionHost

inductive IssueKind where
  | notBool
  | unreadableBool
  | notText
  | undecodableText
  | notFloat
  | unreadableFloat
  | notPositive
  | notAmong (texts : List String)
  | notDict
  | notModel (model : String)
  | unknownKey
  | keyNotText
  | frozen
  | brokenRule (message : String)
  deriving DecidableEq, Repr, Inhabited

namespace IssueKind

def code : IssueKind → String
  | .notBool => "bool_type"
  | .unreadableBool => "bool_parsing"
  | .notText => "string_type"
  | .undecodableText => "string_unicode"
  | .notFloat => "float_type"
  | .unreadableFloat => "float_parsing"
  | .notPositive => "greater_than"
  | .notAmong _ => "literal_error"
  | .notDict => "dict_type"
  | .notModel _ => "model_type"
  | .unknownKey => "extra_forbidden"
  | .keyNotText => "invalid_key"
  | .frozen => "frozen_instance"
  | .brokenRule _ => "value_error"

/-- Quoted texts in a row, the last one behind "or". -/
def alternatives : List String → String
  | [] => ""
  | [s] => s!"'{s}'"
  | [s, t] => s!"'{s}' or '{t}'"
  | s :: rest => s!"'{s}', " ++ alternatives rest

def message : IssueKind → String
  | .notBool => "Input should be a valid boolean"
  | .unreadableBool => "Input should be a valid boolean, unable to interpret input"
  | .notText => "Input should be a valid string"
  | .undecodableText =>
    "Input should be a valid string, unable to parse raw data as a unicode string"
  | .notFloat => "Input should be a valid number"
  | .unreadableFloat => "Input should be a valid number, unable to parse string as a number"
  | .notPositive => "Input should be greater than 0"
  | .notAmong texts => "Input should be " ++ alternatives texts
  | .notDict => "Input should be a valid dictionary"
  | .notModel model => s!"Input should be a valid dictionary or instance of {model}"
  | .unknownKey => "Extra inputs are not permitted"
  | .keyNotText => "Keys should be strings"
  | .frozen => "Instance is frozen"
  | .brokenRule text => "Value error, " ++ text

end IssueKind

/-- An issue with the path of keys that leads to its place. -/
structure Issue where
  kind : IssueKind
  location : List Value
  deriving Inhabited

def Issue.under (key : Value) (issue : Issue) : Issue :=
  { issue with location := key :: issue.location }

end OptionHost
