/-!
Issues: what is wrong in a document, where, and in which words it is reported.
-/
namespace Scaffold

inductive Step where
  | key (name : String)
  | index (position : Nat)
  deriving DecidableEq, Repr

def Step.text : Step → String
  | key name => name
  | index position => position.repr

inductive Cause where
  | absent
  | wrongType (expected received : String)
  | emptyText
  | tooFewItems (least : Nat)
  | tooManyItems (most : Nat)
  | unknownKeys (keys : List String)
  | unknownTag (tags : List String)
  | unknownWord (words : List String) (given : String)
  | badModulePath
  | unknownColumn (column table : String)
  | repeatedTable (table : String)
  | unknownTable (table : String)
  | missingTable (table : String)
  deriving DecidableEq, Repr

namespace Cause

def quoted (between : String) (words : List String) : String :=
  between.intercalate (words.map fun word => "'" ++ word ++ "'")

def alternatives (words : List String) : String := quoted " | " words

def message : Cause → String
  | absent => "Required"
  | wrongType expected received => "Expected " ++ expected ++ ", received " ++ received
  | emptyText => "String must contain at least 1 character(s)"
  | tooFewItems least => "Array must contain at least " ++ least.repr ++ " element(s)"
  | tooManyItems most => "Array must contain at most " ++ most.repr ++ " element(s)"
  | unknownKeys keys => "Unrecognized key(s) in object: " ++ quoted ", " keys
  | unknownTag tags => "Invalid discriminator value. Expected " ++ alternatives tags
  | unknownWord words given =>
    "Invalid enum value. Expected " ++ alternatives words ++ ", received '" ++ given ++ "'"
  | badModulePath => "must be a dotted PascalCase module path (e.g. MyApp.Schema)"
  | unknownColumn column table =>
    "Foreign key column \"" ++ column ++ "\" is not a column of \"" ++ table ++ "\""
  | repeatedTable table => "Duplicate table \"" ++ table ++ "\""
  | unknownTable table => "Referenced table \"" ++ table ++ "\" does not exist"
  | missingTable table => "missing table \"" ++ table ++ "\""

def code : Cause → String
  | absent | wrongType _ _ => "invalid_type"
  | emptyText | tooFewItems _ => "too_small"
  | tooManyItems _ => "too_big"
  | unknownKeys _ => "unrecognized_keys"
  | unknownTag _ => "invalid_union_discriminator"
  | unknownWord _ _ => "invalid_enum_value"
  | badModulePath => "invalid_string"
  | unknownColumn _ _ | repeatedTable _ | unknownTable _ | missingTable _ => "custom"

end Cause

structure Issue where
  path : List Step
  cause : Cause
  deriving DecidableEq, Repr

namespace Issue

def message (issue : Issue) : String := issue.cause.message

def code (issue : Issue) : String := issue.cause.code

def place (issue : Issue) : String := ".".intercalate (issue.path.map Step.text)

def within (step : Step) (issue : Issue) : Issue := { issue with path := step :: issue.path }

@[simp] theorem within_path (step : Step) (issue : Issue) :
    (issue.within step).path = step :: issue.path := rfl
@[simp] theorem within_cause (step : Step) (issue : Issue) :
    (issue.within step).cause = issue.cause := rfl

end Issue

/-- The issues of a document that is not accepted; there is at least one. -/
structure Report where
  first : Issue
  rest : List Issue
  deriving DecidableEq, Repr

def Report.toList (report : Report) : List Issue := report.first :: report.rest

end Scaffold
