import Scaffold.Checked
import Scaffold.Declaration.Basic

/-!
Reading declarations from documents. A declaration has the keys and options of its kind and no
others.
-/
namespace Scaffold

namespace Check

/-- A list of exactly two items. A longer one is still checked in its first two. -/
def pair {α : Type} (check : Check α) : Check (α × α) :=
  ofType "array" Document.list? fun
    | first :: second :: others =>
      Prod.mk <$> (check (some first)).within (.index 0) <*> (check (some second)).within (.index 1)
        |>.prepend (if others = [] then [] else [⟨[], .tooManyItems 2⟩])
    | _ => .refused ⟨[], .tooFewItems 2⟩ []

def strict {α : Type} (known : List String) (check : Fields → Checked α) : Check α :=
  object fun fields => (check fields).note (fields.otherKeys known)

end Check

namespace Options

def known : Kind → List String
  | .field => ["values"]
  | .belongsTo | .hasMany | .hasOne => ["fk", "ref"]
  | .manyToMany => ["fk", "joinThrough", "joinKeys"]

def checkJoinKeys : Check JoinKeys := fun document =>
  (fun (first, second) => JoinKeys.ofPairs first second) <$> Check.pair (Check.pair Check.name) document

def check (kind : Kind) : Check Options :=
  Check.strict (known kind) fun fields =>
    match kind with
    | .field =>
      (fun values => { values }) <$>
        fields.check "values" (Check.optional (Check.listOf Check.anyText))
    | .belongsTo | .hasMany | .hasOne =>
      (fun key referenced => { key, referenced }) <$>
        fields.check "fk" (Check.optional Check.name) <*>
        fields.check "ref" (Check.optional Check.name)
    | .manyToMany =>
      (fun key joinTable joinKeys => { key, joinTable, joinKeys }) <$>
        fields.check "fk" (Check.optional Check.name) <*>
        fields.check "joinThrough" (Check.optional Check.name) <*>
        fields.check "joinKeys" (Check.optional checkJoinKeys)

end Options

namespace Declaration

def checkKind (kind : Kind) : Check Declaration :=
  Check.strict ["kind", "name", kind.subjectWord, "options"] fun fields =>
    (fun name subject options => { kind, name, subject, options }) <$>
      fields.check "name" Check.name <*> fields.check kind.subjectWord Check.name <*>
      fields.check "options" (Options.check kind)

def kind? (fields : Fields) : Option Kind :=
  (fields.get? "kind").bind fun document => document.text?.bind Kind.ofWord?

def check : Check Declaration :=
  Check.object fun fields =>
    match kind? fields with
    | some kind => checkKind kind (some (.object fields))
    | none => .refused ⟨[.key "kind"], .unknownTag Kind.words⟩ []

end Declaration

inductive ContractError where
  | malformed (position : Nat) (issue : Issue) (name : Option String)
  | unknownKind (kind name : String)
  | joinKeyCount (name : String) (count : Nat)
  | joinKeyForm (name : String)
  deriving DecidableEq, Repr

namespace ContractError

def message : ContractError → String
  | malformed position issue _ =>
    "Declaration #" ++ position.repr ++ " is malformed" ++
      (if issue.path = [] then "" else " at \"" ++ issue.place ++ "\"") ++ ": " ++ issue.message
  | unknownKind kind _ => "Unknown declaration kind \"" ++ kind ++ "\""
  | joinKeyCount name count =>
    "joinKeys of \"" ++ name ++ "\" must have exactly two entries, got " ++ count.repr
  | joinKeyForm name => "joinKeys of \"" ++ name ++ "\" must be [column, table] pairs"

def declarationName : ContractError → Option String
  | malformed _ _ name => name
  | unknownKind _ name | joinKeyCount name _ | joinKeyForm name => some name

end ContractError

namespace Declaration

def nameOf (document : Document) : Option String :=
  document.object?.bind fun fields => (fields.get? "name").bind Document.text?

/-- The declarations that documents describe, or what is wrong with the first that describes
none; positions count from `position`. -/
def readFrom (position : Nat) : List Document → Except ContractError (List Declaration)
  | [] => .ok []
  | document :: rest =>
    match (check (some document)).result with
    | .error report => .error (.malformed position report.first (nameOf document))
    | .ok declaration =>
      match readFrom (position + 1) rest with
      | .ok declarations => .ok (declaration :: declarations)
      | .error error => .error error

def readAll (documents : List Document) : Except ContractError (List Declaration) :=
  readFrom 0 documents

end Declaration
end Scaffold
