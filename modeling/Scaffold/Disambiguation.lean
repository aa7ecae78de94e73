import Scaffold.Text.Units
import Scaffold.Naming
import Scaffold.Declaration.Reader

/-!
Telling declarations of one name apart. A declaration whose name others in the list have too is
named after what it has of its own: the column of its key, its join table, or its owning column
in the join table. A declaration that has none of these keeps its name, and nothing but names
changes. `runAll_eq_getLastD_trace` ties a run of passes to the list of what each pass gives.
-/
namespace Scaffold
namespace Disambiguation

def names (declarations : List Declaration) : List String := declarations.map (·.name)

def collides (declarations : List Declaration) (name : String) : Bool :=
  1 < (names declarations).count name

def insertName (name : String) : List String → List String
  | [] => [name]
  | other :: rest =>
    if name = other then other :: rest
    else if Text.unitsLe name other then name :: other :: rest
    else other :: insertName name rest

def collidingNames (declarations : List Declaration) : List String :=
  ((names declarations).filter (collides declarations)).foldr insertName []

def insert (declaration : Declaration) : List Declaration → List Declaration
  | [] => [declaration]
  | other :: rest =>
    if Text.unitsLe declaration.name other.name then declaration :: other :: rest
    else other :: insert declaration rest

/-- The declarations in the order of their names; of one name, the last comes first. -/
def inNameOrder (declarations : List Declaration) : List Declaration :=
  declarations.foldl (fun sorted declaration => insert declaration sorted) []

def namedByKey (declaration : Declaration) : Declaration :=
  match declaration.kind, declaration.options.key with
  | .field, _ | _, none => declaration
  | _, some column => declaration.rename (Naming.associationName column declaration.name)

/-- Puts declarations in the order of their names and names those that collide after their key. -/
def byKey (declarations : List Declaration) : List Declaration :=
  (inNameOrder declarations).map fun declaration =>
    if collides declarations declaration.name then namedByKey declaration else declaration

def namedByJoinTable (declaration : Declaration) : Declaration :=
  match declaration.kind, declaration.options.joinTable with
  | .manyToMany, some table =>
    declaration.rename (Naming.associationName (declaration.name ++ "_by") table)
  | _, _ => declaration

def byJoinTable (declarations : List Declaration) : List Declaration :=
  declarations.map fun declaration =>
    if collides declarations declaration.name then namedByJoinTable declaration else declaration

/-- The first column of the keys of a join table. The second pair is not looked at. -/
def owningColumn (name : String) : JoinKeys → Except ContractError String
  | [owning, _] =>
    match owning with
    | [.text column, _] => .ok column
    | _ => .error (.joinKeyForm name)
  | keys => .error (.joinKeyCount name keys.length)

def namedByJoinColumn (declaration : Declaration) : Except ContractError Declaration :=
  match declaration.kind, declaration.options.joinKeys with
  | .manyToMany, some keys =>
    (owningColumn declaration.name keys).map fun column =>
      declaration.rename (declaration.name ++ "_by_" ++ column)
  | _, _ => .ok declaration

def byJoinColumn (declarations : List Declaration) : Except ContractError (List Declaration) :=
  declarations.mapM fun declaration =>
    if collides declarations declaration.name then namedByJoinColumn declaration
    else .ok declaration

/-- Names the many-to-many associations that collide after their join tables, and those that
still collide after their owning columns. -/
def byJoins (declarations : List Declaration) : Except ContractError (List Declaration) :=
  byJoinColumn (byJoinTable declarations)

inductive Pass
  | byKey
  | byJoinTable
  | byJoinColumn
  | byJoins
  deriving DecidableEq

def Pass.run : Pass → List Declaration → Except ContractError (List Declaration)
  | .byKey, declarations => .ok (Disambiguation.byKey declarations)
  | .byJoinTable, declarations => .ok (Disambiguation.byJoinTable declarations)
  | .byJoinColumn, declarations => Disambiguation.byJoinColumn declarations
  | .byJoins, declarations => Disambiguation.byJoins declarations

/-- Runs passes one after the other. The first that fails ends the run. -/
def runAll : List Pass → List Declaration → Except ContractError (List Declaration)
  | [], declarations => .ok declarations
  | pass :: passes, declarations => (pass.run declarations).bind (runAll passes)

/-- What each pass of a run gives, up to the first that fails. -/
def trace : List Pass → List Declaration → List (Except ContractError (List Declaration))
  | [], _ => []
  | pass :: passes, declarations =>
    match pass.run declarations with
    | .ok renamed => .ok renamed :: trace passes renamed
    | .error error => [.error error]

theorem runAll_eq_getLastD_trace (passes : List Pass) (declarations : List Declaration) :
    runAll passes declarations = (trace passes declarations).getLastD (.ok declarations) := by
  induction passes generalizing declarations with
  | nil => rfl
  | cons pass passes ih =>
    cases h : pass.run declarations with
    | error error => simp [runAll, trace, h, Except.bind]
    | ok renamed => simp only [runAll, trace, h, Except.bind, ih, List.getLastD_cons]

theorem insert_perm (declaration : Declaration) (sorted : List Declaration) :
    (insert declaration sorted).Perm (declaration :: sorted) := by
  induction sorted with
  | nil => exact .refl _
  | cons other rest ih =>
    unfold insert
    split
    · exact .refl _
    · exact (ih.cons other).trans (.swap declaration other rest)

theorem foldl_insert_perm (declarations sorted : List Declaration) :
    (declarations.foldl (fun sorted declaration => insert declaration sorted) sorted).Perm
      (declarations ++ sorted) := by
  induction declarations generalizing sorted with
  | nil => exact .refl _
  | cons declaration rest ih =>
    exact (ih _).trans (((insert_perm declaration sorted).append_left rest).trans
      List.perm_middle)

theorem inNameOrder_perm (declarations : List Declaration) :
    (inNameOrder declarations).Perm declarations := by
  unfold inNameOrder
  simpa using foldl_insert_perm declarations []

end Disambiguation
end Scaffold
