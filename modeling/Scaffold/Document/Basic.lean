import Scaffold.Decimal.Basic

/-!
Documents: the untyped data that a schema, a declaration or a log entry is read from and written
to. The fields of an object have an order. A key that is an array index goes before all others,
in the order of the numbers, and other keys stand in the order in which they were first put.
-/
namespace Scaffold

inductive Document where
  | null
  | bool (value : Bool)
  | number (value : Decimal)
  /-- A number beyond all doubles, of which only the sign is known. -/
  | infinite (negative : Bool)
  | text (value : String)
  | list (items : List Document)
  | object (fields : List (String × Document))
  deriving Repr

abbrev Fields := List (String × Document)

namespace Document

def typeName : Document → String
  | null => "null"
  | bool _ => "boolean"
  | number _ | infinite _ => "number"
  | text _ => "string"
  | list _ => "array"
  | object _ => "object"

def bool? : Document → Option Bool
  | bool value => some value
  | _ => none

def text? : Document → Option String
  | text value => some value
  | _ => none

def list? : Document → Option (List Document)
  | list items => some items
  | _ => none

def object? : Document → Option Fields
  | object fields => some fields
  | _ => none

def nat (n : Nat) : Document := number (Decimal.ofNat n)

def texts (values : List String) : Document := list (values.map text)

end Document

namespace Fields

def keys (fields : Fields) : List String := fields.map (·.1)

def get? (fields : Fields) (key : String) : Option Document := fields.lookup key

/-- The number of a key that is an array index: digits without a leading zero, below `0xFFFFFFFF`. -/
def index? (key : String) : Option Nat :=
  match key.toList with
  | ['0'] => some 0
  | '0' :: _ => none
  | [] => none
  | cs =>
    if cs.all Char.isDigit && cs.length ≤ 10 then
      let n := cs.foldl (fun n c => 10 * n + (c.toNat - '0'.toNat)) 0
      if n < 0xFFFFFFFF then some n else none
    else none

def goesBefore (new old : String) : Bool :=
  match index? new, index? old with
  | some i, some j => i < j
  | some _, none => true
  | none, _ => false

/-- Puts a value under a key: in its place if the key is there, else where the order asks. -/
def put (key : String) (value : Document) : Fields → Fields
  | [] => [(key, value)]
  | (k, v) :: rest =>
    if k = key then (key, value) :: rest
    else if goesBefore key k then (key, value) :: (k, v) :: rest
    else (k, v) :: put key value rest

def putAll (fields overlay : Fields) : Fields :=
  overlay.foldl (fun fields (key, value) => fields.put key value) fields

def ofList (fields : List (String × Document)) : Fields := putAll [] fields

theorem get?_cons (key other : String) (value : Document) (fields : Fields) :
    get? ((key, value) :: fields) other = if other = key then some value else fields.get? other := by
  unfold get?
  rw [List.lookup_cons]
  split
  · next h => simp [eq_of_beq h]
  · next h => rw [if_neg (ne_of_beq_false h)]

theorem get?_put_self (key : String) (value : Document) (fields : Fields) :
    (fields.put key value).get? key = some value := by
  induction fields with
  | nil => simp [put, get?_cons]
  | cons field rest ih =>
    obtain ⟨k, v⟩ := field
    unfold put
    split
    · simp [get?_cons]
    · next hk =>
      split
      · simp [get?_cons]
      · rw [get?_cons, if_neg (Ne.symm hk), ih]

theorem get?_put_of_ne {key other : String} (h : other ≠ key) (value : Document) (fields : Fields) :
    (fields.put key value).get? other = fields.get? other := by
  induction fields with
  | nil => simp [put, get?_cons, h]
  | cons field rest ih =>
    obtain ⟨k, v⟩ := field
    unfold put
    split
    · next hk => subst hk; simp [get?_cons, h]
    · split
      · simp [get?_cons, h]
      · simp only [get?_cons, ih]

end Fields
end Scaffold
