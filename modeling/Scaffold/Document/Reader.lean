import Scaffold.Document.Basic
import Scaffold.Decimal.Double
import Scaffold.Text.Quoted

/-!
Reading a document from its text. Numbers are read exactly; `toDoubles` then gives them the
precision of a double. Of two fields with one key the later value counts, in the place of the
first.
-/
namespace Scaffold
namespace Document

def isBlank (c : Char) : Bool := c == ' ' || c == '\n' || c == '\t' || c == '\r'

def skipBlanks (cs : List Char) : List Char := cs.dropWhile isBlank

def after? : List Char → List Char → Option (List Char)
  | [], cs => some cs
  | w :: word, c :: cs => if w = c then after? word cs else none
  | _ :: _, [] => none

def readDigits? (cs : List Char) : Option (List Char × List Char) :=
  match cs.takeWhile Char.isDigit with
  | [] => none
  | digits => some (digits, cs.dropWhile Char.isDigit)

def digitsValue (digits : List Char) : Nat :=
  digits.foldl (fun n c => 10 * n + (c.toNat - '0'.toNat)) 0

def readFraction? : List Char → Option (List Char × List Char)
  | '.' :: cs => readDigits? cs
  | cs => some ([], cs)

def readExponent? (cs : List Char) : Option (Int × List Char) :=
  match cs with
  | [] => some (0, [])
  | c :: rest =>
    if c = 'e' ∨ c = 'E' then
      let (negative, rest) : Bool × List Char :=
        match rest with
        | '-' :: rest => (true, rest)
        | '+' :: rest => (false, rest)
        | rest => (false, rest)
      (readDigits? rest).map fun (digits, rest) =>
        let n : Int := digitsValue digits
        (if negative then -n else n, rest)
    else some (0, cs)

def readNumber? (cs : List Char) : Option (Decimal × List Char) := do
  let (negative, cs) : Bool × List Char :=
    match cs with
    | '-' :: cs => (true, cs)
    | cs => (false, cs)
  let (whole, cs) ← readDigits? cs
  let (fraction, cs) ← readFraction? cs
  let (exponent, cs) ← readExponent? cs
  return (Decimal.normal negative (digitsValue (whole ++ fraction)) (exponent - fraction.length), cs)

mutual

/-- Reads a value. The first argument bounds the number of steps. -/
def readValue? : Nat → List Char → Option (Document × List Char)
  | 0, _ => none
  | fuel + 1, cs =>
    match skipBlanks cs with
    | '"' :: cs => (Text.readQuoted? cs).map fun (value, cs) => (text value, cs)
    | '[' :: cs =>
      match skipBlanks cs with
      | ']' :: cs => some (list [], cs)
      | cs => (readItems? fuel cs).map fun (items, cs) => (list items, cs)
    | '\x7b' :: cs =>
      match skipBlanks cs with
      | '\x7d' :: cs => some (object [], cs)
      | cs => (readFields? fuel cs).map fun (fields, cs) => (object (Fields.ofList fields), cs)
    | 'n' :: cs => (after? ['u', 'l', 'l'] cs).map fun cs => (null, cs)
    | 't' :: cs => (after? ['r', 'u', 'e'] cs).map fun cs => (bool true, cs)
    | 'f' :: cs => (after? ['a', 'l', 's', 'e'] cs).map fun cs => (bool false, cs)
    | cs => (readNumber? cs).map fun (value, cs) => (number value, cs)

def readItems? : Nat → List Char → Option (List Document × List Char)
  | 0, _ => none
  | fuel + 1, cs => do
    let (item, cs) ← readValue? fuel cs
    match skipBlanks cs with
    | ',' :: cs =>
      let (items, cs) ← readItems? fuel cs
      return (item :: items, cs)
    | ']' :: cs => return ([item], cs)
    | _ => none

def readFields? : Nat → List Char → Option (List (String × Document) × List Char)
  | 0, _ => none
  | fuel + 1, cs => do
    let cs ← after? ['"'] (skipBlanks cs)
    let (key, cs) ← Text.readQuoted? cs
    let cs ← after? [':'] (skipBlanks cs)
    let (value, cs) ← readValue? fuel cs
    match skipBlanks cs with
    | ',' :: cs =>
      let (fields, cs) ← readFields? fuel cs
      return ((key, value) :: fields, cs)
    | '\x7d' :: cs => return ([(key, value)], cs)
    | _ => none

end

def parse? (s : String) : Option Document :=
  let cs := s.toList
  match readValue? (cs.length + 1) cs with
  | some (document, rest) => if skipBlanks rest = [] then some document else none
  | none => none

mutual

/-- The document with its numbers in double precision. A number too large for it is infinite. -/
def toDoubles : Document → Document
  | number value =>
    match value.toDouble? with
    | some value => number value
    | none => infinite (value.mantissa < 0)
  | list items => list (itemsToDoubles items)
  | object fields => object (fieldsToDoubles fields)
  | document => document

def itemsToDoubles : List Document → List Document
  | [] => []
  | item :: rest => item.toDoubles :: itemsToDoubles rest

def fieldsToDoubles : List (String × Document) → List (String × Document)
  | [] => []
  | (key, value) :: rest => (key, value.toDoubles) :: fieldsToDoubles rest

end

end Document
end Scaffold
