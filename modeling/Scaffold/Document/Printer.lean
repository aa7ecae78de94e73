import Scaffold.Document.Basic
import Scaffold.Text.Quoted

/-!
The compact text of a document, on one line and without blanks. No text writes an infinite
number, and a null stands in its place.
-/
namespace Scaffold
namespace Document

mutual

def chars : Document → List Char
  | null | infinite _ => ['n', 'u', 'l', 'l']
  | bool true => ['t', 'r', 'u', 'e']
  | bool false => ['f', 'a', 'l', 's', 'e']
  | number value => value.chars
  | text value => Text.quoteChars value.toList
  | list items => '[' :: itemChars items
  | object fields => '\x7b' :: fieldChars fields

def itemChars : List Document → List Char
  | [] => [']']
  | [item] => item.chars ++ [']']
  | item :: rest => item.chars ++ ',' :: itemChars rest

def fieldChars : List (String × Document) → List Char
  | [] => ['\x7d']
  | [(key, value)] => Text.quoteChars key.toList ++ ':' :: value.chars ++ ['\x7d']
  | (key, value) :: rest =>
    Text.quoteChars key.toList ++ ':' :: value.chars ++ ',' :: fieldChars rest

end

def print (document : Document) : String := String.ofList document.chars

/-- A document as a word in a message: a text is not quoted, and an infinite number is named. -/
def word : Document → String
  | text value => value
  | infinite negative => if negative then "-Infinity" else "Infinity"
  | document => document.print

@[simp] theorem print_toList (document : Document) : document.print.toList = document.chars := by
  simp [print]

end Document
end Scaffold
