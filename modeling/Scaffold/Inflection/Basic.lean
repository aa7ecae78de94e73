import Scaffold.Inflection.English

/-!
Plural and singular of a text. A text that is as a whole an irregular or an uncountable word is
looked up, any other is inflected by the first rule that applies to its ending.
-/
namespace Scaffold
namespace Inflection

/-- One direction of inflection: the words that already have the wanted number, the words to
exchange, and the rules. -/
structure Direction where
  settled : List String
  exchanged : List (String × String)
  rules : List Rule

def toPlural : Direction where
  settled := English.irregular.map (·.2)
  exchanged := English.irregular
  rules := English.pluralRules

def toSingular : Direction where
  settled := English.irregular.map (·.1)
  exchanged := English.irregular.map fun (singular, plural) => (plural, singular)
  rules := English.singularRules

/-- The word that a word is exchanged for, by the last pair that has it. -/
def Direction.exchange? (direction : Direction) (word : String) : Option String :=
  direction.exchanged.reverse.lookup word

def Direction.chars (direction : Direction) (text : List Char) : List Char :=
  let word := String.ofList (Text.lower text)
  if direction.settled.contains word then Text.inCaseOf text word.toList
  else
    match direction.exchange? word with
    | some other => Text.inCaseOf text other.toList
    | none =>
      if word.isEmpty || English.uncountable.contains word then text
      else (direction.rules.findSome? (·.inflect? text)).getD text

def plural (text : String) : String := String.ofList (toPlural.chars text.toList)

def singular (text : String) : String := String.ofList (toSingular.chars text.toList)

end Inflection
end Scaffold
