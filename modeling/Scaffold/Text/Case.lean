import Scaffold.Text.CaseTable

/-!
Upper and lower case of texts. A character may have more than one character as its partner, and
a character beyond the first plane has no partner, because its two units have none.
-/
namespace Scaffold
namespace Text

def casePartner (runs : List CaseRun) (expansions : List (Nat × List Nat)) (c : Char) : List Char :=
  match expansions.lookup c.toNat with
  | some codes => codes.map Char.ofNat
  | none =>
    match runs.find? (·.contains c.toNat) with
    | some run => [Char.ofNat (c.toNat + run.shift).toNat]
    | none => [c]

def upperChar (c : Char) : List Char :=
  if c.toNat < 0x80 then [c.toUpper] else casePartner upperRuns upperExpansions c

def lowerChar (c : Char) : List Char :=
  if c.toNat < 0x80 then [c.toLower] else casePartner lowerRuns lowerExpansions c

def upper (cs : List Char) : List Char := cs.flatMap upperChar

def lower (cs : List Char) : List Char := cs.flatMap lowerChar

@[simp] theorem upper_nil : upper [] = [] := rfl
@[simp] theorem upper_cons (c : Char) (cs : List Char) : upper (c :: cs) = upperChar c ++ upper cs :=
  rfl
@[simp] theorem upper_append (a b : List Char) : upper (a ++ b) = upper a ++ upper b := by
  simp [upper]
@[simp] theorem lower_nil : lower [] = [] := rfl
@[simp] theorem lower_cons (c : Char) (cs : List Char) : lower (c :: cs) = lowerChar c ++ lower cs :=
  rfl
@[simp] theorem lower_append (a b : List Char) : lower (a ++ b) = lower a ++ lower b := by
  simp [lower]

/-- The word with its first character in upper case and the others as they are. -/
def capitalize : List Char → List Char
  | [] => []
  | c :: cs => upperChar c ++ cs

/-- The word with its first character in upper case and the others in lower case. -/
def titled : List Char → List Char
  | [] => []
  | c :: cs => upperChar c ++ lower cs

def startsUpper : List Char → Bool
  | [] => false
  | c :: _ => upperChar c == [c]

/-- A word in the case of a model: unchanged if they are equal, else lower, upper or titled as
the model is. -/
def inCaseOf (model word : List Char) : List Char :=
  if model = word then word
  else if model = lower model then lower word
  else if model = upper model then upper word
  else if startsUpper model then titled word
  else lower word

@[simp] theorem inCaseOf_self (word : List Char) : inCaseOf word word = word := by
  simp [inCaseOf]

end Text
end Scaffold
