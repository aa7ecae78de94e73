import Scaffold.Text.Case

/-!
Inflection rules. A rule cuts a text into a part before, an ending that it keeps and an ending
that it drops, at the first place where the rest of the text has that form, and writes its own
ending after the kept part. What it writes takes the case of what it read.
-/
namespace Scaffold
namespace Inflection

/-- What has to stand at the start of a kept ending. The last three take one character, which
is kept too. -/
inductive Lead where
  | anywhere
  | wordStart
  | textStart
  | noneOf (letters : List Char)
  | notWordChar
  | notAscii
  deriving DecidableEq, Repr

/-- A kept ending: its lead and then its letters. -/
structure Stem where
  lead : Lead
  letters : List Char
  deriving DecidableEq, Repr

structure Rule where
  stems : List Stem
  dropped : List (List Char)
  added : List Char
  deriving DecidableEq, Repr

def isWordChar (c : Char) : Bool := c.isAlphanum || c == '_'

/-- A letter of a text in the spelling of the rules, which are written in lower case. -/
def fold (c : Char) : Char := if c = 'É' then 'é' else c.toLower

def takeLetters? : List Char → List Char → Option (List Char × List Char)
  | [], text => some ([], text)
  | _ :: _, [] => none
  | l :: letters, c :: text =>
    if fold c = l then (takeLetters? letters text).map fun (taken, rest) => (c :: taken, rest)
    else none

def Lead.takes : Lead → Char → Bool
  | noneOf letters, c => !letters.contains (fold c)
  | notWordChar, c => !isWordChar c
  | notAscii, c => 0x80 ≤ c.toNat
  | _, _ => false

/-- The character that a lead takes at the start of a text, with the text after it; `previous`
is the character before the text. -/
def Lead.take? (lead : Lead) (previous : Option Char) (text : List Char) :
    Option (List Char × List Char) :=
  match lead with
  | anywhere => some ([], text)
  | wordStart => if previous.any isWordChar then none else some ([], text)
  | textStart => if previous.isSome then none else some ([], text)
  | lead =>
    match text with
    | [] => none
    | c :: rest => if lead.takes c then some ([c], rest) else none

def Stem.take? (stem : Stem) (previous : Option Char) (text : List Char) :
    Option (List Char × List Char) := do
  let (taken, text) ← stem.lead.take? previous text
  let (letters, text) ← takeLetters? stem.letters text
  return (taken ++ letters, text)

/-- A text in three parts: what a rule leaves alone, what it keeps and what it drops. -/
structure Cut where
  before : List Char
  kept : List Char
  dropped : List Char
  deriving DecidableEq, Repr

def Rule.cutHere? (rule : Rule) (previous : Option Char) (text : List Char) : Option Cut :=
  rule.stems.findSome? fun stem => do
    let (kept, rest) ← stem.take? previous text
    rule.dropped.findSome? fun letters =>
      match takeLetters? letters rest with
      | some (dropped, []) => some ⟨[], kept, dropped⟩
      | _ => none

/-- The cut of a text that leaves the fewest characters alone. -/
def Rule.cut? (rule : Rule) (previous : Option Char) : List Char → Option Cut
  | [] => rule.cutHere? previous []
  | c :: text =>
    match rule.cutHere? previous (c :: text) with
    | some cut => some cut
    | none => (rule.cut? (some c) text).map fun cut => { cut with before := c :: cut.before }

/-- The text whose case a rule follows: what it read, or the character before if it read nothing. -/
def Cut.model (cut : Cut) : List Char :=
  match cut.kept ++ cut.dropped with
  | [] => cut.before.getLast?.toList
  | read => read

def Rule.inflect? (rule : Rule) (text : List Char) : Option (List Char) :=
  (rule.cut? none text).map fun cut =>
    cut.before ++ Text.inCaseOf cut.model (cut.kept ++ rule.added)

theorem takeLetters?_eq_append {letters text taken rest : List Char}
    (h : takeLetters? letters text = some (taken, rest)) : text = taken ++ rest := by
  induction letters generalizing text taken with
  | nil => simp_all [takeLetters?]
  | cons l letters ih =>
    cases text with
    | nil => simp [takeLetters?] at h
    | cons c text =>
      simp only [takeLetters?] at h
      split at h
      · obtain ⟨⟨taken', rest'⟩, hcut, heq⟩ := Option.map_eq_some_iff.1 h
        simp only [Prod.mk.injEq] at heq
        obtain ⟨rfl, rfl⟩ := heq
        simp [ih hcut]
      · simp at h

theorem Lead.eq_of_take? {lead : Lead} {previous : Option Char} {text taken rest : List Char}
    (h : lead.take? previous text = some (taken, rest)) :
    taken = [] ∧ text = rest ∨ ∃ c, taken = [c] ∧ text = c :: rest := by
  unfold Lead.take? at h
  split at h
  · simp_all
  · split at h <;> simp_all
  · split at h <;> simp_all
  · cases text with
    | nil => simp at h
    | cons c text =>
      simp only at h
      split at h
      · simp only [Option.some.injEq, Prod.mk.injEq] at h
        exact .inr ⟨c, h.1.symm, by rw [h.2]⟩
      · simp at h

theorem Lead.take?_eq_append {lead : Lead} {previous : Option Char} {text taken rest : List Char}
    (h : lead.take? previous text = some (taken, rest)) : text = taken ++ rest := by
  rcases Lead.eq_of_take? h with ⟨rfl, rfl⟩ | ⟨c, rfl, rfl⟩ <;> rfl

theorem Stem.exists_of_take? {stem : Stem} {previous : Option Char} {text taken rest : List Char}
    (h : stem.take? previous text = some (taken, rest)) :
    ∃ first middle letters, stem.lead.take? previous text = some (first, middle) ∧
      takeLetters? stem.letters middle = some (letters, rest) ∧ taken = first ++ letters := by
  simp only [Stem.take?, Option.bind_eq_bind, Option.pure_def, Option.bind_eq_some_iff,
    Option.some.injEq, Prod.mk.injEq] at h
  obtain ⟨⟨first, middle⟩, hfirst, ⟨letters, last⟩, hletters, rfl, rfl⟩ := h
  exact ⟨first, middle, letters, hfirst, hletters, rfl⟩

theorem Stem.take?_eq_append {stem : Stem} {previous : Option Char} {text taken rest : List Char}
    (h : stem.take? previous text = some (taken, rest)) : text = taken ++ rest := by
  obtain ⟨first, middle, letters, hfirst, hletters, rfl⟩ := Stem.exists_of_take? h
  rw [Lead.take?_eq_append hfirst, takeLetters?_eq_append hletters, List.append_assoc]

def Cut.whole (cut : Cut) : List Char := cut.before ++ cut.kept ++ cut.dropped

theorem Rule.whole_of_cutHere? {rule : Rule} {previous : Option Char} {text : List Char} {cut : Cut}
    (h : rule.cutHere? previous text = some cut) : cut.whole = text ∧ cut.before = [] := by
  obtain ⟨stem, -, h⟩ := List.exists_of_findSome?_eq_some h
  simp only [Option.bind_eq_bind, Option.bind_eq_some_iff] at h
  obtain ⟨⟨kept, rest⟩, hkept, h⟩ := h
  dsimp only at h
  obtain ⟨letters, -, h⟩ := List.exists_of_findSome?_eq_some h
  split at h
  · next dropped hdropped =>
    obtain rfl := Option.some.inj h
    refine ⟨?_, rfl⟩
    rw [Stem.take?_eq_append hkept, takeLetters?_eq_append hdropped]
    simp [Cut.whole]
  · simp at h

theorem Rule.whole_of_cut? {rule : Rule} {previous : Option Char} {text : List Char} {cut : Cut}
    (h : rule.cut? previous text = some cut) : cut.whole = text := by
  induction text generalizing previous cut with
  | nil => exact (Rule.whole_of_cutHere? h).1
  | cons c text ih =>
    simp only [Rule.cut?] at h
    split at h
    · next found =>
      obtain rfl := Option.some.inj h
      exact (Rule.whole_of_cutHere? found).1
    · obtain ⟨cut, hcut, rfl⟩ := Option.map_eq_some_iff.1 h
      simp [← ih hcut, Cut.whole]

end Inflection
end Scaffold
