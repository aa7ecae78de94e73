/-!
Quoted texts: a text between double quotes, in which a quote, a backslash and the control
characters are escaped. Every other character stands for itself. `readQuoted?_flatMap_escape`
says that a quoted text is read as that text, and `not_control_of_mem_escape` that it stays on
one line.
-/
namespace Scaffold
namespace Text

def hexDigit (n : Nat) : Char :=
  if n < 10 then Char.ofNat ('0'.toNat + n) else Char.ofNat ('a'.toNat + n - 10)

def escape (c : Char) : List Char :=
  if c = '"' then ['\\', '"']
  else if c = '\\' then ['\\', '\\']
  else if c = '\x08' then ['\\', 'b']
  else if c = '\x0c' then ['\\', 'f']
  else if c = '\n' then ['\\', 'n']
  else if c = '\r' then ['\\', 'r']
  else if c = '\t' then ['\\', 't']
  else if c.toNat < 0x20 then
    ['\\', 'u', '0', '0', hexDigit (c.toNat / 16), hexDigit (c.toNat % 16)]
  else [c]

def quoteChars (cs : List Char) : List Char := '"' :: cs.flatMap escape ++ ['"']

def quote (s : String) : String := String.ofList (quoteChars s.toList)

@[simp] theorem quote_toList (s : String) : (quote s).toList = quoteChars s.toList := by
  simp [quote]

def hexValue? (c : Char) : Option Nat :=
  if '0' ≤ c ∧ c ≤ '9' then some (c.toNat - '0'.toNat)
  else if 'a' ≤ c ∧ c ≤ 'f' then some (c.toNat - 'a'.toNat + 10)
  else if 'A' ≤ c ∧ c ≤ 'F' then some (c.toNat - 'A'.toNat + 10)
  else none

def hexCode? (a b c d : Char) : Option Nat := do
  return (((← hexValue? a) * 16 + (← hexValue? b)) * 16 + (← hexValue? c)) * 16 + (← hexValue? d)

def shortEscape? (c : Char) : Option Char :=
  if c = '"' ∨ c = '\\' ∨ c = '/' then some c
  else if c = 'b' then some '\x08'
  else if c = 'f' then some '\x0c'
  else if c = 'n' then some '\n'
  else if c = 'r' then some '\r'
  else if c = 't' then some '\t'
  else none

/-- Reads up to the closing quote. The result holds one code per character or numbered escape,
so a character written as two escapes is still in two halves. -/
def readCodes? : List Char → Option (List Nat × List Char)
  | [] => none
  | '"' :: rest => some ([], rest)
  | '\\' :: 'u' :: a :: b :: c :: d :: rest => do
    let code ← hexCode? a b c d
    let (codes, rest) ← readCodes? rest
    return (code :: codes, rest)
  | '\\' :: e :: rest => do
    let c ← shortEscape? e
    let (codes, rest) ← readCodes? rest
    return (c.toNat :: codes, rest)
  | c :: rest =>
    if c.toNat < 0x20 then none
    else (readCodes? rest).map fun (codes, rest) => (c.toNat :: codes, rest)

/-- Joins the two halves of each character that was written in two. -/
def joinHalves : List Nat → List Char
  | high :: low :: rest =>
    if 0xD800 ≤ high ∧ high < 0xDC00 ∧ 0xDC00 ≤ low ∧ low < 0xE000 then
      Char.ofNat (0x10000 + (high - 0xD800) * 0x400 + (low - 0xDC00)) :: joinHalves rest
    else Char.ofNat high :: joinHalves (low :: rest)
  | [code] => [Char.ofNat code]
  | [] => []

def readQuoted? (cs : List Char) : Option (String × List Char) :=
  (readCodes? cs).map fun (codes, rest) => (String.ofList (joinHalves codes), rest)

theorem hexValue?_hexDigit {n : Nat} (h : n < 16) : hexValue? (hexDigit n) = some n := by
  have hall : ∀ k < 16, hexValue? (hexDigit k) = some k := by decide
  exact hall n h

theorem readCodes?_escape (c : Char) (rest : List Char) :
    readCodes? (escape c ++ rest) =
      (readCodes? rest).map fun read => (c.toNat :: read.1, read.2) := by
  unfold escape
  split
  · subst_vars; cases h : readCodes? rest <;> simp [readCodes?, shortEscape?, h]
  next hquote =>
  split
  · subst_vars; cases h : readCodes? rest <;> simp [readCodes?, shortEscape?, h]
  next hslash =>
  iterate 5
    split
    · subst_vars; cases h : readCodes? rest <;> simp [readCodes?, shortEscape?, h]
  split
  · next hc =>
    have hzero : hexValue? '0' = some 0 := rfl
    have hhigh := hexValue?_hexDigit (show c.toNat / 16 < 16 by omega)
    have hlow := hexValue?_hexDigit (show c.toNat % 16 < 16 by omega)
    have hcode : c.toNat / 16 * 16 + c.toNat % 16 = c.toNat := by omega
    cases h : readCodes? rest <;> simp [readCodes?, hexCode?, hzero, hhigh, hlow, hcode, h]
  · next hc =>
    rw [List.cons_append, List.nil_append, readCodes?.eq_def]
    split
    · next heq => exact absurd heq (List.cons_ne_nil c rest)
    · next heq => exact absurd (List.cons.inj heq).1 hquote
    · next heq => exact absurd (List.cons.inj heq).1 hslash
    · next heq => exact absurd (List.cons.inj heq).1 hslash
    · next heq =>
      obtain ⟨rfl, rfl⟩ := List.cons.inj heq
      rw [if_neg hc]

theorem readCodes?_flatMap_escape (cs rest : List Char) :
    readCodes? (cs.flatMap escape ++ '"' :: rest) = some (cs.map Char.toNat, rest) := by
  induction cs with
  | nil => rfl
  | cons c cs ih => simp [List.flatMap_cons, List.append_assoc, readCodes?_escape, ih]

theorem joinHalves_map_toNat (cs : List Char) : joinHalves (cs.map Char.toNat) = cs := by
  induction cs with
  | nil => rfl
  | cons c cs ih =>
    cases cs with
    | nil => simp [joinHalves]
    | cons d cs =>
      have hc := c.valid
      simp only [UInt32.isValidChar, Nat.isValidChar] at hc
      simp only [List.map_cons, joinHalves] at ih ⊢
      rw [if_neg (by simp only [Char.toNat]; omega), ih, Char.ofNat_toNat]

/-- A quoted text is read as that text, whatever follows it. -/
theorem readQuoted?_flatMap_escape (s : String) (rest : List Char) :
    readQuoted? (s.toList.flatMap escape ++ '"' :: rest) = some (s, rest) := by
  simp [readQuoted?, readCodes?_flatMap_escape, joinHalves_map_toNat]

theorem not_control_of_mem_escape {c x : Char} (h : x ∈ escape c) : 0x20 ≤ x.toNat := by
  have hdigit : ∀ k < 16, 0x20 ≤ (hexDigit k).toNat := by decide
  unfold escape at h
  repeat' split at h
  all_goals simp only [List.mem_cons, List.not_mem_nil, or_false] at h
  all_goals try (rcases h with rfl | rfl <;> decide)
  · rcases h with rfl | rfl | rfl | rfl | rfl | rfl
    · decide
    · decide
    · decide
    · decide
    · exact hdigit _ (by omega)
    · exact hdigit _ (by omega)
  · subst h
    omega

end Text
end Scaffold
