import Mathlib.Data.List.Infix
import Scaffold.Proofs.Dialect.Atoms

/-!
What a text that the default dialect writes is read as. A reader takes an atom or a key without
quotes as far as its characters go, and one with quotes up to the closing quote. Between quotes a
sharp before a brace starts an interpolation, and then no fixed text is denoted. The dialect escapes
the quotes and leaves interpolations as they are, and it writes keys without quotes whatever they
are; `read?_write_append_iff` says for which texts the reader still finds the text that was meant.
-/
namespace Scaffold
namespace Dialect
namespace Ecto

def interpolation : List Char := ['#', '\x7b']

/-- The character that a letter after a backslash denotes. A sharp after one starts nothing. -/
def escaped? (c : Char) : Option Char := if c = '#' then some c else Text.shortEscape? c

def numbered? (code : Nat) : Option Char :=
  if code.isValidChar then some (Char.ofNat code) else none

def readBody? : List Char → Option (List Char × List Char)
  | [] => none
  | '"' :: rest => some ([], rest)
  | '\\' :: 'u' :: a :: b :: c :: d :: rest => do
    let char ← numbered? (← Text.hexCode? a b c d)
    let (cs, rest) ← readBody? rest
    return (char :: cs, rest)
  | '\\' :: e :: rest => do
    let char ← escaped? e
    let (cs, rest) ← readBody? rest
    return (char :: cs, rest)
  | '#' :: '\x7b' :: _ => none
  | c :: rest => (readBody? rest).map fun (cs, rest) => (c :: cs, rest)

theorem numbered?_toNat (c : Char) : numbered? c.toNat = some c := by
  have hvalid : c.toNat.isValidChar := c.valid
  rw [numbered?, if_pos hvalid, Char.ofNat_toNat]

/-- The written form of a character is read as that character, unless it is a sharp and what follows
makes it the start of an interpolation. -/
theorem readBody?_escape {c : Char} {rest : List Char} (h : ¬interpolation <+: c :: rest) :
    readBody? (Text.escape c ++ rest) =
      (readBody? rest).map fun (cs, rest) => (c :: cs, rest) := by
  unfold Text.escape
  split
  · subst_vars; cases h : readBody? rest <;> simp [readBody?, escaped?, Text.shortEscape?, h]
  next hquote =>
  split
  · subst_vars; cases h : readBody? rest <;> simp [readBody?, escaped?, Text.shortEscape?, h]
  next hslash =>
  iterate 5
    split
    · subst_vars; cases h : readBody? rest <;> simp [readBody?, escaped?, Text.shortEscape?, h]
  split
  · next hc =>
    have hzero : Text.hexValue? '0' = some 0 := rfl
    have hhigh := Text.hexValue?_hexDigit (show c.toNat / 16 < 16 by omega)
    have hlow := Text.hexValue?_hexDigit (show c.toNat % 16 < 16 by omega)
    have hcode : c.toNat / 16 * 16 + c.toNat % 16 = c.toNat := by omega
    cases h : readBody? rest <;>
      simp [readBody?, Text.hexCode?, hzero, hhigh, hlow, hcode, numbered?_toNat, h]
  · rw [List.cons_append, List.nil_append, readBody?.eq_def]
    split
    · next heq => exact absurd heq (List.cons_ne_nil c rest)
    · next heq => exact absurd (List.cons.inj heq).1 hquote
    · next heq => exact absurd (List.cons.inj heq).1 hslash
    · next heq => exact absurd (List.cons.inj heq).1 hslash
    · next heq => exact absurd (by simp [interpolation, heq]) h
    · next heq =>
      obtain ⟨rfl, rfl⟩ := List.cons.inj heq
      rfl

theorem escape_eq_or (c : Char) :
    Text.escape c = [c] ∨ ∃ more, Text.escape c = '\\' :: more := by
  unfold Text.escape
  repeat' split
  all_goals simp

theorem interpolation_prefix_cons {c : Char} {cs : List Char} :
    interpolation <+: c :: cs ↔ c = '#' ∧ ['\x7b'] <+: cs := by
  rw [interpolation, List.cons_prefix_cons, eq_comm]

theorem brace_prefix_iff (cs rest : List Char) :
    ['\x7b'] <+: cs.flatMap Text.escape ++ '"' :: rest ↔ ['\x7b'] <+: cs := by
  cases cs with
  | nil => simp
  | cons c cs =>
    rw [List.flatMap_cons, List.append_assoc, List.cons_prefix_cons]
    obtain hplain | ⟨more, hescaped⟩ := escape_eq_or c
    · rw [hplain, List.cons_append, List.cons_prefix_cons]
      simp
    · rw [hescaped, List.cons_append, List.cons_prefix_cons]
      constructor
      · rintro ⟨hslash, -⟩
        exact absurd hslash (by decide)
      · rintro ⟨rfl, -⟩
        exact absurd (List.cons.inj hescaped).1 (by decide)

theorem readBody?_flatMap_escape (cs rest : List Char) :
    readBody? (cs.flatMap Text.escape ++ '"' :: rest) =
      if interpolation <:+: cs then none else some (cs, rest) := by
  induction cs with
  | nil => simp [readBody?, interpolation]
  | cons c cs ih =>
    rw [List.flatMap_cons, List.append_assoc]
    by_cases hstarts : interpolation <+: c :: cs
    · rw [if_pos hstarts.isInfix]
      obtain ⟨rfl, hbrace⟩ := interpolation_prefix_cons.1 hstarts
      obtain ⟨more, hmore⟩ := (brace_prefix_iff cs rest).2 hbrace
      rw [← hmore]
      rfl
    · have hwritten : ¬interpolation <+: c :: (cs.flatMap Text.escape ++ '"' :: rest) := by
        rw [interpolation_prefix_cons, brace_prefix_iff, ← interpolation_prefix_cons]
        exact hstarts
      have hinside : interpolation <:+: c :: cs ↔ interpolation <:+: cs := by
        rw [List.infix_cons_iff]
        exact or_iff_right hstarts
      rw [readBody?_escape hwritten, ih]
      by_cases h : interpolation <:+: cs
      · rw [if_pos h, if_pos (hinside.2 h)]
        rfl
      · rw [if_neg h, if_neg (mt hinside.1 h)]
        rfl

theorem length_lt_of_readBody? {input cs rest : List Char} (h : readBody? input = some (cs, rest)) :
    cs.length + rest.length < input.length := by
  fun_induction readBody? input generalizing cs rest with
  | case1 => cases h
  | case2 others =>
    obtain ⟨rfl, rfl⟩ := Prod.mk.inj (Option.some.inj h)
    simp
  | case3 a b c d others ih =>
    simp only [Option.bind_eq_bind, Option.bind_eq_some_iff, Option.pure_def, Option.some.injEq,
      Prod.mk.injEq, Prod.exists] at h
    obtain ⟨_, -, _, -, _, _, hread, rfl, rfl⟩ := h
    have hshorter := ih hread
    simp only [List.length_cons]
    omega
  | case4 e others _ ih =>
    simp only [Option.bind_eq_bind, Option.bind_eq_some_iff, Option.pure_def, Option.some.injEq,
      Prod.mk.injEq, Prod.exists] at h
    obtain ⟨_, -, _, _, hread, rfl, rfl⟩ := h
    have hshorter := ih hread
    simp only [List.length_cons]
    omega
  | case5 => cases h
  | case6 c others _ _ _ _ ih =>
    simp only [Option.map_eq_some_iff, Prod.mk.injEq, Prod.exists] at h
    obtain ⟨_, _, hread, rfl, rfl⟩ := h
    have hshorter := ih hread
    simp only [List.length_cons]
    omega

/-- Reads on in a bare name: letters, digits and underscores as far as they go, and a mark. -/
def readBareEnd : List Char → List Char × List Char
  | [] => ([], [])
  | c :: rest =>
    if isAtomChar c then (c :: (readBareEnd rest).1, (readBareEnd rest).2)
    else if c = '?' ∨ c = '!' then ([c], rest)
    else ([], c :: rest)

def readName? : List Char → Option (List Char × List Char)
  | [] => none
  | c :: rest =>
    if c = '"' then readBody? rest
    else if isAtomStart c then some (c :: (readBareEnd rest).1, (readBareEnd rest).2)
    else none

/-- What follows a bare name does not go on with it. -/
def Stops (rest : List Char) : Prop := ∀ c ∈ rest.head?, isBareChar c = false

theorem stops_nil : Stops [] := by simp [Stops]

theorem stops_cons_iff {c : Char} {rest : List Char} :
    Stops (c :: rest) ↔ isBareChar c = false := by simp [Stops]

theorem Stops.append {cs rest : List Char} (hcs : Stops cs) (hrest : Stops rest) :
    Stops (cs ++ rest) := by
  cases cs with
  | nil => exact hrest
  | cons c cs => exact stops_cons_iff.2 (stops_cons_iff.1 hcs)

theorem readBareEnd_of_stops {rest : List Char} (h : Stops rest) : readBareEnd rest = ([], rest) := by
  cases rest with
  | nil => rfl
  | cons c rest =>
    have hother := stops_cons_iff.1 h
    simp only [isBareChar, Bool.or_eq_false_iff, beq_eq_false_iff_ne] at hother
    simp [readBareEnd, hother]

theorem readBareEnd_append {cs rest : List Char} (hend : isAtomEnd cs = true) (hrest : Stops rest) :
    readBareEnd (cs ++ rest) = (cs, rest) := by
  induction cs with
  | nil => exact readBareEnd_of_stops hrest
  | cons c cs ih =>
    cases cs with
    | nil =>
      simp only [isAtomEnd, Bool.or_eq_true, beq_iff_eq] at hend
      by_cases hc : isAtomChar c = true
      · simp [readBareEnd, hc, readBareEnd_of_stops hrest]
      · have hmark : c = '?' ∨ c = '!' := (or_assoc.1 hend).resolve_left hc
        simp [readBareEnd, hc, hmark]
    | cons d cs =>
      rw [isAtomEnd, Bool.and_eq_true] at hend
      · have htail := ih hend.2
        simp only [List.cons_append] at htail ⊢
        rw [readBareEnd, if_pos hend.1, htail]
      · simp

theorem isAtomEnd_readBareEnd (cs : List Char) : isAtomEnd (readBareEnd cs).1 = true := by
  induction cs with
  | nil => rfl
  | cons c cs ih =>
    rw [readBareEnd]
    split
    · next hc =>
      cases hrest : (readBareEnd cs).1 with
      | nil => simp [isAtomEnd, hc]
      | cons d more =>
        rw [hrest] at ih
        simp [isAtomEnd, hc, ih]
    · split
      · next hc => rcases hc with rfl | rfl <;> rfl
      · rfl

theorem readName?_bare {cs rest : List Char} (hbare : isBareAtom cs = true) (hrest : Stops rest) :
    readName? (cs ++ rest) = some (cs, rest) := by
  cases cs with
  | nil => cases hbare
  | cons c cs =>
    rw [isBareAtom, Bool.and_eq_true] at hbare
    have hquote : c ≠ '"' := by
      rintro rfl
      exact absurd hbare.1 (by decide)
    rw [List.cons_append, readName?, if_neg hquote, if_pos hbare.1,
      readBareEnd_append hbare.2 hrest]

theorem readName?_quoteChars (cs rest : List Char) :
    readName? (Text.quoteChars cs ++ rest) =
      if interpolation <:+: cs then none else some (cs, rest) := by
  rw [← readBody?_flatMap_escape cs rest, Text.quoteChars]
  simp [readName?]

theorem isBareAtom_or_of_readName? {input cs rest : List Char}
    (h : readName? input = some (cs, rest)) :
    isBareAtom cs = true ∨ cs.length + rest.length + 1 < input.length := by
  cases input with
  | nil => cases h
  | cons c input =>
    rw [readName?] at h
    split at h
    · have hshorter := length_lt_of_readBody? h
      rw [List.length_cons]
      exact .inr (by omega)
    · split at h
      · next hstart =>
        obtain ⟨rfl, rfl⟩ := Prod.mk.inj (Option.some.inj h)
        refine .inl ?_
        rw [isBareAtom, hstart, isAtomEnd_readBareEnd]
        rfl
      · cases h

theorem not_interpolation_infix_of_isBareAtom {cs : List Char} (h : isBareAtom cs = true) :
    ¬interpolation <:+: cs := by
  intro hinside
  have hsharp : '#' ∈ cs := hinside.subset (by simp [interpolation])
  exact absurd (isBareChar_of_isBareAtom h '#' hsharp) (by decide)

inductive Literal where
  | atom
  | string
  | key
  deriving DecidableEq, Repr

namespace Literal

/-- A text as the dialect writes it. A key has its colon and a blank after it. -/
def write : Literal → String → String
  | .atom, value => Ecto.atom value
  | .string, value => Text.quote value
  | .key, value => value ++ ": "

/-- Reads a literal at the start of a text, and gives what it denotes and what follows it. -/
def read? : Literal → List Char → Option (List Char × List Char)
  | .atom, ':' :: rest => readName? rest
  | .string, '"' :: rest => readBody? rest
  | .key, input =>
    match readName? input with
    | some (name, ':' :: ' ' :: rest) => some (name, rest)
    | _ => none
  | _, _ => none

/-- The texts that are read back. -/
def Keeps : Literal → String → Prop
  | .atom, value | .string, value => ¬interpolation <:+: value.toList
  | .key, value => isBareAtom value.toList = true

variable {value : String} {rest : List Char}

theorem read?_atom_append (hrest : Stops rest) :
    atom.read? ((atom.write value).toList ++ rest) =
      if interpolation <:+: value.toList then none else some (value.toList, rest) := by
  rw [write, atom_toList, List.cons_append, read?]
  split
  next hbare =>
    rw [readName?_bare hbare hrest, if_neg (not_interpolation_infix_of_isBareAtom hbare)]
  · exact readName?_quoteChars value.toList rest

theorem read?_string_append (value : String) (rest : List Char) :
    string.read? ((string.write value).toList ++ rest) =
      if interpolation <:+: value.toList then none else some (value.toList, rest) := by
  rw [← readBody?_flatMap_escape value.toList rest, write, Text.quote_toList, Text.quoteChars]
  simp [read?]

theorem read?_key_append_iff (value : String) (rest : List Char) :
    key.read? ((key.write value).toList ++ rest) = some (value.toList, rest) ↔
      isBareAtom value.toList = true := by
  have hinput : (key.write value).toList ++ rest = value.toList ++ ':' :: ' ' :: rest := by
    simp [write]
  rw [hinput]
  constructor
  · intro h
    simp only [read?] at h
    split at h
    next name others hname =>
      obtain ⟨rfl, rfl⟩ := Prod.mk.inj (Option.some.inj h)
      refine (isBareAtom_or_of_readName? hname).resolve_right ?_
      simp only [List.length_append, List.length_cons]
      omega
    · cases h
  · intro hbare
    have hstop : Stops (':' :: ' ' :: rest) := stops_cons_iff.2 (by decide)
    simp only [read?, readName?_bare hbare hstop]

/-- A text is read back from what is written for it, and what follows it is left as it is, exactly
if it has no interpolation or, for a key, if it needs no quotes. -/
theorem read?_write_append_iff (literal : Literal) (value : String) (hrest : Stops rest) :
    literal.read? ((literal.write value).toList ++ rest) = some (value.toList, rest) ↔
      literal.Keeps value := by
  cases literal with
  | atom =>
    rw [read?_atom_append hrest, Keeps]
    simp
  | string =>
    rw [read?_string_append, Keeps]
    simp
  | key => exact read?_key_append_iff value rest

example : key.read? "\"post id\": :id]".toList = some ("post id".toList, ":id]".toList) ∧
    atom.read? ":\"\\#\x7bn\x7d\"]".toList = some ("#\x7bn\x7d".toList, "]".toList) := by
  decide

end Literal
end Ecto
end Dialect
end Scaffold
