import Scaffold.Naming
import Scaffold.Proofs.Config.Grammar

/-!
Names of modules. The name of a table's module is made of the words of its singular: the empty ones
are dropped, and the others, each with a capital, are put together. If the singular is in snake case,
this is a part that a module path can have, also where a word starts with a digit.
-/
namespace Scaffold
namespace Naming

variable {c : Char} {cs word : List Char}

/-- A lower-case letter, then lower-case letters, digits and underscores, all of ASCII. Underscores
may stand next to each other and at the end. -/
inductive IsSnakeCase : List Char → Prop
  | intro {c : Char} {rest : List Char} (first : c.isLower = true)
      (others : ∀ d ∈ rest, d.isLower = true ∨ d.isDigit = true ∨ d = '_') :
      IsSnakeCase (c :: rest)

theorem isSnakeCase_cons_iff {c : Char} {rest : List Char} : IsSnakeCase (c :: rest) ↔
    c.isLower = true ∧ ∀ d ∈ rest, d.isLower = true ∨ d.isDigit = true ∨ d = '_' :=
  ⟨fun ⟨first, others⟩ => ⟨first, others⟩, fun ⟨first, others⟩ => ⟨first, others⟩⟩

instance : DecidablePred IsSnakeCase
  | [] => isFalse nofun
  | c :: rest =>
    decidable_of_iff
      (c.isLower = true ∧ rest.all (fun d => d.isLower || d.isDigit || d == '_') = true)
      (by simp [isSnakeCase_cons_iff, or_assoc])

def IsLowerWord (word : List Char) : Prop := ∀ d ∈ word, d.isLower = true ∨ d.isDigit = true

theorem words_eq_splitOn (cs : List Char) : words cs = cs.splitOn '_' := by
  induction cs with
  | nil => rfl
  | cons c cs ih =>
    obtain ⟨first, rest, hsplit⟩ := List.exists_cons_of_ne_nil (List.splitOn_ne_nil '_' cs)
    rw [words, ih, List.splitOn_cons_eq_if_modifyHead, hsplit]
    by_cases hc : c = '_' <;> simp [hc]

theorem mem_of_mem_splitOn {separator : Char} (hword : word ∈ cs.splitOn separator)
    (hc : c ∈ word) : c ∈ cs ∧ c ≠ separator := by
  induction cs generalizing word with
  | nil => simp_all
  | cons d cs ih =>
    obtain ⟨first, rest, hsplit⟩ := List.exists_cons_of_ne_nil (List.splitOn_ne_nil separator cs)
    rw [List.splitOn_cons_eq_if_modifyHead, hsplit] at hword
    rw [hsplit] at ih
    by_cases hd : d = separator
    · simp only [hd, beq_self_eq_true, if_true, List.mem_cons] at hword
      rcases hword with rfl | hword
      · simp at hc
      · have hmem := ih (List.mem_cons.2 hword) hc
        exact ⟨List.mem_cons_of_mem d hmem.1, hmem.2⟩
    · simp only [beq_iff_eq, hd, if_false, List.modifyHead_cons, List.mem_cons] at hword
      rcases hword with rfl | hword
      · rcases List.mem_cons.1 hc with rfl | hc
        · exact ⟨List.mem_cons_self, hd⟩
        · have hmem := ih List.mem_cons_self hc
          exact ⟨List.mem_cons_of_mem d hmem.1, hmem.2⟩
      · have hmem := ih (List.mem_cons_of_mem first hword) hc
        exact ⟨List.mem_cons_of_mem d hmem.1, hmem.2⟩

theorem IsSnakeCase.isLowerWord (h : IsSnakeCase cs) (hword : word ∈ cs.splitOn '_') :
    IsLowerWord word := by
  intro d hd
  obtain ⟨hmem, hne⟩ := mem_of_mem_splitOn hword hd
  obtain ⟨first, others⟩ := h
  rcases List.mem_cons.1 hmem with rfl | hmem
  · exact .inl first
  · rcases others d hmem with hlower | hdigit | hsame
    · exact .inl hlower
    · exact .inr hdigit
    · exact absurd hsame hne

/-- The words that are not empty, each with its first character in upper case. -/
theorem moduleName_toList (table : String) :
    (moduleName table).toList =
      (((Inflection.singular table).toList.splitOn '_').filter (· ≠ [])).flatMap
        Text.capitalize := by
  rw [moduleName, String.toList_ofList, words_eq_splitOn]
  induction (Inflection.singular table).toList.splitOn '_' with
  | nil => rfl
  | cons word rest ih => cases word <;> simp_all [Text.capitalize]

theorem toNat_lt_of_isLower_or (h : c.isLower = true ∨ c.isDigit = true) : c.toNat < 0x80 := by
  have hlower : c.isLower = decide (97 ≤ c.toNat ∧ c.toNat ≤ 122) := (Bool.decide_and ..).symm
  have hdigit : c.isDigit = decide (48 ≤ c.toNat ∧ c.toNat ≤ 57) := (Bool.decide_and ..).symm
  rw [hlower, hdigit, decide_eq_true_iff, decide_eq_true_iff] at h
  omega

theorem toUpper_of_isLower_or (h : c.isLower = true ∨ c.isDigit = true) :
    (c.isLower = true → c.toUpper.isUpper = true) ∧ c.toUpper.isAlphanum = true := by
  have hcodes : ∀ code < 0x80,
      (Char.ofNat code).isLower = true ∨ (Char.ofNat code).isDigit = true →
        ((Char.ofNat code).isLower = true → (Char.ofNat code).toUpper.isUpper = true) ∧
          (Char.ofNat code).toUpper.isAlphanum = true := by
    decide +kernel
  have hc := hcodes c.toNat (toNat_lt_of_isLower_or h)
  rw [Char.ofNat_toNat] at hc
  exact hc h

theorem IsLowerWord.capitalize_eq (h : IsLowerWord word) :
    Text.capitalize word = word.modifyHead Char.toUpper := by
  cases word with
  | nil => rfl
  | cons c cs =>
    rw [Text.capitalize, Text.upperChar, if_pos (toNat_lt_of_isLower_or (h c List.mem_cons_self))]
    rfl

theorem IsLowerWord.isAlphanum (h : IsLowerWord word) :
    ∀ d ∈ word.modifyHead Char.toUpper, d.isAlphanum = true := by
  cases word with
  | nil => simp
  | cons c cs =>
    rw [List.modifyHead_cons, List.forall_mem_cons]
    refine ⟨(toUpper_of_isLower_or (h c List.mem_cons_self)).2, ?_⟩
    intro d hd
    rcases h d (List.mem_cons_of_mem c hd) with hlower | hdigit
    · have halpha : d.isAlpha = true := (congrArg (d.isUpper || ·) hlower).trans (Bool.or_true _)
      simp [Char.isAlphanum, halpha]
    · simp [Char.isAlphanum, hdigit]

/-- The first word has the letter that the text starts with, so what the words make starts with a
capital, whatever the other words start with. -/
theorem IsSnakeCase.isPart (h : IsSnakeCase cs) :
    Config.IsPart (((cs.splitOn '_').filter (· ≠ [])).flatMap (·.modifyHead Char.toUpper)) := by
  have hletters : ∀ d ∈ ((cs.splitOn '_').filter (· ≠ [])).flatMap (·.modifyHead Char.toUpper),
      d.isAlphanum = true := by
    intro d hd
    obtain ⟨word, hword, hd⟩ := List.mem_flatMap.1 hd
    exact (h.isLowerWord (List.mem_filter.1 hword).1).isAlphanum d hd
  obtain @⟨c, cs, first, others⟩ := h
  have hc : c ≠ '_' := by
    rintro rfl
    exact absurd first (by decide)
  obtain ⟨word, rest, hsplit⟩ := List.exists_cons_of_ne_nil (List.splitOn_ne_nil '_' cs)
  have hcut : (c :: cs).splitOn '_' = (c :: word) :: rest := by
    simp [List.splitOn_cons_eq_if_modifyHead, hc, hsplit]
  rw [hcut, List.filter_cons_of_pos (by simp), List.flatMap_cons, List.modifyHead_cons,
    List.cons_append] at hletters ⊢
  exact ⟨(toUpper_of_isLower_or (.inl first)).1 first, (List.forall_mem_cons.1 hletters).2⟩

theorem moduleName_of_isSnakeCase {table : String}
    (h : IsSnakeCase (Inflection.singular table).toList) :
    (moduleName table).toList =
      (((Inflection.singular table).toList.splitOn '_').filter (· ≠ [])).flatMap
        (·.modifyHead Char.toUpper) := by
  rw [moduleName_toList]
  apply List.flatMap_congr
  intro word hword
  exact (h.isLowerWord (List.mem_filter.1 hword).1).capitalize_eq

theorem isPart_moduleName {table : String}
    (h : IsSnakeCase (Inflection.singular table).toList) :
    Config.IsPart (moduleName table).toList := by
  rw [moduleName_of_isSnakeCase h]
  exact h.isPart

end Naming
end Scaffold
