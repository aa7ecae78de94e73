import Scaffold.Proofs.Inflection.Words

/-!
How far inflection reaches back. A rule reads letters up to the end of a text, and before them at
most one character that its lead takes. No letter of a rule is an underscore, so only this character
can be one, and then it is the last in the text and what the rule writes starts with it as well. So a
text stays as it is up to its last underscore (`plural_append`, `singular_append`).
-/
namespace Scaffold
namespace Text

theorem inCaseOf_underscore_cons (model word : List Char) :
    ∃ rest, inCaseOf ('_' :: model) ('_' :: word) = '_' :: rest := by
  have hlower : lower ('_' :: word) = '_' :: lower word := rfl
  have hupper : upper ('_' :: word) = '_' :: upper word := rfl
  have htitled : titled ('_' :: word) = '_' :: lower word := rfl
  rw [inCaseOf, hlower, hupper, htitled]
  repeat' split
  all_goals exact ⟨_, rfl⟩

end Text

namespace Inflection

variable {rule : Rule} {before last inflected : List Char}

/-- A rule keeps, drops and adds no underscores, but for one that a lead takes. -/
structure Rule.StaysInWord (rule : Rule) : Prop where
  keepsWords : rule.keepsWords = true
  stems : ∀ stem ∈ rule.stems, '_' ∉ stem.letters

/-- All rules of a direction are such, and no word that it knows has an underscore. -/
structure Direction.StaysInWord (direction : Direction) : Prop extends direction.KeepsWords where
  settled : ∀ word ∈ direction.settled, '_' ∉ word.toList
  stems : ∀ rule ∈ direction.rules, ∀ stem ∈ rule.stems, '_' ∉ stem.letters

theorem staysInWord_toPlural : toPlural.StaysInWord :=
  ⟨keepsWords_toPlural, by decide, by decide⟩

theorem staysInWord_toSingular : toSingular.StaysInWord :=
  ⟨keepsWords_toSingular, by decide, by decide⟩

theorem Stem.underscore_notMem_tail {stem : Stem} {previous : Option Char}
    {text taken rest : List Char} (h : stem.take? previous text = some (taken, rest))
    (hletters : '_' ∉ stem.letters) : '_' ∉ taken.tail := by
  obtain ⟨first, middle, letters, hfirst, htaken, rfl⟩ := Stem.exists_of_take? h
  have hnone : '_' ∉ letters := underscore_notMem_of_takeLetters? htaken hletters
  rcases Lead.eq_of_take? hfirst with ⟨rfl, -⟩ | ⟨c, rfl, -⟩
  · exact fun hmem => hnone (List.mem_of_mem_tail hmem)
  · exact hnone

/-- Of what a rule reads, only the first character can be an underscore, and then the rule keeps
it. -/
theorem Rule.underscore_notMem_of_cut? (hrule : rule.StaysInWord) {previous : Option Char}
    {text : List Char} {cut : Cut} (h : rule.cut? previous text = some cut) :
    '_' ∉ cut.kept.tail ∧ '_' ∉ cut.dropped := by
  obtain ⟨stem, hstem, letters, hletters, _, _, _, hkept, hdropped⟩ := Rule.exists_of_cut? h
  have hkeeps := (Rule.keepsWords_iff.1 hrule.keepsWords).2
  exact ⟨Stem.underscore_notMem_tail hkept (hrule.stems stem hstem),
    underscore_notMem_of_takeLetters? hdropped (hkeeps letters hletters)⟩

theorem Rule.exists_inflected_of_read (hrule : rule.StaysInWord) {previous : Option Char}
    {text : List Char} {cut : Cut} (h : rule.cut? previous text = some cut)
    (hread : cut.kept ++ cut.dropped = '_' :: last) :
    ∃ rest, Text.inCaseOf cut.model (cut.kept ++ rule.added) = '_' :: rest := by
  have hdropped := (Rule.underscore_notMem_of_cut? hrule h).2
  rw [Cut.model, hread]
  cases hkept : cut.kept with
  | nil =>
    rw [hkept, List.nil_append] at hread
    rw [hread] at hdropped
    exact absurd List.mem_cons_self hdropped
  | cons c kept =>
    rw [hkept, List.cons_append] at hread
    obtain rfl : c = '_' := (List.cons.inj hread).1
    exact Text.inCaseOf_underscore_cons last (kept ++ rule.added)

theorem Rule.eq_nil_of_read (hrule : rule.StaysInWord) {previous : Option Char}
    {text read : List Char} {cut : Cut} (h : rule.cut? previous text = some cut)
    (hread : cut.kept ++ cut.dropped = read ++ '_' :: last) : read = [] := by
  obtain ⟨hkept, hdropped⟩ := Rule.underscore_notMem_of_cut? hrule h
  cases read with
  | nil => rfl
  | cons c read =>
    have hmem : '_' ∈ (cut.kept ++ cut.dropped).tail := by simp [hread]
    cases hk : cut.kept with
    | nil =>
      rw [hk, List.nil_append] at hmem
      exact absurd (List.mem_of_mem_tail hmem) hdropped
    | cons k kept =>
      rw [hk, List.tail_cons] at hkept
      rw [hk, List.cons_append, List.tail_cons, List.mem_append] at hmem
      exact absurd hmem (not_or.2 ⟨hkept, hdropped⟩)

/-- What a rule leaves alone goes on after the underscore, or ends at it and the rule reads it. -/
theorem Rule.prefix_of_inflect? (hrule : rule.StaysInWord)
    (h : rule.inflect? (before ++ '_' :: last) = some inflected) :
    before ++ ['_'] <+: inflected := by
  obtain ⟨cut, hcut, rfl⟩ := Option.map_eq_some_iff.1 h
  have hwhole := Rule.whole_of_cut? hcut
  rw [Cut.whole, List.append_assoc] at hwhole
  have hreads : before = cut.before → cut.kept ++ cut.dropped = '_' :: last →
      before ++ ['_'] <+: cut.before ++ Text.inCaseOf cut.model (cut.kept ++ rule.added) := by
    rintro rfl hread
    obtain ⟨rest, hrest⟩ := Rule.exists_inflected_of_read hrule hcut hread
    rw [hrest]
    exact ⟨rest, by simp⟩
  rcases List.append_eq_append_iff.1 hwhole with ⟨read, hbefore, hread⟩ | ⟨rest, hbefore, hrest⟩
  · obtain rfl := Rule.eq_nil_of_read hrule hcut hread
    exact hreads (by simpa using hbefore) hread
  · cases rest with
    | nil => exact hreads (by simpa using hbefore.symm) hrest.symm
    | cons c rest =>
      obtain rfl : '_' = c := (List.cons.inj hrest).1
      rw [hbefore]
      exact ⟨rest ++ Text.inCaseOf cut.model (cut.kept ++ rule.added), by simp⟩

/-- Words of a direction have no underscore, so a text with one is inflected by a rule or not at
all. -/
theorem Direction.prefix_chars {direction : Direction} (h : direction.StaysInWord)
    (before last : List Char) :
    before ++ ['_'] <+: direction.chars (before ++ '_' :: last) := by
  have hunderscore : '_' ∈ Text.lower (before ++ '_' :: last) := by
    rw [← List.count_pos_iff, Text.count_lower, List.count_pos_iff]
    simp
  simp only [Direction.chars]
  split
  · next hword =>
    have hnone := h.settled _ (List.contains_iff_mem.1 hword)
    rw [String.toList_ofList] at hnone
    exact absurd hunderscore hnone
  · split
    · next other hother =>
      have hnone := (h.exchanged _ (Direction.mem_of_exchange? hother)).1
      rw [String.toList_ofList] at hnone
      exact absurd hunderscore hnone
    · split
      · exact ⟨last, by simp⟩
      · cases hfound : direction.rules.findSome? (·.inflect? (before ++ '_' :: last)) with
        | none => exact ⟨last, by simp⟩
        | some inflected =>
          obtain ⟨rule, hrule, hinflected⟩ := List.exists_of_findSome?_eq_some hfound
          exact Rule.prefix_of_inflect? ⟨h.rules rule hrule, h.stems rule hrule⟩ hinflected

theorem Direction.exists_append {direction : Direction} (h : direction.StaysInWord)
    (before last : String) :
    ∃ inflected, String.ofList (direction.chars (before ++ "_" ++ last).toList) =
      before ++ "_" ++ inflected := by
  have hchars : (before ++ "_" ++ last).toList = before.toList ++ '_' :: last.toList := by
    simp [String.append_assoc]
  obtain ⟨rest, hrest⟩ := Direction.prefix_chars h before.toList last.toList
  refine ⟨String.ofList rest, ?_⟩
  rw [← String.toList_inj, hchars, ← hrest]
  simp [String.append_assoc]

/-- A plural starts with the text up to the last underscore, or any underscore before. -/
theorem plural_append (before last : String) :
    ∃ inflected, plural (before ++ "_" ++ last) = before ++ "_" ++ inflected :=
  Direction.exists_append staysInWord_toPlural before last

theorem singular_append (before last : String) :
    ∃ inflected, singular (before ++ "_" ++ last) = before ++ "_" ++ inflected :=
  Direction.exists_append staysInWord_toSingular before last

end Inflection
end Scaffold
