import Scaffold.Proofs.Naming.Emptiness
import Scaffold.Proofs.Naming.Words

/-!
Names as lists of words. The words of a text are what stands between its underscores, empty words
included, and joined again they are the text. A text ends with a name as a whole word, or as whole
words, exactly if the words of the name are the last words of the text, so that an alias can be said
word by word (`associationName_eq_words`).
-/
namespace Scaffold
namespace Naming

variable {text name column base : String}

/-- The words of a text, with underscores between them. -/
def wordsOf (text : String) : List String := (text.toList.splitOn '_').map String.ofList

theorem wordsOf_ne_nil (text : String) : wordsOf text ≠ [] := by
  simp [wordsOf, List.splitOn_ne_nil]

theorem intercalate_wordsOf (text : String) : separator.intercalate (wordsOf text) = text := by
  have hwords : (wordsOf text).map String.toList = text.toList.splitOn '_' := by
    simp [wordsOf, Function.comp_def]
  rw [← String.toList_inj, String.toList_intercalate, hwords]
  exact List.intercalate_splitOn '_'

theorem wordsOf_append (before text : String) :
    wordsOf (before ++ separator ++ text) = wordsOf before ++ wordsOf text := by
  have hchars : (before ++ separator ++ text).toList = before.toList ++ '_' :: text.toList := by
    simp [separator, String.append_assoc]
  rw [wordsOf, hchars, List.splitOn_append_cons_self, List.map_append]
  rfl

theorem eq_or_eq_append_of_wordsOf {words : List String}
    (h : words ++ wordsOf name = wordsOf text) :
    text = name ∨ ∃ before, text = before ++ separator ++ name := by
  have htext := congrArg separator.intercalate h
  rw [intercalate_wordsOf text] at htext
  cases words with
  | nil => exact .inl (htext.symm.trans (intercalate_wordsOf name))
  | cons word words =>
    rw [String.intercalate_append_of_ne_nil (List.cons_ne_nil word words) (wordsOf_ne_nil name),
      intercalate_wordsOf] at htext
    exact .inr ⟨_, htext.symm⟩

theorem endsWithName_iff_suffix :
    endsWithName text name = true ↔ wordsOf name <:+ wordsOf text := by
  rw [endsWithName_iff]
  constructor
  · rintro (rfl | ⟨before, rfl⟩)
    · exact List.suffix_rfl
    · rw [wordsOf_append]
      exact List.suffix_append _ _
  · rintro ⟨words, hwords⟩
    exact eq_or_eq_append_of_wordsOf hwords

/-- The words of a column, without an `id` that stands after others. -/
def phraseWords (column : String) : List String :=
  if 2 ≤ (wordsOf column).length ∧ (wordsOf column).getLast? = some "id" then
    (wordsOf column).dropLast
  else wordsOf column

theorem stripKeySuffix_append (stem : String) : stripKeySuffix (stem ++ keySuffix) = stem := by
  have hsuffix : keySuffix.toList.isSuffixOf (stem ++ keySuffix).toList = true := by
    simp [List.isSuffixOf_iff_suffix]
  rw [stripKeySuffix, dropEnding, if_pos hsuffix]
  simp

theorem wordsOf_append_keySuffix (stem : String) :
    wordsOf (stem ++ keySuffix) = wordsOf stem ++ ["id"] := by
  have hsuffix : stem ++ keySuffix = stem ++ separator ++ "id" := by
    rw [String.append_assoc]
    rfl
  rw [hsuffix, wordsOf_append]
  rfl

theorem exists_eq_append_keySuffix_iff :
    (∃ stem, column = stem ++ keySuffix) ↔
      2 ≤ (wordsOf column).length ∧ (wordsOf column).getLast? = some "id" := by
  constructor
  · rintro ⟨stem, rfl⟩
    have hpos := List.length_pos_iff.2 (wordsOf_ne_nil stem)
    rw [wordsOf_append_keySuffix, List.length_append, List.length_singleton]
    exact ⟨by omega, List.getLast?_concat⟩
  · rintro ⟨htwo, hlast⟩
    obtain ⟨words, hwords⟩ := List.getLast?_eq_some_iff.1 hlast
    have hid : words ++ wordsOf "id" = wordsOf column := hwords.symm
    rcases eq_or_eq_append_of_wordsOf hid with rfl | ⟨stem, rfl⟩
    · exact absurd htwo (by decide)
    · refine ⟨stem, ?_⟩
      rw [String.append_assoc]
      rfl

theorem wordsOf_stripKeySuffix (column : String) :
    wordsOf (stripKeySuffix column) = phraseWords column := by
  by_cases hsuffix : ∃ stem, column = stem ++ keySuffix
  · rw [phraseWords, if_pos (exists_eq_append_keySuffix_iff.1 hsuffix)]
    obtain ⟨stem, rfl⟩ := hsuffix
    rw [stripKeySuffix_append, wordsOf_append_keySuffix, List.dropLast_concat]
  · rw [phraseWords, if_neg (mt exists_eq_append_keySuffix_iff.2 hsuffix)]
    rcases eq_or_eq_append_of_stripKeySuffix column with hsame | happend
    · rw [← hsame]
    · exact absurd ⟨_, happend⟩ hsuffix

/-- A text that goes on to the left of a name inside a word does not end with it. -/
theorem not_endsWithName_push {letter : Char} (hletter : letter ≠ '_') (before name : String) :
    ¬endsWithName (before.push letter ++ name) name = true := by
  rw [endsWithName_iff]
  rintro (hsame | ⟨stem, hstem⟩)
  · have hlength := congrArg String.length hsame
    simp at hlength
  · have hchars := congrArg String.toList hstem
    simp only [String.toList_append] at hchars
    have hlast := congrArg List.getLast? (List.append_cancel_right hchars)
    simp [separator] at hlast
    exact hletter hlast

/-- The alias that a column gives to an association is the plural of the words of the column,
without the `id` of keys. If these do not end with the words of the singular of the base, the words
of the base follow them. That the column ends with the singular inside a word does not count. -/
theorem associationName_eq_words (column base : String) :
    associationName column base =
      Inflection.plural (separator.intercalate
        (if wordsOf (Inflection.singular base) <:+ phraseWords column then phraseWords column
          else phraseWords column ++ wordsOf base)) ∧
    ∀ (before : String) (letter : Char), letter ≠ '_' →
      stripKeySuffix column = before.push letter ++ Inflection.singular base →
      associationName column base =
        Inflection.plural (separator.intercalate (phraseWords column ++ wordsOf base)) := by
  have hjoined : separator.intercalate (phraseWords column ++ wordsOf base) =
      stripKeySuffix column ++ separator ++ base := by
    rw [← wordsOf_stripKeySuffix, ← wordsOf_append, intercalate_wordsOf]
  constructor
  · rw [associationName]
    by_cases hends : endsWithName (stripKeySuffix column) (Inflection.singular base) = true
    · have hsuffix := endsWithName_iff_suffix.1 hends
      rw [wordsOf_stripKeySuffix] at hsuffix
      rw [if_pos hends, if_pos hsuffix, ← wordsOf_stripKeySuffix, intercalate_wordsOf]
    · have hsuffix := mt endsWithName_iff_suffix.2 hends
      rw [wordsOf_stripKeySuffix] at hsuffix
      rw [if_neg hends, if_neg hsuffix, hjoined]
  · intro before letter hletter hstem
    have hends := not_endsWithName_push hletter before (Inflection.singular base)
    rw [← hstem] at hends
    rw [associationName, if_neg hends, hjoined]

theorem associationName_eq_words_blog_posts :
    ('o' ≠ '_' ∧
      stripKeySuffix "microblog_post_id" = "micr".push 'o' ++ Inflection.singular "blog_posts" ∧
      associationName "microblog_post_id" "blog_posts" =
        Inflection.plural (separator.intercalate ["microblog", "post", "blog", "posts"])) ∧
    associationName "first_blog_post_id" "blog_posts" =
      Inflection.plural (separator.intercalate ["first", "blog", "post"]) := by
  have hsingular : Inflection.singular "blog_posts" = "blog_post" := by decide +kernel
  have hletter : 'o' ≠ '_' := by decide
  have hstem : stripKeySuffix "microblog_post_id" = "micr".push 'o' ++ "blog_post" := by decide
  have hinside : phraseWords "microblog_post_id" ++ wordsOf "blog_posts" =
      ["microblog", "post", "blog", "posts"] := by decide
  have hwhole : phraseWords "first_blog_post_id" = ["first", "blog", "post"] := by decide
  have hsuffix : wordsOf "blog_post" <:+ ["first", "blog", "post"] := by decide
  have hmicroblog :=
    (associationName_eq_words "microblog_post_id" "blog_posts").2 "micr" 'o' hletter
  have hfirst := (associationName_eq_words "first_blog_post_id" "blog_posts").1
  rw [hsingular] at hmicroblog hfirst ⊢
  rw [hwhole, if_pos hsuffix] at hfirst
  rw [hinside] at hmicroblog
  exact ⟨⟨hletter, hstem, hmicroblog hstem⟩, hfirst⟩

end Naming
end Scaffold
