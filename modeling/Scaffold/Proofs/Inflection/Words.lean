import Scaffold.Proofs.Inflection.Emptiness

/-!
The words of a name, which have underscores between them, through inflection. No character but the
underscore has an underscore as its partner, no rule drops or adds one and no irregular word has
one, so that a text has as many words as its plural and as its singular.
-/
namespace Scaffold
namespace Text

theorem eq_underscore_of_toLower {c : Char} (h : c.toLower = '_') : c = '_' := by
  by_cases hupper : c.val ≥ 'A'.val ∧ c.val ≤ 'Z'.val
  · have hlower : c.toLower.val = c.val + ('a'.val - 'A'.val) := congrArg Char.val (dif_pos hupper)
    have hcode : c.val = '_'.val - ('a'.val - 'A'.val) := by
      rw [← h, hlower, UInt32.add_sub_cancel]
    rw [hcode] at hupper
    exact absurd hupper (by decide)
  · have hlower : c.toLower = c := dif_neg hupper
    rw [← h, hlower]

theorem eq_underscore_of_toUpper {c : Char} (hascii : c.toNat < 0x80) (h : c.toUpper = '_') :
    c = '_' := by
  have hcodes : ∀ code < 0x80, (Char.ofNat code).toUpper = '_' → Char.ofNat code = '_' := by
    decide +kernel
  have hc := hcodes c.toNat hascii
  rw [Char.ofNat_toNat] at hc
  exact hc h

theorem toNat_ofNat_or (code : Nat) :
    (Char.ofNat code).toNat = code ∨ Char.ofNat code = '\x00' := by
  by_cases hvalid : code.isValidChar
  · have hchar : Char.ofNat code = Char.ofNatAux code hvalid := dif_pos hvalid
    rw [hchar]
    exact .inl rfl
  · exact .inr (dif_neg hvalid)

theorem underscore_notMem_casePartner {runs : List CaseRun} {expansions : List (Nat × List Nat)}
    (hexpansions : ∀ entry ∈ expansions, '_' ∉ entry.2.map Char.ofNat)
    (hruns : ∀ run ∈ runs, 0x5F < run.first + run.shift ∨ run.last + run.shift < 0x5F)
    {c : Char} (hc : c ≠ '_') : '_' ∉ casePartner runs expansions c := by
  rw [casePartner]
  split
  · next codes hlookup =>
    obtain ⟨before, after, heq, -⟩ := List.lookup_eq_some_iff.1 hlookup
    exact hexpansions (c.toNat, codes) (by simp [heq])
  · split
    · next run hfind =>
      have hrun := hruns run (List.mem_of_find?_eq_some hfind)
      have hcontains := List.find?_some hfind
      simp only [CaseRun.contains, Bool.and_eq_true, decide_eq_true_eq] at hcontains
      rw [List.mem_singleton]
      intro heq
      rcases toNat_ofNat_or (c.toNat + run.shift).toNat with hcode | hcode
      · have hunderscore : '_'.toNat = 0x5F := rfl
        rw [← heq] at hcode
        omega
      · rw [← heq] at hcode
        exact absurd hcode (by decide)
    · simpa using Ne.symm hc

theorem underscore_notMem_upperChar {c : Char} (hc : c ≠ '_') : '_' ∉ upperChar c := by
  rw [upperChar]
  split
  · next hascii =>
    rw [List.mem_singleton]
    exact fun h => hc (eq_underscore_of_toUpper hascii h.symm)
  · exact underscore_notMem_casePartner (by decide +kernel) (by decide +kernel) hc

theorem underscore_notMem_lowerChar {c : Char} (hc : c ≠ '_') : '_' ∉ lowerChar c := by
  rw [lowerChar]
  split
  · rw [List.mem_singleton]
    exact fun h => hc (eq_underscore_of_toLower h.symm)
  · exact underscore_notMem_casePartner (by decide +kernel) (by decide +kernel) hc

theorem count_flatMap_partner {partner : Char → List Char} (hself : partner '_' = ['_'])
    (hother : ∀ c, c ≠ '_' → '_' ∉ partner c) (cs : List Char) :
    (cs.flatMap partner).count '_' = cs.count '_' := by
  induction cs with
  | nil => rfl
  | cons c cs ih =>
    rw [List.flatMap_cons, List.count_append, ih]
    by_cases hc : c = '_'
    · rw [hc, hself, ← List.count_append, List.singleton_append]
    · rw [List.count_eq_zero_of_not_mem (hother c hc), List.count_cons_of_ne hc, Nat.zero_add]

@[simp] theorem count_upper (cs : List Char) : (upper cs).count '_' = cs.count '_' :=
  count_flatMap_partner rfl (fun _ => underscore_notMem_upperChar) cs

@[simp] theorem count_lower (cs : List Char) : (lower cs).count '_' = cs.count '_' :=
  count_flatMap_partner rfl (fun _ => underscore_notMem_lowerChar) cs

@[simp] theorem count_titled (cs : List Char) : (titled cs).count '_' = cs.count '_' := by
  cases cs with
  | nil => rfl
  | cons c cs =>
    have hfirst := count_upper [c]
    rw [upper_cons, upper_nil, List.append_nil] at hfirst
    rw [titled, List.count_append, hfirst, count_lower, ← List.count_append, List.singleton_append]

@[simp] theorem count_inCaseOf (model word : List Char) :
    (inCaseOf model word).count '_' = word.count '_' := by
  rw [inCaseOf]
  repeat' split
  all_goals simp

end Text

namespace Inflection

/-- Whether a rule drops and adds no underscores. What it keeps may have some. -/
def Rule.keepsWords (rule : Rule) : Bool :=
  !rule.added.contains '_' && rule.dropped.all fun letters => !letters.contains '_'

theorem Rule.keepsWords_iff {rule : Rule} : rule.keepsWords = true ↔
    '_' ∉ rule.added ∧ ∀ letters ∈ rule.dropped, '_' ∉ letters := by
  simp [Rule.keepsWords]

/-- No rule drops or adds underscores, and no word that is exchanged has one. -/
structure Direction.KeepsWords (direction : Direction) : Prop where
  exchanged : ∀ pair ∈ direction.exchanged, '_' ∉ pair.1.toList ∧ '_' ∉ pair.2.toList
  rules : ∀ rule ∈ direction.rules, rule.keepsWords = true

theorem keepsWords_toPlural : toPlural.KeepsWords := ⟨by decide, by decide⟩

theorem keepsWords_toSingular : toSingular.KeepsWords := ⟨by decide, by decide⟩

theorem underscore_notMem_of_takeLetters? {letters text taken rest : List Char}
    (h : takeLetters? letters text = some (taken, rest)) (hletters : '_' ∉ letters) :
    '_' ∉ taken := by
  induction letters generalizing text taken with
  | nil => simp_all [takeLetters?]
  | cons l letters ih =>
    cases text with
    | nil => simp [takeLetters?] at h
    | cons c text =>
      simp only [takeLetters?] at h
      split at h
      · next hfold =>
        obtain ⟨⟨taken', rest'⟩, hcut, heq⟩ := Option.map_eq_some_iff.1 h
        simp only [Prod.mk.injEq] at heq
        obtain ⟨rfl, rfl⟩ := heq
        rw [List.mem_cons, not_or] at hletters ⊢
        refine ⟨?_, ih hcut hletters.2⟩
        rintro rfl
        exact hletters.1 hfold
      · cases h

theorem Rule.count_of_inflect? {rule : Rule} (hrule : rule.keepsWords = true)
    {text inflected : List Char} (h : rule.inflect? text = some inflected) :
    inflected.count '_' = text.count '_' := by
  obtain ⟨cut, hcut, rfl⟩ := Option.map_eq_some_iff.1 h
  obtain ⟨stem, -, letters, hletters, previous, text', rest, -, hdropped⟩ :=
    Rule.exists_of_cut? hcut
  obtain ⟨hadded, hkeeps⟩ := Rule.keepsWords_iff.1 hrule
  have hnone := underscore_notMem_of_takeLetters? hdropped (hkeeps letters hletters)
  rw [← Rule.whole_of_cut? hcut, Cut.whole]
  simp only [List.count_append, Text.count_inCaseOf, List.count_eq_zero_of_not_mem hnone,
    List.count_eq_zero_of_not_mem hadded, Nat.add_zero]

theorem Direction.count_chars {direction : Direction} (h : direction.KeepsWords)
    (text : List Char) : (direction.chars text).count '_' = text.count '_' := by
  simp only [Direction.chars]
  split
  · simp
  · split
    · next other hother =>
      obtain ⟨hword, hother⟩ := h.exchanged _ (Direction.mem_of_exchange? hother)
      have htext : text.count '_' = 0 := by
        rw [← Text.count_lower]
        simpa using List.count_eq_zero_of_not_mem hword
      rw [Text.count_inCaseOf, htext, List.count_eq_zero_of_not_mem hother]
    · split
      · rfl
      · cases hfound : direction.rules.findSome? (·.inflect? text) with
        | none => rfl
        | some inflected =>
          obtain ⟨rule, hrule, hinflected⟩ := List.exists_of_findSome?_eq_some hfound
          exact Rule.count_of_inflect? (h.rules rule hrule) hinflected

/-- A plural has as many words as the text. -/
theorem count_plural (text : String) :
    (plural text).toList.count '_' = text.toList.count '_' := by
  rw [plural, String.toList_ofList]
  exact Direction.count_chars keepsWords_toPlural text.toList

theorem count_singular (text : String) :
    (singular text).toList.count '_' = text.toList.count '_' := by
  rw [singular, String.toList_ofList]
  exact Direction.count_chars keepsWords_toSingular text.toList

end Inflection
end Scaffold
