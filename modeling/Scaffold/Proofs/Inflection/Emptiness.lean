import Scaffold.Inflection.Basic

/-!
When inflection leaves nothing of a text. A plural is empty only if the text is. A singular is also
empty if the text is the ending of plurals alone, because the last rule drops this ending whatever
it follows.
-/
namespace Scaffold
namespace Text

theorem casePartner_ne_nil {runs : List CaseRun} {expansions : List (Nat × List Nat)}
    (h : ∀ entry ∈ expansions, entry.2 ≠ []) (c : Char) : casePartner runs expansions c ≠ [] := by
  rw [casePartner]
  split
  · next codes hlookup =>
    obtain ⟨before, after, hexpansions, -⟩ := List.lookup_eq_some_iff.1 hlookup
    have hcodes : codes ≠ [] := h (c.toNat, codes) (by simp [hexpansions])
    simpa using hcodes
  · split <;> simp

theorem upperChar_ne_nil (c : Char) : upperChar c ≠ [] := by
  rw [upperChar]
  split
  · simp
  · exact casePartner_ne_nil (by decide) c

theorem lowerChar_ne_nil (c : Char) : lowerChar c ≠ [] := by
  rw [lowerChar]
  split
  · simp
  · exact casePartner_ne_nil (by decide) c

@[simp] theorem upper_eq_nil_iff {cs : List Char} : upper cs = [] ↔ cs = [] := by
  cases cs with
  | nil => simp
  | cons c cs => simp [upperChar_ne_nil]

@[simp] theorem lower_eq_nil_iff {cs : List Char} : lower cs = [] ↔ cs = [] := by
  cases cs with
  | nil => simp
  | cons c cs => simp [lowerChar_ne_nil]

@[simp] theorem titled_eq_nil_iff {cs : List Char} : titled cs = [] ↔ cs = [] := by
  cases cs with
  | nil => simp [titled]
  | cons c cs => simp [titled, upperChar_ne_nil]

@[simp] theorem inCaseOf_eq_nil_iff {model word : List Char} :
    inCaseOf model word = [] ↔ word = [] := by
  rw [inCaseOf]
  repeat' split
  all_goals simp

end Text

namespace Inflection

def Lead.takesOne : Lead → Bool
  | .noneOf _ | .notWordChar | .notAscii => true
  | .anywhere | .wordStart | .textStart => false

/-- Whether a rule always leaves something of a text: what it adds or what it keeps. -/
def Rule.leavesSome (rule : Rule) : Bool :=
  rule.added ≠ [] || rule.stems.all fun stem => stem.letters ≠ [] || stem.lead.takesOne

theorem takeLetters?_ne_nil {letters text taken rest : List Char}
    (h : takeLetters? letters text = some (taken, rest)) (hletters : letters ≠ []) :
    taken ≠ [] := by
  cases letters with
  | nil => exact absurd rfl hletters
  | cons l letters =>
    cases text with
    | nil => simp [takeLetters?] at h
    | cons c text =>
      simp only [takeLetters?] at h
      split at h
      · obtain ⟨_, -, heq⟩ := Option.map_eq_some_iff.1 h
        simp only [Prod.mk.injEq] at heq
        simp [← heq.1]
      · simp at h

theorem Lead.take?_ne_nil {lead : Lead} {previous : Option Char} {text taken rest : List Char}
    (h : lead.take? previous text = some (taken, rest)) (hlead : lead.takesOne = true) :
    taken ≠ [] := by
  cases text with
  | nil => cases lead <;> simp_all [Lead.take?, Lead.takesOne]
  | cons c text =>
    have htaken : lead.takes c = true ∧ [c] = taken ∧ text = rest := by
      cases lead <;> simp_all [Lead.take?, Lead.takesOne]
    simp [← htaken.2.1]

theorem Rule.exists_of_cutHere? {rule : Rule} {previous : Option Char} {text : List Char}
    {cut : Cut} (h : rule.cutHere? previous text = some cut) :
    ∃ stem ∈ rule.stems, ∃ letters ∈ rule.dropped, ∃ rest,
      stem.take? previous text = some (cut.kept, rest) ∧
        takeLetters? letters rest = some (cut.dropped, []) := by
  obtain ⟨stem, hstem, h⟩ := List.exists_of_findSome?_eq_some h
  simp only [Option.bind_eq_bind, Option.bind_eq_some_iff] at h
  obtain ⟨⟨kept, rest⟩, hkept, h⟩ := h
  obtain ⟨letters, hletters, h⟩ := List.exists_of_findSome?_eq_some h
  split at h
  · next dropped hdropped =>
    obtain rfl := Option.some.inj h
    exact ⟨stem, hstem, letters, hletters, rest, hkept, hdropped⟩
  · cases h

theorem Rule.exists_of_cut? {rule : Rule} {previous : Option Char} {text : List Char} {cut : Cut}
    (h : rule.cut? previous text = some cut) :
    ∃ stem ∈ rule.stems, ∃ letters ∈ rule.dropped, ∃ previous text rest,
      stem.take? previous text = some (cut.kept, rest) ∧
        takeLetters? letters rest = some (cut.dropped, []) := by
  induction text generalizing previous cut with
  | nil =>
    obtain ⟨stem, hstem, letters, hletters, rest, hcut⟩ := Rule.exists_of_cutHere? h
    exact ⟨stem, hstem, letters, hletters, previous, [], rest, hcut⟩
  | cons c text ih =>
    simp only [Rule.cut?] at h
    split at h
    · next found =>
      obtain rfl := Option.some.inj h
      obtain ⟨stem, hstem, letters, hletters, rest, hcut⟩ := Rule.exists_of_cutHere? found
      exact ⟨stem, hstem, letters, hletters, previous, c :: text, rest, hcut⟩
    · obtain ⟨cut', hcut', rfl⟩ := Option.map_eq_some_iff.1 h
      obtain ⟨stem, hstem, letters, hletters, hcut⟩ := ih hcut'
      exact ⟨stem, hstem, letters, hletters, hcut⟩

theorem Rule.cut_of_inflect?_eq_nil {rule : Rule} {text : List Char}
    (h : rule.inflect? text = some []) :
    rule.added = [] ∧ ∃ cut, rule.cut? none text = some cut ∧ cut.kept = [] ∧
      cut.dropped = text := by
  obtain ⟨cut, hcut, hnil⟩ := Option.map_eq_some_iff.1 h
  simp only [List.append_eq_nil_iff, Text.inCaseOf_eq_nil_iff] at hnil
  obtain ⟨hbefore, hkept, hadded⟩ := hnil
  have hwhole := Rule.whole_of_cut? hcut
  simp only [Cut.whole, hbefore, hkept, List.nil_append] at hwhole
  exact ⟨hadded, cut, hcut, hkept, hwhole⟩

theorem Rule.inflect?_ne_nil {rule : Rule} (hrule : rule.leavesSome = true) (text : List Char) :
    rule.inflect? text ≠ some [] := by
  intro h
  obtain ⟨hadded, cut, hcut, hkept, -⟩ := Rule.cut_of_inflect?_eq_nil h
  obtain ⟨stem, hstem, letters, -, previous, text', rest, htake, -⟩ := Rule.exists_of_cut? hcut
  have hstems : ∀ stem ∈ rule.stems, stem.letters ≠ [] ∨ stem.lead.takesOne = true := by
    simpa [Rule.leavesSome, hadded] using hrule
  obtain ⟨first, middle, taken, hfirst, htaken, heq⟩ := Stem.exists_of_take? htake
  rw [hkept, eq_comm, List.append_eq_nil_iff] at heq
  rcases hstems stem hstem with hletters | hone
  · exact takeLetters?_ne_nil htaken hletters heq.2
  · exact Lead.take?_ne_nil hfirst hone heq.1

theorem Direction.mem_of_exchange? {direction : Direction} {word other : String}
    (h : direction.exchange? word = some other) : (word, other) ∈ direction.exchanged := by
  obtain ⟨before, after, hpairs, -⟩ := List.lookup_eq_some_iff.1 h
  rw [← List.mem_reverse, hpairs]
  simp

/-- Only a rule can leave nothing of a text, since no word is exchanged for the empty one. -/
theorem Direction.chars_eq_nil {direction : Direction} {text : List Char}
    (hsettled : "" ∉ direction.settled) (hexchanged : ∀ pair ∈ direction.exchanged, pair.2 ≠ "")
    (h : direction.chars text = []) :
    text = [] ∨ ∃ rule ∈ direction.rules, rule.inflect? text = some [] := by
  simp only [Direction.chars] at h
  split at h
  · next hword =>
    rw [Text.inCaseOf_eq_nil_iff, String.toList_eq_nil_iff] at h
    rw [h] at hword
    exact absurd (List.contains_iff_mem.1 hword) hsettled
  · split at h
    · next other hother =>
      rw [Text.inCaseOf_eq_nil_iff, String.toList_eq_nil_iff] at h
      exact absurd h (hexchanged _ (Direction.mem_of_exchange? hother))
    · split at h
      · exact .inl h
      · cases hfound : direction.rules.findSome? (·.inflect? text) with
        | none =>
          rw [hfound] at h
          exact .inl h
        | some inflected =>
          rw [hfound] at h
          obtain rfl : inflected = [] := h
          exact .inr (List.exists_of_findSome?_eq_some hfound)

theorem plural_eq_empty_iff {text : String} : plural text = "" ↔ text = "" := by
  constructor
  · intro h
    have hchars : toPlural.chars text.toList = [] := by simpa [plural] using h
    rcases Direction.chars_eq_nil (by decide) (by decide) hchars with htext | ⟨rule, hrule, hnil⟩
    · simpa using htext
    · have hrules : ∀ rule ∈ English.pluralRules, rule.leavesSome = true := by decide
      exact absurd hnil (Rule.inflect?_ne_nil (hrules rule hrule) _)
  · rintro rfl
    decide +kernel

theorem eq_of_fold_eq_s {c : Char} (h : fold c = 's') : c = 's' ∨ c = 'S' := by
  rw [fold] at h
  split at h
  · exact absurd h (by decide)
  · by_cases hupper : c.val ≥ 'A'.val ∧ c.val ≤ 'Z'.val
    · right
      have hlower : c.toLower.val = c.val + ('a'.val - 'A'.val) :=
        congrArg Char.val (dif_pos hupper)
      have hcode : c.val = 's'.val - ('a'.val - 'A'.val) := by
        rw [← h, hlower, UInt32.add_sub_cancel]
      exact Char.ext (hcode.trans (by decide))
    · left
      have hlower : c.toLower = c := dif_neg hupper
      rw [← hlower, h]

/-- The last rule for singulars. It is the only one that can leave nothing. -/
def dropPluralEnding : Rule := English.rule (English.stems [""]) ["s"] ""

theorem eq_of_dropPluralEnding_eq_nil {text : List Char}
    (h : dropPluralEnding.inflect? text = some []) : text = ['s'] ∨ text = ['S'] := by
  obtain ⟨-, cut, hcut, hkept, rfl⟩ := Rule.cut_of_inflect?_eq_nil h
  obtain ⟨stem, -, letters, hletters, previous, text, rest, -, hdropped⟩ := Rule.exists_of_cut? hcut
  obtain rfl : letters = ['s'] := by simpa [dropPluralEnding, English.rule] using hletters
  cases rest with
  | nil => simp [takeLetters?] at hdropped
  | cons c rest =>
    simp only [takeLetters?] at hdropped
    split at hdropped
    · next hfold =>
      simp only [Option.map_some, Option.some.injEq, Prod.mk.injEq] at hdropped
      rw [← hdropped.1]
      exact (eq_of_fold_eq_s hfold).imp (congrArg (fun c => [c])) (congrArg fun c => [c])
    · cases hdropped

theorem singular_eq_empty_iff {text : String} :
    singular text = "" ↔ text = "" ∨ text = "s" ∨ text = "S" := by
  constructor
  · intro h
    have hchars : toSingular.chars text.toList = [] := by simpa [singular] using h
    rcases Direction.chars_eq_nil (by decide) (by decide) hchars with htext | ⟨rule, hrule, hnil⟩
    · left
      simpa using htext
    · have hrules : ∀ rule ∈ English.singularRules,
          rule.leavesSome = true ∨ rule = dropPluralEnding := by decide
      rcases hrules rule hrule with hsome | rfl
      · exact absurd hnil (Rule.inflect?_ne_nil hsome _)
      · right
        rw [← String.toList_inj, ← String.toList_inj]
        exact eq_of_dropPluralEnding_eq_nil hnil
  · rintro (rfl | rfl | rfl) <;> decide +kernel

end Inflection
end Scaffold
