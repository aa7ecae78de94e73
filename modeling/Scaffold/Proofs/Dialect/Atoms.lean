import Scaffold.Dialect.Ecto

/-!
Where an atom ends. A bare atom is made of letters, digits, underscores and marks, and a quoted one
is read up to its closing quote, so an atom before any other character says which text it is of.
-/
namespace Scaffold
namespace Dialect
namespace Ecto

def isBareChar (c : Char) : Bool := isAtomChar c || c == '?' || c == '!'

theorem isBareChar_of_isAtomEnd {cs : List Char} (h : isAtomEnd cs = true) :
    ∀ c ∈ cs, isBareChar c = true := by
  induction cs with
  | nil => simp
  | cons c rest ih =>
    cases rest with
    | nil =>
      rw [isAtomEnd] at h
      simpa [isBareChar] using h
    | cons d rest =>
      rw [isAtomEnd, Bool.and_eq_true] at h
      · rw [List.forall_mem_cons]
        refine ⟨?_, ih h.2⟩
        rw [isBareChar, h.1]
        rfl
      · simp

theorem isBareChar_of_isBareAtom {cs : List Char} (h : isBareAtom cs = true) :
    ∀ c ∈ cs, isBareChar c = true := by
  cases cs with
  | nil => simp
  | cons c rest =>
    rw [isBareAtom, Bool.and_eq_true] at h
    rw [List.forall_mem_cons]
    refine ⟨?_, isBareChar_of_isAtomEnd h.2⟩
    have hstart := h.1
    rw [isAtomStart, Bool.or_eq_true] at hstart
    rcases hstart with hletter | hunderscore
    · simp [isBareChar, isAtomChar, Char.isAlphanum, hletter]
    · simp [isBareChar, isAtomChar, hunderscore]

theorem ne_quote_of_isBareAtom {cs rest : List Char} (h : isBareAtom cs = true) (c : Char)
    (tail : List Char) : cs ++ c :: tail ≠ '"' :: rest := by
  cases cs with
  | nil => cases h
  | cons first others =>
    intro heq
    rw [List.cons_append] at heq
    obtain ⟨rfl, -⟩ := List.cons.inj heq
    simp [isBareAtom, isAtomStart] at h

theorem atom_toList (text : String) : (atom text).toList =
    ':' :: if isBareAtom text.toList then text.toList else Text.quoteChars text.toList := by
  unfold atom
  split <;> simp

/-- Characters of one sort before one of another sort are told from what follows. -/
theorem append_cons_inj_of_forall {p : Char → Bool} {cs ds tail rest : List Char} {c d : Char}
    (hcs : ∀ x ∈ cs, p x = true) (hds : ∀ x ∈ ds, p x = true) (hc : p c = false) (hd : p d = false)
    (h : cs ++ c :: tail = ds ++ d :: rest) : cs = ds ∧ c :: tail = d :: rest := by
  have hleft : (cs ++ c :: tail).takeWhile p = cs := by
    simp [List.takeWhile_append_of_pos hcs, hc]
  have hright : (ds ++ d :: rest).takeWhile p = ds := by
    simp [List.takeWhile_append_of_pos hds, hd]
  have hsame : cs = ds := by rw [← hleft, h, hright]
  subst hsame
  exact ⟨rfl, List.append_cancel_left h⟩

theorem append_stop_inj {stop : Char} {cs ds tail rest : List Char} (hcs : stop ∉ cs)
    (hds : stop ∉ ds) (h : cs ++ stop :: tail = ds ++ stop :: rest) : cs = ds ∧ tail = rest := by
  have hother : ∀ xs : List Char, stop ∉ xs → ∀ x ∈ xs, (x != stop) = true := by
    intro xs hxs x hx
    exact bne_iff_ne.2 (ne_of_mem_of_not_mem hx hxs)
  have hstop : (stop != stop) = false := by simp
  obtain ⟨hsame, hafter⟩ :=
    append_cons_inj_of_forall (hother cs hcs) (hother ds hds) hstop hstop h
  exact ⟨hsame, (List.cons.inj hafter).2⟩

theorem quoteChars_append_inj {s t : String} {tail rest : List Char}
    (h : Text.quoteChars s.toList ++ tail = Text.quoteChars t.toList ++ rest) :
    s = t ∧ tail = rest := by
  have hread : ∀ (text : String) (others : List Char),
      Text.readQuoted? (Text.quoteChars text.toList ++ others).tail = some (text, others) := by
    intro text others
    have hquoted := Text.readQuoted?_flatMap_escape text others
    simpa [Text.quoteChars] using hquoted
  have hboth := hread t rest
  rw [← h, hread s tail] at hboth
  simpa using hboth

/-- An atom before a character that no bare atom has says which text it is of. -/
theorem atom_append_inj {s t : String} {c d : Char} {tail rest : List Char}
    (hc : isBareChar c = false) (hd : isBareChar d = false)
    (h : (atom s).toList ++ c :: tail = (atom t).toList ++ d :: rest) :
    s = t ∧ c :: tail = d :: rest := by
  rw [atom_toList, atom_toList, List.cons_append, List.cons_append] at h
  have hbody := (List.cons.inj h).2
  by_cases hs : isBareAtom s.toList = true <;> by_cases ht : isBareAtom t.toList = true
  · rw [if_pos hs, if_pos ht] at hbody
    have hsame := append_cons_inj_of_forall (isBareChar_of_isBareAtom hs)
      (isBareChar_of_isBareAtom ht) hc hd hbody
    exact ⟨String.toList_inj.1 hsame.1, hsame.2⟩
  · rw [if_pos hs, if_neg ht] at hbody
    exact absurd hbody (ne_quote_of_isBareAtom hs c tail)
  · rw [if_neg hs, if_pos ht] at hbody
    exact absurd hbody.symm (ne_quote_of_isBareAtom ht d rest)
  · rw [if_neg hs, if_neg ht] at hbody
    exact quoteChars_append_inj hbody

end Ecto
end Dialect
end Scaffold
