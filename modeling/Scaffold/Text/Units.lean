/-!
The 16-bit units of a text. Names are put in order by their units, so a character beyond the
first plane, which takes two units, comes before the last characters of that plane. The order is
total, and texts with the same units are equal. Texts are of whole characters throughout: a text
with one half of a surrogate pair alone is none of them.
-/
namespace Scaffold
namespace Text

/-- The units that write one character. -/
def charUnits (c : Char) : List Nat :=
  if c.toNat < 0x10000 then [c.toNat]
  else [0xD800 + (c.toNat - 0x10000) / 0x400, 0xDC00 + (c.toNat - 0x10000) % 0x400]

def units (s : String) : List Nat := s.toList.flatMap charUnits

/-- The order of lists by the first place where they differ. -/
def listLe : List Nat → List Nat → Bool
  | [], _ => true
  | _ :: _, [] => false
  | a :: as, b :: bs => a < b || (a == b && listLe as bs)

def unitsLe (a b : String) : Bool := listLe (units a) (units b)

theorem listLe_refl (as : List Nat) : listLe as as = true := by
  induction as with
  | nil => rfl
  | cons a as ih => simp [listLe, ih]

theorem listLe_total (as bs : List Nat) : (listLe as bs || listLe bs as) = true := by
  induction as generalizing bs with
  | nil => simp [listLe]
  | cons a as ih =>
    cases bs with
    | nil => simp [listLe]
    | cons b bs =>
      have hrest := ih bs
      simp only [listLe, Bool.or_eq_true, Bool.and_eq_true, decide_eq_true_eq, beq_iff_eq] at *
      rcases Nat.lt_trichotomy a b with h | h | h
      · exact .inl (.inl h)
      · exact hrest.imp (fun hle => .inr ⟨h, hle⟩) fun hle => .inr ⟨h.symm, hle⟩
      · exact .inr (.inl h)

theorem listLe_trans {as bs cs : List Nat} (h : listLe as bs = true) (h' : listLe bs cs = true) :
    listLe as cs = true := by
  induction as generalizing bs cs with
  | nil => rfl
  | cons a as ih =>
    cases bs with
    | nil => simp [listLe] at h
    | cons b bs =>
      cases cs with
      | nil => simp [listLe] at h'
      | cons c cs =>
        simp only [listLe, Bool.or_eq_true, Bool.and_eq_true, decide_eq_true_eq, beq_iff_eq] at *
        rcases h with h | ⟨rfl, h⟩ <;> rcases h' with h' | ⟨rfl, h'⟩
        · exact .inl (by omega)
        · exact .inl h
        · exact .inl h'
        · exact .inr ⟨rfl, ih h h'⟩

theorem listLe_antisymm {as bs : List Nat} (h : listLe as bs = true) (h' : listLe bs as = true) :
    as = bs := by
  induction as generalizing bs with
  | nil => cases bs <;> simp_all [listLe]
  | cons a as ih =>
    cases bs with
    | nil => simp [listLe] at h
    | cons b bs =>
      simp only [listLe, Bool.or_eq_true, Bool.and_eq_true, decide_eq_true_eq, beq_iff_eq] at *
      rcases h with h | ⟨rfl, h⟩
      · rcases h' with h' | ⟨h', -⟩ <;> omega
      · rcases h' with h' | ⟨-, h'⟩
        · omega
        · rw [ih h h']

theorem listLe_iff {as bs : List Nat} : listLe as bs = true ↔ as < bs ∨ as = bs := by
  induction as generalizing bs with
  | nil => cases bs <;> simp [listLe]
  | cons a as ih =>
    cases bs with
    | nil => simp [listLe]
    | cons b bs =>
      simp only [listLe, Bool.or_eq_true, Bool.and_eq_true, decide_eq_true_eq, beq_iff_eq, ih,
        List.cons_lt_cons_iff, List.cons.injEq]
      rw [and_or_left, or_assoc]

/-- No character has the code of a unit that is half of a pair. -/
theorem toNat_not_half (c : Char) : c.toNat < 0xD800 ∨ 0xDFFF < c.toNat := by
  have h := c.valid
  simp only [UInt32.isValidChar, Nat.isValidChar] at h
  simp only [Char.toNat]
  omega

theorem toNat_lt (c : Char) : c.toNat < 0x110000 := by
  have h := c.valid
  simp only [UInt32.isValidChar, Nat.isValidChar] at h
  simp only [Char.toNat]
  omega

theorem charUnits_append_inj {c d : Char} {as bs : List Nat}
    (h : charUnits c ++ as = charUnits d ++ bs) : c = d ∧ as = bs := by
  have hc := toNat_not_half c
  have hd := toNat_not_half d
  have hc' := toNat_lt c
  have hd' := toNat_lt d
  simp only [charUnits] at h
  split at h <;> split at h
  · simp only [List.cons_append, List.nil_append, List.cons.injEq] at h
    exact ⟨Char.toNat_inj.1 h.1, h.2⟩
  · simp only [List.cons_append, List.nil_append, List.cons.injEq] at h
    omega
  · simp only [List.cons_append, List.nil_append, List.cons.injEq] at h
    omega
  · simp only [List.cons_append, List.nil_append, List.cons.injEq] at h
    exact ⟨Char.toNat_inj.1 (by omega), h.2.2⟩

theorem charUnits_ne_nil (c : Char) : charUnits c ≠ [] := by
  unfold charUnits
  split <;> simp

theorem flatMap_charUnits_inj {cs ds : List Char}
    (h : cs.flatMap charUnits = ds.flatMap charUnits) : cs = ds := by
  induction cs generalizing ds with
  | nil =>
    cases ds with
    | nil => rfl
    | cons d ds =>
      simp only [List.flatMap_nil, List.flatMap_cons] at h
      exact absurd (List.append_eq_nil_iff.1 h.symm).1 (charUnits_ne_nil d)
  | cons c cs ih =>
    cases ds with
    | nil =>
      simp only [List.flatMap_nil, List.flatMap_cons] at h
      exact absurd (List.append_eq_nil_iff.1 h).1 (charUnits_ne_nil c)
    | cons d ds =>
      simp only [List.flatMap_cons] at h
      obtain ⟨rfl, hrest⟩ := charUnits_append_inj h
      rw [ih hrest]

theorem units_inj {a b : String} (h : units a = units b) : a = b :=
  String.toList_inj.1 (flatMap_charUnits_inj h)

theorem unitsLe_refl (a : String) : unitsLe a a = true := listLe_refl _

theorem unitsLe_total (a b : String) : (unitsLe a b || unitsLe b a) = true := listLe_total _ _

theorem unitsLe_trans {a b c : String} (h : unitsLe a b = true) (h' : unitsLe b c = true) :
    unitsLe a c = true := listLe_trans h h'

theorem unitsLe_antisymm {a b : String} (h : unitsLe a b = true) (h' : unitsLe b a = true) :
    a = b := units_inj (listLe_antisymm h h')

theorem unitsLe_iff {a b : String} : unitsLe a b = true ↔ units a < units b ∨ a = b := by
  rw [unitsLe, listLe_iff]
  exact or_congr_right ⟨units_inj, congrArg units⟩

end Text
end Scaffold
