import Mathlib.Algebra.Ring.Nat
import Scaffold.Document.Reader

/-!
Numbers read back. However a number is written, its text is a sign, digits, further digits after a
point, and an exponent, of which parts may be missing (`layout_eq_parts`). The reader takes such a
text apart again and puts the number together from all its digits, so that every number in its one
form is read from its text exactly (`readNumber?_chars`).
-/
namespace Scaffold
namespace Decimal

variable {d : Decimal} {digits : Nat} {exponent : Int}

/-- No zeros stand at the end of the mantissa, and zero has the exponent zero. -/
structure IsNormal (d : Decimal) : Prop where
  stripped : d.mantissa.natAbs % 10 = 0 → d.mantissa = 0
  zero : d.mantissa = 0 → d.exponent = 0

theorem strip_of_mod_ne (h : digits % 10 ≠ 0) (exponent : Int) :
    strip digits exponent = (digits, exponent) := by
  have hpos : digits ≠ 0 := by
    rintro rfl
    exact h rfl
  rw [strip, if_neg hpos, if_neg h]

theorem strip_mul_ten (h : digits ≠ 0) (exponent : Int) :
    strip (digits * 10) exponent = strip digits (exponent + 1) := by
  rw [strip, if_neg (by omega), if_pos (by omega), Nat.mul_div_cancel digits (by decide)]

theorem strip_mul_pow (h : digits ≠ 0) (zeros : Nat) (exponent : Int) :
    strip (digits * 10 ^ zeros) exponent = strip digits (exponent + zeros) := by
  induction zeros generalizing exponent with
  | zero => simp
  | succ zeros ih =>
    have hpow : digits * 10 ^ zeros ≠ 0 := Nat.mul_ne_zero h (by simp)
    rw [Nat.pow_succ, ← Nat.mul_assoc, strip_mul_ten hpow, ih]
    congr 1
    omega

theorem strip_mod_ten (digits : Nat) (exponent : Int) :
    (strip digits exponent).1 % 10 = 0 → strip digits exponent = (0, 0) := by
  induction digits using Nat.strongRecOn generalizing exponent with
  | ind digits ih =>
    rw [strip]
    by_cases hzero : digits = 0
    · simp [hzero]
    · by_cases hmod : digits % 10 = 0
      · rw [if_neg hzero, if_pos hmod]
        exact ih (digits / 10) (by omega) (exponent + 1)
      · rw [if_neg hzero, if_neg hmod]
        exact fun h => absurd h hmod

theorem exists_strip_eq {digits : Nat} (hne : digits ≠ 0) (exponent : Int) :
    ∃ zeros : Nat, (strip digits exponent).2 = exponent + zeros ∧
      (strip digits exponent).1 * 10 ^ zeros = digits := by
  induction digits using Nat.strongRecOn generalizing exponent with
  | ind digits ih =>
    by_cases hmod : digits % 10 = 0
    · obtain ⟨zeros, hplace, hdigits⟩ :=
        ih (digits / 10) (by omega) (by omega) (exponent + 1)
      rw [strip, if_neg hne, if_pos hmod]
      refine ⟨zeros + 1, by omega, ?_⟩
      rw [Nat.pow_succ, ← Nat.mul_assoc, hdigits]
      omega
    · rw [strip_of_mod_ne hmod]
      exact ⟨0, (Int.add_zero exponent).symm, Nat.mul_one digits⟩

theorem natAbs_mantissa_normal (negative : Bool) (digits : Nat) (exponent : Int) :
    (normal negative digits exponent).mantissa.natAbs = (strip digits exponent).1 := by
  cases negative <;> simp [normal]

theorem isNormal_normal (negative : Bool) (digits : Nat) (exponent : Int) :
    (normal negative digits exponent).IsNormal := by
  have hmod := strip_mod_ten digits exponent
  have habs := natAbs_mantissa_normal negative digits exponent
  constructor
  · intro h
    rw [habs] at h
    rw [← Int.natAbs_eq_zero, habs, hmod h]
  · intro h
    have hzero : (strip digits exponent).1 = 0 := by rw [← habs, h]; rfl
    exact congrArg Prod.snd (hmod (by rw [hzero]))

@[simp] theorem isNormal_ofInt (n : Int) : (ofInt n).IsNormal := isNormal_normal _ _ _

theorem IsNormal.normal_eq (h : d.IsNormal) {zeros : Nat}
    (hexponent : d.mantissa ≠ 0 → exponent + zeros = d.exponent) :
    normal (d.mantissa < 0) (d.mantissa.natAbs * 10 ^ zeros) exponent = d := by
  obtain ⟨mantissa, place⟩ := d
  by_cases hzero : mantissa = 0
  · have hplace : place = 0 := h.zero hzero
    simp [normal, strip, hzero, hplace]
  · have habs : mantissa.natAbs ≠ 0 := Int.natAbs_ne_zero.2 hzero
    have hmod : mantissa.natAbs % 10 ≠ 0 := mt h.stripped hzero
    simp only [normal, strip_mul_pow habs, strip_of_mod_ne hmod, Decimal.mk.injEq,
      decide_eq_true_eq]
    refine ⟨?_, hexponent hzero⟩
    split <;> omega

/-- The text of a number without its sign: digits, digits after a point if there are any, and an
exponent if there is one. -/
def parts (whole fraction : List Char) (exponent? : Option Int) : List Char :=
  whole ++ ((if fraction = [] then [] else '.' :: fraction) ++
    (exponent?.map signedExponent).getD [])

/-- The parts that write a number with given digits, of which some stand before the point. -/
structure AreParts (digits : List Char) (place : Int) (whole fraction : List Char)
    (exponent? : Option Int) (zeros : Nat) : Prop where
  whole_ne_nil : whole ≠ []
  isDigit : ∀ c ∈ whole ++ fraction, c.isDigit = true
  value : Nat.ofDigitChars 10 (whole ++ fraction) 0 = Nat.ofDigitChars 10 digits 0 * 10 ^ zeros
  exponent : exponent?.getD 0 - fraction.length + zeros = place - digits.length

variable {cs ds rest : List Char} {place : Int}

theorem areParts_whole (hne : ds ≠ []) (hds : ∀ c ∈ ds, c.isDigit = true)
    (hplace : ds.length ≤ place) :
    AreParts ds place (ds ++ List.replicate (place - ds.length).toNat '0') [] none
      (place - ds.length).toNat where
  whole_ne_nil := List.append_ne_nil_of_left_ne_nil hne _
  isDigit c hc := by
    rw [List.append_nil, List.mem_append] at hc
    rcases hc with hc | hc
    · exact hds c hc
    · rw [List.eq_of_mem_replicate hc]
      rfl
  value := by
    rw [List.append_nil, Nat.ofDigitChars_append, Nat.ofDigitChars_replicate_zero, Nat.mul_comm]
  exponent := by
    simp only [Option.getD_none, List.length_nil]
    omega

theorem areParts_point (hds : ∀ c ∈ ds, c.isDigit = true) (hpos : 0 < place)
    (hplace : place < ds.length) :
    AreParts ds place (ds.take place.toNat) (ds.drop place.toNat) none 0 where
  whole_ne_nil := by
    apply List.ne_nil_of_length_pos
    rw [List.length_take]
    omega
  isDigit c hc := by
    rw [List.take_append_drop] at hc
    exact hds c hc
  value := by simp
  exponent := by
    simp only [Option.getD_none, List.length_drop]
    omega

theorem areParts_zeros (hds : ∀ c ∈ ds, c.isDigit = true) (hplace : place ≤ 0) :
    AreParts ds place ['0'] (List.replicate (-place).toNat '0' ++ ds) none 0 where
  whole_ne_nil := List.cons_ne_nil _ _
  isDigit c hc := by
    rw [← List.append_assoc, List.mem_append, List.mem_append, List.mem_singleton] at hc
    rcases hc with (rfl | hc) | hc
    · rfl
    · rw [List.eq_of_mem_replicate hc]
      rfl
    · exact hds c hc
  value := by
    rw [← List.append_assoc, Nat.ofDigitChars_append, Nat.ofDigitChars_append,
      Nat.ofDigitChars_replicate_zero]
    simp [Nat.ofDigitChars]
  exponent := by
    simp only [Option.getD_none, List.length_append, List.length_replicate]
    omega

theorem areParts_scientific {c : Char} (hds : ∀ d ∈ c :: cs, d.isDigit = true) (place : Int) :
    AreParts (c :: cs) place [c] cs (some (place - 1)) 0 where
  whole_ne_nil := List.cons_ne_nil _ _
  isDigit d hd := hds d hd
  value := by simp
  exponent := by
    simp only [Option.getD_some, List.length_cons]
    omega

theorem layout_eq_parts (hne : ds ≠ []) (hds : ∀ c ∈ ds, c.isDigit = true) (place : Int) :
    ∃ whole fraction exponent? zeros, AreParts ds place whole fraction exponent? zeros ∧
      layout ds place = parts whole fraction exponent? := by
  have hpos : 0 < ds.length := List.length_pos_iff.2 hne
  unfold layout
  simp only
  split
  · next h =>
    exact ⟨_, _, _, _, areParts_whole hne hds h.1, by simp [parts]⟩
  split
  · next h h' =>
    have hrest : ds.drop place.toNat ≠ [] := by
      apply List.ne_nil_of_length_pos
      rw [List.length_drop]
      omega
    refine ⟨_, _, _, _, areParts_point hds h'.1 (by omega), ?_⟩
    simp [parts, hrest]
  split
  · next h =>
    refine ⟨_, _, _, _, areParts_zeros hds h.2, ?_⟩
    simp [parts, hne]
  · obtain ⟨c, cs, rfl⟩ := List.exists_cons_of_ne_nil hne
    refine ⟨_, _, _, _, areParts_scientific hds place, ?_⟩
    cases cs <;> simp [parts]

theorem isDigit_of_mem_toDigits {n : Nat} {c : Char} (h : c ∈ Nat.toDigits 10 n) :
    c.isDigit = true :=
  Nat.isDigit_of_mem_toDigits (by decide) (by decide) h

/-- The text of a number is its sign and the parts that write its digits. For zero, which has no
digits to place, the exponent does not matter. -/
theorem chars_eq_parts (d : Decimal) :
    ∃ place whole fraction exponent? zeros,
      AreParts (Nat.toDigits 10 d.mantissa.natAbs) place whole fraction exponent? zeros ∧
      (d.mantissa ≠ 0 → place = (Nat.toDigits 10 d.mantissa.natAbs).length + d.exponent) ∧
      d.chars =
        (if d.mantissa < 0 then ['-'] else []) ++ parts whole fraction exponent? := by
  have hdigits : ∀ c ∈ Nat.toDigits 10 d.mantissa.natAbs, c.isDigit = true :=
    fun _ => isDigit_of_mem_toDigits
  by_cases hzero : d.mantissa = 0
  · have hone : ((Nat.toDigits 10 d.mantissa.natAbs).length : Int) ≤ 1 := by simp [hzero]
    refine ⟨1, _, _, _, _, areParts_whole Nat.toDigits_ne_nil hdigits hone,
      fun hne => absurd hzero hne, ?_⟩
    simp [chars, parts, hzero]
  · obtain ⟨whole, fraction, exponent?, zeros, hparts, hlayout⟩ :=
      layout_eq_parts Nat.toDigits_ne_nil hdigits
        ((Nat.toDigits 10 d.mantissa.natAbs).length + d.exponent)
    refine ⟨_, whole, fraction, exponent?, zeros, hparts, fun _ => rfl, ?_⟩
    rw [chars, if_neg hzero, ← hlayout]

theorem digitsValue_eq (ds : List Char) :
    Document.digitsValue ds = Nat.ofDigitChars 10 ds 0 := rfl

/-- The text that follows a number goes on with nothing that could belong to it. -/
def EndsNumber (rest : List Char) : Prop :=
  ∀ c ∈ rest.head?, c.isDigit = false ∧ c ≠ '.' ∧ c ≠ 'e' ∧ c ≠ 'E'

theorem readDigits?_append (hne : ds ≠ []) (hds : ∀ c ∈ ds, c.isDigit = true)
    (hrest : ∀ c ∈ rest.head?, c.isDigit = false) :
    Document.readDigits? (ds ++ rest) = some (ds, rest) := by
  have htake : (ds ++ rest).takeWhile Char.isDigit = ds := by
    rw [List.takeWhile_append_of_pos hds]
    cases rest with
    | nil => simp
    | cons c rest => simp [hrest c rfl]
  have hdrop : (ds ++ rest).dropWhile Char.isDigit = rest := by
    rw [List.dropWhile_append_of_pos hds]
    cases rest with
    | nil => rfl
    | cons c rest => simp [hrest c rfl]
  rw [Document.readDigits?, htake, hdrop]
  cases ds with
  | nil => exact absurd rfl hne
  | cons c cs => rfl

theorem readFraction?_append {fraction : List Char}
    (hfraction : ∀ c ∈ fraction, c.isDigit = true)
    (hrest : ∀ c ∈ rest.head?, c.isDigit = false ∧ c ≠ '.') :
    Document.readFraction? ((if fraction = [] then [] else '.' :: fraction) ++ rest) =
      some (fraction, rest) := by
  by_cases hne : fraction = []
  · rw [if_pos hne, hne, List.nil_append]
    cases rest with
    | nil => rfl
    | cons c rest =>
      have hc : c ≠ '.' := (hrest c rfl).2
      simp [Document.readFraction?, hc]
  · rw [if_neg hne, List.cons_append, Document.readFraction?]
    exact readDigits?_append hne hfraction fun c hc => (hrest c hc).1

theorem readExponent?_append (exponent? : Option Int) (hrest : EndsNumber rest) :
    Document.readExponent? ((exponent?.map signedExponent).getD [] ++ rest) =
      some (exponent?.getD 0, rest) := by
  cases exponent? with
  | none =>
    cases rest with
    | nil => rfl
    | cons c rest =>
      have hc := hrest c rfl
      simp [Document.readExponent?, hc.2.2.1, hc.2.2.2]
  | some exponent =>
    obtain ⟨n, hn⟩ : ∃ n, exponent.natAbs = n := ⟨_, rfl⟩
    have hdigits : Document.readDigits? (Nat.toDigits 10 n ++ rest) =
        some (Nat.toDigits 10 n, rest) :=
      readDigits?_append Nat.toDigits_ne_nil (fun _ => isDigit_of_mem_toDigits)
        fun c hc => (hrest c hc).1
    have hvalue : Document.digitsValue (Nat.toDigits 10 n) = n := by
      rw [digitsValue_eq, Nat.ofDigitChars_ten_toDigits]
    by_cases hneg : exponent < 0
    · have hsign : -(n : Int) = exponent := by omega
      simp [Document.readExponent?, signedExponent, hn, hneg, hdigits, hvalue, hsign]
    · have hsign : (n : Int) = exponent := by omega
      simp [Document.readExponent?, signedExponent, hn, hneg, hdigits, hvalue, hsign]

theorem endsNumber_exponent (exponent? : Option Int) (hrest : EndsNumber rest) :
    ∀ c ∈ ((exponent?.map signedExponent).getD [] ++ rest).head?,
      c.isDigit = false ∧ c ≠ '.' := by
  cases exponent? with
  | none => exact fun c hc => ⟨(hrest c hc).1, (hrest c hc).2.1⟩
  | some exponent => simp [signedExponent]

theorem ne_minus_of_isDigit {c : Char} (h : c.isDigit = true) : c ≠ '-' := by
  rintro rfl
  exact absurd h (by decide)

theorem readNumber?_parts {whole fraction : List Char} (negative : Bool)
    (exponent? : Option Int) (hwhole : whole ≠ [])
    (hdigits : ∀ c ∈ whole ++ fraction, c.isDigit = true) (hrest : EndsNumber rest) :
    Document.readNumber?
        ((if negative then ['-'] else []) ++ (parts whole fraction exponent? ++ rest)) =
      some (normal negative (Nat.ofDigitChars 10 (whole ++ fraction) 0)
        (exponent?.getD 0 - fraction.length), rest) := by
  have hexponent := readExponent?_append exponent? hrest
  have hends := endsNumber_exponent exponent? hrest
  have hfraction := readFraction?_append
    (fun c hc => hdigits c (List.mem_append_right whole hc)) hends
  have hstop : ∀ c ∈ ((if fraction = [] then [] else '.' :: fraction) ++
      ((exponent?.map signedExponent).getD [] ++ rest)).head?, c.isDigit = false := by
    by_cases hne : fraction = []
    · rw [if_pos hne, List.nil_append]
      exact fun c hc => (hends c hc).1
    · simp [hne]
  have hread := readDigits?_append hwhole (fun c hc => hdigits c (List.mem_append_left _ hc)) hstop
  have htext : parts whole fraction exponent? ++ rest =
      whole ++ ((if fraction = [] then [] else '.' :: fraction) ++
        ((exponent?.map signedExponent).getD [] ++ rest)) := by
    simp only [parts, List.append_assoc]
  rw [htext]
  cases negative with
  | true => simp [Document.readNumber?, hread, hfraction, hexponent, digitsValue_eq]
  | false =>
    obtain ⟨c, cs, rfl⟩ := List.exists_cons_of_ne_nil hwhole
    have hc : c ≠ '-' := ne_minus_of_isDigit (hdigits c (by simp))
    simp only [List.cons_append] at hread ⊢
    simp [Document.readNumber?, hc, hread, hfraction, hexponent, digitsValue_eq]

/-- A number in its one form is read from its text, whatever follows that does not belong to it. -/
theorem readNumber?_chars (h : d.IsNormal) (hrest : EndsNumber rest) :
    Document.readNumber? (d.chars ++ rest) = some (d, rest) := by
  obtain ⟨place, whole, fraction, exponent?, zeros, hparts, hplace, hchars⟩ := chars_eq_parts d
  have hread :=
    readNumber?_parts (d.mantissa < 0) exponent? hparts.whole_ne_nil hparts.isDigit hrest
  have hexponent : d.mantissa ≠ 0 →
      exponent?.getD 0 - fraction.length + zeros = d.exponent := by
    intro hne
    rw [hparts.exponent, hplace hne]
    omega
  rw [hparts.value, Nat.ofDigitChars_ten_toDigits, h.normal_eq hexponent] at hread
  simpa [hchars] using hread

def IsNumberChar (c : Char) : Prop :=
  c.isDigit = true ∨ c = '-' ∨ c = '+' ∨ c = '.' ∨ c = 'e'

theorem isNumberChar_of_mem_signedExponent {c : Char} (h : c ∈ signedExponent exponent) :
    IsNumberChar c := by
  rw [signedExponent, List.mem_cons, List.mem_cons] at h
  rcases h with rfl | hsign | hdigit
  · simp [IsNumberChar]
  · split at hsign <;> simp [IsNumberChar, hsign]
  · exact .inl (isDigit_of_mem_toDigits hdigit)

theorem isNumberChar_of_mem_parts {whole fraction : List Char} {exponent? : Option Int} {c : Char}
    (hdigits : ∀ c ∈ whole ++ fraction, c.isDigit = true)
    (h : c ∈ parts whole fraction exponent?) : IsNumberChar c := by
  rw [parts, List.mem_append, List.mem_append] at h
  rcases h with hwhole | hfraction | hexponent
  · exact .inl (hdigits c (List.mem_append_left _ hwhole))
  · by_cases hne : fraction = []
    · simp [hne] at hfraction
    · rw [if_neg hne, List.mem_cons] at hfraction
      rcases hfraction with rfl | hmem
      · simp [IsNumberChar]
      · exact .inl (hdigits c (List.mem_append_right _ hmem))
  · cases exponent? with
    | none => cases hexponent
    | some exponent => exact isNumberChar_of_mem_signedExponent hexponent

theorem isNumberChar_of_mem_chars {c : Char} (h : c ∈ d.chars) : IsNumberChar c := by
  obtain ⟨place, whole, fraction, exponent?, zeros, hparts, -, hchars⟩ := chars_eq_parts d
  rw [hchars, List.mem_append] at h
  rcases h with hsign | hmem
  · split at hsign <;> simp_all [IsNumberChar]
  · exact isNumberChar_of_mem_parts hparts.isDigit hmem

theorem exists_chars_eq_cons (d : Decimal) :
    ∃ c cs, d.chars = c :: cs ∧ (c.isDigit = true ∨ c = '-') := by
  obtain ⟨place, whole, fraction, exponent?, zeros, hparts, -, hchars⟩ := chars_eq_parts d
  obtain ⟨c, cs, rfl⟩ := List.exists_cons_of_ne_nil hparts.whole_ne_nil
  rw [hchars]
  split
  · exact ⟨'-', _, rfl, .inr rfl⟩
  · exact ⟨c, _, rfl, .inl (hparts.isDigit c (by simp))⟩

end Decimal
end Scaffold
