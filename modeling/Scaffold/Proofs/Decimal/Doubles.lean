import Mathlib.Algebra.Ring.Nat
import Scaffold.Decimal.Double
import Scaffold.Proofs.Decimal.Reading

/-!
Whole numbers in double precision. A whole number of at most 53 binary digits is a double, from
which its neighbours are at most one away, so that no other whole number is written for it
(`isWrittenBy_whole_iff`). The fewest digits that write it are then its own without the zeros at
their end, and rounding changes nothing (`toDouble?_ofInt`).
-/
namespace Scaffold
namespace Decimal

variable {n : Nat}

theorem twos_natCast (k : Nat) : twos k = 2 ^ k := rfl

theorem twos_neg (k : Nat) : twos (-k) = 1 := by simp [twos]

theorem tens_natCast (k : Nat) : tens k = 10 ^ k := rfl

theorem tens_neg (k : Nat) : tens (-k) = 1 := by simp [tens]

theorem roundDiv_one (num : Nat) : roundDiv num 1 = num := by simp [roundDiv, Nat.mod_one]

theorem nearest_whole (hne : n ≠ 0) (h : n < 2 ^ 53) :
    ∃ k : Nat, Binary.nearest n 1 = ⟨n * 2 ^ k, -k⟩ := by
  have hlog : n.log2 < 53 := (Nat.log2_lt hne).2 h
  obtain ⟨k, hk⟩ : ∃ k, n.log2 + k = 52 := ⟨52 - n.log2, by omega⟩
  have hlow : 2 ^ 52 ≤ n * 2 ^ k := by
    calc 2 ^ 52 = 2 ^ n.log2 * 2 ^ k := by rw [← Nat.pow_add, hk]
      _ ≤ n * 2 ^ k := Nat.mul_le_mul_right _ (Nat.log2_self_le hne)
  have hhigh : n * 2 ^ k < 2 ^ 53 := by
    calc n * 2 ^ k < 2 ^ (n.log2 + 1) * 2 ^ k :=
          Nat.mul_lt_mul_of_pos_right Nat.lt_log2_self (Nat.two_pow_pos k)
      _ = 2 ^ 53 := by rw [← Nat.pow_add]; congr 1; omega
  have hone : (1 : Nat).log2 = 0 := by decide
  have hguess : (n.log2 : Int) - ((1 : Nat).log2 : Nat) - 52 = -k := by omega
  have hfull : ¬n * twos k < 1 * twos (-k) * fullMantissa := by
    rw [twos_natCast, twos_neg, fullMantissa]
    omega
  have hscale : ¬(-k : Int) < -1074 := by omega
  have hmantissa : roundDiv (n * twos k) (1 * twos (-k)) = n * 2 ^ k := by
    rw [twos_natCast, twos_neg, Nat.one_mul, roundDiv_one]
  have hround : ¬n * 2 ^ k = 2 * fullMantissa := by
    rw [fullMantissa]
    omega
  refine ⟨k, ?_⟩
  simp only [Binary.nearest, hguess, Int.neg_neg, if_neg hfull, if_neg hscale, hmantissa,
    if_neg hround]

theorem compareScaled_whole (digits place bound k : Nat) :
    compareScaled digits place bound (-k) =
      compareOfLessAndEq (digits * 10 ^ place * 2 ^ k) bound := by
  rw [compareScaled, Int.neg_neg, tens_natCast, tens_neg, twos_natCast, twos_neg, Nat.mul_one,
    Nat.mul_one]

theorem compareOfLessAndEq_of_gt {a b : Nat} (h : b < a) : compareOfLessAndEq a b = .gt := by
  rw [compareOfLessAndEq, if_neg (by omega), if_neg (by omega)]

theorem isWrittenBy_whole_iff (hne : n ≠ 0) (k digits place : Nat) :
    Binary.isWrittenBy ⟨n * 2 ^ k, -k⟩ digits place = true ↔ digits * 10 ^ place = n := by
  have hscale : (-k - 2 : Int) = -(k + 2 : Nat) := by omega
  simp only [Binary.isWrittenBy, hscale, compareScaled_whole]
  generalize digits * 10 ^ place = value
  have hunit : value * 2 ^ (k + 2) = 4 * (value * 2 ^ k) := by
    rw [Nat.pow_add, ← Nat.mul_assoc, Nat.mul_comm _ (2 ^ 2)]
  have hpow := Nat.two_pow_pos k
  have hpos : 0 < n * 2 ^ k := Nat.mul_pos (Nat.pos_of_ne_zero hne) hpow
  rw [hunit]
  generalize (n * 2 ^ k == fullMantissa && decide (-(k : Int) > -1074)) = narrow
  generalize hlow : (if narrow = true then 4 * (n * 2 ^ k) - 1 else 4 * (n * 2 ^ k) - 2) = low
  have hbounds : 4 * (n * 2 ^ k) - 2 ≤ low ∧ low < 4 * (n * 2 ^ k) := by
    rw [← hlow]
    constructor <;> split <;> omega
  rcases Nat.lt_trichotomy value n with hlt | rfl | hgt
  · have hle := Nat.mul_le_mul_right (2 ^ k) (Nat.succ_le_of_lt hlt)
    rw [Nat.succ_mul] at hle
    have hcompare : compareOfLessAndEq (4 * (value * 2 ^ k)) low = .lt := if_pos (by omega)
    simp [hcompare, Nat.ne_of_lt hlt]
  · have hfromLow : compareOfLessAndEq (4 * (value * 2 ^ k)) low = .gt :=
      compareOfLessAndEq_of_gt hbounds.2
    have hfromHigh : compareOfLessAndEq (4 * (value * 2 ^ k)) (4 * (value * 2 ^ k) + 2) = .lt :=
      if_pos (by omega)
    simp [hfromLow, hfromHigh]
  · have hle := Nat.mul_le_mul_right (2 ^ k) (Nat.succ_le_of_lt hgt)
    rw [Nat.succ_mul] at hle
    have hcompare : compareOfLessAndEq (4 * (value * 2 ^ k)) (4 * (n * 2 ^ k) + 2) = .gt :=
      compareOfLessAndEq_of_gt (by omega)
    simp [hcompare, Nat.ne_of_gt hgt]

theorem place_whole (n k : Nat) (hne : n ≠ 0) :
    Binary.place ⟨n * 2 ^ k, -k⟩ = (Nat.toDigits 10 n).length := by
  have hpow := Nat.two_pow_pos k
  have hle : 2 ^ k ≤ n * 2 ^ k := Nat.le_mul_of_pos_left _ (Nat.pos_of_ne_zero hne)
  simp only [Binary.place, Int.neg_neg, twos_neg, twos_natCast, Nat.mul_one, if_pos hle,
    Nat.mul_div_cancel n hpow]

theorem withDigits?_whole (hne : n ≠ 0) (k : Nat) {count place : Nat}
    (hplace : count + place = (Nat.toDigits 10 n).length) :
    Binary.withDigits? ⟨n * 2 ^ k, -k⟩ count =
      if 10 ^ place ∣ n then some (n / 10 ^ place, (place : Int)) else none := by
  have hexponent : ((Nat.toDigits 10 n).length : Int) - count = place := by omega
  have hbelow : n * 2 ^ k / (2 ^ k * 10 ^ place) = n / 10 ^ place := by
    rw [Nat.mul_comm n, Nat.mul_div_mul_left _ _ (Nat.two_pow_pos k)]
  have hself : Binary.isWrittenBy ⟨n * 2 ^ k, -k⟩ (n / 10 ^ place) place = true ↔
      10 ^ place ∣ n := by
    rw [isWrittenBy_whole_iff hne]
    exact ⟨fun h => ⟨_, h.symm.trans (Nat.mul_comm _ _)⟩, Nat.div_mul_cancel⟩
  have hnext : Binary.isWrittenBy ⟨n * 2 ^ k, -k⟩ (n / 10 ^ place + 1) place = false := by
    rw [Bool.eq_false_iff, ne_eq, isWrittenBy_whole_iff hne]
    have hten : 0 < 10 ^ place := Nat.pow_pos (by decide)
    exact Nat.ne_of_gt (Nat.lt_mul_of_div_lt (Nat.lt_succ_self _) hten)
  simp only [Binary.withDigits?, place_whole n k hne, hexponent, Int.neg_neg, twos_neg,
    twos_natCast, tens_neg, tens_natCast, Nat.mul_one, hbelow, hnext]
  by_cases hdvd : 10 ^ place ∣ n
  · rw [hself.2 hdvd, if_pos hdvd]
  · rw [Bool.eq_false_iff.2 (mt hself.1 hdvd), if_neg hdvd]

theorem length_toDigits_le (h : n < 2 ^ 53) : (Nat.toDigits 10 n).length ≤ 16 :=
  (Nat.length_toDigits_le_iff (by decide) (by decide)).2 (by omega)

theorem zeros_lt_length {digits : Nat} (hne : digits ≠ 0) (zeros : Nat) :
    zeros < (Nat.toDigits 10 (digits * 10 ^ zeros)).length := by
  by_contra hle
  have hle : (Nat.toDigits 10 (digits * 10 ^ zeros)).length ≤ zeros := by omega
  have hpos : 0 < zeros := Nat.lt_of_lt_of_le Nat.length_toDigits_pos hle
  have hlt := (Nat.length_toDigits_le_iff (by decide) hpos).1 hle
  have hge : 10 ^ zeros ≤ digits * 10 ^ zeros := Nat.le_mul_of_pos_left _ (by omega)
  omega

theorem not_dvd_of_zeros_lt {digits zeros place : Nat} (hmod : digits % 10 ≠ 0)
    (hlt : zeros < place) : ¬10 ^ place ∣ digits * 10 ^ zeros := by
  intro hdvd
  have hten : 0 < 10 ^ zeros := Nat.pow_pos (by decide)
  have hnext : 10 * 10 ^ zeros ∣ digits * 10 ^ zeros := by
    rw [← Nat.pow_succ']
    exact Nat.dvd_trans (Nat.pow_dvd_pow 10 hlt) hdvd
  exact hmod (Nat.mod_eq_zero_of_dvd (Nat.dvd_of_mul_dvd_mul_right hten hnext))

/-- The digits of a whole number are enough without its zeros, and fewer digits are another
number. -/
theorem shortest_whole {digits zeros : Nat} (hmod : digits % 10 ≠ 0)
    (hsmall : digits * 10 ^ zeros < 2 ^ 53) (k : Nat) :
    Binary.shortest ⟨digits * 10 ^ zeros * 2 ^ k, -k⟩ = (digits, (zeros : Int)) := by
  have hten : 0 < 10 ^ zeros := Nat.pow_pos (by decide)
  have hdigits : digits ≠ 0 := by omega
  have hne : digits * 10 ^ zeros ≠ 0 := Nat.mul_ne_zero hdigits (Nat.ne_of_gt hten)
  have hshort := length_toDigits_le hsmall
  have hlong := zeros_lt_length hdigits zeros
  generalize hlength : (Nat.toDigits 10 (digits * 10 ^ zeros)).length = length at hshort hlong
  obtain ⟨count, hcount⟩ : ∃ count, count + 1 + zeros = length := ⟨length - zeros - 1, by omega⟩
  have hfirst : Binary.withDigits? ⟨digits * 10 ^ zeros * 2 ^ k, -k⟩ (count + 1) =
      some (digits, (zeros : Int)) := by
    rw [withDigits?_whole hne k (hcount.trans hlength.symm), if_pos (Nat.dvd_mul_left _ _),
      Nat.mul_div_cancel _ hten]
  have hfewer : ∀ fewer ∈ List.range count,
      Binary.withDigits? ⟨digits * 10 ^ zeros * 2 ^ k, -k⟩ (fewer + 1) = none := by
    intro fewer hmem
    have hlt := List.mem_range.1 hmem
    have hplace : fewer + 1 + (length - (fewer + 1)) = length := by omega
    rw [withDigits?_whole hne k (hplace.trans hlength.symm),
      if_neg (not_dvd_of_zeros_lt hmod (by omega))]
  obtain ⟨rest, hrest⟩ : ∃ rest, 17 = count + (rest + 1) := ⟨16 - count, by omega⟩
  have hfind : (List.range 17).findSome? (fun count =>
      Binary.withDigits? ⟨digits * 10 ^ zeros * 2 ^ k, -k⟩ (count + 1)) =
        some (digits, (zeros : Int)) := by
    rw [hrest, List.range_add, List.range_succ_eq_map, List.findSome?_append,
      List.findSome?_eq_none_iff.2 hfewer]
    simp [hfirst]
  simp only [Binary.shortest, hfind]

theorem toDouble?_of_nearest {d : Decimal} {b : Binary} (hne : d.mantissa ≠ 0)
    (hlow : 0 ≤ d.exponent) (hhigh : (Nat.toDigits 10 d.mantissa.natAbs).length + d.exponent ≤ 310)
    (hnearest : Binary.nearest (d.mantissa.natAbs * tens d.exponent) (tens (-d.exponent)) = b)
    (hoverflows : b.overflows = false) (hmantissa : b.mantissa ≠ 0) :
    d.toDouble? = some (normal (d.mantissa < 0) b.shortest.1 b.shortest.2) := by
  rw [toDouble?, if_neg hne, hnearest]
  simp only [hoverflows, hmantissa]
  rw [if_neg (by omega), if_neg (by omega)]
  rfl

theorem toDouble?_whole {mantissa : Int} {zeros : Nat} (h : IsNormal ⟨mantissa, zeros⟩)
    (hsmall : mantissa.natAbs * 10 ^ zeros < 2 ^ 53) :
    toDouble? ⟨mantissa, zeros⟩ = some ⟨mantissa, zeros⟩ := by
  by_cases hzero : mantissa = 0
  · have hzeros : (zeros : Int) = 0 := h.zero hzero
    rw [toDouble?, if_pos hzero, hzero, hzeros]
  · have hmod : mantissa.natAbs % 10 ≠ 0 := mt h.stripped hzero
    have hne : mantissa.natAbs ≠ 0 := Int.natAbs_ne_zero.2 hzero
    have hten : 0 < 10 ^ zeros := Nat.pow_pos (by decide)
    have hwhole : mantissa.natAbs * 10 ^ zeros ≠ 0 := Nat.mul_ne_zero hne (Nat.ne_of_gt hten)
    have hlength := length_toDigits_le (Nat.lt_of_le_of_lt (Nat.le_mul_of_pos_right _ hten) hsmall)
    have hzeros := Nat.lt_of_lt_of_le (zeros_lt_length hne zeros) (length_toDigits_le hsmall)
    obtain ⟨k, hnearest⟩ := nearest_whole hwhole hsmall
    rw [← tens_natCast, ← tens_neg zeros] at hnearest
    have hsize : ((Nat.toDigits 10 mantissa.natAbs).length : Int) + zeros ≤ 310 := by omega
    have hscale : ¬(-k : Int) > 971 := by omega
    have hdouble := toDouble?_of_nearest (d := ⟨mantissa, zeros⟩) hzero (Int.natCast_nonneg zeros)
      hsize hnearest (decide_eq_false hscale)
      (Nat.mul_ne_zero hwhole (Nat.ne_of_gt (Nat.two_pow_pos k)))
    have hnormal : normal (mantissa < 0) (mantissa.natAbs * 10 ^ 0) zeros = ⟨mantissa, zeros⟩ :=
      h.normal_eq fun _ => Int.add_zero _
    rw [Nat.pow_zero, Nat.mul_one] at hnormal
    rw [hdouble, tens_natCast, shortest_whole hmod hsmall, hnormal]

/-- Whole numbers of at most 53 binary digits are doubles. -/
theorem toDouble?_ofInt {n : Int} (h : n.natAbs < 2 ^ 53) :
    (ofInt n).toDouble? = some (ofInt n) := by
  by_cases hzero : n = 0
  · have hofInt : ofInt n = ⟨0, 0⟩ := by simp [hzero, ofInt, normal, strip]
    rw [hofInt, toDouble?, if_pos rfl]
  · have hne : n.natAbs ≠ 0 := Int.natAbs_ne_zero.2 hzero
    obtain ⟨zeros, hplace, hdigits⟩ := exists_strip_eq hne 0
    have habs := natAbs_mantissa_normal (n < 0) n.natAbs 0
    have hnumber : ofInt n = ⟨(ofInt n).mantissa, zeros⟩ := by
      rw [← Int.zero_add (zeros : Int), ← hplace]
      rfl
    rw [hnumber]
    apply toDouble?_whole
    · rw [← hnumber]
      exact isNormal_ofInt n
    · rw [ofInt, habs, hdigits]
      exact h

end Decimal
end Scaffold
