import Scaffold.Document.Printer
import Scaffold.Document.Reader
import Scaffold.Proofs.Decimal.Doubles
import Scaffold.Proofs.Document.KeyOrder

/-!
Documents read back. The text of a document has no control characters (`not_control_of_mem_chars`),
and if the document is regular, it is read from the text again (`parse?_print`): the first character
of a value tells what it is, a value ends before the comma or bracket after it, and an object whose
fields are in order gets them in this order.
-/
namespace Scaffold
namespace Document

variable {document : Document} {items : List Document} {fields : Fields} {fuel : Nat}
  {rest : List Char}

/-- A document of which the text says everything. Its numbers are in their one form, as all whole
numbers are (`Decimal.isNormal_ofInt`), none is infinite, and its objects are in order, as all
objects are that fields were put in (`Fields.Ordered.putAll`). -/
inductive Regular : Document → Prop
  | null : Regular .null
  | bool (value : Bool) : Regular (.bool value)
  | number {value : Decimal} (h : value.IsNormal) : Regular (.number value)
  | text (value : String) : Regular (.text value)
  | list {items : List Document} (h : ∀ item ∈ items, Regular item) : Regular (.list items)
  | object {fields : Fields} (ordered : fields.Ordered) (h : ∀ field ∈ fields, Regular field.2) :
    Regular (.object fields)

attribute [simp] Regular.null Regular.bool Regular.text

@[simp] theorem regular_number_iff {value : Decimal} :
    (number value).Regular ↔ value.IsNormal := by
  constructor
  · rintro (_ | _ | h)
    exact h
  · exact .number

@[simp] theorem regular_list_iff : (list items).Regular ↔ ∀ item ∈ items, item.Regular := by
  constructor
  · rintro (_ | _ | _ | _ | h)
    exact h
  · exact .list

@[simp] theorem regular_object_iff :
    (object fields).Regular ↔ fields.Ordered ∧ ∀ field ∈ fields, field.2.Regular := by
  constructor
  · rintro (_ | _ | _ | _ | _ | ⟨ordered, h⟩)
    exact ⟨ordered, h⟩
  · exact fun h => .object h.1 h.2

theorem skipBlanks_cons {c : Char} (h : isBlank c = false) (cs : List Char) :
    skipBlanks (c :: cs) = c :: cs := by
  rw [skipBlanks, List.dropWhile_cons_of_neg (by simp [h])]

def StartsValue (c : Char) : Prop := isBlank c = false ∧ c ≠ ']'

theorem startsValue_of_isDigit_or {c : Char} (h : c.isDigit = true ∨ c = '-') : StartsValue c := by
  constructor
  · rw [isBlank]
    simp only [Bool.or_eq_false_iff, beq_eq_false_iff_ne]
    refine ⟨⟨⟨?_, ?_⟩, ?_⟩, ?_⟩
    all_goals
      rintro rfl
      exact absurd h (by decide)
  · rintro rfl
    exact absurd h (by decide)

theorem exists_chars_eq_cons (document : Document) :
    ∃ c cs, document.chars = c :: cs ∧ StartsValue c := by
  cases document with
  | number value =>
    obtain ⟨c, cs, hchars, hc⟩ := value.exists_chars_eq_cons
    exact ⟨c, cs, by rw [chars, hchars], startsValue_of_isDigit_or hc⟩
  | null => exact ⟨'n', _, rfl, rfl, by decide⟩
  | infinite negative => exact ⟨'n', _, rfl, rfl, by decide⟩
  | bool value =>
    cases value with
    | true => exact ⟨'t', _, rfl, rfl, by decide⟩
    | false => exact ⟨'f', _, rfl, rfl, by decide⟩
  | text value => exact ⟨'"', _, rfl, rfl, by decide⟩
  | list items => exact ⟨'[', _, rfl, rfl, by decide⟩
  | object fields => exact ⟨'\x7b', _, rfl, rfl, by decide⟩

/-- A document is read from its text, whatever follows that ends a number. -/
def ReadBack (document : Document) : Prop :=
  ∀ fuel rest, document.chars.length < fuel → Decimal.EndsNumber rest →
    readValue? fuel (document.chars ++ rest) = some (document, rest)

theorem readBack_null : ReadBack .null := by
  intro fuel rest hfuel _
  obtain ⟨fuel, rfl⟩ := Nat.exists_eq_succ_of_ne_zero (Nat.ne_zero_of_lt hfuel)
  simp [chars, readValue?, skipBlanks_cons, isBlank, after?]

theorem readBack_bool (value : Bool) : ReadBack (.bool value) := by
  intro fuel rest hfuel _
  obtain ⟨fuel, rfl⟩ := Nat.exists_eq_succ_of_ne_zero (Nat.ne_zero_of_lt hfuel)
  cases value <;> simp [chars, readValue?, skipBlanks_cons, isBlank, after?]

theorem readBack_text (value : String) : ReadBack (.text value) := by
  intro fuel rest hfuel _
  obtain ⟨fuel, rfl⟩ := Nat.exists_eq_succ_of_ne_zero (Nat.ne_zero_of_lt hfuel)
  have hread := Text.readQuoted?_flatMap_escape value rest
  simp [chars, readValue?, skipBlanks_cons, isBlank, Text.quoteChars, hread]

theorem readValue?_eq_readNumber? {c : Char} (hc : c.isDigit = true ∨ c = '-') (fuel : Nat)
    (cs : List Char) :
    readValue? (fuel + 1) (c :: cs) =
      (readNumber? (c :: cs)).map fun read => (.number read.1, read.2) := by
  have hother : ∀ x ∈ ['"', '[', '\x7b', 'n', 't', 'f'], ¬(x.isDigit = true ∨ x = '-') := by
    simp
  have hne : ∀ x ∈ ['"', '[', '\x7b', 'n', 't', 'f'], c ≠ x := by
    rintro x hx rfl
    exact hother c hx hc
  rw [readValue?, skipBlanks_cons (startsValue_of_isDigit_or hc).1]
  split
  iterate 6 next heq => exact absurd (List.cons.inj heq).1 (hne _ (by simp))
  rfl

theorem readBack_number {value : Decimal} (h : value.IsNormal) : ReadBack (.number value) := by
  intro fuel rest hfuel hrest
  obtain ⟨fuel, rfl⟩ := Nat.exists_eq_succ_of_ne_zero (Nat.ne_zero_of_lt hfuel)
  have hread := Decimal.readNumber?_chars h hrest
  obtain ⟨c, cs, hchars, hc⟩ := value.exists_chars_eq_cons
  rw [hchars, List.cons_append] at hread
  rw [chars, hchars, List.cons_append, readValue?_eq_readNumber? hc, hread, Option.map_some]

theorem endsNumber_cons {c : Char} (h : c = ',' ∨ c = ']' ∨ c = '\x7d') (cs : List Char) :
    Decimal.EndsNumber (c :: cs) := by
  rintro d hd
  obtain rfl : c = d := Option.some.inj hd
  rcases h with rfl | rfl | rfl <;> decide

theorem itemChars_cons_cons (item next : Document) (items : List Document) :
    itemChars (item :: next :: items) = item.chars ++ ',' :: itemChars (next :: items) := rfl

theorem fieldChars_cons_cons (key : String) (value : Document) (next : String × Document)
    (fields : Fields) :
    fieldChars ((key, value) :: next :: fields) =
      Text.quoteChars key.toList ++ ':' :: value.chars ++ ',' :: fieldChars (next :: fields) := rfl

theorem readItems?_itemChars (hne : items ≠ []) (h : ∀ item ∈ items, item.ReadBack)
    (hfuel : (itemChars items).length < fuel) (rest : List Char) :
    readItems? fuel (itemChars items ++ rest) = some (items, rest) := by
  induction items generalizing fuel with
  | nil => exact absurd rfl hne
  | cons item items ih =>
    obtain ⟨hitem, hitems⟩ := List.forall_mem_cons.1 h
    obtain ⟨fuel, rfl⟩ := Nat.exists_eq_succ_of_ne_zero (Nat.ne_zero_of_lt hfuel)
    cases items with
    | nil =>
      simp only [itemChars, List.length_append, List.length_singleton] at hfuel
      have hread := hitem fuel (']' :: rest) (by omega) (endsNumber_cons (.inr (.inl rfl)) rest)
      simp [itemChars, readItems?, skipBlanks_cons, isBlank, hread]
    | cons next items =>
      simp only [itemChars_cons_cons, List.length_append, List.length_cons] at hfuel
      have hlength : (itemChars (next :: items)).length < fuel := by omega
      have hread := hitem fuel (',' :: (itemChars (next :: items) ++ rest)) (by omega)
        (endsNumber_cons (.inl rfl) _)
      have hrest := ih (List.cons_ne_nil next items) hitems hlength
      simp [itemChars_cons_cons, readItems?, skipBlanks_cons, isBlank, hread, hrest]

theorem readFields?_fieldChars (hne : fields ≠ []) (h : ∀ field ∈ fields, field.2.ReadBack)
    (hfuel : (fieldChars fields).length < fuel) (rest : List Char) :
    readFields? fuel (fieldChars fields ++ rest) = some (fields, rest) := by
  induction fields generalizing fuel with
  | nil => exact absurd rfl hne
  | cons field fields ih =>
    obtain ⟨key, value⟩ := field
    obtain ⟨hfield, hfields⟩ := List.forall_mem_cons.1 h
    have hvalue : value.ReadBack := hfield
    obtain ⟨fuel, rfl⟩ := Nat.exists_eq_succ_of_ne_zero (Nat.ne_zero_of_lt hfuel)
    cases fields with
    | nil =>
      simp only [fieldChars, List.length_append, List.length_cons, List.length_nil] at hfuel
      have hread := hvalue fuel ('\x7d' :: rest) (by omega)
        (endsNumber_cons (.inr (.inr rfl)) rest)
      have hkey := Text.readQuoted?_flatMap_escape key (':' :: (value.chars ++ '\x7d' :: rest))
      simp [fieldChars, readFields?, Text.quoteChars, skipBlanks_cons, isBlank, after?, hkey, hread]
    | cons next fields =>
      simp only [fieldChars_cons_cons, List.length_append, List.length_cons] at hfuel
      have hlength : (fieldChars (next :: fields)).length < fuel := by omega
      have hread := hvalue fuel (',' :: (fieldChars (next :: fields) ++ rest)) (by omega)
        (endsNumber_cons (.inl rfl) _)
      have hkey := Text.readQuoted?_flatMap_escape key
        (':' :: (value.chars ++ ',' :: (fieldChars (next :: fields) ++ rest)))
      have hrest := ih (List.cons_ne_nil next fields) hfields hlength
      simp [fieldChars_cons_cons, readFields?, Text.quoteChars, skipBlanks_cons, isBlank, after?,
        hkey, hread, hrest]

theorem exists_itemChars_eq_cons (hne : items ≠ []) :
    ∃ c cs, itemChars items = c :: cs ∧ StartsValue c := by
  obtain ⟨item, items, rfl⟩ := List.exists_cons_of_ne_nil hne
  obtain ⟨c, cs, hchars, hc⟩ := exists_chars_eq_cons item
  obtain ⟨tail, htail⟩ : ∃ tail, itemChars (item :: items) = item.chars ++ tail := by
    cases items <;> exact ⟨_, rfl⟩
  exact ⟨c, cs ++ tail, by rw [htail, hchars, List.cons_append], hc⟩

theorem readBack_list (h : ∀ item ∈ items, item.ReadBack) : ReadBack (.list items) := by
  intro fuel rest hfuel _
  obtain ⟨fuel, rfl⟩ := Nat.exists_eq_succ_of_ne_zero (Nat.ne_zero_of_lt hfuel)
  by_cases hne : items = []
  · simp [hne, chars, itemChars, readValue?, skipBlanks_cons, isBlank]
  · have hlength : (itemChars items).length < fuel := by
      rw [chars, List.length_cons] at hfuel
      omega
    have hitems := readItems?_itemChars hne h hlength rest
    obtain ⟨c, cs, hchars, hblank, hbracket⟩ := exists_itemChars_eq_cons hne
    rw [hchars, List.cons_append] at hitems
    have hskip := skipBlanks_cons hblank (cs ++ rest)
    simp [chars, hchars, readValue?, skipBlanks_cons, isBlank, hskip, hbracket, hitems]

theorem exists_fieldChars_eq_cons (hne : fields ≠ []) : ∃ cs, fieldChars fields = '"' :: cs := by
  obtain ⟨⟨key, value⟩, fields, rfl⟩ := List.exists_cons_of_ne_nil hne
  cases fields <;> exact ⟨_, rfl⟩

theorem readBack_object (ordered : fields.Ordered) (h : ∀ field ∈ fields, field.2.ReadBack) :
    ReadBack (.object fields) := by
  intro fuel rest hfuel _
  obtain ⟨fuel, rfl⟩ := Nat.exists_eq_succ_of_ne_zero (Nat.ne_zero_of_lt hfuel)
  by_cases hne : fields = []
  · simp [hne, chars, fieldChars, readValue?, skipBlanks_cons, isBlank]
  · have hlength : (fieldChars fields).length < fuel := by
      rw [chars, List.length_cons] at hfuel
      omega
    have hfields := readFields?_fieldChars hne h hlength rest
    obtain ⟨cs, hchars⟩ := exists_fieldChars_eq_cons hne
    rw [hchars, List.cons_append] at hfields
    simp [chars, hchars, readValue?, skipBlanks_cons, hfields, isBlank,
      Fields.ofList_eq_self ordered]

theorem Regular.readBack (h : document.Regular) : document.ReadBack := by
  induction h with
  | null => exact readBack_null
  | bool value => exact readBack_bool value
  | number h => exact readBack_number h
  | text value => exact readBack_text value
  | list _ ih => exact readBack_list ih
  | object ordered _ ih => exact readBack_object ordered ih

/-- A regular document is read from its text. -/
theorem parse?_print (h : document.Regular) : parse? document.print = some document := by
  have hends : Decimal.EndsNumber [] := by
    intro c hc
    cases hc
  have hread := h.readBack (document.chars.length + 1) [] (Nat.lt_succ_self _) hends
  rw [List.append_nil] at hread
  simp [parse?, hread, skipBlanks]

/-- A document whose numbers are in double precision. -/
def InDoubles (document : Document) : Prop := document.toDoubles = document

@[simp] theorem inDoubles_null : null.InDoubles := rfl
@[simp] theorem inDoubles_bool (value : Bool) : (bool value).InDoubles := rfl
@[simp] theorem inDoubles_text (value : String) : (text value).InDoubles := rfl

@[simp] theorem inDoubles_object_iff :
    (object fields).InDoubles ↔ ∀ field ∈ fields, field.2.InDoubles := by
  rw [InDoubles, toDoubles, object.injEq]
  induction fields with
  | nil => simp [fieldsToDoubles]
  | cons field fields ih =>
    obtain ⟨key, value⟩ := field
    simp [fieldsToDoubles, InDoubles, ih]

@[simp] theorem inDoubles_list_iff : (list items).InDoubles ↔ ∀ item ∈ items, item.InDoubles := by
  rw [InDoubles, toDoubles, list.injEq]
  induction items with
  | nil => simp [itemsToDoubles]
  | cons item items ih => simp [itemsToDoubles, InDoubles, ih]

theorem inDoubles_ofInt {n : Int} (h : n.natAbs < 2 ^ 53) : (number (.ofInt n)).InDoubles := by
  rw [InDoubles, toDoubles, Decimal.toDouble?_ofInt h]

theorem not_control_of_isNumberChar {c : Char} (h : Decimal.IsNumberChar c) : 0x20 ≤ c.toNat := by
  rcases h with hdigit | rfl | rfl | rfl | rfl
  · have hzero : '0'.toNat = 0x30 := rfl
    have hcode := Char.isDigit_iff_toNat.1 hdigit
    omega
  all_goals decide

theorem not_control_of_mem_quoteChars (cs : List Char) :
    ∀ c ∈ Text.quoteChars cs, 0x20 ≤ c.toNat := by
  intro c h
  rw [Text.quoteChars, List.mem_append, List.mem_cons, List.mem_flatMap, List.mem_singleton] at h
  rcases h with (rfl | ⟨d, -, hmem⟩) | rfl
  · decide
  · exact Text.not_control_of_mem_escape hmem
  · decide

mutual

theorem not_control_of_mem_chars :
    ∀ document : Document, ∀ c ∈ document.chars, 0x20 ≤ c.toNat
  | .null | .infinite _ => by simp [chars]
  | .bool value => by cases value <;> simp [chars]
  | .number _ => fun _ h => not_control_of_isNumberChar (Decimal.isNumberChar_of_mem_chars h)
  | .text value => not_control_of_mem_quoteChars value.toList
  | .list items => by
    rw [chars, List.forall_mem_cons]
    exact ⟨by decide, not_control_of_mem_itemChars items⟩
  | .object fields => by
    rw [chars, List.forall_mem_cons]
    exact ⟨by decide, not_control_of_mem_fieldChars fields⟩

theorem not_control_of_mem_itemChars :
    ∀ items : List Document, ∀ c ∈ itemChars items, 0x20 ≤ c.toNat
  | [] => by simp [itemChars]
  | [item] => by
    rw [itemChars, List.forall_mem_append]
    exact ⟨not_control_of_mem_chars item, by simp⟩
  | item :: next :: items => by
    rw [itemChars_cons_cons, List.forall_mem_append, List.forall_mem_cons]
    exact ⟨not_control_of_mem_chars item, by decide, not_control_of_mem_itemChars (next :: items)⟩

theorem not_control_of_mem_fieldChars :
    ∀ fields : List (String × Document), ∀ c ∈ fieldChars fields, 0x20 ≤ c.toNat
  | [] => by simp [fieldChars]
  | [(key, value)] => by
    rw [fieldChars, List.forall_mem_append, List.forall_mem_append, List.forall_mem_cons]
    exact ⟨⟨not_control_of_mem_quoteChars key.toList, by decide, not_control_of_mem_chars value⟩,
      by simp⟩
  | (key, value) :: next :: fields => by
    rw [fieldChars_cons_cons, List.forall_mem_append, List.forall_mem_append,
      List.forall_mem_cons, List.forall_mem_cons]
    exact ⟨⟨not_control_of_mem_quoteChars key.toList, by decide, not_control_of_mem_chars value⟩,
      by decide, not_control_of_mem_fieldChars (next :: fields)⟩

end

end Document
end Scaffold
