import Mathlib.Data.List.Basic
import Scaffold.Proofs.Dialect.Atoms

/-!
What the options of a line say. Each is written as its word, a colon and what the declaration has
for it. The words differ and have no colon, so the text up to the first colon says which option it
is. What follows is read up to an end that its own characters cannot be taken for, and so an option
before a comma says what the declaration has (`option_append_inj`).
-/
namespace Scaffold

/-- The columns of join keys, without the tables that they refer to. -/
def JoinKeys.columns (keys : JoinKeys) : List (Option Document) := keys.map List.head?

@[simp] theorem JoinKeys.columns_ofPairs (owning other : String × String) :
    columns (.ofPairs owning other) = [some (.text owning.1), some (.text other.1)] := rfl

/-- Two declarations have the same for an option, or both have nothing. -/
def Options.Agree (first second : Options) : OptionKey → Prop
  | .values => first.values = second.values
  | .key => first.key = second.key
  | .referenced => first.referenced = second.referenced
  | .joinTable => first.joinTable = second.joinTable
  | .joinKeys => first.joinKeys.map JoinKeys.columns = second.joinKeys.map JoinKeys.columns
  | .other _ => True

/-- Join keys are two pairs, and there is no colon in their columns. -/
def Options.HasPlainColumns (options : Options) : Prop :=
  ∀ keys, options.joinKeys = some keys → ∃ owning other : String × String,
    keys = .ofPairs owning other ∧ ':' ∉ owning.1.toList ∧ ':' ∉ other.1.toList

theorem Options.HasPlainColumns.colon_notMem {options : Options} {owning other : String × String}
    (h : options.HasPlainColumns) (hkeys : options.joinKeys = some (.ofPairs owning other)) :
    ':' ∉ owning.1.toList ∧ ':' ∉ other.1.toList := by
  obtain ⟨_, _, hpairs, hcolons⟩ := h _ hkeys
  have hsame := JoinKeys.pairs?_eq_some_iff.2 hpairs
  rw [JoinKeys.pairs?_ofPairs, Option.some.injEq, Prod.mk.injEq] at hsame
  obtain ⟨rfl, rfl⟩ := hsame
  exact hcolons

theorem toList_intercalate_cons (separator first : String) (parts : List String) :
    (separator.intercalate (first :: parts)).toList =
      first.toList ++ parts.flatMap fun part => separator.toList ++ part.toList := by
  rw [String.toList_intercalate, List.map_cons]
  induction parts generalizing first with
  | nil => simp
  | cons part parts ih =>
    rw [List.map_cons, List.intercalate_cons_cons, ih, List.flatMap_cons, List.append_assoc,
      List.append_assoc]

theorem toList_intercalate_append {parts : List String} (h : parts ≠ []) (separator : String) :
    (separator.intercalate parts).toList ++ separator.toList =
      parts.flatMap fun part => part.toList ++ separator.toList := by
  obtain ⟨first, rest, rfl⟩ := List.exists_cons_of_ne_nil h
  rw [toList_intercalate_cons, List.flatMap_cons, List.append_assoc, List.append_assoc,
    List.append_right_inj]
  clear h
  induction rest with
  | nil => simp
  | cons part rest ih => simp [ih]

namespace Dialect
namespace Ecto

variable {first second : Options} {option : OptionKey} {text other : String}
  {tail rest : List Char}

def written : List OptionKey := [.values, .key, .referenced, .joinTable, .joinKeys]

def optionWord : OptionKey → String
  | .values => "values"
  | .key => "foreign_key"
  | .referenced => "references"
  | .joinTable => "join_through"
  | .joinKeys => "join_keys"
  | .other word => word

theorem mem_written_of_option? (h : ecto.option? first option = some text) :
    option ∈ written := by
  cases option with
  | other word => cases h
  | values | key | referenced | joinTable | joinKeys => decide

theorem colon_notMem_optionWord (h : option ∈ written) : ':' ∉ (optionWord option).toList := by
  have hall : ∀ option ∈ written, ':' ∉ (optionWord option).toList := by decide
  exact hall option h

theorem eq_of_optionWord_eq {option' : OptionKey} (h : option ∈ written) (h' : option' ∈ written)
    (hwords : optionWord option = optionWord option') : option = option' := by
  have hall : ∀ option ∈ written, ∀ option' ∈ written,
      optionWord option = optionWord option' → option = option' := by decide
  exact hall option h option' h' hwords

theorem exists_toList_option? (h : ecto.option? first option = some text) :
    ∃ more, text.toList = (optionWord option).toList ++ ':' :: more := by
  cases option with
  | other word => cases h
  | values | key | referenced | joinTable =>
    obtain ⟨_, -, rfl⟩ := Option.map_eq_some_iff.1 h
    simp only [ecto, optionWord, String.toList_append, List.append_assoc]
    exact ⟨_, rfl⟩
  | joinKeys =>
    obtain ⟨_, _, -, rfl⟩ := option?_joinKeys_eq_some_iff.1 h
    simp only [ecto, joinKeys, optionWord, String.toList_append, List.append_assoc]
    exact ⟨_, rfl⟩

theorem option_eq_of_append_eq {option' : OptionKey} (h : ecto.option? first option = some text)
    (h' : ecto.option? second option' = some other)
    (heq : text.toList ++ tail = other.toList ++ rest) : option = option' := by
  have hmem := mem_written_of_option? h
  have hmem' := mem_written_of_option? h'
  obtain ⟨more, htext⟩ := exists_toList_option? h
  obtain ⟨more', hother⟩ := exists_toList_option? h'
  rw [htext, hother, List.append_assoc, List.append_assoc, List.cons_append,
    List.cons_append] at heq
  obtain ⟨hword, -⟩ :=
    append_stop_inj (colon_notMem_optionWord hmem) (colon_notMem_optionWord hmem') heq
  exact eq_of_optionWord_eq hmem hmem' (String.toList_inj.1 hword)

/-- Atoms with a comma before each, up to a bracket. What follows an atom is a comma or the bracket,
and no bare atom has these. -/
theorem flatMap_atom_append_inj {values values' : List String}
    (h : (values.flatMap fun value => ',' :: ' ' :: (atom value).toList) ++ ']' :: tail =
      (values'.flatMap fun value => ',' :: ' ' :: (atom value).toList) ++ ']' :: rest) :
    values = values' ∧ tail = rest := by
  have hends : ∀ (values : List String) (tail : List Char), ∃ c more, isBareChar c = false ∧
      (values.flatMap fun value => ',' :: ' ' :: (atom value).toList) ++ ']' :: tail =
        c :: more := by
    intro values tail
    cases values with
    | nil => exact ⟨']', tail, by decide, rfl⟩
    | cons value values => exact ⟨',', _, by decide, rfl⟩
  induction values generalizing values' with
  | nil =>
    cases values' with
    | nil => simpa using h
    | cons value' values' => simp at h
  | cons value values ih =>
    cases values' with
    | nil => simp at h
    | cons value' values' =>
      simp only [List.flatMap_cons, List.cons_append, List.append_assoc, List.cons.injEq,
        true_and] at h
      obtain ⟨c, more, hc, hafter⟩ := hends values tail
      obtain ⟨d, more', hd, hafter'⟩ := hends values' rest
      rw [hafter, hafter'] at h
      obtain ⟨rfl, hmore⟩ := atom_append_inj hc hd h
      rw [← hafter, ← hafter'] at hmore
      obtain ⟨rfl, htail⟩ := ih hmore
      exact ⟨rfl, htail⟩

theorem toList_intercalate_atom_cons (value : String) (values : List String) :
    (", ".intercalate ((value :: values).map atom)).toList = (atom value).toList ++
      values.flatMap fun value => ',' :: ' ' :: (atom value).toList := by
  rw [List.map_cons, toList_intercalate_cons, List.flatMap_map]
  rfl

theorem intercalate_atom_append_inj {values values' : List String}
    (h : (", ".intercalate (values.map atom)).toList ++ ']' :: tail =
      (", ".intercalate (values'.map atom)).toList ++ ']' :: rest) :
    values = values' ∧ tail = rest := by
  have hstart : ∀ (value : String) (values : List String) (more more' : List Char),
      (", ".intercalate ((value :: values).map atom)).toList ++ more ≠ ']' :: more' := by
    intro value values more more' heq
    rw [toList_intercalate_atom_cons, atom_toList] at heq
    exact absurd (List.cons.inj heq).1 (by decide)
  cases values with
  | nil =>
    cases values' with
    | nil => simpa using h
    | cons value' values' => exact absurd h.symm (hstart value' values' _ _)
  | cons value values =>
    cases values' with
    | nil => exact absurd h (hstart value values _ _)
    | cons value' values' =>
      rw [toList_intercalate_atom_cons, toList_intercalate_atom_cons] at h
      refine flatMap_atom_append_inj ?_
      simpa only [List.flatMap_cons, List.cons_append, List.append_assoc, List.cons.injEq,
        true_and] using h

theorem word_atom_append_inj {word column column' : String}
    (h : (word ++ atom column).toList ++ ',' :: tail =
      (word ++ atom column').toList ++ ',' :: rest) :
    column = column' ∧ tail = rest := by
  simp only [String.toList_append, List.append_assoc, List.append_right_inj] at h
  obtain ⟨hcolumn, hafter⟩ := atom_append_inj (by decide) (by decide) h
  exact ⟨hcolumn, (List.cons.inj hafter).2⟩

theorem toList_joinKeys (owning other : String × String) :
    (joinKeys owning other).toList = "join_keys: [".toList ++ (owning.1.toList ++ ':' ::
      (" :id, ".toList ++ (other.1.toList ++ ':' :: " :id]".toList))) := by
  simp [joinKeys]

theorem joinKeys_append_inj {owning other owning' other' : String × String}
    (howning : ':' ∉ owning.1.toList) (hother : ':' ∉ other.1.toList)
    (howning' : ':' ∉ owning'.1.toList) (hother' : ':' ∉ other'.1.toList)
    (h : (joinKeys owning other).toList ++ tail = (joinKeys owning' other').toList ++ rest) :
    owning.1 = owning'.1 ∧ other.1 = other'.1 ∧ tail = rest := by
  simp only [toList_joinKeys, List.append_assoc, List.cons_append,
    List.append_right_inj] at h
  obtain ⟨hfirst, hafter⟩ := append_stop_inj howning howning' h
  rw [List.append_right_inj] at hafter
  obtain ⟨hsecond, hend⟩ := append_stop_inj hother hother' hafter
  exact ⟨String.toList_inj.1 hfirst, String.toList_inj.1 hsecond, List.append_cancel_left hend⟩

/-- An option before a comma says what the declaration has for it. -/
theorem option_append_inj (hfirst : first.HasPlainColumns) (hsecond : second.HasPlainColumns)
    (htext : ecto.option? first option = some text)
    (hother : ecto.option? second option = some other)
    (h : text.toList ++ ',' :: tail = other.toList ++ ',' :: rest) :
    first.Agree second option ∧ tail = rest := by
  cases option with
  | values =>
    obtain ⟨values, hvalues, rfl⟩ := Option.map_eq_some_iff.1 htext
    obtain ⟨values', hvalues', rfl⟩ := Option.map_eq_some_iff.1 hother
    simp only [ecto, String.toList_append, List.append_assoc, List.append_right_inj] at h
    obtain ⟨rfl, hafter⟩ := intercalate_atom_append_inj h
    exact ⟨hvalues.trans hvalues'.symm, (List.cons.inj hafter).2⟩
  | key | referenced =>
    obtain ⟨column, hcolumn, rfl⟩ := Option.map_eq_some_iff.1 htext
    obtain ⟨column', hcolumn', rfl⟩ := Option.map_eq_some_iff.1 hother
    obtain ⟨rfl, hafter⟩ := word_atom_append_inj h
    exact ⟨hcolumn.trans hcolumn'.symm, hafter⟩
  | joinTable =>
    obtain ⟨table, htable, rfl⟩ := Option.map_eq_some_iff.1 htext
    obtain ⟨table', htable', rfl⟩ := Option.map_eq_some_iff.1 hother
    simp only [ecto, Text.quote, String.toList_append, String.toList_ofList, List.append_assoc,
      List.append_right_inj] at h
    obtain ⟨rfl, hafter⟩ := quoteChars_append_inj h
    exact ⟨htable.trans htable'.symm, (List.cons.inj hafter).2⟩
  | joinKeys =>
    obtain ⟨owning, target, hkeys, rfl⟩ := option?_joinKeys_eq_some_iff.1 htext
    obtain ⟨owning', target', hkeys', rfl⟩ := option?_joinKeys_eq_some_iff.1 hother
    obtain ⟨howning, htarget⟩ := hfirst.colon_notMem hkeys
    obtain ⟨howning', htarget'⟩ := hsecond.colon_notMem hkeys'
    obtain ⟨hcolumn, hcolumn', hafter⟩ :=
      joinKeys_append_inj howning htarget howning' htarget' h
    refine ⟨?_, (List.cons.inj hafter).2⟩
    simp [Options.Agree, hkeys, hkeys', hcolumn, hcolumn']
  | other word => cases htext

theorem joinKeys_eq_none_of_option? (h : first.HasPlainColumns) (hnone : ecto.option? first .joinKeys = none) :
    first.joinKeys = none := by
  cases hkeys : first.joinKeys with
  | none => rfl
  | some keys =>
    obtain ⟨_, _, rfl, -⟩ := h keys hkeys
    simp [option?, hkeys] at hnone

theorem agree_of_option?_eq_none (hfirst : first.HasPlainColumns)
    (hsecond : second.HasPlainColumns) (hnone : ecto.option? first option = none)
    (hnone' : ecto.option? second option = none) : first.Agree second option := by
  cases option with
  | other word => trivial
  | values | key | referenced | joinTable =>
    exact (Option.map_eq_none_iff.1 hnone).trans (Option.map_eq_none_iff.1 hnone').symm
  | joinKeys =>
    rw [Options.Agree, joinKeys_eq_none_of_option? hfirst hnone, joinKeys_eq_none_of_option? hsecond hnone']

end Ecto
end Dialect
end Scaffold
