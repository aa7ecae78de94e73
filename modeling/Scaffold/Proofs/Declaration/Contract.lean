import Scaffold.Declaration.Reader
import Scaffold.Proofs.Checked.Acceptance
import Scaffold.Proofs.Document.Form

/-!
Declarations that keep the contract: the ones that are read back from the document that writes them.
Options fit a kind if they are options of this kind and none of their texts but the values of a
field is empty. A declaration whose options fit and whose subject is not empty keeps the contract
exactly if it has a name.
-/
namespace Scaffold

namespace Fields

theorem mem_keys_toList_iff {α : Type} {value? : Option α} {key other : String}
    {write : α → Document} :
    other ∈ keys (value?.map fun value => (key, write value)).toList ↔
      value?.isSome = true ∧ other = key := by
  cases value? <;> simp [keys]

theorem otherKeys_eq_nil_iff {fields : Fields} {known : List String} :
    fields.otherKeys known = [] ↔ ∀ key ∈ fields.keys, key ∈ known := by
  rw [otherKeys]
  split
  · next h => simpa using h
  · next h =>
    have hnot : ¬∀ key ∈ fields.keys, key ∈ known := by
      intro hall
      exact h (by simpa using hall)
    simp [hnot]

end Fields

namespace Check

variable {α : Type}

theorem accepts_strict {known : List String} {check : Fields → Checked α}
    {document : Option Document} {value : α} :
    (strict known check document).Accepts value ↔
      ∃ fields, document.bind Document.object? = some fields ∧ (check fields).Accepts value ∧
        ∀ key ∈ fields.keys, key ∈ known := by
  simp only [strict, accepts_object, Checked.accepts_note, Fields.otherKeys_eq_nil_iff]

theorem accepts_pair {check : Check α} {document : Option Document} {value : α × α} :
    (pair check document).Accepts value ↔
      ∃ first second, document.bind Document.list? = some [first, second] ∧
        (check (some first)).Accepts value.1 ∧ (check (some second)).Accepts value.2 := by
  rw [pair, accepts_ofType]
  constructor
  · rintro ⟨items, hitems, haccepts⟩
    split at haccepts
    · next first second others =>
      obtain ⟨hothers, haccepts⟩ := Checked.accepts_prepend.1 haccepts
      have hnone : others = [] := by
        by_contra hsome
        simp [hsome] at hothers
      simp only [Checked.accepts_seq, Checked.accepts_map, Checked.accepts_within] at haccepts
      obtain ⟨_, ⟨x, hx, rfl⟩, y, hy, rfl⟩ := haccepts
      exact ⟨first, second, by rw [hitems, hnone], hx, hy⟩
    · exact absurd haccepts Checked.not_accepts_refused
  · rintro ⟨first, second, hitems, hfirst, hsecond⟩
    refine ⟨_, hitems, Checked.accepts_prepend.2 ⟨rfl, ?_⟩⟩
    simp only [Checked.accepts_seq, Checked.accepts_map, Checked.accepts_within]
    exact ⟨_, ⟨value.1, hfirst, rfl⟩, value.2, hsecond, rfl⟩

theorem accepts_name_text {text : String} :
    (name (some (.text text))).Accepts text ↔ text ≠ "" := by
  simp [accepts_name, Document.text?]

theorem accepts_texts (values : List String) :
    (listOf anyText (some (Document.texts values))).Accepts values := by
  refine accepts_listOf.2 ⟨values.map .text, rfl, ?_⟩
  rw [List.forall₂_map_left_iff, List.forall₂_same]
  intro value _
  exact accepts_anyText.2 rfl

end Check

namespace Options

inductive Fits : Kind → Options → Prop
  | field (values : Option (List String)) : Fits .field { values }
  | keyed {kind : Kind} (hkind : kind = .belongsTo ∨ kind = .hasMany ∨ kind = .hasOne)
      {key referenced : Option String} (hkey : ∀ column ∈ key, column ≠ "")
      (hreferenced : ∀ column ∈ referenced, column ≠ "") : Fits kind { key, referenced }
  | manyToMany {key joinTable : Option String} {joinKeys : Option JoinKeys}
      (hkey : ∀ column ∈ key, column ≠ "") (htable : ∀ table ∈ joinTable, table ≠ "")
      (hkeys : ∀ keys ∈ joinKeys, ∃ first second, keys = .ofPairs first second ∧
        (first.1 ≠ "" ∧ first.2 ≠ "") ∧ second.1 ≠ "" ∧ second.2 ≠ "") :
      Fits .manyToMany { key, joinTable, joinKeys }

def fieldsOf (options : Options) : Fields :=
  (options.values.map fun values => ("values", Document.texts values)).toList ++
    (options.key.map fun column => ("fk", Document.text column)).toList ++
    (options.referenced.map fun column => ("ref", Document.text column)).toList ++
    (options.joinTable.map fun table => ("joinThrough", Document.text table)).toList ++
    (options.joinKeys.map fun keys => ("joinKeys", JoinKeys.toDocument keys)).toList

variable (options : Options)

theorem toDocument_eq : options.toDocument = .object options.fieldsOf := rfl

@[simp] theorem get?_values : options.fieldsOf.get? "values" = options.values.map .texts := by
  simp [fieldsOf, Fields.get?_append, Fields.get?_toList]
@[simp] theorem get?_key : options.fieldsOf.get? "fk" = options.key.map .text := by
  simp [fieldsOf, Fields.get?_append, Fields.get?_toList]
@[simp] theorem get?_referenced : options.fieldsOf.get? "ref" = options.referenced.map .text := by
  simp [fieldsOf, Fields.get?_append, Fields.get?_toList]
@[simp] theorem get?_joinTable :
    options.fieldsOf.get? "joinThrough" = options.joinTable.map .text := by
  simp [fieldsOf, Fields.get?_append, Fields.get?_toList]
@[simp] theorem get?_joinKeys :
    options.fieldsOf.get? "joinKeys" = options.joinKeys.map JoinKeys.toDocument := by
  simp [fieldsOf, Fields.get?_append, Fields.get?_toList]

variable {options} {kind : Kind}

theorem Fits.key_ne_empty (h : Fits kind options) : ∀ column ∈ options.key, column ≠ "" := by
  cases h with
  | field values =>
    intro column hcolumn
    cases hcolumn
  | keyed hkind hkey hreferenced => exact hkey
  | manyToMany hkey htable hkeys => exact hkey

theorem mem_keys_fieldsOf_iff {key : String} :
    key ∈ options.fieldsOf.keys ↔
      options.values.isSome ∧ key = "values" ∨ options.key.isSome ∧ key = "fk" ∨
        options.referenced.isSome ∧ key = "ref" ∨ options.joinTable.isSome ∧ key = "joinThrough" ∨
        options.joinKeys.isSome ∧ key = "joinKeys" := by
  simp only [fieldsOf, Fields.keys_append, List.mem_append, Fields.mem_keys_toList_iff, or_assoc]

theorem Fits.mem_known (h : Fits kind options) {key : String} (hkey : key ∈ options.fieldsOf.keys) :
    key ∈ known kind := by
  rw [mem_keys_fieldsOf_iff] at hkey
  cases h with
  | field values =>
    have hvalues : key = "values" := by
      simp only [Option.isSome_none, Bool.false_eq_true, false_and, or_false] at hkey
      exact hkey.2
    simp [known, hvalues]
  | keyed hkind hcolumn hreferenced =>
    have hknown : known kind = ["fk", "ref"] := by
      rcases hkind with rfl | rfl | rfl <;> rfl
    have hfields : key = "fk" ∨ key = "ref" := by
      simp only [Option.isSome_none, Bool.false_eq_true, false_and, false_or, or_false] at hkey
      exact hkey.imp And.right And.right
    simpa [hknown] using hfields
  | manyToMany hcolumn htable hkeys =>
    have hfields : key = "fk" ∨ key = "joinThrough" ∨ key = "joinKeys" := by
      simp only [Option.isSome_none, Bool.false_eq_true, false_and, false_or] at hkey
      exact hkey.imp And.right (Or.imp And.right And.right)
    simpa [known] using hfields

theorem accepts_name? {value? : Option String} (h : ∀ value ∈ value?, value ≠ "") :
    (Check.optional Check.name (value?.map .text)).Accepts value? := by
  cases value? with
  | none => exact Checked.accepts_pure.2 rfl
  | some value => exact Checked.accepts_map.2 ⟨value, Check.accepts_name_text.2 (h value rfl), rfl⟩

theorem accepts_texts? (values? : Option (List String)) :
    (Check.optional (Check.listOf Check.anyText) (values?.map .texts)).Accepts values? := by
  cases values? with
  | none => exact Checked.accepts_pure.2 rfl
  | some values => exact Checked.accepts_map.2 ⟨values, Check.accepts_texts values, rfl⟩

theorem accepts_ofPairs {first second : String × String} (hfirst : first.1 ≠ "" ∧ first.2 ≠ "")
    (hsecond : second.1 ≠ "" ∧ second.2 ≠ "") :
    (checkJoinKeys (some (JoinKeys.ofPairs first second).toDocument)).Accepts
      (.ofPairs first second) := by
  have hname : ∀ ends : String × String, ends.1 ≠ "" ∧ ends.2 ≠ "" →
      (Check.pair Check.name (some (.list [.text ends.1, .text ends.2]))).Accepts ends := by
    intro ends hends
    exact Check.accepts_pair.2 ⟨_, _, rfl, Check.accepts_name_text.2 hends.1,
      Check.accepts_name_text.2 hends.2⟩
  refine Checked.accepts_map.2 ⟨(first, second), ?_, rfl⟩
  exact Check.accepts_pair.2 ⟨_, _, rfl, hname first hfirst, hname second hsecond⟩

theorem accepts_joinKeys? {joinKeys : Option JoinKeys}
    (h : ∀ keys ∈ joinKeys, ∃ first second, keys = .ofPairs first second ∧
      (first.1 ≠ "" ∧ first.2 ≠ "") ∧ second.1 ≠ "" ∧ second.2 ≠ "") :
    (Check.optional checkJoinKeys (joinKeys.map JoinKeys.toDocument)).Accepts joinKeys := by
  cases joinKeys with
  | none => exact Checked.accepts_pure.2 rfl
  | some keys =>
    obtain ⟨first, second, rfl, hfirst, hsecond⟩ := h keys rfl
    exact Checked.accepts_map.2 ⟨_, accepts_ofPairs hfirst hsecond, rfl⟩

theorem Fits.accepts (h : Fits kind options) :
    (Options.check kind (some options.toDocument)).Accepts options := by
  rw [toDocument_eq]
  refine Check.accepts_strict.2 ⟨options.fieldsOf, rfl, ?_, fun _ => h.mem_known⟩
  cases h with
  | @field values =>
    refine Checked.accepts_map.2 ⟨values, ?_, rfl⟩
    rw [Fields.accepts_check, get?_values]
    exact accepts_texts? values
  | @keyed kind hkind key referenced hcolumn hreferenced =>
    have hparts : ((fun key referenced => { key, referenced : Options }) <$>
        Fields.check (fieldsOf { key, referenced }) "fk" (Check.optional Check.name) <*>
        Fields.check (fieldsOf { key, referenced }) "ref" (Check.optional Check.name)).Accepts
          { key, referenced } := by
      refine Checked.accepts_seq.2 ⟨_, Checked.accepts_map.2 ⟨key, ?_, rfl⟩, referenced, ?_, rfl⟩
      · rw [Fields.accepts_check, get?_key]
        exact accepts_name? hcolumn
      · rw [Fields.accepts_check, get?_referenced]
        exact accepts_name? hreferenced
    rcases hkind with rfl | rfl | rfl <;> exact hparts
  | @manyToMany key joinTable joinKeys hcolumn htable hkeys =>
    refine Checked.accepts_seq.2 ⟨_, Checked.accepts_seq.2 ⟨_, Checked.accepts_map.2
      ⟨key, ?_, rfl⟩, joinTable, ?_, rfl⟩, _, ?_, rfl⟩
    · rw [Fields.accepts_check, get?_key]
      exact accepts_name? hcolumn
    · rw [Fields.accepts_check, get?_joinTable]
      exact accepts_name? htable
    · rw [Fields.accepts_check, get?_joinKeys]
      exact accepts_joinKeys? hkeys

end Options

namespace Declaration

variable {declaration : Declaration}

def fieldsOf (declaration : Declaration) : Fields :=
  [("kind", .text declaration.kind.word), ("name", .text declaration.name),
    (declaration.kind.subjectWord, .text declaration.subject),
    ("options", declaration.options.toDocument)]

theorem toDocument_eq (declaration : Declaration) :
    declaration.toDocument = .object declaration.fieldsOf := rfl

@[simp] theorem get?_kind :
    declaration.fieldsOf.get? "kind" = some (.text declaration.kind.word) := rfl
@[simp] theorem get?_name : declaration.fieldsOf.get? "name" = some (.text declaration.name) := rfl
@[simp] theorem get?_subject :
    declaration.fieldsOf.get? declaration.kind.subjectWord = some (.text declaration.subject) := by
  obtain ⟨kind, name, subject, options⟩ := declaration
  cases kind <;> rfl
@[simp] theorem get?_options :
    declaration.fieldsOf.get? "options" = some declaration.options.toDocument := by
  obtain ⟨kind, name, subject, options⟩ := declaration
  cases kind <;> rfl

theorem check_toDocument (declaration : Declaration) :
    check (some declaration.toDocument) =
      checkKind declaration.kind (some declaration.toDocument) := by
  have hkind : kind? declaration.fieldsOf = some declaration.kind := by
    simp [kind?, Document.text?]
  simp only [check, Check.object, Check.ofType, toDocument_eq, Document.object?, hkind]

/-- The declaration is read back from the document that writes it. -/
def KeepsContract (declaration : Declaration) : Prop :=
  (check (some declaration.toDocument)).result = .ok declaration

/-- With a subject and options that fit, a declaration keeps the contract exactly if it has a
name. -/
theorem keepsContract_iff (hsubject : declaration.subject ≠ "")
    (hoptions : declaration.options.Fits declaration.kind) :
    declaration.KeepsContract ↔ declaration.name ≠ "" := by
  rw [KeepsContract, Checked.result_eq_ok_iff_accepts, check_toDocument, checkKind,
    toDocument_eq, Check.accepts_strict]
  constructor
  · rintro ⟨fields, hfields, haccepts, -⟩
    obtain rfl : declaration.fieldsOf = fields := Option.some.inj hfields
    simp only [Checked.accepts_seq, Checked.accepts_map, Fields.accepts_check,
      get?_name] at haccepts
    obtain ⟨_, ⟨_, ⟨name, hname, rfl⟩, subject, -, rfl⟩, options, -, hdeclaration⟩ := haccepts
    have hsame : name = declaration.name := congrArg Declaration.name hdeclaration
    rw [← hsame]
    exact (Check.accepts_name.1 hname).2
  · intro hname
    refine ⟨declaration.fieldsOf, rfl, ?_, ?_⟩
    · simp only [Checked.accepts_seq, Checked.accepts_map, Fields.accepts_check, get?_name,
        get?_subject, get?_options]
      exact ⟨_, ⟨_, ⟨declaration.name, Check.accepts_name_text.2 hname, rfl⟩, declaration.subject,
        Check.accepts_name_text.2 hsubject, rfl⟩, declaration.options, hoptions.accepts, rfl⟩
    · intro key hkey
      exact hkey

end Declaration
end Scaffold
