import Scaffold.Proofs.Declaration.Contract

/-!
The grammar of the documents that are accepted as declarations. An object has the keys and options
of its kind and no others, so the declaration that is read from it holds all of its data:
`check_accepts_form_iff` says which documents are accepted, and that nothing in them is lost.
-/
namespace Scaffold

theorem Document.isListOf_isText_iff {document : Document} :
    document.IsListOf (IsText fun _ => True) ↔ ∃ values, document = .texts values := by
  have hitems : ∀ items : List Document, (∀ item ∈ items, item.IsText fun _ => True) ↔
      ∃ values : List String, items = values.map .text := by
    intro items
    induction items with
    | nil => simp
    | cons item items ih =>
      rw [List.forall_mem_cons, ih]
      constructor
      · rintro ⟨⟨value, rfl, -⟩, values, rfl⟩
        exact ⟨value :: values, rfl⟩
      · rintro ⟨values, hvalues⟩
        obtain ⟨value, rest, rfl, rfl, rfl⟩ := List.map_eq_cons_iff.1 hvalues.symm
        exact ⟨⟨value, rfl, trivial⟩, rest, rfl⟩
  simp only [IsListOf, hitems, texts]
  constructor
  · rintro ⟨_, rfl, values, rfl⟩
    exact ⟨values, rfl⟩
  · rintro ⟨values, rfl⟩
    exact ⟨_, rfl, values, rfl⟩

namespace Checked

variable {α β : Type}

theorem exists_accepts_map {f : α → β} {c : Checked α} :
    (∃ value, (f <$> c).Accepts value) ↔ ∃ x, c.Accepts x := by
  simp only [accepts_map]
  constructor
  · rintro ⟨_, x, hx, rfl⟩
    exact ⟨x, hx⟩
  · rintro ⟨x, hx⟩
    exact ⟨_, x, hx, rfl⟩

theorem exists_accepts_seq {f : Checked (α → β)} {c : Checked α} :
    (∃ value, (f <*> c).Accepts value) ↔ (∃ g, f.Accepts g) ∧ ∃ x, c.Accepts x := by
  simp only [accepts_seq]
  constructor
  · rintro ⟨_, g, hg, x, hx, rfl⟩
    exact ⟨⟨g, hg⟩, x, hx⟩
  · rintro ⟨⟨g, hg⟩, x, hx⟩
    exact ⟨_, g, hg, x, hx, rfl⟩

end Checked

namespace Check

variable {α β : Type} {check : Check α} {form : Document → Prop} {write : α → Document}
  {document : Option Document}

/-- A check accepts exactly the documents of a form, each as a value that writes the same data. -/
structure Exact (check : Check α) (form : Document → Prop) (write : α → Document) : Prop where
  accepts_iff : ∀ document, (∃ value, (check document).Accepts value) ↔
    ∃ given, document = some given ∧ form given
  same : ∀ {given value}, (check (some given)).Accepts value → (write value).Same given

theorem Exact.accepts_some_iff (h : check.Exact form write) (given : Document) :
    (∃ value, (check (some given)).Accepts value) ↔ form given := by
  simp [h.accepts_iff]

theorem Exact.rel (h : check.Exact form write) {value : α}
    (haccepts : (check document).Accepts value) :
    Option.Rel Document.Same (some (write value)) document := by
  obtain ⟨given, rfl, -⟩ := (h.accepts_iff document).1 ⟨value, haccepts⟩
  exact .some (h.same haccepts)

theorem exact_name : name.Exact (Document.IsText (· ≠ "")) .text := by
  have hname : ∀ document value, (name document).Accepts value ↔
      document = some (.text value) ∧ value ≠ "" := by
    intro document value
    simp [accepts_name, Option.bind_eq_some_iff, Document.text?_eq_some_iff]
  constructor
  · intro document
    simp only [hname]
    constructor
    · rintro ⟨value, rfl, hvalue⟩
      exact ⟨_, rfl, value, rfl, hvalue⟩
    · rintro ⟨_, rfl, value, rfl, hvalue⟩
      exact ⟨value, rfl, hvalue⟩
  · intro given value haccepts
    obtain rfl := Option.some.inj ((hname _ _).1 haccepts).1
    exact .refl _

theorem exact_texts :
    (listOf anyText).Exact (Document.IsListOf (Document.IsText fun _ => True)) Document.texts := by
  have htexts : ∀ document values, (listOf anyText document).Accepts values ↔
      document = some (Document.texts values) := by
    intro document values
    constructor
    · intro h
      obtain ⟨items, hitems, hvalues⟩ := accepts_listOf.1 h
      obtain ⟨given, rfl, hlist⟩ := Option.bind_eq_some_iff.1 hitems
      obtain rfl := Document.list?_eq_some_iff.1 hlist
      have hmap : items = values.map .text := by
        rw [← List.forall₂_eq_eq_eq, List.forall₂_map_right_iff]
        apply hvalues.imp
        intro item value hitem
        simpa [accepts_anyText, Document.text?_eq_some_iff] using hitem
      rw [hmap, Document.texts]
    · rintro rfl
      exact accepts_texts values
  constructor
  · intro document
    simp only [htexts, Document.isListOf_isText_iff]
    constructor
    · rintro ⟨values, rfl⟩
      exact ⟨_, rfl, values, rfl⟩
    · rintro ⟨_, rfl, values, rfl⟩
      exact ⟨values, rfl⟩
  · intro given values haccepts
    obtain rfl := Option.some.inj ((htexts _ _).1 haccepts)
    exact .refl _

theorem Exact.map (h : check.Exact form write) {f : α → β} {write' : β → Document}
    (hwrite : ∀ value, write' (f value) = write value) :
    Exact (fun document => f <$> check document) form write' where
  accepts_iff document := Checked.exists_accepts_map.trans (h.accepts_iff document)
  same haccepts := by
    obtain ⟨value, hvalue, rfl⟩ := Checked.accepts_map.1 haccepts
    rw [hwrite]
    exact h.same hvalue

theorem Exact.pair (h : check.Exact form write) :
    (pair check).Exact (Document.IsPairOf form)
      fun value => .list [write value.1, write value.2] where
  accepts_iff document := by
    simp only [accepts_pair, Document.IsPairOf, Option.bind_eq_some_iff,
      Document.list?_eq_some_iff]
    constructor
    · rintro ⟨value, first, second, ⟨_, rfl, rfl⟩, hfirst, hsecond⟩
      exact ⟨_, rfl, first, second, rfl, (h.accepts_some_iff first).1 ⟨_, hfirst⟩,
        (h.accepts_some_iff second).1 ⟨_, hsecond⟩⟩
    · rintro ⟨_, rfl, first, second, rfl, hfirst, hsecond⟩
      obtain ⟨x, hx⟩ := (h.accepts_some_iff first).2 hfirst
      obtain ⟨y, hy⟩ := (h.accepts_some_iff second).2 hsecond
      exact ⟨(x, y), first, second, ⟨_, rfl, rfl⟩, hx, hy⟩
  same haccepts := by
    obtain ⟨first, second, hlist, hfirst, hsecond⟩ := accepts_pair.1 haccepts
    obtain rfl := Document.list?_eq_some_iff.1 hlist
    exact .list (.cons (h.same hfirst) (.cons (h.same hsecond) .nil))

theorem Exact.accepts_optional_iff (h : check.Exact form write) :
    (∃ value, (optional check document).Accepts value) ↔
      ∀ given, document = some given → form given := by
  cases document with
  | none => simp [optional]
  | some document =>
    rw [optional, Checked.exists_accepts_map, h.accepts_some_iff]
    simp

theorem Exact.rel_optional (h : check.Exact form write) {value? : Option α}
    (haccepts : (optional check document).Accepts value?) :
    Option.Rel Document.Same (value?.map write) document := by
  cases document with
  | none =>
    obtain rfl := Checked.accepts_pure.1 haccepts
    exact .none
  | some document =>
    obtain ⟨value, hvalue, rfl⟩ := Checked.accepts_map.1 haccepts
    exact .some (h.same hvalue)

/-- A check of a strict object is exact if what it reads under each key is written back there. -/
theorem exact_strict (toFields : α → Fields) {known : List String} {next : Fields → Checked α}
    {required allowed : List (String × (Document → Prop))}
    (hknown : (required ++ allowed).map (·.1) = known)
    (hnext : ∀ fields : Fields, (∃ value, (next fields).Accepts value) ↔
      (∀ entry ∈ required, ∃ value, fields.get? entry.1 = some value ∧ entry.2 value) ∧
        ∀ entry ∈ allowed, ∀ value, fields.get? entry.1 = some value → entry.2 value)
    (hwrite : ∀ fields value, (next fields).Accepts value →
      (∀ key ∈ (toFields value).keys, key ∈ known) ∧
        ∀ key ∈ known, Option.Rel Document.Same ((toFields value).get? key) (fields.get? key)) :
    (strict known next).Exact (Document.IsStrict required allowed)
      fun value => .object (toFields value) where
  accepts_iff document := by
    simp only [accepts_strict, Document.IsStrict, Document.IsObject, ← hnext, hknown,
      Option.bind_eq_some_iff, Document.object?_eq_some_iff]
    constructor
    · rintro ⟨value, fields, ⟨_, rfl, rfl⟩, haccepts, hfields⟩
      exact ⟨_, rfl, ⟨fields, rfl, value, haccepts⟩, hfields⟩
    · rintro ⟨_, rfl, ⟨fields, rfl, value, haccepts⟩, hfields⟩
      exact ⟨value, fields, ⟨_, rfl, rfl⟩, haccepts, hfields⟩
  same {given value} haccepts := by
    obtain ⟨fields, hobject, hvalue, hfields⟩ := accepts_strict.1 haccepts
    obtain rfl := Document.object?_eq_some_iff.1 hobject
    obtain ⟨hkeys, hsame⟩ := hwrite fields value hvalue
    refine .object fun key => ?_
    by_cases hkey : key ∈ known
    · exact hsame key hkey
    · rw [Fields.get?_eq_none fun hmem => hkey (hkeys key hmem),
        Fields.get?_eq_none fun hmem => hkey (hfields key hmem)]
      exact .none

end Check

namespace Options

/-- The form of the options of a kind. Of their texts only the values of a field may be empty. -/
def IsForm : Kind → Document → Prop
  | .field =>
    Document.IsStrict [] [("values", Document.IsListOf (Document.IsText fun _ => True))]
  | .belongsTo | .hasMany | .hasOne =>
    Document.IsStrict [] [("fk", Document.IsText (· ≠ "")), ("ref", Document.IsText (· ≠ ""))]
  | .manyToMany =>
    Document.IsStrict [] [("fk", Document.IsText (· ≠ "")),
      ("joinThrough", Document.IsText (· ≠ "")),
      ("joinKeys", Document.IsPairOf (Document.IsPairOf (Document.IsText (· ≠ ""))))]

theorem exact_field : (check .field).Exact (IsForm .field) toDocument := by
  refine Check.exact_strict fieldsOf rfl ?_ ?_
  · intro fields
    simp [Checked.exists_accepts_map, Check.exact_texts.accepts_optional_iff]
  · intro fields options haccepts
    obtain ⟨values, hvalues, rfl⟩ := Checked.accepts_map.1 haccepts
    have hvalues := Check.exact_texts.rel_optional (Fields.accepts_check.1 hvalues)
    simp [mem_keys_fieldsOf_iff, known, hvalues]

theorem exact_keyed :
    (Check.strict ["fk", "ref"] fun fields =>
      (fun key referenced => { key, referenced : Options }) <$>
        fields.check "fk" (Check.optional Check.name) <*>
        fields.check "ref" (Check.optional Check.name)).Exact
      (Document.IsStrict [] [("fk", Document.IsText (· ≠ "")), ("ref", Document.IsText (· ≠ ""))])
      toDocument := by
  refine Check.exact_strict fieldsOf rfl ?_ ?_
  · intro fields
    simp [Checked.exists_accepts_seq, Checked.exists_accepts_map,
      Check.exact_name.accepts_optional_iff]
  · intro fields options haccepts
    obtain ⟨_, hpart, referenced, hreferenced, rfl⟩ := Checked.accepts_seq.1 haccepts
    obtain ⟨key, hkey, rfl⟩ := Checked.accepts_map.1 hpart
    have hkey := Check.exact_name.rel_optional (Fields.accepts_check.1 hkey)
    have hreferenced := Check.exact_name.rel_optional (Fields.accepts_check.1 hreferenced)
    simp [mem_keys_fieldsOf_iff, or_imp, forall_and, hkey, hreferenced]

theorem exact_joinKeys :
    checkJoinKeys.Exact (Document.IsPairOf (Document.IsPairOf (Document.IsText (· ≠ ""))))
      JoinKeys.toDocument :=
  Check.exact_name.pair.pair.map fun _ => rfl

theorem exact_manyToMany : (check .manyToMany).Exact (IsForm .manyToMany) toDocument := by
  refine Check.exact_strict fieldsOf rfl ?_ ?_
  · intro fields
    simp [Checked.exists_accepts_seq, Checked.exists_accepts_map, and_assoc,
      Check.exact_name.accepts_optional_iff, exact_joinKeys.accepts_optional_iff]
  · intro fields options haccepts
    obtain ⟨_, hparts, joinKeys, hjoinKeys, rfl⟩ := Checked.accepts_seq.1 haccepts
    obtain ⟨_, hpart, joinTable, hjoinTable, rfl⟩ := Checked.accepts_seq.1 hparts
    obtain ⟨key, hkey, rfl⟩ := Checked.accepts_map.1 hpart
    have hkey := Check.exact_name.rel_optional (Fields.accepts_check.1 hkey)
    have hjoinTable := Check.exact_name.rel_optional (Fields.accepts_check.1 hjoinTable)
    have hjoinKeys := exact_joinKeys.rel_optional (Fields.accepts_check.1 hjoinKeys)
    simp [mem_keys_fieldsOf_iff, known, or_imp, forall_and, hkey, hjoinTable, hjoinKeys]

theorem exact_check (kind : Kind) : (check kind).Exact (IsForm kind) toDocument := by
  cases kind with
  | field => exact exact_field
  | belongsTo | hasMany | hasOne => exact exact_keyed
  | manyToMany => exact exact_manyToMany

end Options

theorem Kind.eq_word_of_ofWord? {word : String} {kind : Kind} (h : ofWord? word = some kind) :
    word = kind.word := by
  have hword := List.find?_some h
  exact (eq_of_beq hword).symm

namespace Declaration

/-- The form of a declaration. Its kind says which key it has for its subject and which options. -/
def IsForm (document : Document) : Prop :=
  ∃ kind : Kind, document.IsStrict
    [("kind", (· = .text kind.word)), ("name", Document.IsText (· ≠ "")),
      (kind.subjectWord, Document.IsText (· ≠ "")), ("options", Options.IsForm kind)] []

theorem kind?_eq_some_iff {fields : Fields} {kind : Kind} :
    kind? fields = some kind ↔ fields.get? "kind" = some (.text kind.word) := by
  simp only [kind?, Option.bind_eq_some_iff, Document.text?_eq_some_iff]
  constructor
  · rintro ⟨_, hkind, word, rfl, hword⟩
    rw [hkind, Kind.eq_word_of_ofWord? hword]
  · intro hkind
    exact ⟨_, hkind, _, rfl, Kind.ofWord?_word kind⟩

theorem accepts_check_iff {document : Document} {declaration : Declaration} :
    (check (some document)).Accepts declaration ↔ ∃ fields : Fields, document = .object fields ∧
      fields.get? "kind" = some (.text declaration.kind.word) ∧
      (Check.name (fields.get? "name")).Accepts declaration.name ∧
      (Check.name (fields.get? declaration.kind.subjectWord)).Accepts declaration.subject ∧
      (Options.check declaration.kind (fields.get? "options")).Accepts declaration.options ∧
      ∀ key ∈ fields.keys, key ∈ ["kind", "name", declaration.kind.subjectWord, "options"] := by
  simp only [check, Check.accepts_object, Option.bind_some, Document.object?_eq_some_iff]
  constructor
  · rintro ⟨fields, rfl, haccepts⟩
    split at haccepts
    · next kind hkind =>
      obtain ⟨_, hfields, hparts, hkeys⟩ := Check.accepts_strict.1 haccepts
      obtain rfl := Option.some.inj hfields
      simp only [Checked.accepts_seq, Checked.accepts_map, Fields.accepts_check] at hparts
      obtain ⟨_, ⟨_, ⟨name, hname, rfl⟩, subject, hsubject, rfl⟩, options, hoptions, rfl⟩ := hparts
      exact ⟨_, rfl, kind?_eq_some_iff.1 hkind, hname, hsubject, hoptions, hkeys⟩
    · exact absurd haccepts Checked.not_accepts_refused
  · rintro ⟨fields, rfl, hkind, hname, hsubject, hoptions, hkeys⟩
    refine ⟨fields, rfl, ?_⟩
    rw [kind?_eq_some_iff.2 hkind]
    refine Check.accepts_strict.2 ⟨fields, rfl, ?_, hkeys⟩
    simp only [Checked.accepts_seq, Checked.accepts_map, Fields.accepts_check]
    exact ⟨_, ⟨_, ⟨_, hname, rfl⟩, _, hsubject, rfl⟩, _, hoptions, rfl⟩

theorem isForm_of_accepts {document : Document} {declaration : Declaration}
    (h : (check (some document)).Accepts declaration) : IsForm document := by
  obtain ⟨fields, rfl, hkind, hname, hsubject, hoptions, hkeys⟩ := accepts_check_iff.1 h
  have hname := (Check.exact_name.accepts_iff _).1 ⟨_, hname⟩
  have hsubject := (Check.exact_name.accepts_iff _).1 ⟨_, hsubject⟩
  have hoptions := ((Options.exact_check _).accepts_iff _).1 ⟨_, hoptions⟩
  refine ⟨declaration.kind, ⟨fields, rfl, ?_, by simp⟩, hkeys⟩
  simpa [hkind] using ⟨hname, hsubject, hoptions⟩

theorem exists_accepts_of_isForm {document : Document} (h : IsForm document) :
    ∃ declaration, (check (some document)).Accepts declaration := by
  obtain ⟨kind, ⟨fields, rfl, hrequired, -⟩, hkeys⟩ := h
  simp only [List.forall_mem_cons] at hrequired
  obtain ⟨⟨_, hkind, rfl⟩, hname, hsubject, hoptions, -⟩ := hrequired
  obtain ⟨name, hname⟩ := (Check.exact_name.accepts_iff _).2 hname
  obtain ⟨subject, hsubject⟩ := (Check.exact_name.accepts_iff _).2 hsubject
  obtain ⟨options, hoptions⟩ := ((Options.exact_check _).accepts_iff _).2 hoptions
  exact ⟨⟨kind, name, subject, options⟩,
    accepts_check_iff.2 ⟨fields, rfl, hkind, hname, hsubject, hoptions, hkeys⟩⟩

theorem same_of_accepts {document : Document} {declaration : Declaration}
    (h : (check (some document)).Accepts declaration) : declaration.toDocument.Same document := by
  obtain ⟨fields, rfl, hkind, hname, hsubject, hoptions, hkeys⟩ := accepts_check_iff.1 h
  rw [toDocument_eq]
  refine .object fun key => ?_
  by_cases hkey : key ∈ declaration.fieldsOf.keys
  · have hall : ∀ key ∈ ["kind", "name", declaration.kind.subjectWord, "options"],
        Option.Rel Document.Same (declaration.fieldsOf.get? key) (fields.get? key) := by
      simp only [List.forall_mem_cons, get?_kind, get?_name, get?_subject, get?_options, hkind]
      exact ⟨.some (.refl _), Check.exact_name.rel hname, Check.exact_name.rel hsubject,
        (Options.exact_check _).rel hoptions, by simp⟩
    exact hall key hkey
  · have hleft := Fields.get?_eq_none hkey
    have hright := Fields.get?_eq_none fun hmem => hkey (hkeys key hmem)
    rw [hleft, hright]
    exact .none

/-- A document is accepted exactly if it has the form of a declaration, and what is read from it
holds the same data: nothing is dropped, and nothing is added. -/
theorem check_accepts_form_iff (document : Document) :
    ((∃ declaration, (check (some document)).result = .ok declaration) ↔ IsForm document) ∧
      ∀ declaration, (check (some document)).result = .ok declaration →
        declaration.toDocument.Same document := by
  simp only [Checked.result_eq_ok_iff_accepts]
  refine ⟨⟨?_, exists_accepts_of_isForm⟩, fun _ => same_of_accepts⟩
  rintro ⟨declaration, haccepts⟩
  exact isForm_of_accepts haccepts

/-- The keys, and those of the options, in another order than they are written in. -/
def followers : Document :=
  .object [("options", .object [
      ("joinKeys", .list [.list [.text "follower_id", .text "users"],
        .list [.text "followed_id", .text "users"]]),
      ("joinThrough", .text "follows")]),
    ("target", .text "App.User"), ("kind", .text "manyToMany"), ("name", .text "users")]

def followersRead : Declaration where
  kind := .manyToMany
  name := "users"
  subject := "App.User"
  options :=
    { joinTable := some "follows"
      joinKeys := some (.ofPairs ("follower_id", "users") ("followed_id", "users")) }

theorem check_accepts_form_iff_followers :
    (check (some followers)).result = .ok followersRead ∧ IsForm followers ∧
      followersRead.toDocument.Same followers := by
  have hresult : (check (some followers)).result = .ok followersRead := by rfl
  obtain ⟨haccepts, hsame⟩ := check_accepts_form_iff followers
  exact ⟨hresult, haccepts.1 ⟨_, hresult⟩, hsame _ hresult⟩

end Declaration
end Scaffold
