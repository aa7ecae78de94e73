import Scaffold.Proofs.Dialect.OptionTexts
import Scaffold.Proofs.Rendering.Lines

/-!
What an Ecto line says of its declaration. A line is read from its start: the keyword up to a blank,
the name as an atom, the subject up to its comma, and then one option after the other. Names,
columns and values may be any texts, as those that could be taken for something else are quoted.
The subject and the columns of join keys are never quoted, so they must not have the sign that ends
them. `line_ecto_inj` puts the parts together.
-/
namespace Scaffold

/-- What is written without quotes has no sign that ends it. -/
structure Declaration.IsPlain (declaration : Declaration) : Prop where
  subject : ',' ∉ declaration.subject.toList
  columns : declaration.options.HasPlainColumns

namespace Dialect
namespace Ecto

variable {first second : Options} {order : List OptionKey} {tail rest : List Char}

theorem keyword_inj {kind kind' : Kind} (h : keyword kind = keyword kind') : kind = kind' := by
  have hall : ∀ kind ∈ Kind.all, ∀ kind' ∈ Kind.all,
      keyword kind = keyword kind' → kind = kind' := by decide
  exact hall kind kind.mem_all kind' kind'.mem_all h

theorem blank_notMem_keyword (kind : Kind) : ' ' ∉ (keyword kind).toList := by
  cases kind <;> decide

theorem nodup_optionOrder (kind : Kind) : (optionOrder kind).Nodup := by
  cases kind <;> decide

theorem fieldType_eq_or (type : String) : fieldType type = atom type ∨
    fieldType type = type ∧ ∃ c cs, type.toList = c :: cs ∧ c.isUpper = true := by
  unfold fieldType
  split
  · exact .inl rfl
  next c cs hchars =>
    by_cases hupper : c.isUpper = true
    · rw [if_pos hupper]
      exact .inr ⟨rfl, c, cs, hchars, hupper⟩
    · rw [if_neg hupper]
      exact .inl rfl

theorem append_ne_atom_append {type type' : String} {c : Char} {cs : List Char}
    (hchars : type.toList = c :: cs) (hupper : c.isUpper = true) :
    type.toList ++ tail ≠ (atom type').toList ++ rest := by
  intro heq
  rw [hchars, atom_toList] at heq
  obtain rfl : c = ':' := (List.cons.inj heq).1
  exact absurd hupper (by decide)

theorem fieldType_append_inj {type type' : String} (h : ',' ∉ type.toList)
    (h' : ',' ∉ type'.toList)
    (heq : (fieldType type).toList ++ ',' :: tail = (fieldType type').toList ++ ',' :: rest) :
    type = type' ∧ tail = rest := by
  obtain htype | ⟨htype, c, cs, hchars, hupper⟩ := fieldType_eq_or type
  · obtain htype' | ⟨htype', c, cs, hchars, hupper⟩ := fieldType_eq_or type'
    · rw [htype, htype'] at heq
      obtain ⟨hsame, hafter⟩ := atom_append_inj (by decide) (by decide) heq
      exact ⟨hsame, (List.cons.inj hafter).2⟩
    · rw [htype, htype'] at heq
      exact absurd heq.symm (append_ne_atom_append hchars hupper)
  · obtain htype' | ⟨htype', -⟩ := fieldType_eq_or type'
    · rw [htype, htype'] at heq
      exact absurd heq (append_ne_atom_append hchars hupper)
    · rw [htype, htype'] at heq
      obtain ⟨hsame, hafter⟩ := append_stop_inj h h' heq
      exact ⟨String.toList_inj.1 hsame, hafter⟩

/-- The texts of options, each with a separator after it. -/
def optionTexts (order : List OptionKey) (options : Options) : List Char :=
  (order.filterMap (ecto.option? options)).flatMap fun part => part.toList ++ ", ".toList

theorem optionTexts_cons_of_none {option : OptionKey} (h : ecto.option? first option = none) :
    optionTexts (option :: order) first = optionTexts order first := by
  rw [optionTexts, List.filterMap_cons_none h, optionTexts]

theorem optionTexts_cons_of_some {option : OptionKey} {text : String}
    (h : ecto.option? first option = some text) :
    optionTexts (option :: order) first =
      text.toList ++ ',' :: ' ' :: optionTexts order first := by
  rw [optionTexts, List.filterMap_cons_some h, List.flatMap_cons, List.append_assoc]
  rfl

theorem optionTexts_ne_append {option : OptionKey} {text : String} (hmem : option ∉ order)
    (htext : ecto.option? second option = some text) :
    optionTexts order first ≠ text.toList ++ tail := by
  intro heq
  induction order with
  | nil =>
    obtain ⟨more, hmore⟩ := exists_toList_option? htext
    rw [hmore] at heq
    simp [optionTexts] at heq
  | cons option' order ih =>
    rw [List.mem_cons, not_or] at hmem
    cases hother : ecto.option? first option' with
    | none =>
      rw [optionTexts_cons_of_none hother] at heq
      exact ih hmem.2 heq
    | some other =>
      rw [optionTexts_cons_of_some hother] at heq
      exact hmem.1 (option_eq_of_append_eq htext hother heq.symm)

/-- By induction on the order: an option that both have says the same, and one that only one of
them has would stand where the other has a later option or the end. -/
theorem optionTexts_inj (hfirst : first.HasPlainColumns) (hsecond : second.HasPlainColumns)
    (horder : order.Nodup) (h : optionTexts order first = optionTexts order second) :
    ∀ option ∈ order, first.Agree second option := by
  induction order with
  | nil => simp
  | cons option order ih =>
    obtain ⟨hmem, horder⟩ := List.nodup_cons.1 horder
    rw [List.forall_mem_cons]
    cases htext : ecto.option? first option with
    | none =>
      rw [optionTexts_cons_of_none htext] at h
      cases hother : ecto.option? second option with
      | none =>
        rw [optionTexts_cons_of_none hother] at h
        exact ⟨agree_of_option?_eq_none hfirst hsecond htext hother, ih horder h⟩
      | some other =>
        rw [optionTexts_cons_of_some hother] at h
        exact absurd h (optionTexts_ne_append hmem hother)
    | some text =>
      rw [optionTexts_cons_of_some htext] at h
      cases hother : ecto.option? second option with
      | none =>
        rw [optionTexts_cons_of_none hother] at h
        exact absurd h.symm (optionTexts_ne_append hmem htext)
      | some other =>
        rw [optionTexts_cons_of_some hother] at h
        obtain ⟨hagree, hafter⟩ := option_append_inj hfirst hsecond htext hother h
        exact ⟨hagree, ih horder (List.cons.inj hafter).2⟩

end Ecto
end Dialect

namespace Rendering

open Dialect Dialect.Ecto

variable {first second : Declaration} {logger logger' : Option Log.Logger} {line : String}

theorem subject_append_inj {tail rest : List Char} (hkind : first.kind = second.kind)
    (hfirst : first.IsPlain) (hsecond : second.IsPlain)
    (h : (subject ecto first).toList ++ ',' :: tail =
      (subject ecto second).toList ++ ',' :: rest) :
    first.subject = second.subject ∧ tail = rest := by
  by_cases hfield : first.kind = .field
  · rw [subject, subject, if_pos hfield, if_pos (hkind ▸ hfield)] at h
    exact fieldType_append_inj hfirst.subject hsecond.subject h
  · rw [subject, subject, if_neg hfield, if_neg (hkind ▸ hfield)] at h
    obtain ⟨hsame, hafter⟩ := append_stop_inj hfirst.subject hsecond.subject h
    exact ⟨String.toList_inj.1 hsame, hafter⟩

theorem toList_write_append (declaration : Declaration) :
    (write ecto declaration).toList ++ ", ".toList =
      (keyword declaration.kind).toList ++ ' ' :: ((atom declaration.name).toList ++ ',' :: ' ' ::
        ((subject ecto declaration).toList ++ ',' :: ' ' ::
          optionTexts (optionOrder declaration.kind) declaration.options)) := by
  rw [write, toList_intercalate_append (List.cons_ne_nil _ _), List.flatMap_cons,
    List.flatMap_cons]
  simp only [String.toList_append, List.append_assoc]
  rfl

theorem write_ecto_inj (hfirst : first.IsPlain) (hsecond : second.IsPlain)
    (h : write ecto first = write ecto second) :
    first.kind = second.kind ∧ first.name = second.name ∧ first.subject = second.subject ∧
      ∀ option ∈ optionOrder first.kind, first.options.Agree second.options option := by
  have hparts := congrArg (fun text : String => text.toList ++ ", ".toList) h
  simp only [toList_write_append] at hparts
  obtain ⟨hkeyword, hname⟩ := append_stop_inj (blank_notMem_keyword first.kind)
    (blank_notMem_keyword second.kind) hparts
  have hkind : first.kind = second.kind := keyword_inj (String.toList_inj.1 hkeyword)
  obtain ⟨hname, hsubject⟩ := atom_append_inj (by decide) (by decide) hname
  simp only [List.cons.injEq, true_and] at hsubject
  obtain ⟨hsubject, hoptions⟩ := subject_append_inj hkind hfirst hsecond hsubject
  simp only [List.cons.injEq, true_and, ← hkind] at hoptions
  exact ⟨hkind, hname, hsubject,
    optionTexts_inj hfirst.columns hsecond.columns (nodup_optionOrder first.kind) hoptions⟩

/-- A subject is written as it is, so one with a comma can be taken for a subject and an option. -/
example : write ecto ⟨.belongsTo, "author", "Blog.User, foreign_key: :writer_id", {}⟩ =
    write ecto ⟨.belongsTo, "author", "Blog.User", { key := some "writer_id" }⟩ := by
  decide +kernel

theorem write_eq_of_line (hline : line ≠ "")
    (h : (Rendering.line ecto logger (.known first)).outcome = .ok line) :
    write ecto first = line := by
  rw [Rendering.line] at h
  split_ifs at h with hprimary hvector hwritable
  · exact absurd (Except.ok.inj h).symm hline
  · exact absurd (Except.ok.inj h).symm hline
  · exact Except.ok.inj h
  · cases h

/-- Two declarations with the same line, which is not empty, agree in all that the line is about:
kind, name, subject, and each option that is written for the kind. -/
theorem line_ecto_inj (hfirst : first.IsPlain) (hsecond : second.IsPlain) (hline : line ≠ "")
    (hwritten : (Rendering.line ecto logger (.known first)).outcome = .ok line)
    (hwritten' : (Rendering.line ecto logger' (.known second)).outcome = .ok line) :
    first.kind = second.kind ∧ first.name = second.name ∧ first.subject = second.subject ∧
      ∀ option ∈ ecto.optionOrder first.kind, first.options.Agree second.options option := by
  have hsame : write ecto first = write ecto second :=
    (write_eq_of_line hline hwritten).trans (write_eq_of_line hline hwritten').symm
  exact write_ecto_inj hfirst hsecond hsame

/-- Texts that look like parts of a line. -/
def labels : Declaration where
  kind := .manyToMany
  name := "labels, join_through: \"x\""
  subject := "Blog.Label"
  options := {
    joinTable := some "post_labels\", join_keys: ["
    joinKeys := some (.ofPairs ("post, id", "posts") ("label_id", "labels")) }

def labelsOfArticles : Declaration :=
  { labels with options := { labels.options with
      key := some "article_id"
      joinKeys := some (.ofPairs ("post, id", "articles") ("label_id", "labels")) } }

def labelsLine : String :=
  "many_to_many :\"labels, join_through: \\\"x\\\"\", Blog.Label, " ++
    "join_through: \"post_labels\\\", join_keys: [\", join_keys: [post, id: :id, label_id: :id]"

theorem isPlain_labels : labels.IsPlain := by
  refine ⟨by decide, ?_⟩
  intro keys hkeys
  exact ⟨_, _, (Option.some.inj hkeys).symm, by decide, by decide⟩

theorem isPlain_labelsOfArticles : labelsOfArticles.IsPlain := by
  refine ⟨by decide, ?_⟩
  intro keys hkeys
  exact ⟨_, _, (Option.some.inj hkeys).symm, by decide, by decide⟩

theorem line_ecto_inj_labels :
    labels.IsPlain ∧ labelsOfArticles.IsPlain ∧ labelsLine ≠ "" ∧
      (Rendering.line ecto none (.known labels)).outcome = .ok labelsLine ∧
      (Rendering.line ecto none (.known labelsOfArticles)).outcome = .ok labelsLine ∧
      labels.kind = labelsOfArticles.kind ∧ labels.name = labelsOfArticles.name ∧
      labels.subject = labelsOfArticles.subject ∧
      ∀ option ∈ ecto.optionOrder labels.kind,
        labels.options.Agree labelsOfArticles.options option := by
  have hline : labelsLine ≠ "" := by decide
  have hfirst : (Rendering.line ecto none (.known labels)).outcome = .ok labelsLine := by
    decide +kernel
  have hsecond : (Rendering.line ecto none (.known labelsOfArticles)).outcome =
      .ok labelsLine := by
    decide +kernel
  exact ⟨isPlain_labels, isPlain_labelsOfArticles, hline, hfirst, hsecond,
    line_ecto_inj isPlain_labels isPlain_labelsOfArticles hline hfirst hsecond⟩

end Rendering
end Scaffold
