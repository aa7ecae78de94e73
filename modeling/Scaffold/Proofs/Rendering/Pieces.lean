import Scaffold.Proofs.Dialect.Literals
import Scaffold.Proofs.Dialect.OptionTexts
import Scaffold.Proofs.Rendering.Lines

/-!
What stands where in an Ecto line and in a module. Both are put together of pieces: punctuation that
says nothing of the database, and literals that its texts are written as. Names, columns, values and
the types of fields that are no modules are atoms, tables are strings, and the columns of join keys
are keys. `literals_read_back_iff` says which of these are read back where they stand.
-/
namespace Scaffold
namespace Dialect
namespace Ecto

inductive Piece where
  | fixed (text : String)
  | literal (form : Literal) (value : String)
  deriving DecidableEq, Repr

namespace Piece

def text : List Piece → String
  | [] => ""
  | fixed text :: rest => text ++ Piece.text rest
  | literal form value :: rest => form.write value ++ Piece.text rest

@[simp] theorem text_append (pieces others : List Piece) :
    text (pieces ++ others) = text pieces ++ text others := by
  induction pieces with
  | nil => simp [text]
  | cons piece pieces ih => cases piece <;> simp [text, ih, String.append_assoc]

def joined (separator : String) : List (List Piece) → List Piece
  | [] => []
  | first :: rest => first ++ rest.flatMap (fixed separator :: ·)

theorem text_joined (separator : String) (parts : List (List Piece)) :
    text (joined separator parts) = separator.intercalate (parts.map text) := by
  cases parts with
  | nil => simp [joined, text]
  | cons first rest =>
    rw [← String.toList_inj, List.map_cons, toList_intercalate_cons, joined, text_append,
      String.toList_append, List.append_right_inj, List.flatMap_map]
    induction rest with
    | nil => rfl
    | cons part rest ih => simp [text, ih]

/-- Nothing that follows a literal goes on with it. -/
def Spaced : List Piece → Prop
  | [] => True
  | fixed _ :: rest => Spaced rest
  | literal _ _ :: rest => Stops (text rest).toList ∧ Spaced rest

variable {pieces others before after : List Piece} {form : Literal} {value : String}

theorem Spaced.append (h : Spaced pieces) (hothers : Spaced others)
    (hstops : Stops (text others).toList) : Spaced (pieces ++ others) := by
  induction pieces with
  | nil => exact hothers
  | cons piece pieces ih =>
    cases piece with
    | fixed text => exact ih h
    | literal form value =>
      have hafter : Stops (text (pieces ++ others)).toList := by
        rw [text_append, String.toList_append]
        exact h.1.append hstops
      exact ⟨hafter, ih h.2⟩

theorem spaced_joined {separator : String} {parts : List (List Piece)}
    (hseparator : ∀ cs, Stops (separator.toList ++ cs)) (h : ∀ part ∈ parts, Spaced part) :
    Spaced (joined separator parts) := by
  cases parts with
  | nil => trivial
  | cons first rest =>
    rw [List.forall_mem_cons] at h
    have hrest : Spaced (rest.flatMap (fixed separator :: ·)) ∧
        Stops (text (rest.flatMap (fixed separator :: ·))).toList := by
      induction rest with
      | nil => exact ⟨trivial, stops_nil⟩
      | cons part rest ih =>
        obtain ⟨hspaced, hstops⟩ := ih ⟨h.1, fun other hmem => h.2 other (.tail part hmem)⟩
        have hafter := (h.2 part List.mem_cons_self).append hspaced hstops
        rw [List.flatMap_cons, List.cons_append, text, String.toList_append]
        exact ⟨hafter, hseparator _⟩
    exact h.1.append hrest.1 hrest.2

/-- A literal is read back in its place exactly if its text can be. -/
theorem Spaced.read?_iff (h : Spaced (before ++ literal form value :: after)) :
    form.read? (text (literal form value :: after)).toList =
        some (value.toList, (text after).toList) ↔ form.Keeps value := by
  have hstops : Stops (text after).toList := by
    induction before with
    | nil => exact h.1
    | cons piece before ih =>
      cases piece with
      | fixed text => exact ih h
      | literal _ _ => exact ih h.2
  rw [text, String.toList_append]
  exact form.read?_write_append_iff value hstops

end Piece

open Piece

def valuesPieces (values : List String) : List Piece :=
  fixed "values: [" :: (joined ", " (values.map fun value => [literal .atom value]) ++ [fixed "]"])

def joinKeysPieces (first second : String × String) : List Piece :=
  [fixed "join_keys: [", literal .key first.1, fixed ":id, ", literal .key second.1, fixed ":id]"]

def optionPieces? (options : Options) : OptionKey → Option (List Piece)
  | .values => options.values.map valuesPieces
  | .key => options.key.map fun column => [fixed "foreign_key: ", literal .atom column]
  | .referenced => options.referenced.map fun column => [fixed "references: ", literal .atom column]
  | .joinTable => options.joinTable.map fun table => [fixed "join_through: ", literal .string table]
  | .joinKeys =>
    (options.joinKeys.bind JoinKeys.pairs?).map fun (first, second) => joinKeysPieces first second
  | .other _ => none

/-- The type of a field is an atom unless it has a capital, as the module of an association has. -/
def subjectPieces (declaration : Declaration) : List Piece :=
  if declaration.kind = .field ∧ declaration.subject.toList.head?.any Char.isUpper = false then
    [literal .atom declaration.subject]
  else [fixed declaration.subject]

def linePieces (declaration : Declaration) : List Piece :=
  joined ", "
    ([fixed (keyword declaration.kind), fixed " ", literal .atom declaration.name] ::
      subjectPieces declaration ::
        (optionOrder declaration.kind).filterMap (optionPieces? declaration.options))

theorem stops_comma (cs : List Char) : Stops (", ".toList ++ cs) := stops_cons_iff.2 (by decide)

theorem stops_newline (cs : List Char) : Stops ("\n".toList ++ cs) := stops_cons_iff.2 (by decide)

theorem text_valuesPieces (values : List String) :
    text (valuesPieces values) = ecto.values values := by
  have hatoms : (values.map fun value => [literal .atom value]).map text = values.map atom := by
    simp [text, Literal.write]
  rw [valuesPieces, text, text_append, text_joined, hatoms, ← String.append_assoc]
  simp [text, ecto]

theorem text_joinKeysPieces (first second : String × String) :
    text (joinKeysPieces first second) = joinKeys first second := by
  rw [← String.toList_inj]
  simp [joinKeysPieces, text, Literal.write, joinKeys]

theorem map_text_optionPieces? (options : Options) (option : OptionKey) :
    (optionPieces? options option).map text = ecto.option? options option := by
  cases option with
  | values => simp [optionPieces?, option?, Function.comp_def, text_valuesPieces]
  | joinKeys =>
    simp [optionPieces?, option?, Function.comp_def, text_joinKeysPieces, ecto]
  | key | referenced | joinTable =>
    simp [optionPieces?, option?, Function.comp_def, text, Literal.write, ecto]
  | other word => rfl

theorem text_subjectPieces (declaration : Declaration) :
    text (subjectPieces declaration) = Rendering.subject ecto declaration := by
  unfold subjectPieces Rendering.subject
  by_cases hfield : declaration.kind = .field
  · have htype : ecto.fieldType declaration.subject = fieldType declaration.subject := rfl
    rw [if_pos hfield, htype, fieldType]
    cases hchars : declaration.subject.toList with
    | nil => simp [hfield, text, Literal.write]
    | cons c cs => by_cases hupper : c.isUpper = true <;> simp [hfield, hupper, text, Literal.write]
  · simp [hfield, text]

theorem text_linePieces (declaration : Declaration) :
    text (linePieces declaration) = Rendering.write ecto declaration := by
  have hoptions : ((optionOrder declaration.kind).filterMap
      (optionPieces? declaration.options)).map text = Rendering.options ecto declaration := by
    rw [List.map_filterMap]
    simp only [map_text_optionPieces?]
    rfl
  rw [linePieces, text_joined, List.map_cons, List.map_cons, hoptions, text_subjectPieces]
  have hhead : text [fixed (keyword declaration.kind), fixed " ", literal .atom declaration.name] =
      ecto.keyword declaration.kind ++ " " ++ ecto.declarationName declaration.name := by
    simp [text, Literal.write, ecto, String.append_assoc]
  rw [hhead, Rendering.write]

theorem spaced_optionPieces? {options : Options} {option : OptionKey} {pieces : List Piece}
    (h : optionPieces? options option = some pieces) : Spaced pieces := by
  have hbracket : Stops (text [fixed "]"]).toList := stops_cons_iff.2 (by decide)
  cases option with
  | values =>
    obtain ⟨values, -, rfl⟩ := Option.map_eq_some_iff.1 h
    have hvalues : Spaced (joined ", " (values.map fun value => [literal .atom value])) := by
      apply spaced_joined stops_comma
      simp [Spaced, text, stops_nil]
    exact hvalues.append trivial hbracket
  | joinKeys =>
    obtain ⟨pairs, -, rfl⟩ := Option.map_eq_some_iff.1 h
    have hfirst : Stops (text [fixed ":id, ", literal .key pairs.2.1, fixed ":id]"]).toList := by
      rw [text, String.toList_append]
      exact stops_cons_iff.2 (by decide)
    exact ⟨hfirst, stops_cons_iff.2 (by decide), trivial⟩
  | key | referenced | joinTable =>
    obtain ⟨value, -, rfl⟩ := Option.map_eq_some_iff.1 h
    exact ⟨stops_nil, trivial⟩
  | other word => cases h

theorem spaced_subjectPieces (declaration : Declaration) : Spaced (subjectPieces declaration) := by
  unfold subjectPieces
  split
  · exact ⟨stops_nil, trivial⟩
  · trivial

theorem spaced_linePieces (declaration : Declaration) : Spaced (linePieces declaration) := by
  apply spaced_joined stops_comma
  rw [List.forall_mem_cons, List.forall_mem_cons]
  refine ⟨⟨stops_nil, trivial⟩, spaced_subjectPieces declaration, ?_⟩
  intro part hpart
  obtain ⟨option, -, hoption⟩ := List.mem_filterMap.1 hpart
  exact spaced_optionPieces? hoption

def modulePieces (entity : Entity) : List Piece :=
  joined "\n"
    ([[fixed ("defmodule " ++ entity.moduleName ++ " do")], [fixed "  use Ecto.Schema"], [fixed ""],
      [fixed "  schema ", literal .string entity.table, fixed " do"]] ++
    (entity.declarations.filter (!Rendering.isLeftOut ·)).map (fixed "    " :: linePieces ·) ++
    [[fixed "  end"], [fixed "end"], [fixed ""]])

theorem text_modulePieces (entity : Entity) :
    text (modulePieces entity) = ecto.moduleText (Rendering.parts ecto entity) := by
  have hlines : ((entity.declarations.filter (!Rendering.isLeftOut ·)).map
      (fixed "    " :: linePieces ·)).map text =
        (Rendering.parts ecto entity).lines.map ("    " ++ ·) := by
    rw [Rendering.lines_parts, List.map_map, List.map_map]
    apply List.map_congr_left
    intro declaration _
    rw [Function.comp_apply, Function.comp_apply, text, text_linePieces]
  have htop : text [fixed "  schema ", literal .string entity.table, fixed " do"] =
      "  schema " ++ Text.quote entity.table ++ " do" := by
    simp [text, Literal.write, String.append_assoc]
  rw [modulePieces, text_joined, List.map_append, List.map_append, hlines]
  simp only [List.map_cons, List.map_nil, htop]
  simp only [text, String.append_empty]
  rfl

theorem spaced_modulePieces (entity : Entity) : Spaced (modulePieces entity) := by
  apply spaced_joined stops_newline
  simp only [List.mem_append, List.mem_map, List.mem_cons, List.not_mem_nil, or_false]
  rintro part (((rfl | rfl | rfl | rfl) | ⟨declaration, -, rfl⟩) | (rfl | rfl | rfl))
  · trivial
  · trivial
  · trivial
  · exact ⟨stops_cons_iff.2 (by decide), trivial⟩
  · exact spaced_linePieces declaration
  · trivial
  · trivial
  · trivial

/-- A text is made of pieces, and a literal among them is read back where it stands exactly if its
text is one that its form keeps. -/
structure MadeOf (text : String) (pieces : List Piece) : Prop where
  eq_text : text = Piece.text pieces
  read?_iff : ∀ before form value after, pieces = before ++ literal form value :: after →
    (form.read? (Piece.text (literal form value :: after)).toList =
      some (value.toList, (Piece.text after).toList) ↔ form.Keeps value)

theorem madeOf_of_spaced {text : String} {pieces : List Piece} (heq : text = Piece.text pieces)
    (hspaced : Spaced pieces) : MadeOf text pieces := by
  refine ⟨heq, ?_⟩
  rintro before form value after rfl
  exact hspaced.read?_iff

/-- Whatever a line or a module says, its names, columns, values, types and tables are read back
unless they have an interpolation, and its join keys only if they are bare. -/
theorem literals_read_back_iff (declaration : Declaration) (entity : Entity) :
    MadeOf (Rendering.write ecto declaration) (linePieces declaration) ∧
      ((∀ declaration ∈ entity.declarations, Rendering.Writable ecto declaration) → ∀ logger,
        ∃ text, (Rendering.entityText ecto logger entity).outcome = .ok text ∧
          MadeOf text (modulePieces entity)) := by
  have hline := madeOf_of_spaced (text_linePieces declaration).symm (spaced_linePieces declaration)
  have hmodule := madeOf_of_spaced (text_modulePieces entity).symm (spaced_modulePieces entity)
  refine ⟨hline, fun hwritable logger => ⟨_, ?_, hmodule⟩⟩
  rw [Rendering.entityText_eq hwritable]

def tagging : Declaration where
  kind := .manyToMany
  name := "tags"
  subject := "Tag"
  options := {
    joinTable := some "post_tags"
    joinKeys := some (.ofPairs ("post id", "posts") ("tag_id", "tags")) }

def stateField : Declaration where
  kind := .field
  name := "state"
  subject := "string"
  options := { values := some ["#\x7bn\x7d"] }

def taggedPosts : Entity where
  table := "posts"
  moduleName := "Post"
  declarations := [stateField, tagging]

theorem writable_of_mem_taggedPosts :
    ∀ declaration ∈ taggedPosts.declarations, Rendering.Writable ecto declaration := by
  simp [taggedPosts, ← Rendering.isWritable_iff, Rendering.isWritable, stateField, tagging]

theorem literals_read_back_iff_tagging :
    (∀ declaration ∈ taggedPosts.declarations, Rendering.Writable ecto declaration) ∧
      MadeOf (Rendering.write ecto tagging) (linePieces tagging) ∧
      ∃ text, (Rendering.entityText ecto none taggedPosts).outcome = .ok text ∧
        MadeOf text (modulePieces taggedPosts) := by
  obtain ⟨hline, hmodule⟩ := literals_read_back_iff tagging taggedPosts
  exact ⟨writable_of_mem_taggedPosts, hline, hmodule writable_of_mem_taggedPosts none⟩

theorem tagging_not_read_back :
    Rendering.write ecto tagging = "many_to_many :tags, Tag, join_through: \"post_tags\", " ++
        "join_keys: [post id: :id, tag_id: :id]" ∧
      literal .key "post id" ∈ linePieces tagging ∧
      Literal.key.read? "post id: :id, tag_id: :id]".toList = none ∧
      Rendering.write ecto stateField = "field :state, :string, values: [:\"#\x7bn\x7d\"]" ∧
      literal .atom "#\x7bn\x7d" ∈ linePieces stateField ∧
      Literal.atom.read? ":\"#\x7bn\x7d\"]".toList = none := by
  have hkey : literal .key "post id" ∈ linePieces tagging := by
    simp [linePieces, joined, subjectPieces, optionOrder, optionPieces?, joinKeysPieces, tagging]
  have hvalue : literal .atom "#\x7bn\x7d" ∈ linePieces stateField := by
    simp [linePieces, joined, subjectPieces, optionOrder, optionPieces?, valuesPieces, stateField]
  exact ⟨by decide +kernel, hkey, by decide, by decide +kernel, hvalue, by decide⟩

end Ecto
end Dialect
end Scaffold
