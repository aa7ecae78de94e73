import Scaffold.Proofs.Log.Console
import Scaffold.Proofs.Rendering.Settings

/-!
Modules of declarations whose kinds need not be known. The declarations are written one by one, so
the first of an unknown kind ends the writing, and by then the logger has the warnings of those
before it and no others (`lines_unknownKind`). If all kinds are known, the module gets the lines of the
declarations that are not left out. A left-out field is known by its empty line, and no other line
is empty in any dialect, so none is lost with them (`moduleText_outcome`).
-/
namespace Scaffold
namespace Rendering

variable {dialect : Dialect} {declaration : Declaration} {records : List Record}

theorem forall_known_or_exists_first (records : List Record) :
    (∃ declarations : List Declaration, records = declarations.map .known) ∨
      ∃ (before : List Declaration) (kind name : String) (after : List Record),
        records = before.map .known ++ .unknownKind kind name :: after := by
  induction records with
  | nil => exact .inl ⟨[], rfl⟩
  | cons record records ih =>
    cases record with
    | unknownKind kind name => exact .inr ⟨[], kind, name, records, rfl⟩
    | known declaration =>
      rcases ih with ⟨declarations, rfl⟩ | ⟨before, kind, name, after, rfl⟩
      · exact .inl ⟨declaration :: declarations, rfl⟩
      · exact .inr ⟨declaration :: before, kind, name, after, rfl⟩

theorem lines_unknownKind {before : List Declaration}
    (hwritable : ∀ declaration ∈ before, Writable dialect declaration)
    (logger : Option Log.Logger) (kind name : String) (after : List Record) :
    lines dialect logger (before.map .known ++ .unknownKind kind name :: after) =
      ⟨(logger.getD defaultLogger).outputs (warnings before),
        .error (.contract (.unknownKind kind name))⟩ := by
  have hfirst : (line dialect logger (.unknownKind kind name)).outcome =
      .error (.contract (.unknownKind kind name)) := rfl
  rw [lines_known_append hwritable, lines, Logged.bind_of_error hfirst]
  simp [line, Logged.ofExcept, Except.map]

theorem moduleText_of_unknownKind {before : List Declaration}
    (hwritable : ∀ declaration ∈ before, Writable dialect declaration)
    (logger : Option Log.Logger) (moduleName table kind name : String) (after : List Record) :
    moduleText dialect logger moduleName table
        (before.map .known ++ .unknownKind kind name :: after) =
      ⟨(logger.getD defaultLogger).outputs (fieldWarnings before),
        .error (.contract (.unknownKind kind name))⟩ := by
  rw [moduleText_eq, lines_unknownKind hwritable, warnings_eq]
  rfl

/-- The declarations that are neither the primary key nor a field of a vector type. -/
def kept (declarations : List Declaration) : List Declaration :=
  declarations.filter fun declaration =>
    ¬(declaration.kind = .field ∧
      (declaration.name = "id" ∨ Naming.IsVector declaration.subject))

/-- The line that a declaration is written on, of which no logger gets anything. It is not empty. -/
structure IsLineOf (dialect : Dialect) (declaration : Declaration) (text : String) : Prop where
  line_eq : ∀ logger, line dialect logger (.known declaration) = ⟨[], .ok text⟩
  ne_empty : text ≠ ""

theorem isLineOf_write (hwritable : Writable dialect declaration)
    (h : isLeftOut declaration = false) :
    IsLineOf dialect declaration (write dialect declaration) where
  line_eq logger := by
    have hvector : isVectorField declaration = false := (Bool.or_eq_false_iff.1 h).2
    simp [line_known hwritable, warnings, hvector, text, h]
  ne_empty := write_ne_empty dialect declaration

theorem kept_eq (declarations : List Declaration) :
    kept declarations = declarations.filter (!isLeftOut ·) := by
  apply List.filter_congr
  intro declaration _
  rw [Bool.eq_iff_iff, decide_eq_true_iff, Bool.not_eq_true', isLeftOut_eq_false_iff]

theorem moduleText_of_known {declarations : List Declaration}
    (hwritable : ∀ declaration ∈ declarations, Writable dialect declaration)
    (logger : Option Log.Logger) (moduleName table : String) :
    moduleText dialect logger moduleName table (declarations.map .known) =
      ⟨(logger.getD defaultLogger).outputs (fieldWarnings declarations),
        .ok (dialect.moduleText
          ⟨moduleName, table, (kept declarations).map (write dialect)⟩)⟩ := by
  have hentity : ∀ declaration ∈ (⟨table, moduleName, declarations⟩ : Entity).declarations,
      Writable dialect declaration := hwritable
  have htext := entityText_eq hentity logger
  rw [kept_eq, ← lines_parts dialect ⟨table, moduleName, declarations⟩, ← warnings_eq]
  exact htext

/-- With join keys that the dialect can write, a module fails exactly if some declaration is of an
unknown kind. The error then names the first such declaration, and the logger has received a warning
for each field of a vector type before it. Else the dialect receives the name of the module, the
table and the lines of the declarations that are neither the primary key nor of a vector type, each
in its place and none of them empty, and the logger has received a warning for each field of a
vector type. -/
theorem moduleText_outcome {records : List Record}
    (hwritable : ∀ declaration, .known declaration ∈ records → Writable dialect declaration)
    (moduleName table : String) :
    ((∃ error, (moduleText dialect (some .recorder) moduleName table records).outcome =
        .error error) ↔
      ∃ kind name, .unknownKind kind name ∈ records) ∧
    (∀ (before : List Declaration) kind name after,
      records = before.map .known ++ .unknownKind kind name :: after →
      (∃ error, (moduleText dialect (some .recorder) moduleName table records).outcome =
          .error (.contract error) ∧
        error.declarationName = some name ∧
        error.message = "Unknown declaration kind \"" ++ kind ++ "\"") ∧
      (moduleText dialect (some .recorder) moduleName table records).outputs =
        (fieldWarnings before).map .recorded) ∧
    (∀ declarations : List Declaration, records = declarations.map .known →
      (∃ texts, (moduleText dialect (some .recorder) moduleName table records).outcome =
          .ok (dialect.moduleText ⟨moduleName, table, texts⟩) ∧
        List.Forall₂ (IsLineOf dialect) (kept declarations) texts) ∧
      (moduleText dialect (some .recorder) moduleName table records).outputs =
        (fieldWarnings declarations).map .recorded) := by
  have hunknown : ∀ (before : List Declaration) kind name after,
      records = before.map .known ++ .unknownKind kind name :: after →
        moduleText dialect (some .recorder) moduleName table records =
          ⟨(fieldWarnings before).map .recorded, .error (.contract (.unknownKind kind name))⟩ := by
    rintro before kind name after rfl
    have hbefore : ∀ declaration ∈ before, Writable dialect declaration := by
      intro declaration hmem
      exact hwritable declaration (List.mem_append_left _ (List.mem_map_of_mem hmem))
    rw [moduleText_of_unknownKind hbefore, ← Log.outputs_recorder]
    rfl
  have hknown : ∀ declarations : List Declaration, records = declarations.map .known →
      moduleText dialect (some .recorder) moduleName table records =
        ⟨(fieldWarnings declarations).map .recorded, .ok (dialect.moduleText
          ⟨moduleName, table, (kept declarations).map (write dialect)⟩)⟩ := by
    rintro declarations rfl
    have hall : ∀ declaration ∈ declarations, Writable dialect declaration := by
      intro declaration hmem
      exact hwritable declaration (List.mem_map_of_mem hmem)
    rw [moduleText_of_known hall, ← Log.outputs_recorder]
    rfl
  refine ⟨?_, ?_, ?_⟩
  · rcases forall_known_or_exists_first records with
      ⟨declarations, hrecords⟩ | ⟨before, kind, name, after, hrecords⟩
    · rw [hknown declarations hrecords, hrecords]
      simp
    · rw [hunknown before kind name after hrecords, hrecords]
      exact iff_of_true ⟨_, rfl⟩ ⟨kind, name, by simp⟩
  · intro before kind name after hrecords
    rw [hunknown before kind name after hrecords]
    exact ⟨⟨_, rfl, rfl, rfl⟩, rfl⟩
  · intro declarations hrecords
    rw [hknown declarations hrecords]
    refine ⟨⟨_, rfl, ?_⟩, rfl⟩
    rw [List.forall₂_map_right_iff, List.forall₂_same]
    intro declaration hmem
    rw [kept_eq, List.mem_filter] at hmem
    refine isLineOf_write (hwritable declaration ?_) (by simpa using hmem.2)
    exact hrecords ▸ List.mem_map_of_mem hmem.1

/-- A dialect that writes nothing of its own. -/
def mute : Dialect :=
  { Dialect.echo with
    keyword := fun _ => ""
    declarationName := fun _ => ""
    fieldType := fun _ => "" }

def sketch : List Declaration :=
  [⟨.field, "id", "vector", {}⟩, ⟨.field, "shape", "halfvector", {}⟩,
    ⟨.field, "title", "string", {}⟩, ⟨.belongsTo, "vector", "", {}⟩]

def sketchRecords : List Record :=
  sketch.map .known ++
    [.unknownKind "embedsOne" "frame", .known ⟨.field, "late", "vector", {}⟩,
      .unknownKind "" "late"]

theorem writable_of_mem_sketchRecords :
    ∀ declaration, .known declaration ∈ sketchRecords → Writable mute declaration := by
  simp [sketchRecords, sketch, ← isWritable_iff, isWritable]

theorem moduleText_outcome_sketch :
    (∀ declaration, .known declaration ∈ sketchRecords → Writable mute declaration) ∧
    ((∃ error, (moduleText mute (some .recorder) "App.Sketch" "sketches" sketchRecords).outcome =
          .error (.contract error) ∧
        error.declarationName = some "frame" ∧
        error.message = "Unknown declaration kind \"" ++ "embedsOne" ++ "\"") ∧
      (moduleText mute (some .recorder) "App.Sketch" "sketches" sketchRecords).outputs =
        [.recorded (warning "shape" "halfvector")]) ∧
    ((∃ texts, (moduleText mute (some .recorder) "App.Sketch" "sketches"
          (sketch.map .known)).outcome =
            .ok (mute.moduleText ⟨"App.Sketch", "sketches", texts⟩) ∧
        List.Forall₂ (IsLineOf mute) (kept sketch) texts) ∧
      (moduleText mute (some .recorder) "App.Sketch" "sketches" (sketch.map .known)).outputs =
        [.recorded (warning "shape" "halfvector")]) ∧
    (moduleText mute (some .recorder) "App.Sketch" "sketches" (sketch.map .known)).outcome =
      .ok "App.Sketch|sketches|2\n , \n , " := by
  have hsketch : ∀ declaration, .known declaration ∈ sketch.map Record.known →
      Writable mute declaration := fun declaration hmem =>
    writable_of_mem_sketchRecords declaration (List.mem_append_left _ hmem)
  obtain ⟨-, hunknown, -⟩ :=
    moduleText_outcome writable_of_mem_sketchRecords "App.Sketch" "sketches"
  obtain ⟨-, -, hknown⟩ := moduleText_outcome hsketch "App.Sketch" "sketches"
  exact ⟨writable_of_mem_sketchRecords, hunknown sketch "embedsOne" "frame" _ rfl,
    hknown sketch rfl, by decide +kernel⟩

end Rendering
end Scaffold
