import Scaffold.Rendering

/-!
How declarations are written. Writing a declaration of a known kind fails only if its dialect asks
for join keys and they are no two pairs. Else it gives a line, which is empty exactly for what is
left out, and the logger that it is given, or its own, gets a warning exactly for a field of a
vector type. A module hands its logger down, so by induction on the declarations this logger gets
all warnings; `entityText_eq` puts this together for the module of an entity.
-/
namespace Scaffold
namespace Rendering

variable {dialect : Dialect} {declaration : Declaration}

/-- The line of a declaration, empty if it is left out. -/
def text (dialect : Dialect) (declaration : Declaration) : String :=
  if isLeftOut declaration then "" else write dialect declaration

def warnings (declarations : List Declaration) : List Log.Entry :=
  (declarations.filter isVectorField).map vectorWarning

@[simp] theorem warnings_nil : warnings [] = [] := rfl

theorem warnings_cons (declaration : Declaration) (declarations : List Declaration) :
    warnings (declaration :: declarations) = warnings [declaration] ++ warnings declarations := by
  cases h : isVectorField declaration <;> simp [warnings, h]

/-- What the module of an entity is made of. -/
def parts (dialect : Dialect) (entity : Entity) : ModuleParts where
  moduleName := entity.moduleName
  table := entity.table
  lines := (entity.declarations.map (text dialect)).filter (· ≠ "")

/-- A written line has a blank after its keyword, whatever the dialect. -/
theorem write_ne_empty (dialect : Dialect) (declaration : Declaration) :
    write dialect declaration ≠ "" := by
  intro h
  have hchars := congrArg String.toList h
  rw [write, String.toList_intercalate, List.map_cons, List.map_cons,
    List.intercalate_cons_cons] at hchars
  simp at hchars

theorem text_eq_empty_iff : text dialect declaration = "" ↔ isLeftOut declaration = true := by
  unfold text
  split
  next hleft => simp [hleft]
  next hleft => simp [hleft, write_ne_empty]

/-- The lines of a module are those of the declarations that are not left out. -/
theorem lines_parts (dialect : Dialect) (entity : Entity) :
    (parts dialect entity).lines =
      (entity.declarations.filter (!isLeftOut ·)).map (write dialect) := by
  have hkept : (entity.declarations.filter fun declaration => text dialect declaration ≠ "") =
      entity.declarations.filter (!isLeftOut ·) := by
    apply List.filter_congr
    intro declaration _
    simp [text_eq_empty_iff]
  change (entity.declarations.map (text dialect)).filter (· ≠ "") = _
  rw [List.filter_map]
  change (entity.declarations.filter fun declaration => text dialect declaration ≠ "").map _ = _
  rw [hkept]
  apply List.map_congr_left
  intro declaration hmem
  have hwritten : isLeftOut declaration = false := by simpa using (List.mem_filter.1 hmem).2
  simp [text, hwritten]

theorem isVectorField_of_isPrimaryKey (h : isPrimaryKey declaration = true) :
    isVectorField declaration = false := by
  simp only [isPrimaryKey, Bool.and_eq_true, beq_iff_eq] at h
  simp [isVectorField, h.2]

/-- Where the dialect asks for join keys they are two pairs, if there are any. -/
def Writable (dialect : Dialect) (declaration : Declaration) : Prop :=
  .joinKeys ∈ dialect.optionOrder declaration.kind → declaration.Paired

theorem writable_of_paired (h : declaration.Paired) (dialect : Dialect) :
    Writable dialect declaration := fun _ => h

theorem isWritable_iff : isWritable dialect declaration = true ↔ Writable dialect declaration := by
  have hpaired : declaration.options.joinKeys.all (fun keys => keys.pairs?.isSome) = true ↔
      declaration.Paired := by
    simp [Option.all_eq_true, Option.isSome_iff_exists, JoinKeys.pairs?_eq_some_iff,
      Declaration.Paired]
  rw [isWritable, Bool.or_eq_true, hpaired, Writable, Bool.not_eq_true', List.contains_eq_mem,
    decide_eq_false_iff_not, Classical.or_iff_not_imp_left, Classical.not_not]

theorem line_known (h : Writable dialect declaration) (logger : Option Log.Logger) :
    line dialect logger (.known declaration) =
      ⟨(logger.getD defaultLogger).outputs (warnings [declaration]),
        .ok (text dialect declaration)⟩ := by
  by_cases hprimary : isPrimaryKey declaration = true
  · have hvector := isVectorField_of_isPrimaryKey hprimary
    simp [line, text, warnings, isLeftOut, hprimary, hvector, pure]
  · by_cases hvector : isVectorField declaration = true
    · have htell : (Logged.tell (logger.getD defaultLogger) (vectorWarning declaration) :
          Logged RenderingError Unit).outcome = .ok () := rfl
      rw [line, if_neg hprimary, if_pos hvector, Logged.bind_of_ok htell]
      simp [text, warnings, isLeftOut, hvector, Logged.tell]
    · have hwritable := isWritable_iff.2 h
      simp [line, text, warnings, isLeftOut, hprimary, hvector, hwritable, pure]

/-- What is left out has its empty line whatever its options are. -/
theorem line_known_fails_iff (dialect : Dialect) (logger : Option Log.Logger)
    (declaration : Declaration) :
    (∃ error, (line dialect logger (.known declaration)).outcome = .error error) ↔
      isLeftOut declaration = false ∧ ¬Writable dialect declaration := by
  by_cases hwritable : Writable dialect declaration
  · simp [line_known hwritable, hwritable]
  · have hunwritable : isWritable dialect declaration = false := by
      rwa [← Bool.not_eq_true, isWritable_iff]
    by_cases hprimary : isPrimaryKey declaration = true
    · simp [line, isLeftOut, hprimary]
    · by_cases hvector : isVectorField declaration = true
      · simp [line, isLeftOut, hprimary, hvector, Logged.bind_of_ok, Logged.tell]
      · simp [line, isLeftOut, hprimary, hvector, hunwritable, hwritable, Logged.ofExcept]

/-- Declarations have their lines and their warnings before those of what follows them, and fail
only if that does. -/
theorem lines_known_append {declarations : List Declaration}
    (hwritable : ∀ declaration ∈ declarations, Writable dialect declaration)
    (logger : Option Log.Logger) (rest : List Record) :
    lines dialect logger (declarations.map .known ++ rest) =
      ⟨(logger.getD defaultLogger).outputs (warnings declarations) ++
          (lines dialect logger rest).outputs,
        (lines dialect logger rest).outcome.map (declarations.map (text dialect) ++ ·)⟩ := by
  induction declarations with
  | nil => cases h : (lines dialect logger rest).outcome <;> simp [Except.map, ← h]
  | cons declaration declarations ih =>
    rw [List.forall_mem_cons] at hwritable
    have hline := line_known hwritable.1 logger
    have hrest := ih hwritable.2
    rw [List.map_cons, List.cons_append, lines, Logged.bind_of_ok (congrArg Logged.outcome hline),
      Logged.bind_pure_eq, hline, hrest, warnings_cons declaration declarations,
      Log.Logger.outputs_append, List.append_assoc]
    cases (lines dialect logger rest).outcome <;> rfl

/-- The lines of declarations stand in their order. So do the warnings, all of them given to one
logger. -/
theorem lines_known {declarations : List Declaration}
    (hwritable : ∀ declaration ∈ declarations, Writable dialect declaration)
    (logger : Option Log.Logger) :
    lines dialect logger (declarations.map .known) =
      ⟨(logger.getD defaultLogger).outputs (warnings declarations),
        .ok (declarations.map (text dialect))⟩ := by
  have hlines := lines_known_append hwritable logger []
  simpa [lines, Except.map] using hlines

/-- A module fails or warns only where a line does. -/
theorem moduleText_eq (dialect : Dialect) (logger : Option Log.Logger) (moduleName table : String)
    (records : List Record) :
    moduleText dialect logger moduleName table records =
      ⟨(lines dialect logger records).outputs, (lines dialect logger records).outcome.map
        fun lines => dialect.moduleText ⟨moduleName, table, lines.filter (· ≠ "")⟩⟩ :=
  Logged.bind_pure_eq _ _

theorem entityText_eq {entity : Entity}
    (hwritable : ∀ declaration ∈ entity.declarations, Writable dialect declaration)
    (logger : Option Log.Logger) :
    entityText dialect logger entity =
      ⟨(logger.getD defaultLogger).outputs (warnings entity.declarations),
        .ok (dialect.moduleText (parts dialect entity))⟩ := by
  rw [entityText, moduleText_eq, lines_known hwritable]
  rfl

end Rendering
end Scaffold
