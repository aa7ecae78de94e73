import Scaffold.Proofs.Generator.Configuration
import Scaffold.Proofs.Log.Console

/-!
What a logger has to do with a run. The logger that a run is given, or else that of its
configuration, is handed down to every declaration, so no stage falls back on its own and each entry
of the run goes to this one (`outputs_runWith`). A logger gives nothing back, and the modules or the
error are the same with any. Each entry that a run can have is plain, so on the console its data
stand beside its level, the context and its message.
-/
namespace Scaffold
namespace Generator

variable {config : Config} {settings : Settings} {environment : Environment} {document : Document}
  {entry : Log.Entry}

/-- What a run under a configuration has to say, whatever its logger makes of it. -/
def entries (config : Config) (settings : Settings) (document : Document) : List Log.Entry :=
  match Schema.validate document with
  | .error _ => []
  | .ok schema =>
    let entities := entities (some (settings.modulePath.getD config.modulePath)) schema
    entities.flatMap entityEntries ++ [endMessage settings.dialect entities.length]

theorem entries_of_ok {schema : Schema} (h : Schema.validate document = .ok schema) :
    entries config settings document =
      (entities (some (settings.modulePath.getD config.modulePath)) schema).flatMap entityEntries ++
        [endMessage settings.dialect
          (entities (some (settings.modulePath.getD config.modulePath)) schema).length] := by
  rw [entries, h]

theorem entries_of_error {error : SchemaError} (h : Schema.validate document = .error error) :
    entries config settings document = [] := by
  rw [entries, h]

/-- Every entry of a run goes to the one logger, in order. -/
theorem outputs_runWith (config : Config) (settings : Settings) (document : Document) :
    (runWith config settings document).outputs =
      (settings.logger.getD (.console "generator" config.logLevel)).outputs
        (entries config settings document) := by
  cases hvalid : Schema.validate document with
  | error error =>
    rw [runWith, modules_of_error hvalid, entries_of_error hvalid, Log.Logger.outputs_nil]
  | ok schema => rw [runWith, modules_of_ok hvalid, entries_of_ok hvalid]

theorem outcome_runWith_logger (config : Config) (settings : Settings) (document : Document)
    (logger : Option Log.Logger) :
    (runWith config { settings with logger } document).outcome =
      (runWith config settings document).outcome := by
  cases hvalid : Schema.validate document with
  | error error => rw [runWith_of_error hvalid, runWith_of_error hvalid]
  | ok schema => rw [runWith_of_ok hvalid, runWith_of_ok hvalid]

theorem plain_startMessage (entity : Entity) : (startMessage entity).Plain := by
  have hkeys : (startMessage entity).data.keys = ["table", "module", "declarations"] := rfl
  constructor <;> rw [hkeys] <;> decide

theorem plain_vectorWarning (declaration : Declaration) :
    (Rendering.vectorWarning declaration).Plain := by
  have hkeys : (Rendering.vectorWarning declaration).data.keys = ["field", "type"] := rfl
  constructor <;> rw [hkeys] <;> decide

theorem plain_endMessage (dialect : Dialect) (count : Nat) : (endMessage dialect count).Plain := by
  have hkeys : (endMessage dialect count).data.keys = ["syntax"] := rfl
  constructor <;> rw [hkeys] <;> decide

theorem plain_of_mem_entityEntries {entity : Entity} (h : entry ∈ entityEntries entity) :
    entry.Plain := by
  rcases List.mem_cons.1 h with rfl | hwarning
  · exact plain_startMessage entity
  · obtain ⟨declaration, -, rfl⟩ := List.mem_map.1 hwarning
    exact plain_vectorWarning declaration

/-- Whatever the document says, no entry of a run replaces what every entry has. -/
theorem plain_of_mem_entries (h : entry ∈ entries config settings document) : entry.Plain := by
  cases hvalid : Schema.validate document with
  | error error =>
    rw [entries_of_error hvalid] at h
    cases h
  | ok schema =>
    rw [entries_of_ok hvalid, List.mem_append, List.mem_flatMap, List.mem_singleton] at h
    rcases h with ⟨entity, -, hmem⟩ | rfl
    · exact plain_of_mem_entityEntries hmem
    · exact plain_endMessage _ _

/-- An entry as the console prints it in a run without a logger. -/
def printed (entry : Log.Entry) : Log.Output :=
  .printed (if entry.level = .info then "log" else entry.level.word)
    (Document.print (.object (entry.head "generator" ++ entry.data)))

theorem outputs_console_entries {threshold : Log.Level}
    (hlevel : config.logLevel = some threshold) :
    (Log.Logger.console "generator" config.logLevel).outputs (entries config settings document) =
      ((entries config settings document).filter fun entry =>
        entry.level ∈ threshold.andAbove).map printed := by
  rw [hlevel, Log.outputs_console]
  apply List.map_congr_left
  intro entry hmem
  have hplain : entry.Plain := plain_of_mem_entries (List.mem_of_mem_filter hmem)
  rw [printed, ← hplain.fields_eq, ← Log.Level.method_eq]
  rfl

/-- A recording logger and no logger give the same modules or the same error. What is recorded in
the one run is printed in the other, from the level of the configuration on. -/
theorem outcome_eq_of_loggers (settings : Settings) (environment : Environment)
    (document : Document) :
    (run { settings with logger := none } environment document).outcome =
      (run { settings with logger := some .recorder } environment document).outcome ∧
    ∀ config threshold, configuration settings environment = .ok config →
      config.logLevel = some threshold →
      ∃ entries : List Log.Entry,
        (run { settings with logger := some .recorder } environment document).outputs =
          entries.map .recorded ∧
        (run { settings with logger := none } environment document).outputs =
          (entries.filter fun entry => entry.level ∈ threshold.andAbove).map printed ∧
        ∀ entry ∈ entries, ∀ key ∈ entry.data.keys, key ∉ ["level", "context", "message"] := by
  have hsame : ∀ logger, configuration { settings with logger := logger } environment =
      configuration settings environment := fun _ => rfl
  cases hconfig : configuration settings environment with
  | error error =>
    rw [run_of_configuration_error ((hsame none).trans hconfig),
      run_of_configuration_error ((hsame (some .recorder)).trans hconfig)]
    refine ⟨rfl, ?_⟩
    intro config threshold hok
    cases hok
  | ok config =>
    rw [run_of_configuration ((hsame none).trans hconfig),
      run_of_configuration ((hsame (some .recorder)).trans hconfig)]
    have hnone := outcome_runWith_logger config settings document none
    have hrecorder := outcome_runWith_logger config settings document (some .recorder)
    refine ⟨hnone.trans hrecorder.symm, ?_⟩
    intro config' threshold hok hlevel
    obtain rfl : config = config' := Except.ok.inj hok
    refine ⟨entries config settings document, ?_, ?_, ?_⟩
    · rw [outputs_runWith]
      exact Log.outputs_recorder _
    · rw [outputs_runWith]
      exact outputs_console_entries hlevel
    · intro entry hmem key hkey
      exact (plain_of_mem_entries hmem).not_mem_head hkey

theorem outcome_eq_of_loggers_recording :
    configuration recording {} = .ok ⟨"App", some .info⟩ ∧
      (run { recording with logger := none } {} Entity.circle.toDocument).outcome =
        (run { recording with logger := some .recorder } {} Entity.circle.toDocument).outcome ∧
      ∃ entries : List Log.Entry,
        (run { recording with logger := some .recorder } {} Entity.circle.toDocument).outputs =
          entries.map .recorded ∧
        (run { recording with logger := none } {} Entity.circle.toDocument).outputs =
          (entries.filter fun entry => entry.level ∈ Log.Level.info.andAbove).map printed ∧
        ∀ entry ∈ entries, ∀ key ∈ entry.data.keys, key ∉ ["level", "context", "message"] := by
  have hconfig : configuration recording {} = .ok ⟨"App", some .info⟩ := rfl
  obtain ⟨hsame, houtputs⟩ := outcome_eq_of_loggers recording {} Entity.circle.toDocument
  exact ⟨hconfig, hsame, houtputs _ _ hconfig rfl⟩

end Generator
end Scaffold
