import Scaffold.Proofs.Generator.Outcome

/-!
Which configuration a run has, and what of it a run shows. A configuration that is given is taken,
and the environment is not looked at. Else the environment is read first of all, also where the run
needs nothing of what it says, so one that is refused ends the run (`run_eq_iff_of_explicit`).
-/
namespace Scaffold
namespace Generator

variable {settings : Settings} {environment : Environment} {config first second : Config}

/-- The configuration of a run: the given one, or that of the environment. -/
def configuration (settings : Settings) (environment : Environment) : Except ConfigError Config :=
  match settings.config with
  | some config => .ok config
  | none => Config.load environment

theorem run_of_configuration (h : configuration settings environment = .ok config)
    (document : Document) :
    run settings environment document = runWith config settings document := by
  cases hgiven : settings.config with
  | some given =>
    rw [configuration, hgiven] at h
    obtain rfl : given = config := Except.ok.inj h
    exact run_of_config hgiven environment document
  | none =>
    have hload : Config.load environment = .ok config := by
      rw [← h, configuration, hgiven]
    simp only [run, hgiven, hload]

theorem run_of_configuration_error {error : ConfigError}
    (h : configuration settings environment = .error error) (document : Document) :
    run settings environment document = ⟨[], .error (.config error)⟩ := by
  cases hgiven : settings.config with
  | some given =>
    rw [configuration, hgiven] at h
    cases h
  | none =>
    have hload : Config.load environment = .error error := by
      rw [← h, configuration, hgiven]
    simp only [run, hgiven, hload]

/-- Two configurations agree in what a caller leaves to them. -/
structure AgreeFor (settings : Settings) (first second : Config) : Prop where
  modulePath : settings.modulePath = none → first.modulePath = second.modulePath
  logLevel : settings.logger = none → first.logLevel = second.logLevel

/-- A run shows nothing of its configuration but what the caller leaves to it. -/
theorem runWith_congr (h : AgreeFor settings first second) (document : Document) :
    runWith first settings document = runWith second settings document := by
  have hpath : settings.modulePath.getD first.modulePath =
      settings.modulePath.getD second.modulePath := by
    cases hgiven : settings.modulePath with
    | none => exact h.modulePath hgiven
    | some path => rfl
  have hlogger : settings.logger.getD (.console "generator" first.logLevel) =
      settings.logger.getD (.console "generator" second.logLevel) := by
    cases hgiven : settings.logger with
    | none => exact congrArg (Log.Logger.console "generator") (h.logLevel hgiven)
    | some logger => rfl
  rw [runWith, runWith, hpath, hlogger]

theorem outcome_runWith_ne_config (config : Config) (settings : Settings) (document : Document)
    (error : ConfigError) : (runWith config settings document).outcome ≠ .error (.config error) := by
  cases hvalid : Schema.validate document with
  | ok schema => simp [runWith_of_ok hvalid]
  | error _ => simp [runWith_of_error hvalid]

/-- Settings that leave nothing to a configuration, and give none. -/
structure Settings.Explicit (settings : Settings) : Prop where
  modulePath : settings.modulePath ≠ none
  logger : settings.logger ≠ none
  config : settings.config = none

theorem Settings.Explicit.agreeFor (h : settings.Explicit) (first second : Config) :
    AgreeFor settings first second :=
  ⟨fun hnone => absurd hnone h.modulePath, fun hnone => absurd hnone h.logger⟩

theorem Settings.Explicit.configuration_eq (h : settings.Explicit) (environment : Environment) :
    configuration settings environment = Config.load environment := by
  rw [configuration, h.config]

/-- With everything given but a configuration, two environments give the same run exactly if both
are accepted or both are refused for the same reasons. A refused one ends the run before the
document is looked at. -/
theorem run_eq_iff_of_explicit (hexplicit : settings.Explicit) (first second : Environment)
    (document : Document) :
    (run settings first document = run settings second document ↔
      (Config.load first).map (fun _ => ()) = (Config.load second).map fun _ => ()) ∧
    ∀ error, Config.load first = .error error →
      run settings first document = ⟨[], .error (.config error)⟩ := by
  have hok : ∀ {environment : Environment} {config : Config},
      Config.load environment = .ok config →
        run settings environment document = runWith config settings document := by
    intro environment config hload
    exact run_of_configuration ((hexplicit.configuration_eq environment).trans hload) document
  have herror : ∀ {environment : Environment} {error : ConfigError},
      Config.load environment = .error error →
        run settings environment document = ⟨[], .error (.config error)⟩ := by
    intro environment error hload
    exact run_of_configuration_error ((hexplicit.configuration_eq environment).trans hload) document
  refine ⟨?_, fun error hload => herror hload⟩
  cases hfirst : Config.load first with
  | ok config =>
    rw [hok hfirst]
    cases hsecond : Config.load second with
    | ok other =>
      rw [hok hsecond, runWith_congr (hexplicit.agreeFor config other)]
      simp [Except.map]
    | error error =>
      have hne := outcome_runWith_ne_config config settings document error
      rw [herror hsecond]
      constructor
      · intro heq
        exact absurd (congrArg Logged.outcome heq) hne
      · intro heq
        cases heq
  | error error =>
    rw [herror hfirst]
    cases hsecond : Config.load second with
    | ok other =>
      have hne := outcome_runWith_ne_config other settings document error
      rw [hok hsecond]
      constructor
      · intro heq
        exact absurd (congrArg Logged.outcome heq).symm hne
      · intro heq
        cases heq
    | error other =>
      rw [herror hsecond]
      simp [Except.map]

def explicit : Settings where
  modulePath := some "Blog"
  logger := some .recorder

def loud : Environment where
  logLevel := some (.text "loud")

def loudError : ConfigError where
  report := ⟨⟨[.key "logLevel"], .unknownWord Log.Level.words "loud"⟩, []⟩

theorem explicit_explicit : explicit.Explicit := ⟨by simp [explicit], by simp [explicit], rfl⟩

theorem run_eq_iff_of_explicit_loud :
    explicit.Explicit ∧
      (run explicit loud Entity.circle.toDocument = run explicit {} Entity.circle.toDocument ↔
        (Config.load loud).map (fun _ => ()) = (Config.load {}).map fun _ => ()) ∧
      Config.load loud = .error loudError ∧
      run explicit loud Entity.circle.toDocument = ⟨[], .error (.config loudError)⟩ := by
  have hload : Config.load loud = .error loudError := by rfl
  obtain ⟨hiff, herror⟩ :=
    run_eq_iff_of_explicit explicit_explicit loud {} Entity.circle.toDocument
  exact ⟨explicit_explicit, hiff, hload, herror loudError hload⟩

theorem explicit_loud_fails :
    explicit.Explicit ∧
      (∃ modules, (run explicit {} Entity.circle.toDocument).outcome = .ok modules ∧
        modules.map (·.moduleName) = ["Blog.Human", "Blog.Proof"]) ∧
      (run explicit loud Entity.circle.toDocument).outcome = .error (.config loudError) ∧
      run explicit {} Entity.circle.toDocument ≠ run explicit loud Entity.circle.toDocument := by
  have hload : configuration explicit {} = .ok ⟨"App", some .info⟩ := by rfl
  have hloud : configuration explicit loud = .error loudError := by rfl
  have hmodules : ((entities (some "Blog") Entity.circle).map (written Dialect.ecto)).map
      (·.moduleName) = ["Blog.Human", "Blog.Proof"] := by decide +kernel
  have hquiet : (run explicit {} Entity.circle.toDocument).outcome =
      .ok ((entities (some "Blog") Entity.circle).map (written Dialect.ecto)) := by
    rw [run_of_configuration hload, runWith_of_ok Entity.validate_circle]
    rfl
  have hfails : (run explicit loud Entity.circle.toDocument).outcome =
      .error (.config loudError) := by
    rw [run_of_configuration_error hloud]
  refine ⟨explicit_explicit, ⟨_, hquiet, hmodules⟩, hfails, ?_⟩
  intro heq
  rw [heq, hfails] at hquiet
  cases hquiet

end Generator
end Scaffold
