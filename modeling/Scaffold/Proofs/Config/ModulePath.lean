import Scaffold.Config
import Scaffold.Proofs.Checked.Acceptance

/-!
What a configuration that was loaded says of its module path.
-/
namespace Scaffold
namespace Config

theorem load_eq_ok_iff {environment : Environment} {config : Config} :
    load environment = .ok config ↔ (check environment).Accepts config := by
  rw [load, ← Checked.result_eq_ok_iff_accepts]
  cases (check environment).result <;> simp [Except.mapError]

theorem accepts_checkPath_iff {document : Option Document} {path : String} :
    (checkPath document).Accepts path ↔
      document.bind Document.text? = some path ∧ isModulePath path = true := by
  rw [checkPath, Checked.accepts_refine, Check.accepts_anyText]
  apply and_congr_right
  intro _
  by_cases hpath : isModulePath path = true <;> simp [hpath]

theorem load_with_path {environment : Environment} {config : Config}
    (h : load environment = .ok config) :
    isModulePath config.modulePath = true ∧ ∀ path, isModulePath path = true →
      load { environment with modulePath := some (.text path) } =
        .ok { config with modulePath := path } := by
  have haccepts := load_eq_ok_iff.1 h
  simp only [check, Checked.accepts_seq, Checked.accepts_map, Checked.accepts_within,
    accepts_checkPath_iff] at haccepts
  obtain ⟨_, ⟨given, ⟨-, hgiven⟩, rfl⟩, level, hlevel, rfl⟩ := haccepts
  refine ⟨hgiven, fun path hpath => load_eq_ok_iff.2 ?_⟩
  simp only [check, Checked.accepts_seq, Checked.accepts_map, Checked.accepts_within,
    accepts_checkPath_iff]
  exact ⟨_, ⟨path, ⟨rfl, hpath⟩, rfl⟩, level, hlevel, rfl⟩

theorem modulePath_ne_empty {environment : Environment} {config : Config}
    (h : load environment = .ok config) : config.modulePath ≠ "" := by
  intro hempty
  have hpath := (load_with_path h).1
  rw [hempty] at hpath
  exact absurd hpath (by decide)

end Config
end Scaffold
