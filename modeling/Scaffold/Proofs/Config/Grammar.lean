import Scaffold.Proofs.Config.ModulePath

/-!
What an environment has to say to be accepted. A module path is accepted exactly if each of its parts
between dots is a capital with letters and digits after it, so that none is empty. `load_outcome` says
which configuration two texts give, and what is reported of texts that give none: first the path,
then the level, each only if it is wrong.
-/
namespace Scaffold

namespace Log.Level

theorem ofWord?_eq_some_iff {word : String} {level : Level} :
    ofWord? word = some level ↔ level.word = word := by
  constructor
  · intro h
    simpa using List.find?_some h
  · rintro rfl
    exact ofWord?_word level

theorem ofWord?_eq_none_iff {word : String} : ofWord? word = none ↔ word ∉ words := by
  simp [ofWord?, words]

theorem mem_words_of_ofWord? {word : String} {level : Level} (h : ofWord? word = some level) :
    word ∈ words := by
  by_contra hunknown
  rw [ofWord?_eq_none_iff.2 hunknown] at h
  cases h

theorem exists_ofWord?_of_mem {word : String} (h : word ∈ words) :
    ∃ level, ofWord? word = some level := by
  obtain ⟨level, -, rfl⟩ := List.mem_map.1 h
  exact ⟨level, ofWord?_word level⟩

end Log.Level

def Environment.ofTexts (path level : Option String) : Environment :=
  ⟨path.map .text, level.map .text⟩

namespace Config

/-- A part of a module path: a capital, then letters and digits, all of ASCII. -/
inductive IsPart : List Char → Prop
  | intro {c : Char} {rest : List Char} (first : c.isUpper = true)
      (others : ∀ d ∈ rest, d.isAlphanum = true) : IsPart (c :: rest)

@[simp] theorem not_isPart_nil : ¬IsPart [] := nofun

@[simp] theorem isPart_cons {c : Char} {cs : List Char} :
    IsPart (c :: cs) ↔ c.isUpper = true ∧ ∀ d ∈ cs, d.isAlphanum = true :=
  ⟨fun ⟨first, others⟩ => ⟨first, others⟩, fun ⟨first, others⟩ => ⟨first, others⟩⟩

instance : DecidablePred IsPart
  | [] => .isFalse not_isPart_nil
  | c :: rest =>
    decidable_of_iff (c.isUpper = true ∧ rest.all Char.isAlphanum = true) (by simp)

def parts (path : String) : List (List Char) := path.toList.splitOn '.'

/-- A path of names that each start with a capital, with dots between them. -/
def IsPath (path : String) : Prop := ∀ part ∈ parts path, IsPart part

instance : DecidablePred IsPath := fun path =>
  inferInstanceAs (Decidable (∀ part ∈ parts path, IsPart part))

/-- Parts of which the first may have begun before, and then only has to go on. -/
def ArePartsFrom (inside : Bool) : List (List Char) → Prop
  | [] => False
  | first :: rest =>
    (if inside then ∀ c ∈ first, c.isAlphanum = true else IsPart first) ∧
      ∀ part ∈ rest, IsPart part

/-- By induction on the text: a dot ends the first part, and any other character is its next. -/
theorem isPathFrom_iff {inside : Bool} {cs : List Char} :
    isPathFrom inside cs = true ↔ ArePartsFrom inside (cs.splitOn '.') := by
  induction cs generalizing inside with
  | nil => cases inside <;> simp [isPathFrom, ArePartsFrom]
  | cons c cs ih =>
    obtain ⟨first, rest, hsplit⟩ := List.exists_cons_of_ne_nil (List.splitOn_ne_nil '.' cs)
    rw [hsplit] at ih
    by_cases hdot : c = '.'
    · have hcut : (c :: cs).splitOn '.' = [] :: first :: rest := by
        simp [List.splitOn_cons_eq_if_modifyHead, hdot, hsplit]
      have hupper : '.'.isUpper = false := by decide
      rw [hcut]
      cases inside with
      | false => simp [isPathFrom, ArePartsFrom, hdot, hupper]
      | true => simp [isPathFrom, ih, ArePartsFrom, hdot]
    · have hcut : (c :: cs).splitOn '.' = (c :: first) :: rest := by
        simp [List.splitOn_cons_eq_if_modifyHead, hdot, hsplit]
      rw [hcut]
      cases inside <;> simp [isPathFrom, ih, ArePartsFrom, hdot, and_assoc]

theorem isModulePath_iff {path : String} : isModulePath path = true ↔ IsPath path := by
  obtain ⟨first, rest, hsplit⟩ := List.exists_cons_of_ne_nil (List.splitOn_ne_nil '.' path.toList)
  rw [isModulePath, isPathFrom_iff, IsPath, parts, hsplit, List.forall_mem_cons]
  simp [ArePartsFrom]

theorem parts_of_isPart {part : String} (h : IsPart part.toList) : parts part = [part.toList] := by
  apply List.splitOn_eq_singleton
  intro hdot
  have hupper : '.'.isUpper = false := by decide
  have hletter : '.'.isAlphanum = false := by decide
  generalize part.toList = cs at h hdot
  obtain ⟨first, others⟩ := h
  rcases List.mem_cons.1 hdot with rfl | hmem
  · simp [hupper] at first
  · simpa [hletter] using others _ hmem

theorem IsPath.append {path part : String} (hpath : IsPath path) (hpart : IsPart part.toList) :
    IsPath (path ++ "." ++ part) := by
  have hparts : parts (path ++ "." ++ part) = parts path ++ [part.toList] := by
    rw [← parts_of_isPart hpart, parts, parts, parts, String.toList_append, String.toList_append,
      List.append_assoc]
    exact List.splitOn_append_cons_self path.toList part.toList
  rw [IsPath, hparts, List.forall_mem_append, List.forall_mem_singleton]
  exact ⟨hpath, hpart⟩

def issues (path level : Option String) : List Issue :=
  (path.toList.filter (¬IsPath ·)).map (fun _ => ⟨[.key "modulePrefix"], .badModulePath⟩) ++
    (level.toList.filter (· ∉ Log.Level.words)).map fun word =>
      ⟨[.key "logLevel"], .unknownWord Log.Level.words word⟩

def problems (path level : Option String) : List String :=
  (path.toList.filter (¬IsPath ·)).map (fun _ =>
    "modulePrefix: must be a dotted PascalCase module path (e.g. MyApp.Schema)") ++
  (level.toList.filter (· ∉ ["debug", "info", "warn", "error"])).map fun word =>
    "logLevel: Invalid enum value. Expected 'debug' | 'info' | 'warn' | 'error', received '" ++
      word ++ "'"

theorem value?_checkPath (path : Option String) :
    (checkPath ((path.map Document.text).or (some (.text standardPath)))).value? =
      some (path.getD standardPath) := by
  cases path <;> rfl

theorem issues_checkPath (path : Option String) :
    (checkPath ((path.map Document.text).or (some (.text standardPath)))).issues =
      (path.toList.filter (¬IsPath ·)).map fun _ => ⟨[], .badModulePath⟩ := by
  cases path with
  | none => decide
  | some text =>
    by_cases hpath : IsPath text <;>
      simp [checkPath, Check.anyText, Check.ofType, Document.text?, isModulePath_iff, hpath]

theorem value?_checkLevel (level : Option String) :
    (checkLevel ((level.map Document.text).or (some (.text Log.Level.standard.word)))).value? =
      Log.Level.ofWord? (level.getD Log.Level.standard.word) := by
  cases level with
  | none => decide
  | some word =>
    cases hword : Log.Level.ofWord? word with
    | none => simp [checkLevel, Check.ofType, Document.text?, hword, Checked.value?]
    | some known => simp [checkLevel, Check.ofType, Document.text?, hword]

theorem issues_checkLevel (level : Option String) :
    (checkLevel ((level.map Document.text).or (some (.text Log.Level.standard.word)))).issues =
      (level.toList.filter (· ∉ Log.Level.words)).map fun word =>
        ⟨[], .unknownWord Log.Level.words word⟩ := by
  cases level with
  | none => decide
  | some word =>
    cases hword : Log.Level.ofWord? word with
    | none =>
      have hunknown := Log.Level.ofWord?_eq_none_iff.1 hword
      simp [checkLevel, Check.ofType, Document.text?, hword, hunknown, Checked.issues]
    | some known =>
      have hmem : word ∈ Log.Level.words := Log.Level.mem_words_of_ofWord? hword
      simp [checkLevel, Check.ofType, Document.text?, hword, hmem]

theorem value?_check_ofTexts (path level : Option String) :
    (check (.ofTexts path level)).value? =
      (Log.Level.ofWord? (level.getD Log.Level.standard.word)).map fun found =>
        ⟨path.getD standardPath, some found⟩ := by
  simp only [check, Environment.ofTexts, Checked.value?_seq, Checked.value?_map, Checked.value?_within,
    value?_checkPath, value?_checkLevel, Option.map_some, Option.bind_some]

theorem issues_check_ofTexts (path level : Option String) :
    (check (.ofTexts path level)).issues = issues path level := by
  simp only [check, Environment.ofTexts, Checked.issues_seq, Checked.issues_map, Checked.issues_within,
    issues_checkPath, issues_checkLevel, List.map_map, issues]
  rfl

theorem issues_eq_nil_iff {path level : Option String} :
    issues path level = [] ↔
      (∀ text ∈ path, IsPath text) ∧ ∀ word ∈ level, word ∈ Log.Level.words := by
  simp [issues]

theorem map_message_issues (path level : Option String) :
    (issues path level).map (fun issue => issue.place ++ ": " ++ issue.message) =
      problems path level := by
  have hlevel : ∀ word : String,
      Issue.place ⟨[.key "logLevel"], .unknownWord Log.Level.words word⟩ ++ ": " ++
        Issue.message ⟨[.key "logLevel"], .unknownWord Log.Level.words word⟩ =
      "logLevel: Invalid enum value. Expected 'debug' | 'info' | 'warn' | 'error', received '" ++
        word ++ "'" := by
    intro word
    have hstart : Issue.place ⟨[.key "logLevel"], .unknownWord Log.Level.words word⟩ ++ ": " ++
        ("Invalid enum value. Expected " ++ Cause.alternatives Log.Level.words ++ ", received '") =
      "logLevel: Invalid enum value. Expected 'debug' | 'info' | 'warn' | 'error', received '" := by
      rfl
    rw [← hstart, String.append_assoc, String.append_assoc, String.append_assoc,
      String.append_assoc]
    rfl
  rw [issues, List.map_append, List.map_map, List.map_map, problems]
  congr 1

theorem load_eq_error_iff {environment : Environment} {error : ConfigError} :
    load environment = .error error ↔ (check environment).issues = error.report.toList := by
  rw [load, ← Checked.result_eq_error_iff]
  obtain ⟨report⟩ := error
  cases (check environment).result <;> simp [Except.mapError]

/-- Two texts give a configuration exactly if the path is a path of names and the level is a level,
and it says what they say, or the standard where one is not set. Texts that give none are reported,
the path before the level, each if and only if it is wrong. -/
theorem load_outcome (path level : Option String) :
    ((∃ config, load (.ofTexts path level) = .ok config) ↔
      (∀ text ∈ path, IsPath text) ∧
        ∀ word ∈ level, word ∈ ["debug", "info", "warn", "error"]) ∧
    (∀ config, load (.ofTexts path level) = .ok config →
      config.modulePath = path.getD "App" ∧
        config.logLevel.map Log.Level.word = some (level.getD "info")) ∧
    ∀ error, load (.ofTexts path level) = .error error →
      error.message =
        "Invalid generator configuration. " ++ "; ".intercalate (problems path level) := by
  refine ⟨?_, ?_, ?_⟩
  · change _ ↔ _ ∧ ∀ word ∈ level, word ∈ Log.Level.words
    rw [← issues_eq_nil_iff]
    constructor
    · rintro ⟨config, hload⟩
      rw [← issues_check_ofTexts]
      exact (load_eq_ok_iff.1 hload).2
    · intro hnone
      have hlevel : level.getD Log.Level.standard.word ∈ Log.Level.words := by
        cases level with
        | none => decide
        | some word => exact (issues_eq_nil_iff.1 hnone).2 word rfl
      obtain ⟨found, hfound⟩ := Log.Level.exists_ofWord?_of_mem hlevel
      refine ⟨⟨path.getD standardPath, some found⟩, load_eq_ok_iff.2 ⟨?_, ?_⟩⟩
      · rw [value?_check_ofTexts, hfound, Option.map_some]
      · rw [issues_check_ofTexts, hnone]
  · intro config hload
    have hvalue := (load_eq_ok_iff.1 hload).1
    rw [value?_check_ofTexts, Option.map_eq_some_iff] at hvalue
    obtain ⟨found, hfound, rfl⟩ := hvalue
    refine ⟨rfl, ?_⟩
    rw [Option.map_some, Log.Level.ofWord?_eq_some_iff.1 hfound]
    rfl
  · intro error herror
    have hreport : error.report.toList = issues path level := by
      rw [← load_eq_error_iff.1 herror, issues_check_ofTexts]
    have hmessage : error.message = "Invalid generator configuration. " ++ "; ".intercalate
        (error.report.toList.map fun issue => issue.place ++ ": " ++ issue.message) := rfl
    rw [hmessage, hreport, map_message_issues]

example : (load (.ofTexts (some "MyApp.") (some "Info"))).mapError (·.message) =
    .error ("Invalid generator configuration. modulePrefix: must be a dotted PascalCase module " ++
      "path (e.g. MyApp.Schema); logLevel: Invalid enum value. Expected 'debug' | 'info' | " ++
      "'warn' | 'error', received 'Info'") := by
  decide +kernel

end Config
end Scaffold
