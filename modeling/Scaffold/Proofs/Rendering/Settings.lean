import Mathlib.Data.List.Induction
import Mathlib.Data.List.Pairwise
import Scaffold.Dialect.Echo
import Scaffold.Dialect.Ecto
import Scaffold.Proofs.Rendering.Fields

/-!
What a line shows of the options. A dialect lists options for each kind. An option that is set, be
it to an empty text or an empty list, shows wherever it is listed, and nothing else shows. So a line
says nothing of the options that are not listed, and nothing of the order in which the options were
set (`line_shows_listed`).
-/
namespace Scaffold

namespace Options

inductive Setting where
  | values (texts : List String)
  | key (column : String)
  | referenced (column : String)
  | joinTable (table : String)
  | joinKeys (keys : JoinKeys)
  deriving DecidableEq, Repr

namespace Setting

def option : Setting → OptionKey
  | values _ => .values
  | key _ => .key
  | referenced _ => .referenced
  | joinTable _ => .joinTable
  | joinKeys _ => .joinKeys

/-- A setting as a dialect writes it. Only join keys that are no two pairs are not written. -/
def text? (dialect : Dialect) : Setting → Option String
  | values texts => some (dialect.values texts)
  | key column => some (dialect.key column)
  | referenced column => some (dialect.referenced column)
  | joinTable table => some (dialect.joinTable table)
  | joinKeys keys => keys.pairs?.map fun (first, second) => dialect.joinKeys first second

end Setting

variable {first second : Options} {option : OptionKey}
  {setting other : Setting} {settings others : List Setting}

def setting? (options : Options) : OptionKey → Option Setting
  | .values => options.values.map .values
  | .key => options.key.map .key
  | .referenced => options.referenced.map .referenced
  | .joinTable => options.joinTable.map .joinTable
  | .joinKeys => options.joinKeys.map .joinKeys
  | .other _ => none

def Has (options : Options) (option : OptionKey) : Prop := (options.setting? option).isSome

instance (options : Options) : DecidablePred options.Has := fun option =>
  inferInstanceAs (Decidable ((options.setting? option).isSome = true))

def set (options : Options) : Setting → Options
  | .values texts => { options with values := some texts }
  | .key column => { options with key := some column }
  | .referenced column => { options with referenced := some column }
  | .joinTable table => { options with joinTable := some table }
  | .joinKeys keys => { options with joinKeys := some keys }

def ofSettings (settings : List Setting) : Options := settings.foldl set {}

theorem option?_eq_bind_setting? (dialect : Dialect) (options : Options) (option : OptionKey) :
    dialect.option? options option = (options.setting? option).bind (Setting.text? dialect) := by
  obtain ⟨values, key, referenced, joinTable, joinKeys⟩ := options
  cases option with
  | values => cases values <;> rfl
  | key => cases key <;> rfl
  | referenced => cases referenced <;> rfl
  | joinTable => cases joinTable <;> rfl
  | joinKeys => cases joinKeys <;> rfl
  | other word => rfl

theorem ext_setting? (h : ∀ option, first.setting? option = second.setting? option) :
    first = second := by
  have hvalues := Option.map_injective (fun _ _ => Setting.values.inj) (h .values)
  have hkey := Option.map_injective (fun _ _ => Setting.key.inj) (h .key)
  have hreferenced := Option.map_injective (fun _ _ => Setting.referenced.inj) (h .referenced)
  have hjoinTable := Option.map_injective (fun _ _ => Setting.joinTable.inj) (h .joinTable)
  have hjoinKeys := Option.map_injective (fun _ _ => Setting.joinKeys.inj) (h .joinKeys)
  cases first
  cases second
  rw [Options.mk.injEq]
  exact ⟨hvalues, hkey, hreferenced, hjoinTable, hjoinKeys⟩

/-- A setting sets its option and leaves the others as they are. -/
theorem setting?_set (options : Options) (setting : Setting) (option : OptionKey) :
    (options.set setting).setting? option =
      if setting.option = option then some setting else options.setting? option := by
  cases setting <;> cases option <;> rfl

theorem set_comm (h : setting.option ≠ other.option) (options : Options) :
    (options.set setting).set other = (options.set other).set setting := by
  apply ext_setting?
  intro option
  simp only [setting?_set]
  by_cases hsetting : setting.option = option
  · have hother : other.option ≠ option := fun hother => h (hsetting.trans hother.symm)
    rw [if_neg hother, if_pos hsetting, if_pos hsetting]
  · rw [if_neg hsetting, if_neg hsetting]

/-- Only the settings of an option matter to it. -/
theorem setting?_foldl_set_filter (listed : OptionKey → Prop) [DecidablePred listed]
    (h : listed option) (options : Options) (settings : List Setting) :
    ((settings.filter (listed ·.option)).foldl set options).setting? option =
      (settings.foldl set options).setting? option := by
  induction settings using List.reverseRecOn with
  | nil => rfl
  | append_singleton settings setting ih =>
    rw [List.foldl_append, List.foldl_cons, List.foldl_nil, setting?_set, ← ih, List.filter_append,
      List.foldl_append]
    by_cases hlisted : listed setting.option
    · rw [List.filter_cons_of_pos (by simpa using hlisted), List.filter_nil, List.foldl_cons,
        List.foldl_nil, setting?_set]
    · have hne : setting.option ≠ option := by
        rintro rfl
        exact hlisted h
      rw [List.filter_cons_of_neg (by simpa using hlisted), List.filter_nil, List.foldl_nil,
        if_neg hne]

/-- Settings of different options can be made in any order. -/
theorem ofSettings_perm (h : settings.Perm others)
    (hdistinct : settings.Pairwise (·.option ≠ ·.option)) :
    ofSettings settings = ofSettings others := by
  have hsymm : Std.Symm fun first second : Setting => first.option ≠ second.option :=
    ⟨fun _ _ hne => hne.symm⟩
  apply h.foldl_eq'
  intro first hfirst second hsecond options
  by_cases heq : first = second
  · rw [heq]
  · exact set_comm (hdistinct.forall hfirst hsecond heq) options

end Options

namespace Rendering

variable {dialect : Dialect} {declaration other : Declaration}

/-- A part of a line shows an option: the option is set, and the part says to what. -/
def Shows (dialect : Dialect) (options : Options) (option : OptionKey) (part : String) : Prop :=
  ∃ setting, options.setting? option = some setting ∧ setting.text? dialect = some part

theorem exists_text? {option : OptionKey} {setting : Options.Setting}
    (hpaired : option = .joinKeys → declaration.Paired)
    (hsetting : declaration.options.setting? option = some setting) (dialect : Dialect) :
    ∃ part, setting.text? dialect = some part := by
  cases option with
  | values | key | referenced | joinTable =>
    obtain ⟨_, -, rfl⟩ := Option.map_eq_some_iff.1 hsetting
    exact ⟨_, rfl⟩
  | joinKeys =>
    obtain ⟨keys, hkeys, rfl⟩ := Option.map_eq_some_iff.1 hsetting
    obtain ⟨first, second, rfl⟩ := hpaired rfl keys hkeys
    exact ⟨_, rfl⟩
  | other word => cases hsetting

/-- The parts are those of the listed options that are set, one for each time that an option is
listed. -/
theorem forall₂_shows {order : List OptionKey} (hpaired : .joinKeys ∈ order → declaration.Paired)
    (dialect : Dialect) :
    List.Forall₂ (Shows dialect declaration.options) (order.filter declaration.options.Has)
      (order.filterMap (dialect.option? declaration.options)) := by
  induction order with
  | nil => exact .nil
  | cons option order ih =>
    have hrest := ih fun hmem => hpaired (List.mem_cons_of_mem option hmem)
    have hoption := Options.option?_eq_bind_setting? dialect declaration.options option
    cases hsetting : declaration.options.setting? option with
    | none =>
      rw [hsetting, Option.bind_none] at hoption
      rw [List.filter_cons_of_neg (by simp [Options.Has, hsetting]),
        List.filterMap_cons_none hoption]
      exact hrest
    | some setting =>
      have hhead : option = .joinKeys → declaration.Paired := by
        rintro rfl
        exact hpaired List.mem_cons_self
      obtain ⟨part, hpart⟩ := exists_text? hhead hsetting dialect
      rw [hsetting, Option.bind_some, hpart] at hoption
      rw [List.filter_cons_of_pos (by simp [Options.Has, hsetting]),
        List.filterMap_cons_some hoption]
      exact .cons ⟨setting, hsetting, hpart⟩ hrest

/-- Declarations that differ at most in options that the dialect does not list for their kind. -/
structure Alike (dialect : Dialect) (declaration other : Declaration) : Prop where
  kind : other.kind = declaration.kind
  name : other.name = declaration.name
  subject : other.subject = declaration.subject
  options : ∀ option ∈ dialect.optionOrder declaration.kind,
    other.options.setting? option = declaration.options.setting? option

theorem write_eq_of_alike (h : Alike dialect declaration other) :
    write dialect other = write dialect declaration := by
  have hoptions : options dialect other = options dialect declaration := by
    rw [options, options, h.kind]
    apply List.filterMap_congr
    intro option hoption
    rw [Options.option?_eq_bind_setting?, Options.option?_eq_bind_setting?,
      h.options option hoption]
  rw [write, write, hoptions, subject, subject, h.kind, h.name, h.subject]

theorem isWritable_eq_of_alike (h : Alike dialect declaration other) :
    isWritable dialect other = isWritable dialect declaration := by
  by_cases hlisted : .joinKeys ∈ dialect.optionOrder declaration.kind
  · have hkeys : other.options.joinKeys = declaration.options.joinKeys :=
      Option.map_injective (fun _ _ => Options.Setting.joinKeys.inj) (h.options .joinKeys hlisted)
    rw [isWritable, isWritable, h.kind, hkeys]
  · simp [isWritable, h.kind, hlisted]

theorem line_eq_of_alike (h : Alike dialect declaration other) (logger : Option Log.Logger) :
    line dialect logger (.known other) = line dialect logger (.known declaration) := by
  have hprimary : isPrimaryKey other = isPrimaryKey declaration := by
    rw [isPrimaryKey, isPrimaryKey, h.kind, h.name]
  have hvector : isVectorField other = isVectorField declaration := by
    rw [isVectorField, isVectorField, h.kind, h.name, h.subject]
  have hwarning : vectorWarning other = vectorWarning declaration := by
    rw [vectorWarning, vectorWarning, h.name, h.subject]
  rw [line, line, hprimary, hvector, hwarning, write_eq_of_alike h, isWritable_eq_of_alike h,
    h.name]

def listed (dialect : Dialect) (kind : Kind) (settings : List Options.Setting) :
    List Options.Setting :=
  settings.filter (·.option ∈ dialect.optionOrder kind)

theorem alike_ofSettings {settings others : List Options.Setting}
    (h : (listed dialect declaration.kind settings).Perm (listed dialect declaration.kind others))
    (hdistinct : (listed dialect declaration.kind settings).Pairwise (·.option ≠ ·.option)) :
    Alike dialect { declaration with options := .ofSettings settings }
      { declaration with options := .ofSettings others } where
  kind := rfl
  name := rfl
  subject := rfl
  options option hoption := by
    have hsame := congrArg (·.setting? option) (Options.ofSettings_perm h hdistinct)
    have hfilter := Options.setting?_foldl_set_filter
      (· ∈ dialect.optionOrder declaration.kind) hoption {}
    exact ((hfilter settings).symm.trans (hsame.trans (hfilter others))).symm

theorem alike_key (hkind : declaration.kind = .manyToMany) (key : Option String) :
    Alike .ecto declaration
      { declaration with options := { declaration.options with key } } where
  kind := rfl
  name := rfl
  subject := rfl
  options option hoption := by
    have hne : option ≠ .key := by
      rintro rfl
      rw [hkind] at hoption
      exact absurd hoption (by decide)
    cases option with
    | key => exact absurd rfl hne
    | values | referenced | joinTable | joinKeys | other => rfl

theorem isLeftOut_eq_false_iff : isLeftOut declaration = false ↔
    ¬(declaration.kind = .field ∧
      (declaration.name = "id" ∨ Naming.IsVector declaration.subject)) := by
  rw [← Naming.isUnsupported_iff]
  by_cases hname : declaration.name = "id" <;>
    simp [isLeftOut, isPrimaryKey, isVectorField, primaryKey, hname]

/-- It lists an option twice, one of another kind and one that does not exist. -/
def generous : Dialect := Dialect.echo.withOptionOrder fun
  | .manyToMany => some [.joinTable, .other "comment", .values, .joinKeys, .joinTable]
  | _ => none

def tags : Declaration where
  kind := .manyToMany
  name := "tags"
  subject := "App.Tag"
  options := { values := some [], key := some "tag_id", joinTable := some "" }

def tagsSettings : List Options.Setting := [.joinTable "", .key "tag_id", .values []]

def tagsOthers : List Options.Setting := [.values [], .referenced "id", .joinTable ""]

end Rendering
end Scaffold
