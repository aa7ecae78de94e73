import Scaffold.Log
import Scaffold.Proofs.Document.KeyOrder

/-!
What the two loggers make of a list of entries. The recorder keeps all of them. The console drops
those below its threshold and prints the others, each with its data after the three fields that
every entry has. For entries that are `Plain` none of the data replaces a field or goes before one.
-/
namespace Scaffold
namespace Log

def Level.andAbove (level : Level) : List Level := Level.all.dropWhile (· ≠ level)

theorem Level.mem_andAbove_iff (level threshold : Level) :
    level ∈ threshold.andAbove ↔ threshold.rank ≤ level.rank := by
  cases threshold <;> cases level <;> decide

theorem Level.method_eq (level : Level) :
    level.method = if level = .info then "log" else level.word := by
  cases level <;> rfl

def Entry.head (context : String) (entry : Entry) : Fields :=
  [("level", .text entry.level.word), ("context", .text context), ("message", .text entry.message)]

theorem Entry.keys_head (context : String) (entry : Entry) :
    (entry.head context).keys = ["level", "context", "message"] := rfl

theorem Entry.index?_of_mem_keys_head {context key : String} {entry : Entry}
    (h : key ∈ (entry.head context).keys) : Fields.index? key = none := by
  rw [keys_head] at h
  revert key
  decide

/-- An entry whose data stand after the fields that every entry has. -/
structure Entry.Plain (entry : Entry) : Prop where
  nodup : (["level", "context", "message"] ++ entry.data.keys).Nodup
  noIndex : ∀ key ∈ entry.data.keys, Fields.index? key = none

theorem Entry.Plain.not_mem_head {entry : Entry} (h : entry.Plain) {key : String}
    (hkey : key ∈ entry.data.keys) : key ∉ ["level", "context", "message"] := by
  intro hhead
  exact (List.nodup_append.1 h.nodup).2.2 key hhead key hkey rfl

theorem Entry.Plain.fields_eq {entry : Entry} (h : entry.Plain) (context : String) :
    entry.fields context = entry.head context ++ entry.data := by
  have hkeys : Fields.keys (entry.head context ++ entry.data) =
      ["level", "context", "message"] ++ entry.data.keys := Fields.keys_append _ _
  have hindex : ∀ key ∈ Fields.keys (entry.head context ++ entry.data),
      Fields.index? key = none := by
    rw [Fields.keys_append, List.forall_mem_append]
    exact ⟨fun _ => index?_of_mem_keys_head, h.noIndex⟩
  exact Fields.putAll_eq_append (Fields.ordered_of_nodup hindex (hkeys ▸ h.nodup))

theorem outputs_recorder (entries : List Entry) :
    Logger.recorder.outputs entries = entries.map .recorded :=
  List.filterMap_eq_map_iff_forall_eq_some.2 fun _ _ => rfl

theorem recorded_mem_outputs_iff {entry : Entry} {entries : List Entry} :
    .recorded entry ∈ Logger.recorder.outputs entries ↔ entry ∈ entries := by
  simp [outputs_recorder]

/-- The console prints the entries of at least its threshold, in their order. -/
theorem outputs_console (context : String) (threshold : Level) (entries : List Entry) :
    (Logger.console context (some threshold)).outputs entries =
      (entries.filter fun entry => entry.level ∈ threshold.andAbove).map fun entry =>
        .printed entry.level.method (entry.line context) := by
  induction entries with
  | nil => rfl
  | cons entry entries ih =>
    have hmem := Level.mem_andAbove_iff entry.level threshold
    by_cases hrank : threshold.rank ≤ entry.level.rank
    · have houtput : (Logger.console context (some threshold)).output? entry =
          some (.printed entry.level.method (entry.line context)) := if_pos hrank
      rw [Logger.outputs, List.filterMap_cons_some houtput,
        List.filter_cons_of_pos (by simpa using hmem.2 hrank), List.map_cons, ← ih]
      rfl
    · have houtput : (Logger.console context (some threshold)).output? entry = none :=
        if_neg hrank
      rw [Logger.outputs, List.filterMap_cons_none houtput,
        List.filter_cons_of_neg (by simpa using mt hmem.1 hrank), ← ih]
      rfl

end Log
end Scaffold
