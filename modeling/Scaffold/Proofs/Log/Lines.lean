import Scaffold.Proofs.Document.RoundTrip
import Scaffold.Proofs.Log.Console

/-!
The lines of a console. Each entry that the console keeps is one line of text, from which the three
fields of every entry are read again with the data over them, and a console with a higher threshold
prints some of the lines that one with a lower threshold prints, in the same order
(`outputs_console_lines`).
-/
namespace Scaffold
namespace Log

variable {context : String} {entry : Entry}

theorem Entry.ordered_head (context : String) (entry : Entry) : (entry.head context).Ordered :=
  Fields.ordered_of_nodup (fun _ => index?_of_mem_keys_head) (by rw [keys_head]; decide)

theorem Entry.forall_mem_fields {holds : Document → Prop} (htext : ∀ text, holds (.text text))
    (hdata : ∀ field ∈ entry.data, holds field.2) :
    ∀ field ∈ entry.fields context, holds field.2 := by
  have hhead : ∀ field ∈ entry.head context, holds field.2 := by
    simp only [head, List.forall_mem_cons]
    exact ⟨htext _, htext _, htext _, List.forall_mem_nil _⟩
  exact Fields.forall_mem_putAll hhead hdata

theorem Entry.regular_fields (h : (Document.object entry.data).Regular) (context : String) :
    (Document.object (entry.fields context)).Regular := by
  rw [Document.regular_object_iff] at h ⊢
  exact ⟨(entry.ordered_head context).putAll entry.data, forall_mem_fields .text h.2⟩

theorem Entry.inDoubles_fields (h : (Document.object entry.data).InDoubles) (context : String) :
    (Document.object (entry.fields context)).InDoubles := by
  rw [Document.inDoubles_object_iff] at h ⊢
  exact forall_mem_fields Document.inDoubles_text h

/-- A line that tells an entry, with the fields that are read from it. -/
structure Entry.IsTold (entry : Entry) (context line : String) (fields : Fields) : Prop where
  /-- There is no line break in the line, and no other control character. -/
  printable : ∀ c ∈ line.toList, 0x20 ≤ c.toNat
  parse?_eq : Document.parse? line = some (.object fields)
  /-- A reader with numbers of double precision reads the same. -/
  toDoubles_eq : (Document.object entry.data).InDoubles →
    (Document.parse? line).map Document.toDoubles = some (.object fields)
  isOverlay : Fields.IsOverlay (entry.head context) entry.data fields

theorem Entry.isTold_line (h : (Document.object entry.data).Regular) (context : String) :
    entry.IsTold context (entry.line context) (entry.fields context) := by
  have hparse : Document.parse? (entry.line context) = some (.object (entry.fields context)) :=
    Document.parse?_print (regular_fields h context)
  refine ⟨?_, hparse, ?_, ?_⟩
  · rw [line, Document.print_toList]
    exact Document.not_control_of_mem_chars _
  · intro hdata
    rw [hparse, Option.map_some, inDoubles_fields hdata context]
  · exact Fields.isOverlay_putAll (entry.ordered_head context)
      (fun _ => index?_of_mem_keys_head) (Document.regular_object_iff.1 h).1

/-- What a console prints for an entry. -/
def Entry.IsPrinted (context : String) (entry : Entry) (output : Output) : Prop :=
  ∃ line fields, output = .printed (if entry.level = .info then "log" else entry.level.word) line ∧
    entry.IsTold context line fields

theorem Level.andAbove_subset {higher threshold : Level} (h : higher ∈ threshold.andAbove) :
    higher.andAbove ⊆ threshold.andAbove := by
  intro level hlevel
  rw [mem_andAbove_iff] at *
  exact Nat.le_trans h hlevel

theorem outputs_console_sublist {higher threshold : Level} (h : higher ∈ threshold.andAbove)
    (context : String) (entries : List Entry) :
    ((Logger.console context (some higher)).outputs entries).Sublist
      ((Logger.console context (some threshold)).outputs entries) := by
  rw [outputs_console, outputs_console]
  apply List.Sublist.map
  apply List.monotone_filter_right
  intro entry hentry
  rw [decide_eq_true_eq] at *
  exact Level.andAbove_subset h hentry

/-- A console prints one line for each entry at or above its threshold, in order, and nothing that a
console with a lower threshold does not print. -/
theorem outputs_console_lines (context : String) (threshold : Level) (entries : List Entry)
    (hdata : ∀ entry ∈ entries, (Document.object entry.data).Regular) :
    List.Forall₂ (Entry.IsPrinted context)
        (entries.filter fun entry => entry.level ∈ threshold.andAbove)
        ((Logger.console context (some threshold)).outputs entries) ∧
      ∀ higher ∈ threshold.andAbove,
        ((Logger.console context (some higher)).outputs entries).Sublist
          ((Logger.console context (some threshold)).outputs entries) := by
  constructor
  · rw [outputs_console, List.forall₂_map_right_iff, List.forall₂_same]
    intro entry hentry
    have hregular := hdata entry (List.mem_of_mem_filter hentry)
    exact ⟨entry.line context, entry.fields context, by rw [Level.method_eq],
      Entry.isTold_line hregular context⟩
  · exact fun higher hhigher => outputs_console_sublist hhigher context entries

/-- The data go before the fields of the entry, stand in their places, follow them and are nested. -/
def mixedEntries : List Entry :=
  [⟨.info, "two\nlines", [("7", .list [.number (.ofInt 120), .null]), ("level", .text "\"mine\""),
      ("nested", .object [("2", .bool true), ("key", .text "\t")])]⟩,
    ⟨.debug, "left out", []⟩,
    ⟨.error, "failed", [("message", .number (.ofInt (-5)))]⟩]

theorem outputs_console_lines_mixedEntries :
    (∀ entry ∈ mixedEntries,
      (Document.object entry.data).Regular ∧ (Document.object entry.data).InDoubles) ∧
    (List.Forall₂ (Entry.IsPrinted "generator")
        (mixedEntries.filter fun entry => entry.level ∈ Level.info.andAbove)
        ((Logger.console "generator" (some .info)).outputs mixedEntries) ∧
      ∀ higher ∈ Level.info.andAbove,
        ((Logger.console "generator" (some higher)).outputs mixedEntries).Sublist
          ((Logger.console "generator" (some .info)).outputs mixedEntries)) ∧
    (Logger.console "generator" (some .info)).outputs mixedEntries =
      [.printed "log"
          ("\x7b\"7\":[120,null],\"level\":\"\\\"mine\\\"\",\"context\":\"generator\"," ++
            "\"message\":\"two\\nlines\",\"nested\":\x7b\"2\":true,\"key\":\"\\t\"\x7d\x7d"),
        .printed "error"
          "\x7b\"level\":\"error\",\"context\":\"generator\",\"message\":-5\x7d"] := by
  have hregular : ∀ entry ∈ mixedEntries, (Document.object entry.data).Regular := by
    simp +decide [mixedEntries, or_imp, forall_and]
  have hdoubles : ∀ entry ∈ mixedEntries, (Document.object entry.data).InDoubles := by
    have hpositive : (Document.number (.ofInt 120)).InDoubles :=
      Document.inDoubles_ofInt (by decide)
    have hnegative : (Document.number (.ofInt (-5))).InDoubles :=
      Document.inDoubles_ofInt (by decide)
    simp [mixedEntries, or_imp, forall_and, hpositive, hnegative]
  exact ⟨fun entry hentry => ⟨hregular entry hentry, hdoubles entry hentry⟩,
    outputs_console_lines "generator" .info mixedEntries hregular, by decide +kernel⟩

end Log
end Scaffold
