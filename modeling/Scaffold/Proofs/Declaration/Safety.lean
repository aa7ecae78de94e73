import Scaffold.Proofs.Declaration.Grammar
import Scaffold.Proofs.Disambiguation.Renaming
import Scaffold.Proofs.Rendering.Lines

/-!
Lists of declarations that were read from documents. Reading stops at the first document that
describes no declaration, and the error is about that one. What has been read is safe from then on:
join keys are two pairs of texts, which is all that the passes and the dialects ask of them, and no
pass changes them. `readAll_safe` puts both together.
-/
namespace Scaffold

theorem Options.exists_ofPairs_of_accepts {kind : Kind} {document : Option Document}
    {options : Options} (h : (check kind document).Accepts options) :
    ∀ keys, options.joinKeys = some keys → ∃ first second, keys = .ofPairs first second := by
  obtain ⟨fields, -, hparts, -⟩ := Check.accepts_strict.1 h
  intro keys hkeys
  cases kind with
  | field =>
    obtain ⟨values, -, rfl⟩ := Checked.accepts_map.1 hparts
    cases hkeys
  | belongsTo | hasMany | hasOne =>
    obtain ⟨_, hpart, referenced, -, rfl⟩ := Checked.accepts_seq.1 hparts
    obtain ⟨key, -, rfl⟩ := Checked.accepts_map.1 hpart
    cases hkeys
  | manyToMany =>
    obtain ⟨_, hrest, joinKeys, hjoinKeys, rfl⟩ := Checked.accepts_seq.1 hparts
    obtain ⟨_, hpart, joinTable, -, rfl⟩ := Checked.accepts_seq.1 hrest
    obtain ⟨key, -, rfl⟩ := Checked.accepts_map.1 hpart
    obtain rfl : joinKeys = some keys := hkeys
    rw [Fields.accepts_check] at hjoinKeys
    cases hgiven : fields.get? "joinKeys" with
    | none =>
      rw [hgiven] at hjoinKeys
      cases Checked.accepts_pure.1 hjoinKeys
    | some given =>
      rw [hgiven] at hjoinKeys
      obtain ⟨_, hpairs, hsome⟩ := Checked.accepts_map.1 hjoinKeys
      obtain ⟨pairs, -, rfl⟩ := Checked.accepts_map.1 hpairs
      exact ⟨pairs.1, pairs.2, (Option.some.inj hsome).symm⟩

namespace Declaration

theorem paired_of_accepts {document : Document} {declaration : Declaration}
    (h : (check (some document)).Accepts declaration) : declaration.Paired := by
  obtain ⟨fields, -, -, -, -, hoptions, -⟩ := accepts_check_iff.1 h
  exact Options.exists_ofPairs_of_accepts hoptions

end Declaration

namespace Disambiguation

variable {passes : List Pass} {start stop : List Declaration}

theorem paired_of_mem_map_renamed (h : ∀ declaration ∈ start, declaration.Paired)
    (alias? : Declaration → Option String) :
    ∀ declaration ∈ start.map (renamed start alias?), declaration.Paired := by
  intro declaration hmem
  obtain ⟨original, horiginal, rfl⟩ := List.mem_map.1 hmem
  exact (h original horiginal).under _

/-- A pass succeeds on join keys that are two pairs, and leaves them so. -/
theorem exists_paired_run (h : ∀ declaration ∈ start, declaration.Paired) (pass : Pass) :
    ∃ stop, pass.run start = .ok stop ∧ ∀ declaration ∈ stop, declaration.Paired := by
  cases pass with
  | byKey =>
    refine ⟨byKey start, rfl, ?_⟩
    intro declaration hmem
    rw [(byKey_perm start).mem_iff] at hmem
    exact paired_of_mem_map_renamed h keyAlias? declaration hmem
  | byJoinTable =>
    refine ⟨byJoinTable start, rfl, ?_⟩
    rw [byJoinTable_eq_map]
    exact paired_of_mem_map_renamed h tableAlias?
  | byJoinColumn =>
    exact ⟨_, byJoinColumn_eq_map h, paired_of_mem_map_renamed h columnAlias?⟩
  | byJoins =>
    refine ⟨_, byJoins_eq_map h, ?_⟩
    intro declaration hmem
    obtain ⟨original, horiginal, rfl⟩ := List.mem_map.1 hmem
    exact (h original horiginal).under _

theorem exists_paired_runAll (h : ∀ declaration ∈ start, declaration.Paired)
    (passes : List Pass) :
    ∃ stop, runAll passes start = .ok stop ∧ ∀ declaration ∈ stop, declaration.Paired := by
  induction passes generalizing start with
  | nil => exact ⟨start, rfl, h⟩
  | cons pass passes ih =>
    obtain ⟨middle, hrun, hmiddle⟩ := exists_paired_run h pass
    obtain ⟨stop, hrest, hstop⟩ := ih hmiddle
    refine ⟨stop, ?_, hstop⟩
    rw [runAll, hrun]
    exact hrest

end Disambiguation

namespace Declaration

variable {documents : List Document} {declarations : List Declaration} {error : ContractError}

/-- The first document of a list that describes no declaration, with what is wrong in it. -/
structure FirstFault (documents : List Document) (position : Nat) (document : Document)
    (report : Report) : Prop where
  found : documents[position]? = some document
  rejected : (check (some document)).result = .error report
  earlier : ∀ other ∈ documents.take position, ∃ declaration,
    (check (some other)).result = .ok declaration

theorem FirstFault.followedBy {position : Nat} {document : Document} {report : Report}
    (h : FirstFault documents position document report) (others : List Document) :
    FirstFault (documents.take (position + 1) ++ others) position document report := by
  obtain ⟨hposition, -⟩ := List.getElem?_eq_some_iff.1 h.found
  have hlength : position < (documents.take (position + 1)).length := by
    rw [List.length_take]
    omega
  refine ⟨?_, h.rejected, ?_⟩
  · rw [List.getElem?_append_left hlength, List.getElem?_take_of_lt (Nat.lt_succ_self position)]
    exact h.found
  · rw [List.take_append_of_le_length (Nat.le_of_lt hlength), List.take_take,
      Nat.min_eq_left (Nat.le_succ position)]
    exact h.earlier

theorem firstFault_cons_iff {first document : Document} {position : Nat} {report : Report} :
    FirstFault (first :: documents) position document report ↔
      (position = 0 ∧ first = document ∧ (check (some first)).result = .error report) ∨
      ∃ later, position = later + 1 ∧
        (∃ declaration, (check (some first)).result = .ok declaration) ∧
        FirstFault documents later document report := by
  cases position with
  | zero =>
    constructor
    · rintro ⟨hfound, hrejected, -⟩
      obtain rfl : first = document := Option.some.inj hfound
      exact .inl ⟨rfl, rfl, hrejected⟩
    · rintro (⟨-, rfl, hrejected⟩ | ⟨later, hlater, -⟩)
      · exact ⟨rfl, hrejected, by simp⟩
      · cases hlater
  | succ later =>
    constructor
    · rintro ⟨hfound, hrejected, hearlier⟩
      rw [List.take_succ_cons, List.forall_mem_cons] at hearlier
      exact .inr ⟨later, rfl, hearlier.1, hfound, hrejected, hearlier.2⟩
    · rintro (⟨hzero, -⟩ | ⟨_, hlater, hfirst, hrest⟩)
      · cases hzero
      · obtain rfl := Nat.succ.inj hlater
        refine ⟨hrest.found, hrest.rejected, ?_⟩
        rw [List.take_succ_cons, List.forall_mem_cons]
        exact ⟨hfirst, hrest.earlier⟩

theorem readFrom_cons_of_error {first : Document} {report : Report}
    (h : (check (some first)).result = .error report) (start : Nat) :
    readFrom start (first :: documents) =
      .error (.malformed start report.first (nameOf first)) := by
  rw [readFrom, h]

theorem readFrom_cons_of_ok {first : Document} {declaration : Declaration}
    (h : (check (some first)).result = .ok declaration) (start : Nat) :
    readFrom start (first :: documents) =
      (readFrom (start + 1) documents).map (declaration :: ·) := by
  rw [readFrom, h]
  cases readFrom (start + 1) documents <;> rfl

theorem readFrom_eq_ok_iff (start : Nat) :
    readFrom start documents = .ok declarations ↔ List.Forall₂
      (fun document declaration => (check (some document)).result = .ok declaration)
        documents declarations := by
  induction documents generalizing start declarations with
  | nil => simp [readFrom, eq_comm]
  | cons first documents ih =>
    rw [List.forall₂_cons_left_iff]
    cases hfirst : (check (some first)).result with
    | error report => simp [readFrom_cons_of_error hfirst]
    | ok declaration =>
      rw [readFrom_cons_of_ok hfirst]
      simp only [← ih (start + 1), Except.ok.injEq]
      cases hrest : readFrom (start + 1) documents with
      | error error => simp [Except.map]
      | ok rest => simp [Except.map, eq_comm]

theorem readFrom_eq_error_iff (start : Nat) :
    readFrom start documents = .error error ↔ ∃ position document report,
      FirstFault documents position document report ∧
        error = .malformed (start + position) report.first (nameOf document) := by
  induction documents generalizing start with
  | nil =>
    have hnone : ∀ position document report, ¬FirstFault [] position document report := by
      intro position document report h
      cases h.found
    simp [readFrom, hnone]
  | cons first documents ih =>
    simp only [firstFault_cons_iff]
    cases hfirst : (check (some first)).result with
    | error report =>
      rw [readFrom_cons_of_error hfirst]
      constructor
      · intro herror
        exact ⟨0, first, report, .inl ⟨rfl, rfl, rfl⟩, (Except.error.inj herror).symm⟩
      · rintro ⟨_, _, _, ⟨rfl, rfl, hreport⟩ | ⟨_, _, ⟨_, hok⟩, _⟩, rfl⟩
        · obtain rfl := Except.error.inj hreport
          rfl
        · cases hok
    | ok declaration =>
      have hrest : (readFrom (start + 1) documents).map (declaration :: ·) = .error error ↔
          readFrom (start + 1) documents = .error error := by
        cases readFrom (start + 1) documents <;> simp [Except.map]
      rw [readFrom_cons_of_ok hfirst, hrest, ih (start + 1)]
      constructor
      · rintro ⟨position, document, report, hfault, rfl⟩
        refine ⟨position + 1, document, report, .inr ⟨position, rfl, ⟨_, rfl⟩, hfault⟩, ?_⟩
        rw [Nat.add_right_comm, Nat.add_assoc]
      · rintro ⟨_, document, report, ⟨_, _, hreport⟩ | ⟨position, rfl, _, hfault⟩, rfl⟩
        · cases hreport
        · refine ⟨position, document, report, hfault, ?_⟩
          rw [Nat.add_right_comm, Nat.add_assoc]

theorem readAll_eq_error_iff :
    readAll documents = .error error ↔ ∃ position document report,
      FirstFault documents position document report ∧
        error = .malformed position report.first (nameOf document) := by
  rw [readAll, readFrom_eq_error_iff]
  simp only [Nat.zero_add]

theorem paired_of_readAll (h : readAll documents = .ok declarations) :
    ∀ declaration ∈ declarations, declaration.Paired := by
  have hread := (readFrom_eq_ok_iff 0).1 h
  clear h
  induction hread with
  | nil => simp
  | cons hfirst _ ih =>
    have hpaired := paired_of_accepts (Checked.result_eq_ok_iff_accepts.1 hfirst)
    exact List.forall_mem_cons.2 ⟨hpaired, ih⟩

theorem nameOf_eq_some_iff {document : Document} {name : String} :
    nameOf document = some name ↔
      ∃ fields : Fields, document = .object fields ∧ fields.get? "name" = some (.text name) := by
  simp [nameOf, Option.bind_eq_some_iff, Document.object?_eq_some_iff,
    Document.text?_eq_some_iff]

/-- Declarations that were read are safe: no run of passes fails on them, and in what it gives all
join keys are two pairs of texts, so each has a line in every dialect, whatever its logger. If
reading fails, it is for the first document that describes no declaration, whatever follows it,
and the error has the name of this document if it is an object whose name is a text. -/
theorem readAll_safe (documents : List Document) :
    (∀ declarations, readAll documents = .ok declarations →
      ∀ passes, ∃ result, Disambiguation.runAll passes declarations = .ok result ∧
        ∀ declaration ∈ result, declaration.Paired ∧
          ∀ dialect logger, ∃ line,
            (Rendering.line dialect logger (.known declaration)).outcome = .ok line) ∧
    ∀ error, readAll documents = .error error →
      ∃ position document report, FirstFault documents position document report ∧
        error = .malformed position report.first (nameOf document) ∧
        (∀ others, readAll (documents.take (position + 1) ++ others) = .error error) ∧
        ∀ name, error.declarationName = some name ↔
          ∃ fields : Fields, document = .object fields ∧
            fields.get? "name" = some (.text name) := by
  constructor
  · intro declarations hread passes
    obtain ⟨result, hrun, hpaired⟩ :=
      Disambiguation.exists_paired_runAll (paired_of_readAll hread) passes
    refine ⟨result, hrun, fun declaration hmem => ⟨hpaired declaration hmem, ?_⟩⟩
    intro dialect logger
    have hwritable := Rendering.writable_of_paired (hpaired declaration hmem) dialect
    have hline := Rendering.line_known hwritable logger
    exact ⟨_, congrArg Logged.outcome hline⟩
  · intro error herror
    obtain ⟨position, document, report, hfault, rfl⟩ := readAll_eq_error_iff.1 herror
    refine ⟨position, document, report, hfault, rfl, ?_, fun name => nameOf_eq_some_iff⟩
    intro others
    exact readAll_eq_error_iff.2 ⟨position, document, report, hfault.followedBy others, rfl⟩

def lacking : Document :=
  .object [("kind", .text "field"), ("type", .text ""), ("name", .text "posts")]

def lackingError : ContractError :=
  .malformed 1 ⟨[.key "type"], .emptyText⟩ (some "posts")

theorem readAll_safe_followers :
    readAll [followers, followers] = .ok [followersRead, followersRead] ∧
      (∃ result, Disambiguation.runAll [.byJoins, .byKey, .byJoinColumn]
          [followersRead, followersRead] = .ok result ∧
        ∀ declaration ∈ result, declaration.Paired ∧
          ∀ dialect logger, ∃ line,
            (Rendering.line dialect logger (.known declaration)).outcome = .ok line) ∧
      readAll [followers, lacking, .null] = .error lackingError ∧
      ∃ position document report,
        FirstFault [followers, lacking, .null] position document report ∧
          lackingError = .malformed position report.first (nameOf document) ∧
          (∀ others, readAll ([followers, lacking, .null].take (position + 1) ++ others) =
            .error lackingError) ∧
          ∀ name, lackingError.declarationName = some name ↔
            ∃ fields : Fields, document = .object fields ∧
              fields.get? "name" = some (.text name) := by
  have hread : readAll [followers, followers] = .ok [followersRead, followersRead] := by rfl
  have hfails : readAll [followers, lacking, .null] = .error lackingError := by rfl
  exact ⟨hread, (readAll_safe _).1 _ hread _, hfails, (readAll_safe _).2 _ hfails⟩

end Declaration
end Scaffold
