import Scaffold.Proofs.Disambiguation.NameOrder

/-!
Lists whose names are distinct. No pass renames a declaration of such a list or fails on it, not
even on join keys of an odd form, which are looked at only where names collide. So a run of passes
gives the declarations themselves, in the order of their names once a pass by keys has run.
-/
namespace Scaffold
namespace Disambiguation

variable {passes others : List Pass} {declarations start middle stop : List Declaration}

def NameOrdered (declarations : List Declaration) : Prop :=
  declarations.Pairwise fun first second => Text.unitsLe first.name second.name = true

/-- What a run of passes makes of declarations whose names are distinct. -/
structure Settled (passes : List Pass) (start stop : List Declaration) : Prop where
  perm : stop.Perm start
  distinct : collidingNames stop = []
  inPlace : .byKey ∉ passes → stop = start
  inOrder : .byKey ∈ passes → NameOrdered stop

theorem Settled.names_nodup (h : Settled passes start stop) : (names stop).Nodup :=
  collidingNames_eq_nil_iff.1 h.distinct

theorem Settled.self (h : (names start).Nodup) (hpasses : .byKey ∉ passes) :
    Settled passes start start where
  perm := .refl start
  distinct := collidingNames_eq_nil_iff.2 h
  inPlace _ := rfl
  inOrder hpass := absurd hpass hpasses

theorem Settled.trans (h : Settled passes start middle) (h' : Settled others middle stop) :
    Settled (passes ++ others) start stop where
  perm := h'.perm.trans h.perm
  distinct := h'.distinct
  inPlace hpasses := by
    rw [List.mem_append, not_or] at hpasses
    rw [h'.inPlace hpasses.2, h.inPlace hpasses.1]
  inOrder hpasses := by
    by_cases hothers : .byKey ∈ others
    · exact h'.inOrder hothers
    · have hearlier : .byKey ∈ passes := (List.mem_append.1 hpasses).resolve_right hothers
      rw [h'.inPlace hothers]
      exact h.inOrder hearlier

theorem nameOrdered_inNameOrder (declarations : List Declaration) :
    NameOrdered (inNameOrder declarations) := by
  rw [NameOrdered, inNameOrder_eq_map, List.pairwise_map]
  apply (arranged_arrangement declarations).sorted.imp
  intro first second hbefore
  exact Text.unitsLe_iff.2 (hbefore.imp_right And.left)

theorem map_renamed_eq_self (h : (names declarations).Nodup)
    (alias? : Declaration → Option String) (others : List Declaration) :
    others.map (renamed declarations alias?) = others := by
  conv_rhs => rw [← List.map_id others]
  apply List.map_congr_left
  intro declaration _
  rw [renamed_eq_ite, if_neg (by simp [names_nodup_iff.1 h])]
  rfl

theorem byKey_eq_inNameOrder (h : (names declarations).Nodup) :
    byKey declarations = inNameOrder declarations := by
  rw [byKey_eq_map, map_renamed_eq_self h]

theorem byJoinTable_eq_self (h : (names declarations).Nodup) :
    byJoinTable declarations = declarations := by
  rw [byJoinTable_eq_map, map_renamed_eq_self h]

theorem byJoinColumn_eq_self (h : (names declarations).Nodup) :
    byJoinColumn declarations = .ok declarations := by
  have hstep : ∀ declaration ∈ declarations,
      (if collides declarations declaration.name then namedByJoinColumn declaration
        else .ok declaration) = .ok (id declaration) := by
    intro declaration _
    rw [if_neg (by simp [names_nodup_iff.1 h])]
    rfl
  rw [byJoinColumn, mapM_eq_ok_map hstep, List.map_id]

theorem exists_settled_run (h : (names start).Nodup) (pass : Pass) :
    ∃ stop, pass.run start = .ok stop ∧ Settled [pass] start stop := by
  cases pass with
  | byKey =>
    refine ⟨inNameOrder start, ?_, inNameOrder_perm start, ?_, ?_, ?_⟩
    · rw [Pass.run, byKey_eq_inNameOrder h]
    · have hnames := names_perm (inNameOrder_perm start)
      exact collidingNames_eq_nil_iff.2 (hnames.nodup_iff.2 h)
    · simp
    · exact fun _ => nameOrdered_inNameOrder start
  | byJoinTable =>
    refine ⟨start, ?_, .self h (by simp)⟩
    rw [Pass.run, byJoinTable_eq_self h]
  | byJoinColumn => exact ⟨start, byJoinColumn_eq_self h, .self h (by simp)⟩
  | byJoins =>
    refine ⟨start, ?_, .self h (by simp)⟩
    rw [Pass.run, byJoins, byJoinTable_eq_self h, byJoinColumn_eq_self h]

theorem exists_settled_runAll (h : (names start).Nodup) (passes : List Pass) :
    ∃ stop, runAll passes start = .ok stop ∧ Settled passes start stop := by
  induction passes generalizing start with
  | nil => exact ⟨start, rfl, .self h List.not_mem_nil⟩
  | cons pass passes ih =>
    obtain ⟨middle, hrun, hmiddle⟩ := exists_settled_run h pass
    obtain ⟨stop, hrest, hstop⟩ := ih hmiddle.names_nodup
    refine ⟨stop, ?_, hmiddle.trans hstop⟩
    rw [runAll, hrun]
    exact hrest

theorem exists_settled_trace (h : (names start).Nodup) {position : Nat}
    (hposition : position < passes.length) :
    ∃ middle, (trace passes start)[position]? = some (.ok middle) ∧
      Settled (passes.take (position + 1)) start middle := by
  induction passes generalizing start position with
  | nil => exact absurd hposition (Nat.not_lt_zero position)
  | cons pass passes ih =>
    obtain ⟨next, hrun, hnext⟩ := exists_settled_run h pass
    rw [trace, hrun]
    cases position with
    | zero => exact ⟨next, rfl, hnext⟩
    | succ position =>
      have hrest : position < passes.length := Nat.lt_of_succ_lt_succ hposition
      obtain ⟨middle, hmiddle, hsettled⟩ := ih hnext.names_nodup hrest
      exact ⟨middle, hmiddle, hnext.trans hsettled⟩

/-- Distinct names are final: a run of passes over them never fails, and neither its result nor
what any pass of it gives on the way has another name or a collision. -/
theorem runAll_settled (h : (names declarations).Nodup) (passes : List Pass) :
    (∃ result, runAll passes declarations = .ok result ∧ Settled passes declarations result) ∧
      ∀ position < passes.length, ∃ middle,
        (trace passes declarations)[position]? = some (.ok middle) ∧
          Settled (passes.take (position + 1)) declarations middle :=
  ⟨exists_settled_runAll h passes, fun _ hposition => exists_settled_trace h hposition⟩

def stall : List Declaration :=
  [{ kind := .manyToMany, name := "tags", subject := "App.Tag",
     options := { joinTable := some "taggings", joinKeys := some [[.null]] } },
   { kind := .hasMany, name := "Posts", subject := "App.Post",
     options := { key := some "author_id" } },
   { kind := .manyToMany, name := "fans", subject := "App.Fan",
     options := { joinKeys := some [[.nat 1], [], [.text "fan_id"]] } }]

theorem runAll_settled_stall :
    (names stall).Nodup ∧
      (∃ result, runAll [.byJoins, .byKey, .byJoinColumn] stall = .ok result ∧
        Settled [.byJoins, .byKey, .byJoinColumn] stall result) ∧
      ∀ position < [Pass.byJoins, .byKey, .byJoinColumn].length, ∃ middle,
        (trace [.byJoins, .byKey, .byJoinColumn] stall)[position]? = some (.ok middle) ∧
          Settled ([Pass.byJoins, .byKey, .byJoinColumn].take (position + 1)) stall middle := by
  have hnames : (names stall).Nodup := by decide
  exact ⟨hnames, runAll_settled hnames _⟩

end Disambiguation
end Scaffold
