import Mathlib.Data.List.Induction
import Mathlib.Data.List.Pairwise
import Scaffold.Proofs.Document.Form

/-!
The order of keys. An object is in order if its keys are distinct and none goes before one that it
follows, and putting a value keeps it so (`Ordered.put`). Fields in order are taken over as they are
when they are put after others (`putAll_eq_append`). When they are put over an object they replace
the values of its keys in place, indexes go to the front and other new keys to the end
(`isOverlay_putAll`).
-/
namespace Scaffold
namespace Fields

variable {key other third : String} {value : Document} {fields overlay base data : Fields}

theorem goesBefore_asymm (h : goesBefore key other = true) : goesBefore other key = false := by
  unfold goesBefore at *
  cases hkey : index? key <;> cases hother : index? other <;> simp_all
  omega

theorem goesBefore_trans (h : goesBefore key other = true) (h' : goesBefore other third = true) :
    goesBefore key third = true := by
  unfold goesBefore at *
  cases hkey : index? key <;> cases hother : index? other <;> cases hthird : index? third <;>
    simp_all
  omega

theorem goesBefore_of_index?_eq_none (h : index? key = none) (other : String) :
    goesBefore key other = false := by
  rw [goesBefore, h]

theorem goesBefore_of_isSome (h : (index? key).isSome = true) (hother : index? other = none) :
    goesBefore key other = true := by
  obtain ⟨i, hi⟩ := Option.isSome_iff_exists.1 h
  rw [goesBefore, hi, hother]

theorem ne_of_index? (h : (index? key).isSome = true) (hother : index? other = none) :
    other ≠ key := by
  rintro rfl
  rw [hother] at h
  cases h

/-- Distinct keys of which none goes before one that it follows. -/
def Ordered (fields : Fields) : Prop :=
  fields.keys.Pairwise fun first second => first ≠ second ∧ goesBefore second first = false

instance (fields : Fields) : Decidable fields.Ordered :=
  inferInstanceAs (Decidable (fields.keys.Pairwise fun first second =>
    first ≠ second ∧ goesBefore second first = false))

theorem Ordered.nodup (h : fields.Ordered) : fields.keys.Nodup := List.Pairwise.imp And.left h

theorem ordered_of_nodup (hindex : ∀ key ∈ fields.keys, index? key = none)
    (hnodup : fields.keys.Nodup) : fields.Ordered := by
  apply List.Pairwise.imp_of_mem _ hnodup
  intro first second _ hsecond hne
  exact ⟨hne, goesBefore_of_index?_eq_none (hindex second hsecond) first⟩

theorem eq_or_mem_of_mem_put {field : String × Document} (h : field ∈ fields.put key value) :
    field = (key, value) ∨ field ∈ fields := by
  induction fields with
  | nil => exact .inl (List.mem_singleton.1 h)
  | cons old rest ih =>
    obtain ⟨k, v⟩ := old
    rw [put] at h
    split at h
    · exact (List.mem_cons.1 h).imp_right (List.mem_cons_of_mem _)
    · split at h
      · exact List.mem_cons.1 h
      · rcases List.mem_cons.1 h with rfl | hrest
        · exact .inr List.mem_cons_self
        · exact (ih hrest).imp_right (List.mem_cons_of_mem _)

theorem eq_or_mem_of_mem_keys_put (h : other ∈ (fields.put key value).keys) :
    other = key ∨ other ∈ fields.keys := by
  obtain ⟨field, hfield, rfl⟩ := List.mem_map.1 h
  rcases eq_or_mem_of_mem_put hfield with rfl | hold
  · exact .inl rfl
  · exact .inr (List.mem_map_of_mem hold)

theorem Ordered.put (h : fields.Ordered) (key : String) (value : Document) :
    (fields.put key value).Ordered := by
  induction fields with
  | nil => exact List.pairwise_singleton _ key
  | cons field rest ih =>
    obtain ⟨k, v⟩ := field
    obtain ⟨hfirst, hrest⟩ := List.pairwise_cons.1 h
    rw [Fields.put]
    split
    · next hk =>
      subst hk
      exact h
    · next hk =>
      split
      · next hbefore =>
        refine List.pairwise_cons.2 ⟨?_, h⟩
        intro other hother
        rcases List.mem_cons.1 hother with rfl | hother
        · exact ⟨Ne.symm hk, goesBefore_asymm hbefore⟩
        · obtain ⟨-, hafter⟩ := hfirst other hother
          constructor
          · rintro rfl
            exact absurd hbefore (by simp [hafter])
          · cases hgoes : goesBefore other key with
            | false => rfl
            | true => exact absurd (goesBefore_trans hgoes hbefore) (by simp [hafter])
      · next hbefore =>
        refine List.pairwise_cons.2 ⟨?_, ih hrest⟩
        intro other hother
        rcases eq_or_mem_of_mem_keys_put hother with rfl | hother
        · exact ⟨hk, by simpa using hbefore⟩
        · exact hfirst other hother

theorem Ordered.putAll (h : fields.Ordered) (overlay : Fields) :
    (fields.putAll overlay).Ordered := by
  induction overlay generalizing fields with
  | nil => exact h
  | cons field overlay ih => exact ih (h.put field.1 field.2)

theorem forall_mem_putAll {holds : Document → Prop} (h : ∀ field ∈ fields, holds field.2)
    (hoverlay : ∀ field ∈ overlay, holds field.2) :
    ∀ field ∈ fields.putAll overlay, holds field.2 := by
  induction overlay generalizing fields with
  | nil => exact h
  | cons new overlay ih =>
    rw [List.forall_mem_cons] at hoverlay
    apply ih _ hoverlay.2
    intro field hfield
    rcases eq_or_mem_of_mem_put hfield with rfl | hold
    · exact hoverlay.1
    · exact h field hold

theorem keys_put_of_mem (h : fields.Ordered) (hmem : key ∈ fields.keys) (value : Document) :
    (fields.put key value).keys = fields.keys := by
  induction fields with
  | nil => cases hmem
  | cons field rest ih =>
    obtain ⟨k, v⟩ := field
    obtain ⟨hfirst, hrest⟩ := List.pairwise_cons.1 h
    rw [put]
    split
    · next hk => rw [← hk]; rfl
    · next hk =>
      have hmem' : key ∈ keys rest := (List.mem_cons.1 hmem).resolve_left (Ne.symm hk)
      have hafter : ¬goesBefore key k = true := by simp [(hfirst key hmem').2]
      rw [if_neg hafter]
      exact congrArg (k :: ·) (ih hrest hmem')

/-- A new key is put after those that it does not go before. -/
theorem put_append {before after : Fields}
    (h : ∀ other ∈ before.keys, other ≠ key ∧ goesBefore key other = false) (value : Document) :
    put key value (before ++ after) = before ++ after.put key value := by
  induction before with
  | nil => rfl
  | cons field before ih =>
    obtain ⟨k, v⟩ := field
    obtain ⟨hfirst, hbefore⟩ := List.forall_mem_cons.1 h
    rw [List.cons_append, put, if_neg hfirst.1, if_neg (by simp [hfirst.2]), ih hbefore]
    rfl

theorem put_eq_append (h : ∀ other ∈ fields.keys, other ≠ key ∧ goesBefore key other = false)
    (value : Document) : fields.put key value = fields ++ [(key, value)] := by
  have hput : put key value (fields ++ []) = fields ++ [(key, value)] := put_append h value
  rwa [List.append_nil] at hput

theorem putAll_eq_append (h : (fields ++ overlay).Ordered) :
    fields.putAll overlay = fields ++ overlay := by
  induction overlay generalizing fields with
  | nil => exact (List.append_nil fields).symm
  | cons field overlay ih =>
    obtain ⟨key, value⟩ := field
    have hsplit : (fields ++ [(key, value)]) ++ overlay = fields ++ (key, value) :: overlay := by
      simp
    have hnew : ∀ other ∈ fields.keys, other ≠ key ∧ goesBefore key other = false := by
      rw [Ordered, keys_append] at h
      exact fun other hother => (List.pairwise_append.1 h).2.2 other hother key List.mem_cons_self
    calc fields.putAll ((key, value) :: overlay)
        = (fields.put key value).putAll overlay := rfl
      _ = (fields ++ [(key, value)]).putAll overlay := by rw [put_eq_append hnew]
      _ = fields ++ (key, value) :: overlay := by rw [← hsplit, ih (by rwa [hsplit])]

theorem ofList_eq_self (h : fields.Ordered) : ofList fields = fields := putAll_eq_append h

/-- The keys of an object under data put over it: the indexes of the data, the keys of the object,
and the other keys of the data, each in their own order. -/
def overlayKeys (base data : List String) : List String :=
  data.filter (fun key => (index? key).isSome) ++ base ++
    data.filter fun key => index? key = none ∧ key ∉ base

/-- An object under data put over it. A key has the value of the data, else that of the object. -/
structure IsOverlay (base data result : Fields) : Prop where
  get?_eq : ∀ key, result.get? key = (data.get? key).or (base.get? key)
  keys_eq : result.keys = overlayKeys base.keys data.keys

theorem get?_putAll (h : data.keys.Nodup) (base : Fields) (key : String) :
    (base.putAll data).get? key = (data.get? key).or (base.get? key) := by
  induction data generalizing base with
  | nil => rfl
  | cons field data ih =>
    obtain ⟨k, v⟩ := field
    obtain ⟨hk, hrest⟩ := List.nodup_cons.1 h
    change ((base.put k v).putAll data).get? key = _
    rw [ih hrest, get?_cons]
    by_cases hkey : key = k
    · rw [if_pos hkey, hkey, get?_eq_none hk, get?_put_self]
      rfl
    · rw [if_neg hkey, get?_put_of_ne hkey]

section Keys

variable {baseKeys dataKeys : List String}

theorem overlayKeys_of_indexes (h : ∀ key ∈ dataKeys, (index? key).isSome = true) :
    overlayKeys baseKeys dataKeys = dataKeys ++ baseKeys := by
  have hback : dataKeys.filter (fun key => index? key = none ∧ key ∉ baseKeys) = [] := by
    apply List.filter_eq_nil_iff.2
    intro key hkey
    simp [Option.isSome_iff_ne_none.1 (h key hkey)]
  rw [overlayKeys, List.filter_eq_self.2 h, hback, List.append_nil]

theorem overlayKeys_concat_of_mem (hindex : index? key = none) (hmem : key ∈ baseKeys) :
    overlayKeys baseKeys (dataKeys ++ [key]) = overlayKeys baseKeys dataKeys := by
  simp [overlayKeys, hindex, hmem]

theorem overlayKeys_concat_of_notMem (hindex : index? key = none) (hmem : key ∉ baseKeys) :
    overlayKeys baseKeys (dataKeys ++ [key]) = overlayKeys baseKeys dataKeys ++ [key] := by
  simp [overlayKeys, hindex, hmem]

theorem mem_or_mem_of_mem_overlayKeys (h : key ∈ overlayKeys baseKeys dataKeys) :
    key ∈ dataKeys ∨ key ∈ baseKeys := by
  simp only [overlayKeys, List.mem_append, List.mem_filter] at h
  tauto

end Keys

theorem isSome_index?_of_goesBefore (h : goesBefore key other = false)
    (hindex : (index? key).isSome = true) : (index? other).isSome = true := by
  cases hother : index? other with
  | some i => rfl
  | none => exact absurd (goesBefore_of_isSome hindex hother) (by simp [h])

theorem keys_put_between {before after : List String} (hkeys : fields.keys = before ++ after)
    (hbefore : ∀ other ∈ before, other ≠ key ∧ goesBefore key other = false)
    (hafter : ∀ other ∈ after, other ≠ key ∧ goesBefore key other = true) (value : Document) :
    (fields.put key value).keys = before ++ key :: after := by
  obtain ⟨left, right, rfl, rfl, rfl⟩ := List.map_eq_append_iff.1 hkeys
  rw [put_append hbefore, keys_append]
  cases right with
  | nil => rfl
  | cons field right =>
    obtain ⟨hne, hgoes⟩ := hafter field.1 List.mem_cons_self
    rw [put, if_neg hne, if_pos hgoes]
    rfl

theorem keys_put_overlayKeys {baseKeys dataKeys : List String} (hfields : fields.Ordered)
    (hkeys : fields.keys = overlayKeys baseKeys dataKeys)
    (hindex : ∀ other ∈ baseKeys, index? other = none)
    (hnew : ∀ other ∈ dataKeys, other ≠ key ∧ goesBefore key other = false) (value : Document) :
    (fields.put key value).keys = overlayKeys baseKeys (dataKeys ++ [key]) := by
  by_cases hkind : (index? key).isSome = true
  · have hall : ∀ other ∈ dataKeys, (index? other).isSome = true :=
      fun other hother => isSome_index?_of_goesBefore (hnew other hother).2 hkind
    have hafter : ∀ other ∈ baseKeys, other ≠ key ∧ goesBefore key other = true :=
      fun other hother => ⟨ne_of_index? hkind (hindex other hother),
        goesBefore_of_isSome hkind (hindex other hother)⟩
    rw [overlayKeys_of_indexes hall] at hkeys
    rw [keys_put_between hkeys hnew hafter, overlayKeys_of_indexes, List.append_assoc,
      List.singleton_append]
    simpa [or_imp, forall_and] using ⟨hall, hkind⟩
  · have hnone : index? key = none := by simpa using hkind
    by_cases hmem : key ∈ baseKeys
    · have hthere : key ∈ fields.keys := by simp [hkeys, overlayKeys, hmem]
      rw [keys_put_of_mem hfields hthere, hkeys, overlayKeys_concat_of_mem hnone hmem]
    · have hlast : ∀ other ∈ fields.keys, other ≠ key ∧ goesBefore key other = false := by
        intro other hother
        refine ⟨?_, goesBefore_of_index?_eq_none hnone other⟩
        rintro rfl
        rw [hkeys] at hother
        rcases mem_or_mem_of_mem_overlayKeys hother with hdata | hbase
        · exact (hnew other hdata).1 rfl
        · exact hmem hbase
      rw [put_eq_append hlast, keys_append, hkeys, overlayKeys_concat_of_notMem hnone hmem]
      rfl

theorem keys_putAll (hbase : base.Ordered) (hindex : ∀ key ∈ base.keys, index? key = none)
    (h : data.Ordered) : (base.putAll data).keys = overlayKeys base.keys data.keys := by
  induction data using List.reverseRecOn with
  | nil => simp [putAll, keys, overlayKeys]
  | append_singleton data field ih =>
    obtain ⟨key, value⟩ := field
    rw [Ordered, keys_append] at h
    obtain ⟨hdata, -, hlast⟩ := List.pairwise_append.1 h
    have hnew : ∀ other ∈ keys data, other ≠ key ∧ goesBefore key other = false :=
      fun other hother => hlast other hother key List.mem_cons_self
    have hput : base.putAll (data ++ [(key, value)]) = (base.putAll data).put key value := by
      simp [putAll]
    have hconcat : keys (data ++ [(key, value)]) = keys data ++ [key] := keys_append _ _
    rw [hput, hconcat]
    exact keys_put_overlayKeys (hbase.putAll data) (ih hdata) hindex hnew value

theorem isOverlay_putAll (hbase : base.Ordered) (hindex : ∀ key ∈ base.keys, index? key = none)
    (h : data.Ordered) : IsOverlay base data (base.putAll data) where
  get?_eq := get?_putAll h.nodup base
  keys_eq := keys_putAll hbase hindex h

end Fields
end Scaffold
