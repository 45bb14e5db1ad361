import SchemaInterfaces.Document

/-!
# Entries under construction

Setting the value of a key changes what that key looks up, and nothing else. A new key comes last.
-/
namespace SchemaInterfaces

theorem lookup_insertEntry {α : Type} (key : String) (value : α) (entries : List (String × α))
    (other : String) :
    (insertEntry key value entries).lookup other =
      if other = key then some value else entries.lookup other := by
  induction entries with
  | nil =>
    rw [insertEntry, List.lookup_cons]
    by_cases h : other = key <;> simp [h, beq_eq_false_iff_ne.mpr]
  | cons entry rest ih =>
    obtain ⟨k, held⟩ := entry
    rw [insertEntry]
    split
    next same =>
      rw [List.lookup_cons, List.lookup_cons, same]
      by_cases h : other = key <;> simp [h, beq_eq_false_iff_ne.mpr]
    next differ =>
      rw [List.lookup_cons, List.lookup_cons, ih]
      by_cases h : other = k <;> simp [h, differ, beq_eq_false_iff_ne.mpr]

theorem lookup_insertEntry_self {α : Type} (key : String) (value : α)
    (entries : List (String × α)) : (insertEntry key value entries).lookup key = some value := by
  rw [lookup_insertEntry, if_pos rfl]

theorem lookup_insertEntry_of_ne {α : Type} {key other : String} (h : other ≠ key) (value : α)
    (entries : List (String × α)) :
    (insertEntry key value entries).lookup other = entries.lookup other := by
  rw [lookup_insertEntry, if_neg h]

section

variable {α : Type} {key : String} {entries : List (String × α)}

theorem eq_or_mem_of_mem_insertEntry {value : α} {entry : String × α}
    (member : entry ∈ insertEntry key value entries) : entry = (key, value) ∨ entry ∈ entries := by
  induction entries with
  | nil => exact .inl (List.mem_singleton.mp member)
  | cons first rest ih =>
    obtain ⟨k, held⟩ := first
    rw [insertEntry] at member
    split at member
    next =>
      rcases List.mem_cons.mp member with rfl | later
      · exact .inl rfl
      · exact .inr (List.mem_cons_of_mem _ later)
    next =>
      rcases List.mem_cons.mp member with rfl | later
      · exact .inr List.mem_cons_self
      · exact (ih later).imp_right (List.mem_cons_of_mem _)

theorem mem_map_fst_insertEntry_iff {value : α} {other : String} :
    other ∈ (insertEntry key value entries).map Prod.fst ↔
      other = key ∨ other ∈ entries.map Prod.fst := by
  induction entries with
  | nil => simp [insertEntry]
  | cons first rest ih =>
    obtain ⟨k, held⟩ := first
    rw [insertEntry]
    split
    next same => simp [same]
    next => simp only [List.map_cons, List.mem_cons, ih, or_left_comm]

theorem mem_or_mem_of_mem_foldl {before pairs : List (String × α)} {entry : String × α}
    (member : entry ∈ pairs.foldl (fun entries pair => insertEntry pair.1 pair.2 entries) before) :
    entry ∈ before ∨ entry ∈ pairs := by
  induction pairs generalizing before with
  | nil => exact .inl member
  | cons pair rest ih =>
    rcases ih member with earlier | later
    · rcases eq_or_mem_of_mem_insertEntry earlier with rfl | earlier
      · exact .inr List.mem_cons_self
      · exact .inl earlier
    · exact .inr (List.mem_cons_of_mem _ later)

theorem mem_map_fst_foldl {before pairs : List (String × α)}
    (either : key ∈ before.map Prod.fst ∨ key ∈ pairs.map Prod.fst) :
    key ∈ (pairs.foldl (fun entries pair => insertEntry pair.1 pair.2 entries) before).map
      Prod.fst := by
  induction pairs generalizing before with
  | nil => simpa using either
  | cons pair rest ih =>
    refine ih ?_
    rw [mem_map_fst_insertEntry_iff]
    rw [List.map_cons, List.mem_cons] at either
    rcases either with before | same | later
    · exact .inl (.inr before)
    · exact .inl (.inl same)
    · exact .inr later

/-- What comes of pairs is one of them. -/
theorem mem_of_mem_entriesOf {pairs : List (String × α)} {entry : String × α}
    (member : entry ∈ entriesOf pairs) : entry ∈ pairs :=
  (mem_or_mem_of_mem_foldl member).resolve_left List.not_mem_nil

/-- Every key of some pairs has a value. -/
theorem exists_mem_entriesOf {pairs : List (String × α)} (member : key ∈ pairs.map Prod.fst) :
    ∃ value, (key, value) ∈ entriesOf pairs := by
  have kept : key ∈ (entriesOf pairs).map Prod.fst := mem_map_fst_foldl (.inr member)
  obtain ⟨⟨_, value⟩, inside, rfl⟩ := List.mem_map.mp kept
  exact ⟨value, inside⟩

theorem lookup_of_not_mem (new : key ∉ entries.map Prod.fst) : entries.lookup key = none := by
  rw [List.lookup_eq_none_iff]
  intro entry member
  rw [bne_iff_ne]
  rintro rfl
  exact new (List.mem_map_of_mem member)

theorem insertEntry_of_not_mem (new : key ∉ entries.map Prod.fst) (value : α) :
    insertEntry key value entries = entries ++ [(key, value)] := by
  induction entries with
  | nil => rfl
  | cons entry rest ih =>
    obtain ⟨k, held⟩ := entry
    rw [List.map_cons, List.mem_cons, not_or] at new
    rw [insertEntry, if_neg (Ne.symm new.1), ih new.2, List.cons_append]

theorem lookup_concat_self (new : key ∉ entries.map Prod.fst) (value : α) :
    (entries ++ [(key, value)]).lookup key = some value := by
  rw [← insertEntry_of_not_mem new, lookup_insertEntry_self]

theorem insertEntry_concat_self (new : key ∉ entries.map Prod.fst) (value other : α) :
    insertEntry key value (entries ++ [(key, other)]) = entries ++ [(key, value)] := by
  induction entries with
  | nil => rw [List.nil_append, insertEntry, if_pos rfl, List.nil_append]
  | cons entry rest ih =>
    obtain ⟨k, held⟩ := entry
    rw [List.map_cons, List.mem_cons, not_or] at new
    rw [List.cons_append, insertEntry, if_neg (Ne.symm new.1), ih new.2, List.cons_append]

end

end SchemaInterfaces
