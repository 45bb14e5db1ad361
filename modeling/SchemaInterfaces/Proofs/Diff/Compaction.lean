import SchemaInterfaces.Proofs.Diff.Sliding

/-!
# Compaction keeps both texts

Every step of a slide replaces a few neighbouring edits by others between the same texts. A script
is therefore compacted to one between the same two texts (`leads_compact`), and a script that only
keeps lines stays as it is.
-/
namespace SchemaInterfaces.Diff

/-- Two scripts between the same texts. -/
structure SameTexts (first second : List Edit) : Prop where
  old : oldText first = oldText second
  new : newText first = newText second

namespace SameTexts

variable {first second third : List Edit}

theorem refl (script : List Edit) : SameTexts script script := ⟨rfl, rfl⟩

theorem trans (h : SameTexts first second) (h' : SameTexts second third) :
    SameTexts first third :=
  ⟨h.old.trans h'.old, h.new.trans h'.new⟩

/-- Edits in the middle of a script may be replaced. -/
theorem within (h : SameTexts first second) (front back : List Edit) :
    SameTexts (front ++ (first ++ back)) (front ++ (second ++ back)) where
  old := by simp only [oldText_append, h.old]
  new := by simp only [newText_append, h.new]

theorem dropEmpty {edit : Edit} (empty : edit.lines = []) : SameTexts [] [edit] where
  old := by simp [Edit.oldLines, empty]
  new := by simp [Edit.newLines, empty]

theorem merge {previous here : Edit} (same : previous.kind = here.kind) :
    SameTexts [{ previous with lines := previous.lines ++ here.lines }] [previous, here] where
  old := by by_cases h : here.kind = .insert <;> simp [Edit.oldLines, same, h]
  new := by by_cases h : here.kind = .delete <;> simp [Edit.newLines, same, h]

/-- A deletion and an insertion do not touch each other's text. -/
theorem swap {previous here : Edit} (changes : previous.kind ≠ .keep) (changes' : here.kind ≠ .keep)
    (differ : previous.kind ≠ here.kind) : SameTexts [here, previous] [previous, here] := by
  obtain deletes | inserts : previous.kind = .delete ∨ previous.kind = .insert := by
    cases h : previous.kind <;> simp_all
  · have inserts : here.kind = .insert := by cases h : here.kind <;> simp_all
    constructor <;> simp [Edit.oldLines, Edit.newLines, deletes, inserts]
  · have deletes : here.kind = .delete := by cases h : here.kind <;> simp_all
    constructor <;> simp [Edit.oldLines, Edit.newLines, deletes, inserts]

end SameTexts

/-! ### Sliding -/

theorem oldText_keepInFront (oldStart newStart : Nat) (lines : List String) (edits : List Edit) :
    oldText (keepInFront oldStart newStart lines edits) = lines ++ oldText edits := by
  fun_cases keepInFront oldStart newStart lines edits <;> simp_all [Edit.oldLines]

theorem newText_keepInFront (oldStart newStart : Nat) (lines : List String) (edits : List Edit) :
    newText (keepInFront oldStart newStart lines edits) = lines ++ newText edits := by
  fun_cases keepInFront oldStart newStart lines edits <;> simp_all [Edit.newLines]

theorem oldText_keepBehind (oldStart newStart : Nat) (lines : List String) (before : List Edit) :
    oldText (keepBehind oldStart newStart lines before).reverse =
      oldText before.reverse ++ lines := by
  fun_cases keepBehind oldStart newStart lines before <;> simp_all [Edit.oldLines]

theorem newText_keepBehind (oldStart newStart : Nat) (lines : List String) (before : List Edit) :
    newText (keepBehind oldStart newStart lines before).reverse =
      newText before.reverse ++ lines := by
  fun_cases keepBehind oldStart newStart lines before <;> simp_all [Edit.newLines]

theorem oldText_consUnlessEmpty (edit : Edit) (edits : List Edit) :
    oldText (consUnlessEmpty edit edits) = oldText (edit :: edits) := by
  unfold consUnlessEmpty
  split
  next empty => simp [Edit.oldLines, empty]
  next => rfl

theorem newText_consUnlessEmpty (edit : Edit) (edits : List Edit) :
    newText (consUnlessEmpty edit edits) = newText (edit :: edits) := by
  unfold consUnlessEmpty
  split
  next empty => simp [Edit.newLines, empty]
  next => rfl

theorem oldText_reverse_consUnlessEmpty (edit : Edit) (before : List Edit) :
    oldText (consUnlessEmpty edit before).reverse = oldText before.reverse ++ edit.oldLines := by
  unfold consUnlessEmpty
  split
  next empty => simp [Edit.oldLines, empty]
  next => simp

theorem newText_reverse_consUnlessEmpty (edit : Edit) (before : List Edit) :
    newText (consUnlessEmpty edit before).reverse = newText before.reverse ++ edit.newLines := by
  unfold consUnlessEmpty
  split
  next empty => simp [Edit.newLines, empty]
  next => simp

/-- A step up leaves both texts alone. Lines in which a kept edit and the insertion behind it end
may be inserted first and kept then. -/
theorem Rises.sameTexts {first second : Focus} (h : Rises first second) :
    SameTexts second.script first.script := by
  cases h with
  | @passEmpty previous here rest after _ empty =>
    simpa [Focus.script] using (SameTexts.dropEmpty empty).within rest.reverse (here :: after)
  | pass keeps inserts whole whole' _ _ _ _ _ _ =>
    constructor
    · simp [Focus.script, Edit.oldLines, keeps, inserts, whole, oldText_keepInFront,
        oldText_reverse_consUnlessEmpty]
    · simp [Focus.script, Edit.newLines, keeps, inserts, whole, whole', newText_keepInFront,
        newText_reverse_consUnlessEmpty]
  | @join previous here rest after _ same =>
    simpa [Focus.script] using (SameTexts.merge same).within rest.reverse after
  | @swap previous here rest after changes changes' differ =>
    simpa [Focus.script] using (SameTexts.swap changes changes' differ).within rest.reverse after

/-- A step down leaves both texts alone. Lines with which an insertion and the kept edit behind it
begin may be kept first and inserted then. -/
theorem Sinks.sameTexts {first second : Focus} (h : Sinks first second) :
    SameTexts second.script first.script := by
  cases h with
  | @passEmpty here next before rest _ empty =>
    simpa [Focus.script] using (SameTexts.dropEmpty empty).within (before.reverse ++ [here]) rest
  | pass keeps inserts whole whole' _ _ _ _ _ _ _ =>
    constructor
    · simp [Focus.script, Edit.oldLines, keeps, inserts, whole, oldText_keepBehind,
        oldText_consUnlessEmpty]
    · simp [Focus.script, Edit.newLines, keeps, inserts, whole, whole', newText_keepBehind,
        newText_consUnlessEmpty]
  | @join here next before rest _ same =>
    simpa [Focus.script] using (SameTexts.merge same.symm).within before.reverse rest
  | @swap here next before rest changes changes' differ =>
    simpa [Focus.script] using
      (SameTexts.swap changes changes' differ.symm).within before.reverse rest

/-! ### Compacting -/

theorem sameTexts_slideKind {kind : EditKind} (changes : kind ≠ .keep) (script : List Edit) :
    SameTexts (slideKind kind script) script :=
  slideKind_preserves (P := fun result => SameTexts result script)
    (fun _ same => slide_preserves (P := fun focus => SameTexts focus.script script) changes
      (fun _ _ _ step same => step.sameTexts.trans same)
      (fun _ _ _ step same => step.sameTexts.trans same) same)
    (.refl script)

theorem sameTexts_compact (script : List Edit) : SameTexts (compact script) script :=
  (sameTexts_slideKind (by decide) _).trans (sameTexts_slideKind (by decide) script)

theorem leads_compact {script : List Edit} {old new : List String} (h : Leads script old new) :
    Leads (compact script) old new :=
  ⟨(sameTexts_compact script).old.trans h.old, (sameTexts_compact script).new.trans h.new⟩

/-- A walk leaves a script alone in which no edit is of its kind. -/
theorem slideAll_eq {kind : EditKind} {after : List Edit} (steps : Nat) (before : List Edit)
    (others : ∀ edit ∈ after, edit.kind ≠ kind) :
    slideAll kind steps before after = before.reverse ++ after := by
  induction steps generalizing before after with
  | zero => rfl
  | succ steps ih =>
    cases after with
    | nil => simp [slideAll]
    | cons here after =>
      rw [slideAll, if_neg (others here List.mem_cons_self),
        ih _ fun edit member => others edit (List.mem_cons_of_mem here member)]
      simp

/-- A script that only keeps lines stays as it is. -/
theorem compact_of_keeps {script : List Edit} (keeps : ∀ edit ∈ script, edit.kind = .keep) :
    compact script = script := by
  have untouched (kind : EditKind) (changes : kind ≠ .keep) : slideKind kind script = script :=
    slideAll_eq _ [] fun edit member same => changes (same ▸ keeps edit member)
  rw [compact, untouched .delete (by decide), untouched .insert (by decide)]

end SchemaInterfaces.Diff
