import SchemaInterfaces.Proofs.Diff.Compaction

/-!
# Where edits stand in the old text

Every edit says at which line of the old text it stands. A comparison puts this right for all edits
that cover an old line (`isComparison_compareFrom`), and every step of a slide keeps it right
(`Rises.inOrder`, `Sinks.inOrder`). An insertion covers no old line: it is put at the line of the
deletion in front of it, and when it slides on alone its number stays too small.
-/
namespace SchemaInterfaces.Diff

/-- From a line of the old text on, every item is in its place, where an item covers some lines. -/
def Stand {α : Type} (covered : α → List String) (place : α → Nat → Prop) : Nat → List α → Prop
  | _, [] => True
  | line, a :: rest => place a line ∧ Stand covered place (line + (covered a).length) rest

theorem stand_append {α : Type} {covered : α → List String} {place : α → Nat → Prop} (line : Nat)
    (front back : List α) :
    Stand covered place line (front ++ back) ↔ Stand covered place line front ∧
      Stand covered place (line + (front.flatMap covered).length) back := by
  induction front generalizing line with
  | nil => simp [Stand]
  | cons a front ih => simp [Stand, ih, and_assoc, Nat.add_assoc]

/-- An edit that keeps or deletes lines stands where it says. -/
def Edit.IsPlaced (edit : Edit) (line : Nat) : Prop :=
  edit.kind ≠ .insert → edit.oldStart = line

/-- The edits of a script stand where they say, insertions apart. -/
abbrev EditsStand : Nat → List Edit → Prop := Stand Edit.oldLines Edit.IsPlaced

/-- A script whose edits have lines and stand where they say. -/
structure InOrder (line : Nat) (script : List Edit) : Prop where
  placed : EditsStand line script
  full : ∀ edit ∈ script, edit.lines ≠ []

theorem inOrder_append {line : Nat} {front back : List Edit} :
    InOrder line (front ++ back) ↔
      InOrder line front ∧ InOrder (line + (oldText front).length) back := by
  constructor
  · rintro ⟨placed, full⟩
    obtain ⟨placed, placed'⟩ := (stand_append line front back).mp placed
    obtain ⟨full, full'⟩ := List.forall_mem_append.mp full
    exact ⟨⟨placed, full⟩, placed', full'⟩
  · rintro ⟨h, h'⟩
    exact ⟨(stand_append line front back).mpr ⟨h.placed, h'.placed⟩,
      List.forall_mem_append.mpr ⟨h.full, h'.full⟩⟩

theorem inOrder_cons {line : Nat} {edit : Edit} {rest : List Edit} :
    InOrder line (edit :: rest) ↔ (edit.IsPlaced line ∧ edit.lines ≠ []) ∧
      InOrder (line + edit.oldLines.length) rest := by
  constructor
  · rintro ⟨⟨placed, placed'⟩, full⟩
    obtain ⟨some, full⟩ := List.forall_mem_cons.mp full
    exact ⟨⟨placed, some⟩, placed', full⟩
  · rintro ⟨⟨placed, some⟩, h⟩
    exact ⟨⟨placed, h.placed⟩, List.forall_mem_cons.mpr ⟨some, h.full⟩⟩

theorem inOrder_nil (line : Nat) : InOrder line [] := ⟨trivial, by simp⟩

/-- Edits that cover no old line may say anything. -/
theorem InOrder.of_oldText_nil {script : List Edit} (full : ∀ edit ∈ script, edit.lines ≠ [])
    (empty : oldText script = []) (line : Nat) : InOrder line script := by
  refine ⟨?_, full⟩
  induction script generalizing line with
  | nil => trivial
  | cons edit rest ih =>
    obtain ⟨none, empty⟩ := List.append_eq_nil_iff.mp empty
    refine ⟨fun covers => ?_, ih (List.forall_mem_cons.mp full).2 empty _⟩
    rw [Edit.oldLines, if_neg covers] at none
    exact absurd none (full edit List.mem_cons_self)

/-! ### Comparing -/

theorem commonStart_le_length (a b : List String) : commonStart a b ≤ a.length := by
  fun_induction commonStart a b with
  | case1 x as bs ih => exact Nat.succ_le_succ ih
  | case2 => exact Nat.zero_le _
  | case3 => exact Nat.zero_le _

/-- The first edit of a script says that it stands at a line. -/
def StartsAt (line : Nat) (script : List Edit) : Prop :=
  ∀ edit ∈ script.head?, edit.oldStart = line

theorem StartsAt.append {line : Nat} {front back : List Edit} (h : StartsAt line front)
    (h' : front = [] → StartsAt line back) : StartsAt line (front ++ back) := by
  cases front with
  | nil => exact h' rfl
  | cons edit front => exact h

/-- A script as a comparison makes it. -/
structure IsComparison (line : Nat) (old : List String) (script : List Edit) : Prop
    extends InOrder line script where
  covers : oldText script = old
  starts : StartsAt line script

theorem startsAt_edit? (kind : EditKind) (line newStart : Nat) (lines : List String) :
    StartsAt line (edit? kind line newStart lines) := by
  unfold edit?
  split <;> simp [StartsAt]

theorem inOrder_edit? (kind : EditKind) {oldStart line : Nat} (newStart : Nat)
    (lines : List String) (stands : kind ≠ .insert → oldStart = line) :
    InOrder line (edit? kind oldStart newStart lines) := by
  unfold edit?
  split
  next => exact inOrder_nil line
  next full =>
    exact inOrder_cons.mpr ⟨⟨stands, fun empty => full (List.isEmpty_iff.mpr empty)⟩, inOrder_nil _⟩

theorem isComparison_replaced (line newStart : Nat) (old new : List String) :
    IsComparison line old
      (edit? .delete line newStart old ++ edit? .insert line newStart new) where
  toInOrder := inOrder_append.mpr ⟨inOrder_edit? .delete newStart old fun _ => rfl,
    inOrder_edit? .insert newStart new fun other => absurd rfl other⟩
  covers := (leads_replaced line newStart old new).old
  starts := (startsAt_edit? .delete line newStart old).append fun _ =>
    startsAt_edit? .insert line newStart new

namespace IsComparison

variable {line : Nat} {old : List String}

/-- Kept lines around a comparison of what is left. -/
theorem framed {core : List Edit} {head : Nat} {oldCore : List String} (fits : head ≤ old.length)
    (h : IsComparison (line + head) oldCore core) (a b : Nat) (tail : List String)
    (covers : oldText (edit? .keep line a (old.take head) ++ core ++
      edit? .keep (line + head + oldCore.length) b tail) = old) :
    IsComparison line old (edit? .keep line a (old.take head) ++ core ++
      edit? .keep (line + head + oldCore.length) b tail) := by
  have front : (oldText (edit? .keep line a (old.take head))).length = head := by
    rw [(leads_keep line a _).old, List.length_take_of_le fits]
  have headless (none : edit? .keep line a (old.take head) = []) : head = 0 := by
    rw [← front, none, oldText_nil, List.length_nil]
  refine ⟨inOrder_append.mpr ⟨inOrder_append.mpr ⟨inOrder_edit? .keep a _ fun _ => rfl, ?_⟩,
    inOrder_edit? .keep b tail fun _ => ?_⟩, covers,
    ((startsAt_edit? .keep line a _).append fun none => ?_).append fun none => ?_⟩
  · rw [front]
    exact h.toInOrder
  · rw [oldText_append, List.length_append, front, h.covers, Nat.add_assoc]
  · simpa only [headless none, Nat.add_zero] using h.starts
  · obtain ⟨none, noCore⟩ := List.append_eq_nil_iff.mp none
    have nothing : oldCore = [] := by rw [← h.covers, noCore, oldText_nil]
    rw [headless none, nothing]
    exact startsAt_edit? .keep line b tail

/-- The halves of a comparison, wherever it is split. -/
theorem split {front back : List Edit} {x : Nat} (some : old ≠ [])
    (h : IsComparison line (old.take x) front) (h' : IsComparison (line + x) (old.drop x) back) :
    IsComparison line old (front ++ back) := by
  refine ⟨inOrder_append.mpr ⟨h.toInOrder, ?_⟩, ?_, h.starts.append fun none => ?_⟩
  · rw [h.covers]
    obtain inside | beyond := Nat.le_total x old.length
    · rw [List.length_take_of_le inside]
      exact h'.toInOrder
    · exact .of_oldText_nil h'.full (h'.covers.trans (List.drop_eq_nil_of_le beyond)) _
  · rw [oldText_append, h.covers, h'.covers, List.take_append_drop]
  · have start : x = 0 := by
      have nothing := h.covers
      rw [none, oldText_nil, eq_comm, List.take_eq_nil_iff] at nothing
      exact nothing.resolve_right some
    subst start
    exact h'.starts

end IsComparison

theorem isComparison_compareFrom (depth oldStart newStart : Nat) (old new : List String) :
    IsComparison oldStart old (compareFrom depth oldStart newStart old new) := by
  induction depth generalizing oldStart newStart old new with
  | zero =>
    have covers := (leads_compareFrom 0 oldStart newStart old new).old
    rw [compareFrom] at covers ⊢
    exact .framed (commonStart_le_length _ _) (isComparison_replaced _ _ _ _) _ _ _ covers
  | succ depth ih =>
    have covers := (leads_compareFrom (depth + 1) oldStart newStart old new).old
    rw [compareFrom] at covers ⊢
    refine .framed (commonStart_le_length _ _) ?_ _ _ _ covers
    split
    next => exact isComparison_replaced _ _ _ _
    next some =>
      split
      next => exact isComparison_replaced _ _ _ _
      next =>
        rw [not_or, List.isEmpty_iff] at some
        exact .split some.1 (ih _ _ _ _) (ih _ _ _ _)

/-! ### Sliding -/

section

variable {line : Nat} {lines : List String} {edits before : List Edit} {edit : Edit}

theorem InOrder.consUnlessEmpty (stands : edit.IsPlaced line)
    (h : InOrder (line + edit.oldLines.length) edits) :
    InOrder line (Diff.consUnlessEmpty edit edits) := by
  unfold Diff.consUnlessEmpty
  split
  next empty => simpa [Edit.oldLines, empty] using h
  next some => exact inOrder_cons.mpr ⟨⟨stands, some⟩, h⟩

theorem InOrder.reverse_consUnlessEmpty (h : InOrder line before.reverse)
    (stands : edit.IsPlaced (line + (oldText before.reverse).length)) :
    InOrder line (Diff.consUnlessEmpty edit before).reverse := by
  unfold Diff.consUnlessEmpty
  split
  next => exact h
  next some =>
    rw [List.reverse_cons, inOrder_append, inOrder_cons]
    exact ⟨h, ⟨stands, some⟩, inOrder_nil _⟩

theorem InOrder.keepInFront {c : Nat} (d : Nat) (some : lines ≠ []) (stands : c = line)
    (h : InOrder (line + lines.length) edits) :
    InOrder line (Diff.keepInFront c d lines edits) := by
  have kept : Edit.IsPlaced ⟨.keep, c, d, lines⟩ line := fun _ => stands
  fun_cases Diff.keepInFront c d lines edits with
  | case1 next rest keeps =>
    obtain ⟨⟨placed, _⟩, h⟩ := inOrder_cons.mp h
    have covers : next.kind ≠ .insert := by simp [keeps]
    refine inOrder_cons.mpr ⟨⟨fun _ => ?_, by simp [some]⟩, ?_⟩
    · simp only [placed covers]
      omega
    · simpa [Edit.oldLines, keeps, Nat.add_assoc] using h
  | case2 next rest _ => exact inOrder_cons.mpr ⟨⟨kept, some⟩, h⟩
  | case3 => exact inOrder_cons.mpr ⟨⟨kept, some⟩, h⟩

theorem InOrder.keepBehind {c : Nat} (d : Nat) (some : lines ≠ [])
    (stands : c = line + (oldText before.reverse).length) (h : InOrder line before.reverse) :
    InOrder line (Diff.keepBehind c d lines before).reverse := by
  fun_cases Diff.keepBehind c d lines before with
  | case1 previous rest keeps =>
    rw [List.reverse_cons, inOrder_append, inOrder_cons] at h ⊢
    obtain ⟨h, ⟨placed, _⟩, _⟩ := h
    exact ⟨h, ⟨placed, by simp [some]⟩, inOrder_nil _⟩
  | case2 previous rest _ =>
    rw [List.reverse_cons, inOrder_append, inOrder_cons]
    exact ⟨h, ⟨fun _ => stands, some⟩, inOrder_nil _⟩
  | case3 => exact inOrder_cons.mpr ⟨⟨fun _ => stands, some⟩, inOrder_nil _⟩

/-- Two edits of one kind become one. -/
theorem InOrder.merge {previous here : Edit} (same : previous.kind = here.kind)
    (h : InOrder line (previous :: here :: edits)) :
    InOrder line ({ previous with lines := previous.lines ++ here.lines } :: edits) := by
  obtain ⟨⟨placed, some⟩, h⟩ := inOrder_cons.mp h
  obtain ⟨_, h⟩ := inOrder_cons.mp h
  refine inOrder_cons.mpr ⟨⟨placed, by simp [some]⟩, ?_⟩
  by_cases inserts : here.kind = .insert <;>
    simpa [Edit.oldLines, same, inserts, Nat.add_assoc] using h

/-- A deletion and an insertion change places; only the deletion covers old lines. -/
theorem InOrder.swap {previous here : Edit} (changes : previous.kind ≠ .keep)
    (changes' : here.kind ≠ .keep) (differ : previous.kind ≠ here.kind)
    (h : InOrder line (previous :: here :: edits)) :
    InOrder line (here :: previous :: edits) := by
  obtain ⟨⟨placed, some⟩, h⟩ := inOrder_cons.mp h
  obtain ⟨⟨placed', some'⟩, h⟩ := inOrder_cons.mp h
  by_cases inserts : previous.kind = .insert
  · have nothing : previous.oldLines = [] := by simp [Edit.oldLines, inserts]
    rw [nothing, List.length_nil, Nat.add_zero] at placed' h
    refine inOrder_cons.mpr ⟨⟨placed', some'⟩, inOrder_cons.mpr ⟨⟨?_, some⟩, ?_⟩⟩
    · exact fun other => absurd inserts other
    · rwa [nothing]
  · have inserts' : here.kind = .insert := by
      cases kind : previous.kind <;> cases kind' : here.kind <;> simp_all
    have nothing : here.oldLines = [] := by simp [Edit.oldLines, inserts']
    rw [nothing, List.length_nil, Nat.add_zero] at h
    refine inOrder_cons.mpr ⟨⟨fun other => absurd inserts' other, some'⟩, ?_⟩
    rw [nothing]
    exact inOrder_cons.mpr ⟨⟨placed, some⟩, h⟩

end

theorem Rises.inOrder {first second : Focus} (h : Rises first second)
    (inOrder : InOrder 0 first.script) : InOrder 0 second.script := by
  cases h with
  | @passEmpty previous here rest after _ empty =>
    exact absurd empty (inOrder.full previous (by simp [Focus.script]))
  | @pass previous here rest after kept moved stay keeps inserts whole whole' some a b c d stands =>
    rw [Focus.script_cons, inOrder_append] at inOrder
    rw [Focus.script, inOrder_append, oldText_reverse_consUnlessEmpty]
    obtain ⟨front, inOrder⟩ := inOrder
    obtain ⟨⟨placed, _⟩, inOrder⟩ := inOrder_cons.mp inOrder
    obtain ⟨_, inOrder⟩ := inOrder_cons.mp inOrder
    refine ⟨front.reverse_consUnlessEmpty placed, inOrder_cons.mpr ⟨⟨?_, by simp [some]⟩, ?_⟩⟩
    · exact fun other => absurd inserts other
    · refine .keepInFront d some ?_ ?_
      · have start := placed (by simp [keeps])
        simp [Edit.oldLines, keeps, inserts, stands, start]
      · simpa [Edit.oldLines, keeps, inserts, whole, Nat.add_assoc] using inOrder
  | @join previous here rest after _ same =>
    rw [Focus.script_cons, inOrder_append] at inOrder
    exact inOrder_append.mpr ⟨inOrder.1, inOrder.2.merge same⟩
  | @swap previous here rest after changes changes' differ =>
    rw [Focus.script_cons, inOrder_append] at inOrder
    exact inOrder_append.mpr ⟨inOrder.1, inOrder.2.swap changes changes' differ⟩

theorem Sinks.inOrder {first second : Focus} (h : Sinks first second)
    (inOrder : InOrder 0 first.script) : InOrder 0 second.script := by
  cases h with
  | @passEmpty here next before rest _ empty =>
    exact absurd empty (inOrder.full next (by simp [Focus.script]))
  | @pass here next before rest kept moved stay keeps inserts whole whole' some a b d e f stands =>
    obtain ⟨front, inOrder⟩ := inOrder_append.mp inOrder
    obtain ⟨_, inOrder⟩ := inOrder_cons.mp inOrder
    obtain ⟨⟨placed, _⟩, inOrder⟩ := inOrder_cons.mp inOrder
    have start := placed (by simp [keeps])
    simp only [Edit.oldLines, inserts, if_true, List.length_nil, Nat.add_zero] at start
    refine inOrder_append.mpr ⟨front.keepBehind d some start, inOrder_cons.mpr ⟨⟨?_, ?_⟩, ?_⟩⟩
    · exact fun other => absurd inserts other
    · simp [some]
    · rw [oldText_keepBehind]
      refine .consUnlessEmpty (fun _ => ?_) ?_
      · simp [Edit.oldLines, inserts, stands, start]
      · simpa [Edit.oldLines, keeps, inserts, whole, Nat.add_assoc] using inOrder
  | @join here next before rest _ same =>
    obtain ⟨front, inOrder⟩ := inOrder_append.mp inOrder
    exact inOrder_append.mpr ⟨front, inOrder.merge same.symm⟩
  | @swap here next before rest changes changes' differ =>
    obtain ⟨front, inOrder⟩ := inOrder_append.mp inOrder
    rw [Focus.script_cons]
    exact inOrder_append.mpr ⟨front, inOrder.swap changes changes' differ.symm⟩

end SchemaInterfaces.Diff
