import Mathlib.Data.List.Basic
import SchemaInterfaces.Diff.Script

/-!
# Scripts lead from one text to the other

The lines of a script say which two texts it stands between (`oldText`, `newText`), and every
operation on scripts is judged by what it does to these two. A comparison is put together from what
the texts have in common at their ends and from comparisons of the halves in between, so whatever
split is chosen, the script leads from the old text to the new one (`leads_compareLines`).
-/
namespace SchemaInterfaces.Diff

/-! ### The texts of a script -/

@[simp] theorem oldText_nil : oldText [] = [] := rfl

@[simp] theorem newText_nil : newText [] = [] := rfl

@[simp] theorem oldText_cons (edit : Edit) (script : List Edit) :
    oldText (edit :: script) = edit.oldLines ++ oldText script := List.flatMap_cons

@[simp] theorem newText_cons (edit : Edit) (script : List Edit) :
    newText (edit :: script) = edit.newLines ++ newText script := List.flatMap_cons

@[simp] theorem oldText_append (first second : List Edit) :
    oldText (first ++ second) = oldText first ++ oldText second := List.flatMap_append

@[simp] theorem newText_append (first second : List Edit) :
    newText (first ++ second) = newText first ++ newText second := List.flatMap_append

/-- A script leads from one text to another. -/
structure Leads (script : List Edit) (old new : List String) : Prop where
  old : oldText script = old
  new : newText script = new

theorem Leads.append {first second : List Edit} {old new old' new' : List String}
    (h : Leads first old new) (h' : Leads second old' new') :
    Leads (first ++ second) (old ++ old') (new ++ new') where
  old := by rw [oldText_append, h.old, h'.old]
  new := by rw [newText_append, h.new, h'.new]

/-! ### What texts have in common -/

theorem take_eq_of_le_commonStart {count : Nat} {a b : List String}
    (h : count ≤ commonStart a b) : a.take count = b.take count := by
  fun_induction commonStart a b generalizing count with
  | case1 x as bs ih =>
    cases count with
    | zero => rfl
    | succ count => rw [List.take_succ_cons, List.take_succ_cons, ih (by omega)]
  | case2 => simp [Nat.le_zero.mp h]
  | case3 => simp [Nat.le_zero.mp h]

theorem commonStart_self (a : List String) : commonStart a a = a.length := by
  induction a with
  | nil => rfl
  | cons x a ih => simp [commonStart, ih]

theorem drop_eq_of_le_commonEnd {count : Nat} {a b : List String} (h : count ≤ commonEnd a b) :
    a.drop (a.length - count) = b.drop (b.length - count) := by
  have ends := take_eq_of_le_commonStart h
  rw [List.take_reverse, List.take_reverse] at ends
  exact List.reverse_injective ends

/-! ### Comparing -/

theorem leads_edit? (kind : EditKind) (oldStart newStart : Nat) (lines : List String) :
    Leads (edit? kind oldStart newStart lines) (Edit.oldLines ⟨kind, oldStart, newStart, lines⟩)
      (Edit.newLines ⟨kind, oldStart, newStart, lines⟩) := by
  unfold edit?
  split
  next empty =>
    rw [List.isEmpty_iff.mp empty]
    constructor <;> simp [Edit.oldLines, Edit.newLines]
  next => constructor <;> simp

theorem leads_keep (oldStart newStart : Nat) (lines : List String) :
    Leads (edit? .keep oldStart newStart lines) lines lines :=
  leads_edit? .keep oldStart newStart lines

theorem leads_replaced (oldStart newStart : Nat) (old new : List String) :
    Leads (edit? .delete oldStart newStart old ++ edit? .insert oldStart newStart new) old new := by
  have deleted := leads_edit? .delete oldStart newStart old
  have inserted := leads_edit? .insert oldStart newStart new
  simpa [Edit.oldLines, Edit.newLines] using deleted.append inserted

/-- Between kept lines that both texts have, a script for what is left makes one for the whole. -/
theorem Leads.framed {core : List Edit} {old new : List String} {head tail : Nat}
    (starts : old.take head = new.take head)
    (ends : (old.drop head).drop ((old.drop head).length - tail) =
      (new.drop head).drop ((new.drop head).length - tail))
    (h : Leads core ((old.drop head).take ((old.drop head).length - tail))
      ((new.drop head).take ((new.drop head).length - tail))) (a b c d : Nat) :
    Leads (edit? .keep a b (old.take head) ++ core ++ edit? .keep c d ((old.drop head).drop
      ((old.drop head).take ((old.drop head).length - tail)).length)) old new := by
  have cut : ((old.drop head).take ((old.drop head).length - tail)).length =
      (old.drop head).length - tail := List.length_take_of_le (Nat.sub_le _ _)
  have whole := ((leads_keep a b (old.take head)).append h).append
    (leads_keep c d ((old.drop head).drop ((old.drop head).length - tail)))
  rw [cut]
  constructor
  · rw [whole.old, List.append_assoc, List.take_append_drop, List.take_append_drop]
  · rw [whole.new, ends, starts, List.append_assoc, List.take_append_drop, List.take_append_drop]

theorem Leads.split {front back : List Edit} {old new : List String} {x y : Nat}
    (h : Leads front (old.take x) (new.take y)) (h' : Leads back (old.drop x) (new.drop y)) :
    Leads (front ++ back) old new := by
  simpa only [List.take_append_drop] using h.append h'

/-- A comparison leads from the old text to the new one, however the middle is split. -/
theorem leads_compareFrom (depth oldStart newStart : Nat) (old new : List String) :
    Leads (compareFrom depth oldStart newStart old new) old new := by
  induction depth generalizing oldStart newStart old new with
  | zero =>
    rw [compareFrom]
    exact .framed (take_eq_of_le_commonStart (Nat.le_refl _))
      (drop_eq_of_le_commonEnd (Nat.le_refl _)) (leads_replaced _ _ _ _) _ _ _ _
  | succ depth ih =>
    rw [compareFrom]
    refine .framed (take_eq_of_le_commonStart (Nat.le_refl _))
      (drop_eq_of_le_commonEnd (Nat.le_refl _)) ?_ _ _ _ _
    split
    · exact leads_replaced _ _ _ _
    · split
      · exact leads_replaced _ _ _ _
      · exact .split (ih _ _ _ _) (ih _ _ _ _)

theorem leads_compareLines (old new : List String) : Leads (compareLines old new) old new :=
  leads_compareFrom _ 0 0 old new

/-- A text compared with itself is kept as a whole. -/
theorem compareLines_self (lines : List String) :
    compareLines lines lines = edit? .keep 0 0 lines := by
  simp [compareLines, compareFrom, commonStart_self, edit?]

end SchemaInterfaces.Diff
