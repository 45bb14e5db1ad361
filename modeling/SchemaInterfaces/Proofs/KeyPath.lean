import Mathlib.Data.List.Basic
import SchemaInterfaces.KeyPath

/-!
# Names of key paths

The name of a path is put together from the names of its parts, so a longer path has a longer name.
Nothing separates the parts but their capitals. Where every fragment is a small letter with small
letters and digits behind it, that is enough: a capital begins each fragment and stands nowhere
else, and the name leads back to the fragments (`flatMap_upperFirst_inj`). Keys that are single
fragments of this kind are told apart by the name of their path (`nameOf_inj`).
-/
namespace SchemaInterfaces.KeyPath

theorem fragments_append (front back : List String) :
    fragments (front ++ back) = fragments front ++ fragments back := by
  simp only [fragments, List.flatMap_append]

theorem nameOf_append (front back : List String) :
    nameOf (front ++ back) = nameOf front ++ nameOf back := by
  simp only [nameOf, fragments_append, List.flatMap_append, String.ofList_append]

/-! ### Names that can be taken apart -/

/-- What may follow the first letter of a plain fragment. -/
def continuesFragment (c : Char) : Bool := c.isLower || c.isDigit

/-- A small letter with small letters and digits behind it. -/
def isPlainFragment : List Char → Bool
  | [] => false
  | first :: rest => first.isLower && rest.all continuesFragment

/-- A key that is a single plain fragment. -/
def isPlainKey (key : String) : Bool := isPlainFragment key.toList

theorem exists_of_isLower {c : Char} (h : c.isLower = true) :
    ∃ n < 26, c = Char.ofNat (0x61 + n) := by
  have bounds : (decide ('a'.val ≤ c.val) && decide (c.val ≤ 'z'.val)) = true := h
  simp only [Bool.and_eq_true, decide_eq_true_eq, UInt32.le_iff_toNat_le] at bounds
  have low : 0x61 ≤ c.toNat := bounds.1
  have high : c.toNat ≤ 0x7A := bounds.2
  refine ⟨c.toNat - 0x61, by omega, ?_⟩
  rw [Nat.add_sub_cancel' low, Char.ofNat_toNat]

theorem uppercase_ofNat : ∀ n < 26,
    Text.uppercase (Char.ofNat (0x61 + n)) = [Char.ofNat (0x41 + n)] ∧
      continuesFragment (Char.ofNat (0x41 + n)) = false := by
  decide

theorem capital_inj : ∀ n < 26, ∀ m < 26,
    Char.ofNat (0x41 + n) = Char.ofNat (0x41 + m) → n = m := by
  decide

theorem upperFirst_of_isPlainFragment {fragment : List Char}
    (plain : isPlainFragment fragment = true) :
    ∃ n < 26, ∃ rest, fragment = Char.ofNat (0x61 + n) :: rest ∧
      upperFirst fragment = Char.ofNat (0x41 + n) :: rest ∧
      ∀ c ∈ rest, continuesFragment c = true := by
  cases fragment with
  | nil => cases plain
  | cons first rest =>
    rw [isPlainFragment, Bool.and_eq_true, List.all_eq_true] at plain
    obtain ⟨n, bound, rfl⟩ := exists_of_isLower plain.1
    refine ⟨n, bound, rest, rfl, ?_, plain.2⟩
    rw [upperFirst, (uppercase_ofNat n bound).1]
    rfl

/-- Behind a fragment stands the capital of the next one, or nothing. -/
theorem head?_flatMap_upperFirst {fragments : List (List Char)}
    (plain : ∀ fragment ∈ fragments, isPlainFragment fragment = true) :
    ∀ c ∈ (fragments.flatMap upperFirst).head?, continuesFragment c = false := by
  intro c member
  cases fragments with
  | nil => cases member
  | cons fragment fragments =>
    obtain ⟨n, bound, rest, _, capital, _⟩ := upperFirst_of_isPlainFragment (plain _ (.head _))
    rw [List.flatMap_cons, capital, List.cons_append, List.head?_cons,
      Option.mem_some_iff] at member
    rw [← member]
    exact (uppercase_ofNat n bound).2

/-- Lists are cut at the first item that does not belong to their front. -/
theorem append_inj_of_boundary {α : Type} {p : α → Bool} {front front' back back' : List α}
    (inside : ∀ a ∈ front, p a = true) (inside' : ∀ a ∈ front', p a = true)
    (boundary : ∀ a ∈ back.head?, p a = false) (boundary' : ∀ a ∈ back'.head?, p a = false)
    (same : front ++ back = front' ++ back') : front = front' ∧ back = back' := by
  have stops {rest : List α} (stop : ∀ a ∈ rest.head?, p a = false) : rest.takeWhile p = [] := by
    cases rest with
    | nil => rfl
    | cons a rest => simp [stop a rfl]
  have fronts := congrArg (List.takeWhile p) same
  rw [List.takeWhile_append_of_pos inside, List.takeWhile_append_of_pos inside', stops boundary,
    stops boundary', List.append_nil, List.append_nil] at fronts
  subst fronts
  exact ⟨rfl, List.append_cancel_left same⟩

/-- Plain fragments are read back from their names put together. -/
theorem flatMap_upperFirst_inj {first second : List (List Char)}
    (plain : ∀ fragment ∈ first, isPlainFragment fragment = true)
    (plain' : ∀ fragment ∈ second, isPlainFragment fragment = true)
    (same : first.flatMap upperFirst = second.flatMap upperFirst) : first = second := by
  induction first generalizing second with
  | nil =>
    cases second with
    | nil => rfl
    | cons fragment second =>
      obtain ⟨n, _, rest, _, capital, _⟩ := upperFirst_of_isPlainFragment (plain' _ (.head _))
      rw [List.flatMap_cons, capital] at same
      cases same
  | cons fragment first ih =>
    obtain ⟨n, bound, rest, rfl, capital, inside⟩ :=
      upperFirst_of_isPlainFragment (plain _ (.head _))
    have plain := fun f member => plain f (.tail _ member)
    cases second with
    | nil =>
      rw [List.flatMap_cons, capital] at same
      cases same
    | cons fragment' second =>
      obtain ⟨n', bound', rest', rfl, capital', inside'⟩ :=
        upperFirst_of_isPlainFragment (plain' _ (.head _))
      have plain' := fun f member => plain' f (.tail _ member)
      rw [List.flatMap_cons, List.flatMap_cons, capital, capital', List.cons_append,
        List.cons_append, List.cons.injEq] at same
      obtain ⟨rests, backs⟩ := append_inj_of_boundary inside inside'
        (head?_flatMap_upperFirst plain) (head?_flatMap_upperFirst plain') same.2
      rw [capital_inj n bound n' bound' same.1, rests, ih plain plain' backs]

theorem splitUnderscore_of_not_mem {key : List Char} (free : '_' ∉ key) :
    splitUnderscore key = [key] := by
  induction key with
  | nil => rfl
  | cons c rest ih =>
    rw [List.mem_cons, not_or] at free
    simp [splitUnderscore, Ne.symm free.1, ih free.2]

/-- A plain key is its only fragment. -/
theorem fragmentsOf_of_isPlainKey {key : String} (plain : isPlainKey key = true) :
    fragmentsOf key.toList = [key.toList] := by
  have free : '_' ∉ key.toList := by
    obtain ⟨n, bound, rest, whole, _, inside⟩ := upperFirst_of_isPlainFragment plain
    rw [whole, List.mem_cons, not_or]
    refine ⟨?_, fun member => absurd (inside _ member) (by decide)⟩
    have letters : ∀ m < 26, '_' ≠ Char.ofNat (0x61 + m) := by decide
    exact letters n bound
  have nonempty : key.toList ≠ [] := by
    intro empty
    rw [isPlainKey, empty] at plain
    cases plain
  simp [fragmentsOf, splitUnderscore_of_not_mem free, nonempty]

theorem fragments_of_isPlainKey {keys : List String}
    (plain : ∀ key ∈ keys, isPlainKey key = true) : fragments keys = keys.map String.toList := by
  induction keys with
  | nil => rfl
  | cons key keys ih =>
    have rest := ih fun k member => plain k (.tail _ member)
    rw [fragments] at rest
    rw [fragments, List.flatMap_cons, fragmentsOf_of_isPlainKey (plain _ (.head _)), rest]
    rfl

/-- Paths of plain keys have different names. -/
theorem nameOf_inj {first second : List String} (plain : ∀ key ∈ first, isPlainKey key = true)
    (plain' : ∀ key ∈ second, isPlainKey key = true) (same : nameOf first = nameOf second) :
    first = second := by
  have fragments := String.ofList_injective same
  rw [fragments_of_isPlainKey plain, fragments_of_isPlainKey plain'] at fragments
  have keys := flatMap_upperFirst_inj (by simpa [isPlainKey] using plain)
    (by simpa [isPlainKey] using plain') fragments
  exact List.map_injective_iff.mpr (fun _ _ h => String.toList_injective h) keys

end SchemaInterfaces.KeyPath
