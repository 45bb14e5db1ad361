import SchemaInterfaces.Text.Uppercase

/-!
# Capitals stay

A character may have several characters as its upper-case form, but the first of them is its own
upper-case form, and none is an underscore unless the character was one (`uppercase_eq_cons`). That
is a fact about the tables: no form begins with a code point that has an entry. All code points with
an entry are the bits of one number and all that begin a form those of another, and the two numbers
have no bit in common.
-/
namespace SchemaInterfaces.Text

/-- A character that is its own upper-case form. -/
def IsCapital (c : Char) : Prop := uppercase c = [c]

/-- Below the first small letter all characters are. -/
theorem uppercase_of_lt {c : Char} (below : c.toNat < 'a'.toNat) : uppercase c = [c] := by
  have letters : ∀ range ∈ upperRanges, 'a'.toNat ≤ range.first := by decide +kernel
  have sequences : ∀ entry ∈ upperSequences, 'a'.toNat ≤ entry.1 := by decide +kernel
  have noSequence : upperSequences.lookup c.toNat = none := by
    rw [List.lookup_eq_none_iff]
    intro entry member
    rw [bne_iff_ne]
    have above := sequences entry member
    omega
  rw [uppercase, mapCase?_of_lt letters below, noSequence]

/-! ### Sets of code points -/

/-- A set of code points as the bits of a number. -/
def bits (codes : List Nat) : Nat := codes.foldr (fun code set => 1 <<< code ||| set) 0

theorem testBit_bits (codes : List Nat) (code : Nat) :
    (bits codes).testBit code = true ↔ code ∈ codes := by
  induction codes with
  | nil => simp [bits]
  | cons first codes ih =>
    rw [bits] at ih
    rw [bits, List.foldr_cons, Nat.testBit_or, Bool.or_eq_true, ih, Nat.one_shiftLeft,
      Nat.testBit_two_pow, decide_eq_true_eq, List.mem_cons, eq_comm]

/-- Sets without a common bit have no common code point. -/
theorem not_mem_of_land_bits {front back : List Nat} (apart : bits front &&& bits back = 0)
    {code : Nat} (member : code ∈ back) : code ∉ front := by
  intro shared
  have bit : (bits front &&& bits back).testBit code = true := by
    rw [Nat.testBit_and, Bool.and_eq_true]
    exact ⟨(testBit_bits front code).mpr shared, (testBit_bits back code).mpr member⟩
  rw [apart, Nat.zero_testBit] at bit
  cases bit

namespace CaseRange

/-- How many code points a run covers. -/
def size (range : CaseRange) : Nat := (range.last - range.first) / range.step + 1

/-- The code points that a run covers. -/
def codes (range : CaseRange) : List Nat := List.range' range.first range.size range.step

/-- What a run leads to. -/
def images (range : CaseRange) : List Nat := List.range' range.target range.size range.step

theorem mem_of_image? {range : CaseRange} {code image : Nat}
    (moves : range.image? code = some image) : code ∈ range.codes ∧ image ∈ range.images := by
  rw [image?, Option.ite_none_right_eq_some, Option.some.injEq] at moves
  obtain ⟨⟨low, high, onStep⟩, rfl⟩ := moves
  have steps : range.step * ((code - range.first) / range.step) = code - range.first :=
    Nat.mul_div_cancel' (Nat.dvd_of_mod_eq_zero onStep)
  have inside : (code - range.first) / range.step < range.size :=
    Nat.lt_succ_of_le (Nat.div_le_div_right (by omega))
  exact ⟨List.mem_range'.mpr ⟨_, inside, by omega⟩, List.mem_range'.mpr ⟨_, inside, by omega⟩⟩

end CaseRange

/-! ### The tables -/

/-- The code points with an entry. -/
def listedCodes : List Nat := upperRanges.flatMap CaseRange.codes ++ upperSequences.map Prod.fst

/-- The code points that begin an upper-case form. -/
def beginningCodes : List Nat :=
  upperRanges.flatMap CaseRange.images ++ upperSequences.flatMap (·.2.head?.toList)

theorem bits_apart : bits ('_'.toNat :: listedCodes) &&& bits beginningCodes = 0 := by
  decide +kernel

theorem upperSequences_forms : ∀ entry ∈ upperSequences, entry.2 ≠ [] ∧ '_'.toNat ∉ entry.2 := by
  decide +kernel

/-- A number is that of its character, or no code point and then stands for the first one. -/
theorem toNat_ofNat_or (code : Nat) :
    (Char.ofNat code).toNat = code ∨ Char.ofNat code = '\x00' := by
  by_cases valid : code.isValidChar
  · exact .inl (by rw [Char.ofNat, dif_pos valid]; rfl)
  · exact .inr (by rw [Char.ofNat, dif_neg valid]; rfl)

theorem ofNat_ne_underscore {code : Nat} (other : code ≠ '_'.toNat) : Char.ofNat code ≠ '_' := by
  intro same
  rcases toNat_ofNat_or code with number | first
  · exact other (number.symm.trans (congrArg Char.toNat same))
  · exact absurd (first.symm.trans same) (by decide)

/-- Nothing that begins an upper-case form has an entry. -/
theorem isCapital_of_mem {code : Nat} (begins : code ∈ beginningCodes) :
    IsCapital (Char.ofNat code) ∧ code ≠ '_'.toNat := by
  obtain ⟨other, unlisted⟩ := List.ne_and_not_mem_of_not_mem_cons
    (not_mem_of_land_bits bits_apart begins)
  refine ⟨?_, other⟩
  have noRun : mapCase? upperRanges code = none := by
    refine List.findSome?_eq_none_iff.mpr fun range known => ?_
    cases moves : range.image? code with
    | none => rfl
    | some image =>
      have covered := (CaseRange.mem_of_image? moves).1
      exact absurd (List.mem_append_left _ (List.mem_flatMap.mpr ⟨range, known, covered⟩)) unlisted
  have noSequence : upperSequences.lookup code = none := by
    refine List.lookup_eq_none_iff.mpr fun entry known => bne_iff_ne.mpr ?_
    rintro rfl
    exact unlisted (List.mem_append_right _ (List.mem_map_of_mem known))
  rcases toNat_ofNat_or code with number | first
  · rw [IsCapital, uppercase, number, noRun, noSequence]
  · rw [first]
    exact uppercase_of_lt (by decide)

/-- An upper-case form begins with a capital, and has an underscore only if it comes from one. -/
theorem uppercase_eq_cons (c : Char) :
    ∃ first rest, uppercase c = first :: rest ∧ IsCapital first ∧
      (c ≠ '_' → '_' ∉ first :: rest) := by
  cases run : mapCase? upperRanges c.toNat with
  | some image =>
    obtain ⟨range, known, moves⟩ := List.exists_of_findSome?_eq_some run
    have begins : image ∈ beginningCodes := List.mem_append_left _
      (List.mem_flatMap.mpr ⟨range, known, (CaseRange.mem_of_image? moves).2⟩)
    obtain ⟨capital, other⟩ := isCapital_of_mem begins
    refine ⟨Char.ofNat image, [], by rw [uppercase, run], capital, fun _ inForm => ?_⟩
    exact ofNat_ne_underscore other (List.mem_singleton.mp inForm).symm
  | none =>
    cases sequence : upperSequences.lookup c.toNat with
    | some images =>
      obtain ⟨front, behind, split, _⟩ := List.lookup_eq_some_iff.mp sequence
      have known : (c.toNat, images) ∈ upperSequences := by simp [split]
      obtain ⟨nonempty, others⟩ := upperSequences_forms _ known
      obtain ⟨image, more, rfl⟩ := List.exists_cons_of_ne_nil nonempty
      have begins : image ∈ beginningCodes := List.mem_append_right _
        (List.mem_flatMap.mpr ⟨_, known, List.mem_singleton.mpr rfl⟩)
      refine ⟨Char.ofNat image, more.map Char.ofNat, by rw [uppercase, run, sequence]; rfl,
        (isCapital_of_mem begins).1, fun _ inForm => ?_⟩
      rw [← List.map_cons] at inForm
      obtain ⟨code, member, same⟩ := List.mem_map.mp inForm
      have other : code ≠ '_'.toNat := fun equal => others (equal ▸ member)
      exact ofNat_ne_underscore other same
    | none =>
      have capital : uppercase c = [c] := by rw [uppercase, run, sequence]
      refine ⟨c, [], capital, capital, fun other inForm => ?_⟩
      exact other (List.mem_singleton.mp inForm).symm

end SchemaInterfaces.Text
