import SchemaInterfaces.Proofs.Settings.Visiting
import SchemaInterfaces.Settings.Conversion

/-!
# Settings that can be converted

The checks of settings succeed in every order or in none, and they succeed where the settings can be
converted. So the order decides neither whether there are settings nor which
(`Settings.ofValues_eq_ok_iff`), only which of several errors is told; a single one is told in every
order (`Settings.ofValues_of_oneFault`).
-/
namespace SchemaInterfaces

theorem bind_eq_ok {ε α β : Type} {step : Except ε α} {next : α → Except ε β} {result : β} :
    step >>= next = .ok result ↔ ∃ value, step = .ok value ∧ next value = .ok result := by
  cases step with
  | error error => simp [bind, Except.bind]
  | ok value => simp [bind, Except.bind]

/-! ### The first error -/

section

variable {ε : Type} {checks : List (String × Except ε Unit)}

/-- Checks succeed together where each of them succeeds. -/
theorem firstError_eq_ok_iff : firstError checks = .ok () ↔ ∀ check ∈ checks, check.2 = .ok () := by
  induction checks with
  | nil => simp [firstError]
  | cons check rest ih =>
    obtain ⟨name, outcome⟩ := check
    cases outcome with
    | error error => simp [firstError]
    | ok value => simp [firstError, ih]

theorem firstError_filter {key : String}
    (only : ∀ check ∈ checks, check.1 ≠ key → check.2 = .ok ()) :
    firstError checks = firstError (checks.filter (·.1 = key)) := by
  induction checks with
  | nil => rfl
  | cons check rest ih =>
    obtain ⟨own, others⟩ := List.forall_mem_cons.mp only
    obtain ⟨name, outcome⟩ := check
    by_cases here : name = key
    · rw [List.filter_cons_of_pos (by simpa using here)]
      cases outcome with
      | error error => rfl
      | ok value => exact ih others
    · obtain rfl : outcome = .ok () := own here
      rw [List.filter_cons_of_neg (by simpa using here), firstError, ih others]

/-- Errors under one key only are told in every order. -/
theorem firstError_visited {key : String}
    (only : ∀ check ∈ checks, check.1 ≠ key → check.2 = .ok ()) (hash : String → Nat) :
    firstError (visited hash checks) = firstError checks := by
  rw [firstError_filter only, ← filter_visited hash, ← firstError_filter]
  exact fun check member => only check ((mem_visited_iff hash).mp member)

theorem firstError_visited_eq_ok_iff (hash : String → Nat) :
    firstError (visited hash checks) = .ok () ↔ ∀ check ∈ checks, check.2 = .ok () := by
  simp only [firstError_eq_ok_iff, mem_visited_iff]

end

/-! ### Sections -/

namespace Section

variable {content : Section} {part : SectionName}

/-- A section gives its settings the values that some settings have. -/
def Yields (content : Section) (settings : Settings) : SectionName → Prop
  | .input =>
    content.setting .input "path" 0 ({} : Settings).inputPath Setting.text =
      .ok settings.inputPath ∧
    content.setting .input "pointer" 1 ({} : Settings).pointer Setting.text? = .ok settings.pointer
  | .generate =>
    content.setting .generate "root_key" 0 ({} : Settings).rootKey Setting.text =
      .ok settings.rootKey ∧
    content.setting .generate "banner" 1 ({} : Settings).banner Setting.boolean =
      .ok settings.banner
  | .output =>
    content.setting .output "path" 0 ({} : Settings).outputPath Setting.text =
      .ok settings.outputPath ∧
    content.setting .output "indent" 1 ({} : Settings).indent Setting.natural =
      .ok settings.indent ∧
    content.setting .output "export" 2 ({} : Settings).exported Setting.boolean =
      .ok settings.exported ∧
    content.setting .output "docs" 3 ({} : Settings).docs Setting.boolean = .ok settings.docs

/-- A setting that can be converted passes its check. -/
theorem setting_check {α : Type} {name : String} {position : Nat} {default result : α}
    {convert : Setting → Except Mismatch α}
    (converts : content.setting part name position default convert = .ok result) :
    content.setting part name position () (fun setting => (convert setting).map fun _ => ()) =
      .ok () := by
  rw [setting] at converts ⊢
  cases found : content.value? name position with
  | none => rfl
  | some value =>
    obtain ⟨step, setting⟩ := value
    rw [found] at converts
    dsimp only at converts ⊢
    cases converted : convert setting with
    | error mismatch =>
      rw [converted] at converts
      cases converts
    | ok value => rfl

theorem check_eq_ok_iff (hash : String → Nat) :
    content.check hash part = .ok () ↔ ∀ check ∈ content.checks part, check.2 = .ok () := by
  cases content with
  | named entries => exact firstError_visited_eq_ok_iff hash
  | ordered items => exact firstError_eq_ok_iff

theorem check_congr {name : String}
    (only : ∀ check ∈ content.checks part, check.1 ≠ name → check.2 = .ok ())
    (hash other : String → Nat) : content.check hash part = content.check other part := by
  cases content with
  | named entries => exact (firstError_visited only hash).trans (firstError_visited only other).symm
  | ordered items => rfl

/-- Settings that can be converted pass their checks. -/
theorem Yields.checks {settings : Settings} (yields : content.Yields settings part) :
    ∀ check ∈ content.checks part, check.2 = .ok () := by
  cases part with
  | input =>
    obtain ⟨path, pointer⟩ := yields
    exact List.forall_mem_cons.mpr ⟨setting_check path,
      List.forall_mem_singleton.mpr (setting_check pointer)⟩
  | generate =>
    obtain ⟨rootKey, banner⟩ := yields
    exact List.forall_mem_cons.mpr ⟨setting_check rootKey,
      List.forall_mem_singleton.mpr (setting_check banner)⟩
  | output =>
    obtain ⟨path, indent, exported, docs⟩ := yields
    exact List.forall_mem_cons.mpr ⟨setting_check path, List.forall_mem_cons.mpr
      ⟨setting_check indent, List.forall_mem_cons.mpr ⟨setting_check exported,
        List.forall_mem_singleton.mpr (setting_check docs)⟩⟩⟩

end Section

/-- The sections of merged values are tables. -/
theorem Setting.IsSectioned.find {values : Setting} (sectioned : values.IsSectioned)
    (part : SectionName) :
    Section.find part values = .ok (.named (values.sectionEntries part)) := by
  have held := sectioned.sections part
  rw [Section.find, sectionEntries]
  cases found : values.entries.lookup part.key with
  | none => rfl
  | some value =>
    obtain ⟨source, entries, rfl⟩ := held value found
    rfl

namespace Settings

variable {values : Setting} {settings : Settings}

/-- Conversion succeeds section by section. -/
theorem convert_eq_ok_iff :
    convert values = .ok settings ↔
      ∀ part, ∃ content, Section.find part values = .ok content ∧
        content.Yields settings part := by
  unfold convert
  simp only [bind_eq_ok, pure, Except.pure, Except.ok.injEq]
  constructor
  · rintro ⟨input, foundInput, _, inputPath, _, pointer, generate, foundGenerate, _, rootKey, _,
      banner, output, foundOutput, _, outputPath, _, indent, _, exported, _, docs, rfl⟩ part
    cases part with
    | input => exact ⟨input, foundInput, inputPath, pointer⟩
    | generate => exact ⟨generate, foundGenerate, rootKey, banner⟩
    | output => exact ⟨output, foundOutput, outputPath, indent, exported, docs⟩
  · intro sections
    obtain ⟨input, foundInput, inputPath, pointer⟩ := sections .input
    obtain ⟨generate, foundGenerate, rootKey, banner⟩ := sections .generate
    obtain ⟨output, foundOutput, outputPath, indent, exported, docs⟩ := sections .output
    exact ⟨input, foundInput, _, inputPath, _, pointer, generate, foundGenerate, _, rootKey, _,
      banner, output, foundOutput, _, outputPath, _, indent, _, exported, _, docs, rfl⟩

theorem checks_of_convert (converted : convert values = .ok settings)
    (hashes : List String → String → Nat) :
    ∀ check ∈ checks hashes values, check.2 = .ok () := by
  intro check member
  obtain ⟨part, _, rfl⟩ := List.mem_map.mp member
  obtain ⟨content, found, yields⟩ := convert_eq_ok_iff.mp converted part
  dsimp only
  rw [found]
  exact (Section.check_eq_ok_iff _).mpr yields.checks

/-- Which settings come of merged values does not depend on the order of the checks. -/
theorem ofValues_eq_ok_iff (hashes : List String → String → Nat) :
    ofValues hashes values = .ok settings ↔ convert values = .ok settings := by
  rw [ofValues, bind_eq_ok]
  constructor
  · rintro ⟨_, _, converted⟩
    exact converted
  · intro converted
    exact ⟨(), (firstError_visited_eq_ok_iff _).mpr (checks_of_convert converted hashes), converted⟩

/-- At most one section of merged values is at fault, and in that section at most one setting. -/
def HasOneFault (values : Setting) : Prop :=
  ∃ (faulty : SectionName) (name : String),
    (∀ part ≠ faulty, ∃ content, Section.find part values = .ok content ∧
      ∀ check ∈ content.checks part, check.2 = .ok ()) ∧
    ∀ content, Section.find faulty values = .ok content →
      ∀ check ∈ content.checks faulty, check.1 ≠ name → check.2 = .ok ()

/-- A single fault is told in every order. -/
theorem ofValues_of_oneFault (single : HasOneFault values)
    (hashes others : List String → String → Nat) :
    ofValues hashes values = ofValues others values := by
  obtain ⟨faulty, name, fine, only⟩ := single
  have same : checks hashes values = checks others values := by
    refine List.map_congr_left fun part _ => ?_
    cases found : Section.find part values with
    | error error => rfl
    | ok content =>
      by_cases here : part = faulty
      · subst here
        exact congrArg (part.key, ·) (Section.check_congr (only content found) _ _)
      · obtain ⟨content', found', passes⟩ := fine part here
        obtain rfl : content = content' := Except.ok.inj (found.symm.trans found')
        exact congrArg (part.key, ·) (((Section.check_eq_ok_iff _).mpr passes).trans
          ((Section.check_eq_ok_iff _).mpr passes).symm)
  have elsewhere (hash : List String → String → Nat) :
      ∀ check ∈ checks hash values, check.1 ≠ faulty.key → check.2 = .ok () := by
    intro check member differ
    obtain ⟨part, _, rfl⟩ := List.mem_map.mp member
    obtain ⟨content, found, passes⟩ := fine part fun same => differ (congrArg SectionName.key same)
    dsimp only
    rw [found]
    exact (Section.check_eq_ok_iff _).mpr passes
  rw [ofValues, ofValues, firstError_visited (elsewhere hashes), firstError_visited
    (elsewhere others), same]

end Settings

end SchemaInterfaces
