import SchemaInterfaces.Settings.Basic

/-!
# Banners and code

A banner stands in front of the generated code, a comment for each of its lines. Reading the text as
TypeScript, a line comment goes on up to a line terminator, of which there are four, while a banner
is split at line feeds only. So a banner changes nothing of the code behind it, and it is nothing
but comments exactly where each of its lines, behind every other terminator in it, begins a comment
of its own or has nothing (`result?_banner`).
-/
namespace SchemaInterfaces

/-- The characters that end a line of TypeScript, and with it a line comment. -/
def isLineTerminator (c : Char) : Bool :=
  c == '\n' || c == '\r' || c == '\u2028' || c == '\u2029'

/-- Whether a text at the start of a line begins with a comment, or leaves the line empty. -/
def beginsComment : List Char → Bool
  | [] => true
  | c :: rest => isLineTerminator c || (c == '/' && rest.head? == some '/')

/-- Whether every character of a text ends a line or lies in a line comment, where the text starts
inside such a comment or outside. -/
def onlyComments (inside : Bool) : List Char → Bool
  | [] => true
  | c :: rest =>
    if isLineTerminator c then onlyComments false rest
    else (inside || beginsComment (c :: rest)) && onlyComments true rest

/-- Nothing of a text is code behind the line terminators in it. -/
def IsCommentLine (text : List Char) : Prop :=
  ∀ before c behind, text = before ++ c :: behind → isLineTerminator c = true →
    beginsComment behind = true

theorem isCommentLine_cons (c : Char) (rest : List Char) :
    IsCommentLine (c :: rest) ↔
      (isLineTerminator c = true → beginsComment rest = true) ∧ IsCommentLine rest := by
  constructor
  · intro comment
    refine ⟨comment [] c rest rfl, fun before d behind split => ?_⟩
    exact comment (c :: before) d behind (by rw [split, List.cons_append])
  · rintro ⟨first, comment⟩ before d behind split ends
    cases before with
    | nil =>
      obtain ⟨rfl, rfl⟩ := List.cons.inj split
      exact first ends
    | cons e before =>
      exact comment before d behind (List.cons.inj split).2 ends

/-- A text has no code if it begins in a comment and leaves none behind its line terminators. -/
theorem onlyComments_iff (inside : Bool) (text : List Char) :
    onlyComments inside text = true ↔
      (inside = true ∨ beginsComment text = true) ∧ IsCommentLine text := by
  induction text generalizing inside with
  | nil => simp [onlyComments, beginsComment, IsCommentLine]
  | cons c rest ih =>
    rw [onlyComments, isCommentLine_cons]
    by_cases ends : isLineTerminator c = true
    · rw [if_pos ends, ih]
      simp [beginsComment, ends]
    · rw [if_neg ends, Bool.and_eq_true, Bool.or_eq_true, ih]
      simp [ends]

/-- A line feed leaves whatever comment comes before it. -/
theorem onlyComments_append (inside : Bool) (text rest : List Char) :
    onlyComments inside (text ++ '\n' :: rest) =
      (onlyComments inside text && onlyComments false rest) := by
  have ends : isLineTerminator '\n' = true := rfl
  induction text generalizing inside with
  | nil => simp [onlyComments, ends]
  | cons c text ih =>
    have begins : beginsComment (c :: (text ++ '\n' :: rest)) = beginsComment (c :: text) := by
      cases text with
      | nil => simp [beginsComment]
      | cons d text => rfl
    rw [List.cons_append, onlyComments, onlyComments, begins]
    split
    next => exact ih false
    next => rw [ih true, Bool.and_assoc]

namespace Generation

/-- A line of the banner is written as a comment, and is one if it leaves no code behind the line
terminators in it. -/
theorem onlyComments_bannerLine (line : String) (rest : List Char) :
    onlyComments false (("// " ++ line ++ "\n").toList ++ rest) =
      (onlyComments true line.toList && onlyComments false rest) := by
  have opening : "// ".toList = ['/', '/', ' '] := rfl
  have ending : "\n".toList = ['\n'] := rfl
  simp only [String.toList_append, opening, ending, List.append_assoc, List.cons_append,
    List.nil_append]
  have opens : onlyComments false ('/' :: '/' :: ' ' :: (line.toList ++ '\n' :: rest)) =
      onlyComments true (line.toList ++ '\n' :: rest) := by
    simp [onlyComments, isLineTerminator, beginsComment]
  rw [opens, onlyComments_append]

theorem onlyComments_bannerLines (lines : List String) (rest : List Char) :
    onlyComments false ((String.join (lines.map fun line => "// " ++ line ++ "\n")).toList ++ rest) =
      (lines.all (fun line => onlyComments true line.toList) && onlyComments false rest) := by
  induction lines with
  | nil => simp
  | cons line lines ih =>
    rw [List.map_cons, String.join_cons, String.toList_append, List.append_assoc,
      onlyComments_bannerLine, ih, List.all_cons, Bool.and_assoc]

/-- The text of a banner is nothing but comments exactly where all its lines are. -/
theorem onlyComments_bannerText (generation : Generation) (banner : String) :
    onlyComments false ({ generation with banner := some banner } : Generation).bannerText.toList =
        true ↔ ∀ line ∈ Text.lines banner, IsCommentLine line.toList := by
  have ending : "\n".toList = ['\n'] := rfl
  simp only [bannerText, String.toList_append, onlyComments_bannerLines, ending]
  simp [onlyComments_iff, onlyComments, isLineTerminator]

/-- A banner changes neither whether code is generated nor its counts, and the code stands
unchanged behind the text of the banner. That text is nothing but comments and line ends exactly
where no line of the banner leaves code behind another line terminator. -/
theorem result?_banner (generation : Generation) (document : Document) (banner : String) :
    let plain : Generation := { generation with banner := none }
    let bannered : Generation := { generation with banner := some banner }
    bannered.result? document =
        (plain.result? document).map (fun generated =>
          { generated with code := bannered.bannerText ++ generated.code }) ∧
      (onlyComments false bannered.bannerText.toList = true ↔
        ∀ line ∈ Text.lines banner, IsCommentLine line.toList) := by
  refine ⟨?_, onlyComments_bannerText generation banner⟩
  have entries : ({ generation with banner := some banner } : Generation).entries? document =
      ({ generation with banner := none } : Generation).entries? document := rfl
  rw [result?, result?, entries]
  cases ({ generation with banner := none } : Generation).entries? document with
  | none => rfl
  | some entries =>
    dsimp only
    have root : ({ generation with banner := some banner } : Generation).definesRoot entries =
        ({ generation with banner := none } : Generation).definesRoot entries := rfl
    rw [root]
    split
    next => simp [bannerText]
    next => rfl

/-- A document whose root entry is an object. -/
def rootDocument : Document := .mapping [("context", .mapping [("type", .text "object")])]

/-- Settings for an input file with a carriage return in its name. -/
def returningSettings : Settings := { inputPath := "a\rb.json" }

/-- The name of an input file can put code in front of the generated code: what stands behind a lone
carriage return is on a line of its own. -/
theorem exists_banner_with_code :
    ¬ ∀ (settings : Settings) (document : Document) (bannered plain : Generated),
      settings.generation.result? document = some bannered →
      { settings with banner := false }.generation.result? document = some plain →
      ∃ front, bannered.code = front ++ plain.code ∧ onlyComments false front.toList = true := by
  intro always
  have bannered : returningSettings.generation.result? rootDocument =
      some ⟨"// Generated from a\rb.json - DO NOT EDIT\n\ncontext: object;\n", 0, 1⟩ := by
    decide +kernel
  have plain : { returningSettings with banner := false }.generation.result? rootDocument =
      some ⟨"context: object;\n", 0, 1⟩ := by
    decide +kernel
  obtain ⟨front, same, comments⟩ := always _ _ _ _ bannered plain
  have split : "// Generated from a\rb.json - DO NOT EDIT\n\n" ++ "context: object;\n" =
      front ++ "context: object;\n" := same
  obtain rfl := (String.append_left_inj _).mp split
  exact absurd comments (by decide)

end Generation

end SchemaInterfaces
