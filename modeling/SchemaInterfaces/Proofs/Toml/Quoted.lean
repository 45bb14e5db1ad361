import SchemaInterfaces.Toml.Lexical
import SchemaInterfaces.Toml.Quoted

/-!
# Reading written strings back

Whatever text is written as a string, the reader finds it again and stops right behind the closing
quotes (`string?_quoted`). A character is read back from its escape or from itself. In a block the
reader takes quotes by whole runs; the writer never lets a run grow to three, so at most two stand
before the closing ones.
-/
namespace SchemaInterfaces.Toml

theorem consText_some (c : Char) (text rest : List Char) :
    consText c (some (text, rest)) = some (c :: text, rest) := rfl

/-! ### One character -/

theorem newline?_eq_none {c : Char} (noBreak : c ≠ '\n') (noReturn : c ≠ '\r')
    (rest : List Char) : newline? (c :: rest) = none := by
  simp [newline?, noBreak, noReturn]

theorem escape?_control (n : Nat) (control : n < 0x20 ∨ n = 0x7F) (tail : List Char) :
    escape? (['u', '0', '0', hexDigit (n / 16), hexDigit (n % 16)] ++ tail) =
      some (Char.ofNat n, tail) := by
  have digits : ∀ m < 0x80, hexValue? (hexDigit (m / 16)) = some (m / 16) ∧
      hexValue? (hexDigit (m % 16)) = some (m % 16) := by
    decide
  obtain ⟨high, low⟩ := digits n (by omega)
  have zero : hexValue? '0' = some 0 := by decide
  have code : ((0 * 16 + 0) * 16 + n / 16) * 16 + n % 16 = n := by omega
  change hexCharacter? 0 4 (['0', '0', hexDigit (n / 16), hexDigit (n % 16)] ++ tail) = _
  simp only [List.cons_append, List.nil_append, hexCharacter?, zero, high, low, Option.bind_some,
    Nat.zero_mul, Nat.zero_add]
  rw [if_neg (by omega)]
  congr 3
  omega

/-- What is written for a character: an escape that means it and is no line end, or the character
itself. -/
theorem escape_cases (c : Char) (_noBreak : c ≠ '\n') :
    (∃ code, escape c = '\\' :: code ∧
      ∀ tail, escape? (code ++ tail) = some (c, tail) ∧ continuedLine? (code ++ tail) = none) ∨
    (escape c = [c] ∧ c ≠ '\\' ∧ c ≠ '\r' ∧ isPlain c = true) := by
  fun_cases escape c
  case case1 h => exact .inl ⟨['b'], rfl, fun tail => ⟨by rw [h]; rfl, rfl⟩⟩
  case case2 h => exact .inl ⟨['t'], rfl, fun tail => ⟨by rw [h]; rfl, rfl⟩⟩
  case case3 h => exact .inl ⟨['f'], rfl, fun tail => ⟨by rw [h]; rfl, rfl⟩⟩
  case case4 h => exact .inl ⟨['r'], rfl, fun tail => ⟨by rw [h]; rfl, rfl⟩⟩
  case case5 h => exact .inl ⟨['\\'], rfl, fun tail => ⟨by rw [h]; rfl, rfl⟩⟩
  case case6 control =>
    have number : c.toNat < 0x20 ∨ c.toNat = 0x7F := by simpa using control
    refine .inl ⟨_, rfl, fun tail => ⟨?_, rfl⟩⟩
    rw [escape?_control c.toNat number, Char.ofNat_toNat]
  case case7 tab _ carriage backslash control =>
    refine .inr ⟨rfl, backslash, carriage, ?_⟩
    simp only [Bool.or_eq_true, decide_eq_true_eq, beq_iff_eq, not_or] at control
    simp [isPlain, control.2, Nat.le_of_not_lt control.1]

theorem length_escape_pos (c : Char) : 0 < (escape c).length := by
  fun_cases escape c <;> exact Nat.zero_lt_succ _

/-- What is written for a character begins with no quote, unless it is one. -/
theorem head?_escape (c : Char) (noBreak : c ≠ '\n') (noQuote : c ≠ '"') (tail : List Char) :
    (escape c ++ tail).head? ≠ some '"' := by
  obtain ⟨code, written, _⟩ | ⟨written, _⟩ := escape_cases c noBreak
  · simp [written]
  · simpa [written] using noQuote

/-! ### Strings on one line -/

theorem basicText_escape (c : Char) (noBreak : c ≠ '\n') (noQuote : c ≠ '"') (rounds : Nat)
    (tail : List Char) :
    basicText (rounds + 1) (escape c ++ tail) = consText c (basicText rounds tail) := by
  obtain ⟨code, written, means⟩ | ⟨written, noBackslash, _, plain⟩ := escape_cases c noBreak
  · rw [written, List.cons_append, basicText, (means tail).1]
    rfl
  · rw [written, List.singleton_append]
    rw [basicText.eq_5 _ _ _ noQuote noBackslash, if_pos plain]

theorem basicText_basicInside (text rest : List Char) :
    ∀ rounds, text.length < rounds →
      basicText rounds (basicInside text ++ '"' :: rest) = some (text, rest) := by
  induction text with
  | nil =>
    intro rounds enough
    obtain ⟨rounds, rfl⟩ := Nat.exists_eq_add_one_of_ne_zero (Nat.ne_zero_of_lt enough)
    rfl
  | cons c text ih =>
    intro rounds enough
    obtain ⟨rounds, rfl⟩ := Nat.exists_eq_add_one_of_ne_zero (Nat.ne_zero_of_lt enough)
    have read := ih rounds (Nat.lt_of_succ_lt_succ enough)
    rw [basicInside, List.flatMap_cons, List.append_assoc, ← basicInside]
    split
    next line => rw [← consText_some, ← read, line]; rfl
    next noBreak =>
      split
      next quote => rw [← consText_some, ← read, quote]; rfl
      next noQuote => rw [basicText_escape c noBreak noQuote, read, consText_some]

theorem isPlain_of_isControl {c : Char} (noControl : isControl c = false) (noBreak : c ≠ '\n') :
    isPlain c = true := by
  simp only [isControl, isPlain] at noControl ⊢
  by_cases tab : c = '\t'
  · simp [tab]
  · simp_all

/-- A string that begins with a quote is empty, so no third quote follows. -/
theorem basicInside_ne {text rest : List Char} (other : rest.head? ≠ some '"') (more : List Char) :
    basicInside text ++ '"' :: rest ≠ '"' :: '"' :: more := by
  intro same
  cases text with
  | nil =>
    rw [basicInside, List.flatMap_nil, List.nil_append, List.cons.injEq] at same
    exact other (by rw [same.2]; rfl)
  | cons c text =>
    rw [basicInside, List.flatMap_cons, List.append_assoc] at same
    split at same
    next => cases same
    next noBreak =>
      split at same
      next => cases same
      next noQuote => exact head?_escape c noBreak noQuote _ (by rw [same]; rfl)

theorem length_le_basicInside (text : List Char) : text.length ≤ (basicInside text).length := by
  induction text with
  | nil => exact Nat.le_refl _
  | cons c text ih =>
    rw [basicInside, List.flatMap_cons, ← basicInside, List.length_append, List.length_cons]
    have written : 0 < (if c = '\n' then ['\\', 'n'] else if c = '"' then ['\\', '"'] else
        escape c).length := by
      split
      · decide
      · split
        · decide
        · exact length_escape_pos c
    omega

theorem literalText_append {text : List Char} (plain : ∀ c ∈ text, c ≠ '\'' ∧ isPlain c = true)
    (rest : List Char) : literalText (text ++ '\'' :: rest) = some (text, rest) := by
  induction text with
  | nil => rfl
  | cons c text ih =>
    obtain ⟨⟨noQuote, isPlain⟩, others⟩ := List.forall_mem_cons.mp plain
    rw [List.cons_append, literalText.eq_3 _ _ noQuote, if_pos isPlain, ih others, consText_some]

/-! ### Quotes in blocks -/

section

variable {quote : Char} {run : Nat} {tail rest : List Char}

theorem takeWhile_replicate (other : tail.head? ≠ some quote) :
    (List.replicate run quote ++ tail).takeWhile (· == quote) = List.replicate run quote := by
  rw [List.takeWhile_append_of_pos (by simp +contextual [List.mem_replicate])]
  cases tail with
  | nil => simp
  | cons c tail => simp [show c ≠ quote by simpa using other]

/-- Fewer than three quotes belong to the text. -/
theorem blockQuotes?_open (few : run < 3) (other : tail.head? ≠ some quote) :
    blockQuotes? quote (List.replicate run quote ++ tail) =
      some (false, List.replicate run quote, tail) := by
  simp [blockQuotes?, takeWhile_replicate other, few]

/-- Of more quotes the last three close the block. -/
theorem blockQuotes?_closed (few : run < 3) (other : rest.head? ≠ some quote) :
    blockQuotes? quote (List.replicate run quote ++ (List.replicate 3 quote ++ rest)) =
      some (true, List.replicate run quote, rest) := by
  have long : ¬ run + 3 < 3 := by omega
  have most : run + 3 ≤ 5 := by omega
  rw [← List.append_assoc, List.replicate_append_replicate]
  simp only [blockQuotes?, takeWhile_replicate other, List.length_replicate, if_neg long,
    if_pos most]
  congr 3
  · rw [List.take_append_of_le_length (by simp), List.take_replicate]
    congr 1
    omega
  · exact List.drop_left' (List.length_replicate ..)

end

/-! ### Basic blocks -/

/-- Quotes in front of what a block goes on with. -/
theorem basicBlock_quotes {run count : Nat} (few : run < 3) {tail text rest : List Char}
    (other : tail.head? ≠ some '"')
    (read : ∀ rounds, count < rounds → basicBlock rounds tail = some (text, rest)) :
    ∀ rounds, run + count < rounds → basicBlock rounds (List.replicate run '"' ++ tail) =
      some (List.replicate run '"' ++ text, rest) := by
  intro rounds enough
  cases run with
  | zero => exact read rounds (by omega)
  | succ run =>
    obtain ⟨rounds, rfl⟩ := Nat.exists_eq_add_one_of_ne_zero (Nat.ne_zero_of_lt enough)
    have quotes := blockQuotes?_open few other
    rw [List.replicate_succ, List.cons_append] at quotes ⊢
    simp only [basicBlock, quotes, read rounds (by omega), Option.map_some]

theorem basicBlock_escape (c : Char) (noBreak : c ≠ '\n') (noQuote : c ≠ '"') (rounds : Nat)
    (tail : List Char) :
    basicBlock (rounds + 1) (escape c ++ tail) = consText c (basicBlock rounds tail) := by
  obtain ⟨code, written, means⟩ | ⟨written, noBackslash, noReturn, plain⟩ := escape_cases c noBreak
  · rw [written, List.cons_append, basicBlock]
    simp only [(means tail).1, (means tail).2]
    rfl
  · rw [written, List.singleton_append, basicBlock.eq_5 _ _ _ noQuote noBackslash,
      newline?_eq_none noBreak noReturn]
    exact if_pos plain

theorem basicBlock_blockInside {rest : List Char} (other : rest.head? ≠ some '"')
    (text : List Char) : ∀ run < 3, ∀ rounds, run + text.length < rounds →
      basicBlock rounds (List.replicate run '"' ++
          (blockInside run text ++ (List.replicate 3 '"' ++ rest))) =
        some (List.replicate run '"' ++ text, rest) := by
  induction text with
  | nil =>
    intro run few rounds enough
    obtain ⟨rounds, rfl⟩ := Nat.exists_eq_add_one_of_ne_zero (Nat.ne_zero_of_lt enough)
    have quotes := blockQuotes?_closed few other
    obtain ⟨more, spelled⟩ : ∃ more, List.replicate run '"' ++ (List.replicate 3 '"' ++ rest) =
        '"' :: more := by
      cases run <;> exact ⟨_, rfl⟩
    rw [blockInside, List.nil_append]
    rw [spelled] at quotes ⊢
    simp only [basicBlock, quotes, List.append_nil]
  | cons c text ih =>
    intro run few rounds enough
    rw [List.length_cons] at enough
    by_cases quote : c = '"'
    · subst quote
      rw [blockInside, if_pos rfl]
      split
      next full =>
        -- The third quote is escaped, which ends the run.
        have read (rounds : Nat) (enough : text.length + 1 < rounds) :
            basicBlock rounds (['\\', '"'] ++ (blockInside 0 text ++
              (List.replicate 3 '"' ++ rest))) = some ('"' :: text, rest) := by
          obtain ⟨rounds, rfl⟩ := Nat.exists_eq_add_one_of_ne_zero (Nat.ne_zero_of_lt enough)
          have further := ih 0 (by decide) rounds (by omega)
          rw [List.replicate_zero, List.nil_append, List.nil_append] at further
          rw [← consText_some, ← further]
          rfl
        exact basicBlock_quotes few (by simp) read rounds enough
      next room =>
        have read := ih (run + 1) (by omega) rounds (by omega)
        rw [List.replicate_succ', List.append_assoc, List.append_assoc] at read
        exact read
    · -- Any other character ends the run.
      have further (rounds : Nat) (enough : text.length < rounds) :
          basicBlock rounds (blockInside 0 text ++ (List.replicate 3 '"' ++ rest)) =
            some (text, rest) := by
        simpa using ih 0 (by decide) rounds (by omega)
      rw [blockInside, if_neg quote]
      split
      next line =>
        have read (rounds : Nat) (enough : text.length + 1 < rounds) :
            basicBlock rounds ('\n' :: blockInside 0 text ++ (List.replicate 3 '"' ++ rest)) =
              some (c :: text, rest) := by
          obtain ⟨rounds, rfl⟩ := Nat.exists_eq_add_one_of_ne_zero (Nat.ne_zero_of_lt enough)
          rw [← consText_some, ← further rounds (by omega), line]
          rfl
        exact basicBlock_quotes few (by simp) read rounds enough
      next noBreak =>
        have read (rounds : Nat) (enough : text.length + 1 < rounds) :
            basicBlock rounds (escape c ++ (blockInside 0 text ++
              (List.replicate 3 '"' ++ rest))) = some (c :: text, rest) := by
          obtain ⟨rounds, rfl⟩ := Nat.exists_eq_add_one_of_ne_zero (Nat.ne_zero_of_lt enough)
          rw [basicBlock_escape c noBreak quote, further rounds (by omega), consText_some]
        rw [List.append_assoc]
        exact basicBlock_quotes few (head?_escape c noBreak quote _) read rounds enough

theorem length_le_blockInside (text : List Char) :
    ∀ run, text.length ≤ (blockInside run text).length := by
  induction text with
  | nil => exact fun _ => Nat.le_refl _
  | cons c text ih =>
    intro run
    have written := length_escape_pos c
    have further := ih 0
    have more := ih (run + 1)
    rw [blockInside]
    split
    · split <;> simp only [List.length_cons] <;> omega
    · split
      · simp only [List.length_cons]
        omega
      · simp only [List.length_cons, List.length_append]
        omega

/-! ### Literal blocks -/

theorem literalBlock_quotes {run count : Nat} (few : run < 3) {tail text rest : List Char}
    (other : tail.head? ≠ some '\'')
    (read : ∀ rounds, count < rounds → literalBlock rounds tail = some (text, rest)) :
    ∀ rounds, run + count < rounds → literalBlock rounds (List.replicate run '\'' ++ tail) =
      some (List.replicate run '\'' ++ text, rest) := by
  intro rounds enough
  cases run with
  | zero => exact read rounds (by omega)
  | succ run =>
    obtain ⟨rounds, rfl⟩ := Nat.exists_eq_add_one_of_ne_zero (Nat.ne_zero_of_lt enough)
    have quotes := blockQuotes?_open few other
    rw [List.replicate_succ, List.cons_append] at quotes ⊢
    simp only [literalBlock, quotes, read rounds (by omega), Option.map_some]

/-- A character that a literal block can hold. -/
theorem literalBlock_cons {c : Char} (noQuote : c ≠ '\'') (noControl : isControl c = false)
    (rounds : Nat) (tail : List Char) :
    literalBlock (rounds + 1) (c :: tail) = consText c (literalBlock rounds tail) := by
  rw [literalBlock.eq_4 _ _ _ noQuote]
  by_cases line : c = '\n'
  · rw [line]
    rfl
  · have noReturn : c ≠ '\r' := by
      rintro rfl
      exact absurd noControl (by decide)
    rw [newline?_eq_none line noReturn]
    exact if_pos (isPlain_of_isControl noControl line)

theorem hasRun_cons {quote c : Char} {text : List Char} (noRun : hasRun quote (c :: text) = false) :
    hasRun quote text = false :=
  (Bool.or_eq_false_iff.mp noRun).2

theorem hasRun_of_append {quote : Char} {front text : List Char}
    (noRun : hasRun quote (front ++ text) = false) : hasRun quote text = false := by
  induction front with
  | nil => exact noRun
  | cons c front ih => exact ih (hasRun_cons noRun)

theorem literalBlock_append {rest : List Char} (other : rest.head? ≠ some '\'')
    (text : List Char) (noControl : ∀ c ∈ text, isControl c = false) :
    ∀ run < 3, hasRun '\'' (List.replicate run '\'' ++ text) = false →
      ∀ rounds, run + text.length < rounds →
        literalBlock rounds (List.replicate run '\'' ++
            (text ++ (List.replicate 3 '\'' ++ rest))) =
          some (List.replicate run '\'' ++ text, rest) := by
  induction text with
  | nil =>
    intro run few _ rounds enough
    obtain ⟨rounds, rfl⟩ := Nat.exists_eq_add_one_of_ne_zero (Nat.ne_zero_of_lt enough)
    have quotes := blockQuotes?_closed few other
    obtain ⟨more, spelled⟩ : ∃ more, List.replicate run '\'' ++ (List.replicate 3 '\'' ++ rest) =
        '\'' :: more := by
      cases run <;> exact ⟨_, rfl⟩
    rw [List.nil_append]
    rw [spelled] at quotes ⊢
    simp only [literalBlock, quotes, List.append_nil]
  | cons c text ih =>
    intro run few noRun rounds enough
    obtain ⟨here, others⟩ := List.forall_mem_cons.mp noControl
    rw [List.length_cons] at enough
    by_cases quote : c = '\''
    · subst quote
      have longer : List.replicate run '\'' ++ '\'' :: text =
          List.replicate (run + 1) '\'' ++ text := by
        rw [List.replicate_succ', List.append_assoc]
        rfl
      have room : run ≠ 2 := by
        rintro rfl
        simp [hasRun] at noRun
      have read := ih others (run + 1) (by omega) (longer ▸ noRun) rounds (by omega)
      rw [List.replicate_succ', List.append_assoc, List.append_assoc] at read
      exact read
    · have read (rounds : Nat) (enough : text.length + 1 < rounds) :
          literalBlock rounds (c :: (text ++ (List.replicate 3 '\'' ++ rest))) =
            some (c :: text, rest) := by
        obtain ⟨rounds, rfl⟩ := Nat.exists_eq_add_one_of_ne_zero (Nat.ne_zero_of_lt enough)
        have noRun := hasRun_cons (hasRun_of_append noRun)
        have further := ih others 0 (by decide) noRun rounds (by omega)
        rw [List.replicate_zero, List.nil_append, List.nil_append] at further
        rw [literalBlock_cons quote here, further, consText_some]
      exact literalBlock_quotes few (by simpa using quote) read rounds enough

/-! ### Strings in any style -/

/-- The first line break of a block is the one that the writer puts there. -/
theorem dropFirstBreak_firstBreak {text inside : List Char}
    (same : text.contains '\n' = false → newline? inside = none) :
    dropFirstBreak (firstBreak text ++ inside) = inside := by
  rw [firstBreak]
  split
  next => rfl
  next noBreak =>
    rw [List.nil_append, dropFirstBreak, same (by simpa using noBreak)]
    rfl

theorem newline?_blockInside {text : List Char} (noBreak : text.contains '\n' = false)
    (rest : List Char) : newline? (blockInside 0 text ++ '"' :: rest) = none := by
  cases text with
  | nil => rfl
  | cons c text =>
    have line : c ≠ '\n' := by rintro rfl; simp at noBreak
    rw [blockInside]
    split
    · exact newline?_eq_none (by decide) (by decide) _
    · obtain ⟨code, written, _⟩ | ⟨written, _, noReturn, _⟩ := escape_cases c line
      · rw [written]
        exact newline?_eq_none (by decide) (by decide) _
      · rw [written]
        exact newline?_eq_none line noReturn _

theorem newline?_literal {text : List Char} (noBreak : text.contains '\n' = false)
    (noControl : ∀ c ∈ text, isControl c = false) (rest : List Char) :
    newline? (text ++ '\'' :: rest) = none := by
  cases text with
  | nil => rfl
  | cons c text =>
    refine newline?_eq_none ?_ ?_ _
    · rintro rfl
      simp at noBreak
    · rintro rfl
      exact absurd (noControl _ List.mem_cons_self) (by decide)

theorem styleOf_literal {text : List Char} (style : styleOf text = .literal) :
    ∀ c ∈ text, c ≠ '\'' ∧ isPlain c = true := by
  revert style
  fun_cases styleOf text
  case case2 hasControl hasBreak _ fits =>
    simp only [hasControl, hasBreak, Bool.and_eq_true, Bool.not_eq_true', List.any_eq_false,
      List.contains_eq_mem, decide_eq_false_iff_not] at fits
    obtain ⟨⟨noControl, noBreak⟩, noQuote⟩ := fits
    intro _ c member
    refine ⟨?_, isPlain_of_isControl (by simpa using noControl c member) ?_⟩
    · rintro rfl
      exact noQuote member
    · rintro rfl
      exact noBreak member
  all_goals
    intro style
    cases style

theorem styleOf_literalBlock {text : List Char} (style : styleOf text = .literalBlock) :
    (∀ c ∈ text, isControl c = false) ∧ hasRun '\'' text = false := by
  revert style
  fun_cases styleOf text
  case case4 hasControl hasBreak _ _ _ fits =>
    intro _
    simpa [hasControl] using fits
  all_goals
    intro style
    cases style

/-- What is written as a string is read back up to the closing quotes. -/
theorem string?_quoted (text : String) {rest : List Char} (noDouble : rest.head? ≠ some '"')
    (noSingle : rest.head? ≠ some '\'') :
    string? ((quoted text).toList ++ rest) = some (text.toList, rest) := by
  rw [quoted, String.toList_ofList]
  generalize text.toList = text
  cases style : styleOf text with
  | basic =>
    have single (more : List Char) : basicInside text ++ '"' :: rest ≠ '"' :: '"' :: more :=
      basicInside_ne noDouble more
    simp only [List.cons_append, List.append_assoc, List.nil_append]
    rw [string?.eq_2 _ single, basicText_basicInside]
    have long := length_le_basicInside text
    simp only [List.length_append, List.length_cons]
    omega
  | literal =>
    have plain := styleOf_literal style
    have single (more : List Char) : text ++ '\'' :: rest ≠ '\'' :: '\'' :: more := by
      cases text with
      | nil =>
        intro same
        rw [List.nil_append, List.cons.injEq] at same
        exact noSingle (by rw [same.2]; rfl)
      | cons c text =>
        intro same
        exact (plain c List.mem_cons_self).1 (List.cons.inj same).1
    simp only [List.cons_append, List.append_assoc, List.nil_append]
    rw [string?.eq_4 _ single, literalText_append plain]
  | basicBlock =>
    have long := length_le_blockInside text 0
    have read := basicBlock_blockInside noDouble text 0 (by decide)
    simp only [List.replicate_zero, List.nil_append] at read
    simp only [List.cons_append, List.append_assoc, List.nil_append]
    rw [string?, dropFirstBreak_firstBreak fun noBreak => newline?_blockInside noBreak _]
    refine read _ ?_
    simp only [List.length_append]
    omega
  | literalBlock =>
    obtain ⟨noControl, noRun⟩ := styleOf_literalBlock style
    have read := literalBlock_append noSingle text noControl 0 (by decide) noRun
    simp only [List.replicate_zero, List.nil_append] at read
    simp only [List.cons_append, List.append_assoc, List.nil_append]
    rw [string?, dropFirstBreak_firstBreak fun noBreak => newline?_literal noBreak noControl _]
    refine read _ ?_
    simp only [List.length_append]
    omega

end SchemaInterfaces.Toml
