/-
This file says which depths the environment can ask for. A blank text leaves
the default, a numeral of at least one gives its value, and any other text is
refused; the message has the value if there is one, and else the text.

A numeral (`Text.Whole`) is an optional sign and digits of any script, with no
more than one underscore between two of them. Nearly every blank may stand
around it. The exceptions are the four control characters that separate
records: a text of them alone is blank, but next to a numeral they spoil it.
-/

import Mathlib.Data.List.DropRight
import Mathlib.Data.Nat.Digits.Defs
import Reckon.Settings

namespace Reckon

namespace Text

/-! ### Margins -/

section
variable {isMargin : Char → Bool} {before core behind : List Char}

theorem trim_eq_rdropWhile (isMargin : Char → Bool) (text : List Char) :
    trim isMargin text = (text.dropWhile isMargin).rdropWhile isMargin :=
  rfl

/-- What trimming leaves of a text stands between margins. -/
theorem exists_trim (isMargin : Char → Bool) (text : List Char) :
    ∃ before behind, text = before ++ trim isMargin text ++ behind ∧
      (∀ char ∈ before, isMargin char = true) ∧ ∀ char ∈ behind, isMargin char = true := by
  refine ⟨text.takeWhile isMargin, (text.dropWhile isMargin).rtakeWhile isMargin, ?_,
    fun _ => List.mem_takeWhile_imp, fun _ => List.mem_rtakeWhile_imp⟩
  rw [trim_eq_rdropWhile, List.append_assoc, List.rdropWhile_append_rtakeWhile,
    List.takeWhile_append_dropWhile]

/-- Margins are all that trimming takes. -/
theorem trim_append (nonempty : core ≠ []) (solid : ∀ char ∈ core, isMargin char = false)
    (blankBefore : ∀ char ∈ before, isMargin char = true)
    (blankBehind : ∀ char ∈ behind, isMargin char = true) :
    trim isMargin (before ++ core ++ behind) = core := by
  have left : (core ++ behind).dropWhile isMargin = core ++ behind := by
    obtain ⟨first, others, rfl⟩ := List.exists_cons_of_ne_nil nonempty
    exact List.dropWhile_cons_of_neg (by simp [solid first (List.mem_cons_self ..)])
  have right : (core ++ behind).rdropWhile isMargin = core.rdropWhile isMargin := by
    rw [List.rdropWhile, List.reverse_append,
      List.dropWhile_append_of_pos fun char member => blankBehind char (List.mem_reverse.mp member),
      List.rdropWhile]
  rw [trim_eq_rdropWhile, List.append_assoc, List.dropWhile_append_of_pos blankBefore, left, right,
    List.rdropWhile_eq_self_iff]
  intro _
  simp [solid _ (List.getLast_mem nonempty)]

end

/-! ### Numerals -/

/-- A run of digits, and their values: digits of any script, with no more than one underscore
between two of them. -/
inductive DigitRun : List Char → List Nat → Prop
  | last {char : Char} {digit : Nat} (reads : decimalDigit? char = some digit) :
    DigitRun [char] [digit]
  | digit {char : Char} {digit : Nat} {run : List Char} {digits : List Nat}
    (reads : decimalDigit? char = some digit) (behind : DigitRun run digits) :
    DigitRun (char :: run) (digit :: digits)
  | underscore {char : Char} {digit : Nat} {run : List Char} {digits : List Nat}
    (reads : decimalDigit? char = some digit) (behind : DigitRun run digits) :
    DigitRun (char :: '_' :: run) (digit :: digits)

/-- What digits denote, the digit that counts most first. -/
def valueOf (digits : List Nat) : Nat :=
  Nat.ofDigits 10 digits.reverse

/-- A numeral of a whole number. -/
inductive Whole : List Char → Int → Prop
  | unsigned {run : List Char} {digits : List Nat} (reads : DigitRun run digits)
    (short : digits.length ≤ 4300) : Whole run (valueOf digits)
  | plus {run : List Char} {digits : List Nat} (reads : DigitRun run digits)
    (short : digits.length ≤ 4300) : Whole ('+' :: run) (valueOf digits)
  | minus {run : List Char} {digits : List Nat} (reads : DigitRun run digits)
    (short : digits.length ≤ 4300) : Whole ('-' :: run) (-valueOf digits)

/-- A text is a numeral of a number, but for margins. -/
def Spells (isMargin : Char → Bool) (text : List Char) (value : Int) : Prop :=
  ∃ before numeral behind, text = before ++ numeral ++ behind ∧ Whole numeral value ∧
    (∀ char ∈ before, isMargin char = true) ∧ ∀ char ∈ behind, isMargin char = true

section
variable {char : Char} {digit : Nat} {run numeral : List Char} {digits : List Nat} {value : Int}

/-! ### Characters of numerals -/

theorem isBlank_of_decimalDigit? (reads : decimalDigit? char = some digit) :
    isBlank char = false := by
  have apart : ∀ code ∈ blanks, ∀ first ∈ zeros, ¬ (first ≤ code ∧ code < first + 10) := by
    decide +kernel
  obtain ⟨first, found, _⟩ := Option.map_eq_some_iff.mp reads
  have within : first ≤ char.toNat ∧ char.toNat < first + 10 := by
    simpa using List.find?_some found
  refine Bool.eq_false_iff.mpr fun blank => ?_
  exact apart _ (List.contains_iff_mem.mp blank) first (List.mem_of_find?_eq_some found) within

theorem DigitRun.ne_nil (reads : DigitRun run digits) : run ≠ [] := by
  cases reads <;> simp

/-- A run of digits begins with a digit. -/
theorem not_digitRun_of_none (notDigit : decimalDigit? char = none) :
    ¬ DigitRun (char :: run) digits := by
  intro reads
  cases reads <;> simp_all

theorem DigitRun.solid (reads : DigitRun run digits) : ∀ char ∈ run, isBlank char = false := by
  induction reads with
  | last reads => simpa using isBlank_of_decimalDigit? reads
  | digit reads _ inductionHypothesis =>
    exact List.forall_mem_cons.mpr ⟨isBlank_of_decimalDigit? reads, inductionHypothesis⟩
  | underscore reads _ inductionHypothesis =>
    exact List.forall_mem_cons.mpr ⟨isBlank_of_decimalDigit? reads,
      List.forall_mem_cons.mpr ⟨by decide, inductionHypothesis⟩⟩

theorem Whole.ne_nil (reads : Whole numeral value) : numeral ≠ [] := by
  cases reads with
  | unsigned reads _ => exact reads.ne_nil
  | plus _ _ => simp
  | minus _ _ => simp

theorem Whole.solid (reads : Whole numeral value) : ∀ char ∈ numeral, isBlank char = false := by
  cases reads with
  | unsigned reads _ => exact reads.solid
  | plus reads _ => exact List.forall_mem_cons.mpr ⟨by decide, reads.solid⟩
  | minus reads _ => exact List.forall_mem_cons.mpr ⟨by decide, reads.solid⟩

/-! ### Reading numerals -/

theorem digitRun?_eq_some_iff : digitRun? run = some digits ↔ DigitRun run digits := by
  constructor
  · intro reads
    fun_induction digitRun? run generalizing digits with
    | case1 => simp at reads
    | case2 char =>
      obtain ⟨digit, isDigit, rfl⟩ := Option.map_eq_some_iff.mp reads
      exact .last isDigit
    | case3 char rest inductionHypothesis =>
      obtain ⟨digit, isDigit, others, behind, rfl⟩ := by
        simpa [Option.bind_eq_some_iff] using reads
      exact .underscore isDigit (inductionHypothesis behind)
    | case4 char rest notLast notUnderscore inductionHypothesis =>
      obtain ⟨digit, isDigit, others, behind, rfl⟩ := by
        simpa [Option.bind_eq_some_iff] using reads
      exact .digit isDigit (inductionHypothesis behind)
  · intro reads
    induction reads with
    | last reads => simp [digitRun?, reads]
    | @digit char digit run digits reads behind inductionHypothesis =>
      -- What follows begins with a digit, so that no underscore can be meant.
      obtain ⟨first, others, rfl⟩ := List.exists_cons_of_ne_nil behind.ne_nil
      have notUnderscore : first ≠ '_' := by
        rintro rfl
        exact not_digitRun_of_none (by decide +kernel) behind
      rw [digitRun?, reads, inductionHypothesis]
      · rfl
      · simp
      · simpa using notUnderscore
    | underscore reads _ inductionHypothesis =>
      rw [digitRun?, reads, inductionHypothesis]
      rfl

theorem natural?_eq_some_iff {value : Nat} :
    natural? run = some value ↔
      ∃ digits, DigitRun run digits ∧ digits.length ≤ digitLimit ∧ valueOf digits = value := by
  have sum (digits : List Nat) :
      digits.foldl (fun sum digit => 10 * sum + digit) 0 = valueOf digits := by
    rw [valueOf, Nat.ofDigits_eq_foldr, List.foldr_reverse]
    simp only [Nat.cast_id, Nat.add_comm]
  simp [natural?, Option.bind_eq_some_iff, digitRun?_eq_some_iff, sum]

/-- What trimming leaves of a text is a numeral. -/
theorem integer?_eq_some_iff_whole {text : String} :
    integer? text = some value ↔ Whole (trim isIntegerMargin text.toList) value := by
  unfold integer?
  generalize trim isIntegerMargin text.toList = numeral
  constructor
  · intro reads
    split at reads <;> simp only [Option.map_eq_some_iff, Option.bind_eq_some_iff, Option.pure_def,
      Option.some.injEq, Option.bind_eq_bind] at reads
    · obtain ⟨_, ⟨_, isNatural, rfl⟩, rfl⟩ := reads
      obtain ⟨digits, reads, short, rfl⟩ := natural?_eq_some_iff.mp isNatural
      exact .minus reads short
    · obtain ⟨_, isNatural, rfl⟩ := reads
      obtain ⟨digits, reads, short, rfl⟩ := natural?_eq_some_iff.mp isNatural
      exact .plus reads short
    · obtain ⟨_, isNatural, rfl⟩ := reads
      obtain ⟨digits, reads, short, rfl⟩ := natural?_eq_some_iff.mp isNatural
      exact .unsigned reads short
  · have isNatural {run : List Char} {digits : List Nat} (reads : DigitRun run digits)
        (short : digits.length ≤ digitLimit) : natural? run = some (valueOf digits) :=
      natural?_eq_some_iff.mpr ⟨digits, reads, short, rfl⟩
    intro reads
    cases reads with
    | unsigned reads short =>
      split
      · exact absurd reads (not_digitRun_of_none (by decide +kernel))
      · exact absurd reads (not_digitRun_of_none (by decide +kernel))
      · simp [isNatural reads short]
    | plus reads short => simp [isNatural reads short]
    | minus reads short => simp [isNatural reads short]

theorem integer?_eq_some_iff {text : String} :
    integer? text = some value ↔ Spells isIntegerMargin text.toList value := by
  rw [integer?_eq_some_iff_whole]
  constructor
  · intro reads
    obtain ⟨before, behind, parts, margins⟩ := exists_trim isIntegerMargin text.toList
    exact ⟨before, _, behind, parts, reads, margins⟩
  · rintro ⟨before, numeral, behind, parts, reads, blankBefore, blankBehind⟩
    have solid : ∀ char ∈ numeral, isIntegerMargin char = false := by
      intro char member
      rw [isIntegerMargin, reads.solid char member, Bool.false_and]
    rwa [parts, trim_append reads.ne_nil solid blankBefore blankBehind]

end

example : integer? " +1_٦" = some 16 ∧ integer? "1__6" = none := by decide +kernel

/-! ### The text of a number -/

theorem decimalDigit?_of_isDigit {char : Char} (digit : char.isDigit = true) :
    decimalDigit? char = some (char.toNat - '0'.toNat) := by
  obtain ⟨low, high⟩ := Char.isDigit_iff_toNat.mp digit
  have first : zeros.find? (fun first => first ≤ char.toNat && char.toNat < first + 10) =
      some '0'.toNat :=
    List.find?_cons_of_pos (by simpa using ⟨low, Nat.lt_succ_of_le high⟩)
  rw [decimalDigit?, first, Option.map_some]

theorem digitRun_of_isDigit {run : List Char} (nonempty : run ≠ [])
    (digits : ∀ char ∈ run, char.isDigit = true) :
    DigitRun run (run.map fun char => char.toNat - '0'.toNat) := by
  induction run with
  | nil => exact absurd rfl nonempty
  | cons char run inductionHypothesis =>
    obtain ⟨digit, others⟩ := List.forall_mem_cons.mp digits
    cases run with
    | nil => exact .last (decimalDigit?_of_isDigit digit)
    | cons next run =>
      exact .digit (decimalDigit?_of_isDigit digit) (inductionHypothesis (by simp) others)

theorem digitRun_toDigits (number : Nat) :
    DigitRun (Nat.toDigits 10 number)
      ((Nat.toDigits 10 number).map fun char => char.toNat - '0'.toNat) :=
  digitRun_of_isDigit Nat.toDigits_ne_nil fun _ member =>
    Nat.isDigit_of_mem_toDigits (by decide) (by decide) member

theorem natural?_toDigits (number : Nat) :
    natural? (Nat.toDigits 10 number) =
      if (Nat.toDigits 10 number).length ≤ digitLimit then some number else none := by
  rw [natural?, digitRun?_eq_some_iff.mpr (digitRun_toDigits number)]
  simp only [Option.bind_eq_bind, Option.bind_some, List.length_map, List.foldl_map,
    ← Nat.ofDigitChars_eq_foldl, Nat.ofDigitChars_toDigits (show 1 < 10 by decide) (Nat.le_refl _)]
  rfl

/-- A number can be read from its text unless the text is too long. -/
theorem integer?_toString (number : Nat) :
    integer? (toString number) =
      if (toString number).length ≤ digitLimit then some (number : Int) else none := by
  have characters : (toString number).toList = Nat.toDigits 10 number := Nat.toList_repr
  have reads := digitRun_toDigits number
  have solid : ∀ char ∈ Nat.toDigits 10 number, isIntegerMargin char = false := by
    intro char member
    rw [isIntegerMargin, reads.solid char member, Bool.false_and]
  have bare : trim isIntegerMargin (Nat.toDigits 10 number) = Nat.toDigits 10 number := by
    simpa using trim_append reads.ne_nil solid (List.forall_mem_nil _) (List.forall_mem_nil _)
  rw [integer?, characters, bare, ← String.length_toList, characters]
  split
  · next same => exact absurd (same ▸ reads) (not_digitRun_of_none (by decide +kernel))
  · next same => exact absurd (same ▸ reads) (not_digitRun_of_none (by decide +kernel))
  · rw [natural?_toDigits]
    split <;> rfl

/-- A numeral has a character that is not blank. -/
theorem Spells.solid {isMargin : Char → Bool} {text : List Char} {value : Int}
    (spelled : Spells isMargin text value) : ∃ char ∈ text, isBlank char = false := by
  obtain ⟨before, numeral, behind, rfl, reads, _⟩ := spelled
  obtain ⟨first, others, rfl⟩ := List.exists_cons_of_ne_nil reads.ne_nil
  exact ⟨first, by simp, reads.solid first (List.mem_cons_self ..)⟩

end Text

/-! ### The depth in the settings -/

namespace Settings

variable {text : String} {value : Int}

theorem readMaxDepth_of_blank (blank : ∀ char ∈ text.toList, Text.isBlank char = true) :
    readMaxDepth text = .ok Parser.defaultLimit :=
  if_pos (List.all_eq_true.mpr blank)

theorem readMaxDepth_of_solid (solid : ∃ char ∈ text.toList, Text.isBlank char = false) :
    readMaxDepth text =
      match Text.integer? text with
      | none => .error (.notAnInteger text)
      | some value => if value < 1 then .error (.tooSmall value) else .ok value := by
  obtain ⟨char, member, solid⟩ := solid
  refine if_neg fun blank => ?_
  exact absurd (List.all_eq_true.mp blank char member) (Bool.eq_false_iff.mp solid)

theorem readMaxDepth_of_spells
    (spelled : Text.Spells Text.isIntegerMargin text.toList value) :
    readMaxDepth text = if value < 1 then .error (.tooSmall value) else .ok value := by
  rw [readMaxDepth_of_solid spelled.solid, Text.integer?_eq_some_iff.mpr spelled]

theorem readMaxDepth_of_not_spells (solid : ∃ char ∈ text.toList, Text.isBlank char = false)
    (notSpelled : ∀ value, ¬ Text.Spells Text.isIntegerMargin text.toList value) :
    readMaxDepth text = .error (.notAnInteger text) := by
  have noInteger : Text.integer? text = none :=
    Option.eq_none_iff_forall_ne_some.mpr fun value reads =>
      notSpelled value (Text.integer?_eq_some_iff.mp reads)
  rw [readMaxDepth_of_solid solid, noInteger]

theorem ofEnvironment_eq_map (text : String) (logLevel : Option String) :
    ofEnvironment ⟨some text, logLevel⟩ = (readMaxDepth text).map fun depth =>
      ⟨depth, Text.upper (logLevel.getD defaultLogLevel)⟩ := by
  simp only [ofEnvironment]
  cases readMaxDepth text <;> rfl

/-- What a text for the depth comes to. If it is blank the depth is the default. If it is a numeral
of one or more, but for blanks around it, the depth is its value, whichever way that is written. If
it is a numeral of less, the message has the value in plain decimals, and for any other text it has
the text. The blanks around a numeral are all but the four that separate records. -/
theorem ofEnvironment_depth (text : String) (logLevel : Option String) :
    ((∀ char ∈ text.toList, Text.isBlank char = true) →
      ofEnvironment ⟨some text, logLevel⟩ =
        .ok ⟨128, Text.upper (logLevel.getD defaultLogLevel)⟩) ∧
    (∀ value, 1 ≤ value → Text.Spells Text.isIntegerMargin text.toList value →
      ofEnvironment ⟨some text, logLevel⟩ =
        .ok ⟨value, Text.upper (logLevel.getD defaultLogLevel)⟩) ∧
    (∀ value < 1, Text.Spells Text.isIntegerMargin text.toList value →
      ∃ problem, ofEnvironment ⟨some text, logLevel⟩ = .error problem ∧
        problem.message = "NUMTREE_MAX_DEPTH must be at least 1, got " ++ toString value) ∧
    ((∃ char ∈ text.toList, Text.isBlank char = false) →
      (∀ value, ¬ Text.Spells Text.isIntegerMargin text.toList value) →
      ∃ problem, ofEnvironment ⟨some text, logLevel⟩ = .error problem ∧
        problem.message = "NUMTREE_MAX_DEPTH must be an integer, got " ++ Text.quoted text) := by
  rw [ofEnvironment_eq_map]
  refine ⟨?_, ?_, ?_, ?_⟩
  · intro blank
    rw [readMaxDepth_of_blank blank]
    rfl
  · intro value positive spelled
    rw [readMaxDepth_of_spells spelled, if_neg (Int.not_lt.mpr positive)]
    rfl
  · intro value less spelled
    rw [readMaxDepth_of_spells spelled, if_pos less]
    exact ⟨.tooSmall value, rfl, rfl⟩
  · intro solid notSpelled
    rw [readMaxDepth_of_not_spells solid notSpelled]
    exact ⟨.notAnInteger text, rfl, rfl⟩

/-- A numeral next to a separator is refused, though the separator is blank. -/
theorem not_depth_next_to_separator :
    Text.Spells Text.isBlank "\x1c5".toList 5 ∧
      ∀ settings, ofEnvironment ⟨some "\x1c5", none⟩ ≠ .ok settings := by
  have five : Text.Whole ['5'] (Text.valueOf [5]) :=
    .unsigned (.last (by decide +kernel)) (by decide)
  refine ⟨⟨['\x1c'], ['5'], [], by simp, five, List.forall_mem_singleton.mpr (by decide),
    by simp⟩, ?_⟩
  have refused : readMaxDepth "\x1c5" = .error (.notAnInteger "\x1c5") := by
    rw [readMaxDepth_of_solid ⟨'5', by simp, by decide⟩]
    have noInteger : Text.integer? "\x1c5" = none := by decide +kernel
    rw [noInteger]
  intro settings
  rw [ofEnvironment_eq_map, refused]
  simp [Except.map]

end Settings

end Reckon
