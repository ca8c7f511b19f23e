/-
This file compares two readings of a source under different limits of nesting.

The limit is asked only where a group is entered. So a reader with a limit and
one with a higher limit take the same steps up to the first opener that has as
many open groups around it as the lower limit allows, and there the lower limit
cuts off. `Lockstep` says this of two calls, and is carried over the tokens of a
value and over the values of a source.
-/

import Reckon.Proofs.Calls

namespace Reckon

/-! ### Where the limit is asked -/

namespace Reading

/-- The token opens a group where an operand is to come. -/
def Enters (reading : Reading) (token : Token) : Prop :=
  (∃ waiting, reading.stage = .operand waiting) ∧ ∃ bracket, token.kind = .opening bracket

section
variable {limit other : Int} {depth depth' : Nat} {reading further : Reading} {token : Token}

/-- A group is entered if there is room for it. -/
theorem step_of_enters (enters : reading.Enters token) (depth : Nat) :
    ∃ inside, ∀ limit : Int, reading.step limit depth token =
      if limit < depth + 1 then (depth + 1, .error ⟨.nestedTooDeeply limit, token⟩)
      else (depth + 1, .ok inside) := by
  obtain ⟨groups, stage⟩ := reading
  obtain ⟨⟨waiting, rfl⟩, bracket, opens⟩ := enters
  refine ⟨⟨⟨token, bracket, waiting⟩ :: groups, .operand []⟩, fun limit => ?_⟩
  have operand : readOperand limit depth groups waiting token =
      if limit < depth + 1 then (depth + 1, .error ⟨.nestedTooDeeply limit, token⟩)
      else (depth + 1, .ok ⟨⟨token, bracket, waiting⟩ :: groups, .operand []⟩) := by
    rw [readOperand, opens]
  rw [← operand]
  cases groups <;> cases waiting <;> simp [step, opens]

/-- Where no group is entered the limit makes no difference. -/
theorem step_of_not_enters (outside : ¬ reading.Enters token) :
    reading.step limit depth token = reading.step other depth token := by
  obtain ⟨groups, stage⟩ := reading
  have operand (groups : List OpenGroup) (waiting waiting' : Waiting)
      (isOperand : stage = .operand waiting') :
      readOperand limit depth groups waiting token =
        readOperand other depth groups waiting token := by
    unfold readOperand
    cases kind : token.kind with
    | opening bracket => exact absurd ⟨⟨waiting', isOperand⟩, bracket, kind⟩ outside
    | _ => rfl
  match groups, stage with
  | [], .operand [] | [], .operand (_ :: _) | _ :: _, .operand (_ :: _) =>
    exact operand _ _ _ rfl
  | group :: groups, .operand [] =>
    simp only [step, operand (group :: groups) [] [] rfl]
  | [], .operator _ _ | _ :: _, .operator _ _ => rfl

/-- The nesting is found too deep where a group is entered without room. -/
theorem enters_of_steps {error : ParseError} {found : Int}
    (steps : Steps limit depth token reading (depth', .error error))
    (nested : error.cause = .nestedTooDeeply found) :
    reading.Enters token ∧ limit ≤ depth := by
  cases steps with
  | nested opens full => exact ⟨⟨⟨_, rfl⟩, _, opens⟩, full⟩
  | empty _ | unclosed _ _ => simp at nested
  | noOperand _ _ _ => rcases cause_refuse .operandExpected token with same | same <;> simp_all
  | noOperator _ _ => rcases cause_refuse .operatorExpected token with same | same <;> simp_all

/-- Only where a group is entered can the nesting be found too deep. -/
theorem enters_of_nestedTooDeeply {found : Int} {named : Token}
    (refused : reading.step limit depth token = (depth', .error ⟨.nestedTooDeeply found, named⟩)) :
    reading.Enters token :=
  (enters_of_steps (steps_of_eq refused) rfl).1

/-- An opener that is read enters a group. -/
theorem enters_of_opening {bracket : Bracket} (opens : token.kind = .opening bracket)
    (taken : reading.step limit depth token = (depth', .ok further)) : reading.Enters token := by
  cases steps_of_eq taken with
  | number isNumber => simp [isNumber] at opens
  | opening _ _ => exact ⟨⟨_, rfl⟩, bracket, opens⟩
  | operator operates => simp [operates] at opens
  | closing closes => simp [closes] at opens

end

end Reading

/-! ### The groups that are entered -/

/-- A group that the reader enters: its opener, and how many groups are open around it. -/
structure Entry where
  opener : Token
  around : Nat

namespace Parser

/-- The group that the current token opens, if it opens one. -/
def entry (parser : Parser) (reading : Reading) : List Entry :=
  if parser.isGroupStart then [⟨parser.token, reading.groups.length⟩] else []

/-- The groups that are entered while a value is read, in the order of the source. -/
def entriesOfValue (parser : Parser) (reading : Reading) : List Entry :=
  match _ : reading.step parser.limit parser.depth parser.token with
  | (_, .error _) => []
  | (depth, .ok further) =>
    match further.result? parser.peek with
    | some _ => parser.entry reading
    | none => parser.entry reading ++ { parser with depth }.advance.entriesOfValue further
termination_by parser.remaining
decreasing_by
  refine remaining_advance_lt { parser with depth } fun finished => ?_
  rename_i outcome
  obtain ⟨_, _, refused⟩ := step_finish parser.limit parser.depth reading parser.token finished
  simp [refused] at outcome

/-- The groups that are entered up to the finish, or up to where the reader is stopped, in the order
of the source. -/
def entries (parser : Parser) : List Entry :=
  if parser.token.kind = .finish then []
  else
    parser.entriesOfValue parser.valueReading ++
      match _ : parser.readValue with
      | (.error _, _) => []
      | (.ok tree, rest) => { rest with last := some tree }.advance.entries
termination_by parser.remaining
decreasing_by
  rename_i outcome
  obtain ⟨notFinished, notMore⟩ := readValue_progress outcome
  exact Nat.lt_of_lt_of_le
    (remaining_advance_lt { rest with last := some tree } notFinished) notMore

section
variable {parser rest : Parser} {reading further : Reading} {depth : Nat}

theorem entriesOfValue_of_error {error : ParseError}
    (refused : reading.step parser.limit parser.depth parser.token = (depth, .error error)) :
    parser.entriesOfValue reading = [] := by
  rw [entriesOfValue]
  split
  · rfl
  · next taken => exact absurd (refused.symm.trans taken) (by simp)

theorem entriesOfValue_of_ok
    (taken : reading.step parser.limit parser.depth parser.token = (depth, .ok further)) :
    parser.entriesOfValue reading =
      match further.result? parser.peek with
      | some _ => parser.entry reading
      | none => parser.entry reading ++
        ({ parser with depth } : Parser).advance.entriesOfValue further := by
  rw [entriesOfValue]
  split
  · next refused => exact absurd (taken.symm.trans refused) (by simp)
  · next taken' =>
    obtain ⟨rfl, same⟩ := Prod.mk.inj (taken.symm.trans taken')
    obtain rfl := Except.ok.inj same
    rfl

theorem entries_of_finish (finished : parser.token.kind = .finish) : parser.entries = [] := by
  rw [entries, if_pos finished]

theorem entries_of_error (more : parser.token.kind ≠ .finish) {error : ParseError}
    (outcome : parser.readValue = (.error error, rest)) :
    parser.entries = parser.entriesOfValue parser.valueReading := by
  rw [entries, if_neg more]
  split
  · exact List.append_nil _
  · next outcome' => exact absurd (outcome.symm.trans outcome') (by simp)

theorem entries_of_ok (more : parser.token.kind ≠ .finish) {tree : Expression}
    (outcome : parser.readValue = (.ok tree, rest)) :
    parser.entries = parser.entriesOfValue parser.valueReading ++
      ({ rest with last := some tree } : Parser).advance.entries := by
  rw [entries, if_neg more]
  split
  · next outcome' => exact absurd (outcome.symm.trans outcome') (by simp)
  · next outcome' =>
    obtain ⟨same, rfl⟩ := Prod.mk.inj (outcome.symm.trans outcome')
    obtain rfl := Except.ok.inj same
    rfl

end

/-! ### The order of the source -/

section
variable {parser rest : Parser} {reading further : Reading} {depth : Nat}

/-- The current token is the only one that can be entered next. -/
theorem entry_sublist (parser : Parser) (reading : Reading) :
    ((parser.entry reading).map Entry.opener).Sublist [parser.token] := by
  rw [entry]
  split
  · exact List.Sublist.refl _
  · exact List.nil_sublist _

/-- The openers of the groups that are entered while a value is read stand in this order in front
of what is ahead then. -/
theorem entriesOfValue_sublist (parser : Parser) (reading : Reading) :
    ((parser.entriesOfValue reading).map Entry.opener).Sublist parser.upcoming ∧
      ∀ tree rest, parser.read reading = (.ok tree, rest) →
        ((parser.entriesOfValue reading).map Entry.opener ++ rest.advance.upcoming).Sublist
          parser.upcoming := by
  fun_induction read parser reading with
  | case1 parser reading depth error refused =>
    rw [entriesOfValue_of_error refused]
    exact ⟨List.nil_sublist _, by simp⟩
  | case2 parser reading depth further taken tree complete =>
    rw [entriesOfValue_of_ok taken, complete, upcoming_advance (kind_ne_finish_of_ok taken)]
    have first := entry_sublist parser reading
    refine ⟨first.trans (List.sublist_append_left [parser.token] _), ?_⟩
    intro other rest outcome
    obtain ⟨_, rfl⟩ := Prod.mk.inj outcome
    exact first.append (List.Sublist.refl _)
  | case3 parser reading depth further taken incomplete inductionHypothesis =>
    rw [entriesOfValue_of_ok taken, incomplete, upcoming_advance (kind_ne_finish_of_ok taken)]
    have first := entry_sublist parser reading
    obtain ⟨inOrder, behind⟩ := inductionHypothesis
    refine ⟨?_, fun tree rest outcome => ?_⟩
    · rw [List.map_append]
      exact first.append inOrder
    · rw [List.map_append, List.append_assoc]
      exact first.append (behind tree rest outcome)

/-- The groups that are entered are listed in the order of the source. -/
theorem entries_sublist (parser : Parser) :
    (parser.entries.map Entry.opener).Sublist parser.upcoming := by
  fun_induction readToFinish parser with
  | case1 parser finished =>
    rw [entries_of_finish finished]
    exact List.nil_sublist _
  | case2 parser more error rest outcome =>
    rw [entries_of_error more outcome]
    exact (parser.entriesOfValue_sublist _).1
  | case3 parser more tree rest outcome inductionHypothesis =>
    have inOrder := (parser.entriesOfValue_sublist _).2 tree rest
      (parser.readValue_eq_read.symm.trans outcome)
    rw [entries_of_ok more outcome, List.map_append]
    exact ((List.Sublist.refl _).append inductionHypothesis).trans inOrder

end

/-! ### Two limits -/

/-- The reader with another limit. -/
def under (parser : Parser) (limit : Int) : Parser :=
  { parser with limit }

/-- How a call comes out under a limit, when it is known what it comes to under a higher one and
which groups it enters then. Either it is the same, or it is cut off at the first group that has too
many around it. -/
inductive Lockstep {Answer : Type} (refused : ParseError → Answer) (limit : Nat)
    (entered : List Entry) (free limited : Answer × Parser) : Prop
  | same (fits : entered.find? (·.around == limit) = none)
    (answer : limited.1 = free.1) (rest : limited.2 = free.2.under limit)
    (shallow : ∀ found token, free.1 ≠ refused ⟨.nestedTooDeeply found, token⟩)
  | cut (first : Entry) (deep : entered.find? (·.around == limit) = some first)
    (answer : limited.1 = refused ⟨.nestedTooDeeply limit, first.opener⟩)

/-- What is entered before, within the limit, makes no difference. -/
theorem Lockstep.before {Answer : Type} {refused : ParseError → Answer} {limit : Nat}
    {entered : List Entry} {free limited : Answer × Parser}
    (lockstep : Lockstep refused limit entered free limited) {earlier : List Entry}
    (fit : earlier.find? (·.around == limit) = none) :
    Lockstep refused limit (earlier ++ entered) free limited := by
  have found : (earlier ++ entered).find? (·.around == limit) =
      entered.find? (·.around == limit) := by
    rw [List.find?_append, fit, Option.none_or]
  cases lockstep with
  | same fits answer rest shallow => exact .same (found.trans fits) answer rest shallow
  | cut first deep answer => exact .cut first (found.trans deep) answer

/-- Once a call is cut off, what would have been entered later makes no difference. -/
theorem find?_append_of_some {earlier later : List Entry} {limit : Nat} {first : Entry}
    (deep : earlier.find? (·.around == limit) = some first) :
    (earlier ++ later).find? (·.around == limit) = some first := by
  rw [List.find?_append, deep, Option.some_or]

/-- A token that is read under a limit is read under a lower one too, unless it opens a group that
has as many around it as the lower limit allows. -/
theorem step_lockstep {limit : Nat} {parser : Parser} {reading further : Reading} {depth : Nat}
    (below : (limit : Int) < parser.limit)
    (counted : Reading.Counted limit 0 reading parser.depth)
    (taken : reading.step parser.limit parser.depth parser.token = (depth, .ok further)) :
    (reading.step limit parser.depth parser.token =
        (parser.depth + 1, .error ⟨.nestedTooDeeply limit, parser.token⟩) ∧
      parser.entry reading = [⟨parser.token, limit⟩]) ∨
    (reading.step limit parser.depth parser.token = (depth, .ok further) ∧
      (parser.entry reading).find? (·.around == limit) = none) := by
  have around : reading.groups.length = parser.depth := by
    rw [counted.sum, Nat.zero_add]
  by_cases enters : reading.Enters parser.token
  · obtain ⟨inside, step⟩ := Reading.step_of_enters enters parser.depth
    have starts : parser.isGroupStart = true := (isGroupStart_iff parser).mpr enters.2
    rw [step] at taken
    rw [step, entry, if_pos starts, around]
    by_cases full : parser.depth = limit
    · rw [full, if_pos (by omega)]
      exact .inl ⟨rfl, rfl⟩
    · have bound := counted.bound
      rw [if_neg (by omega)] at taken
      rw [if_neg (by omega), taken]
      exact .inr ⟨rfl, by simp [full]⟩
  · refine .inr ⟨(Reading.step_of_not_enters enters).trans taken, ?_⟩
    have noGroup : ¬ parser.isGroupStart = true := by
      intro starts
      obtain ⟨bracket, opens⟩ := (isGroupStart_iff parser).mp starts
      exact enters (Reading.enters_of_opening opens taken)
    rw [entry, if_neg noGroup]
    rfl

/-- A group that has too many around it cuts the reading off, whatever comes later. -/
theorem read_cut {limit : Nat} {parser : Parser} {reading : Reading} {depth : Nat}
    (refused : reading.step limit parser.depth parser.token =
      (depth, .error ⟨.nestedTooDeeply limit, parser.token⟩))
    (entered : parser.entry reading = [⟨parser.token, limit⟩]) (later : List Entry)
    (free : Except ParseError Expression × Parser) :
    Lockstep .error limit (parser.entry reading ++ later) free
      ((parser.under limit).read reading) := by
  have limited : (parser.under limit).read reading =
      (.error ⟨.nestedTooDeeply limit, parser.token⟩, { parser.under limit with depth }) :=
    read_of_error refused
  rw [limited, entered]
  exact .cut ⟨parser.token, limit⟩ (by simp) rfl

/-- The induction follows the reader with the higher limit token by token, as long as no group has
too many around it. -/
theorem read_lockstep {limit : Nat} {parser : Parser} {reading : Reading}
    (below : (limit : Int) < parser.limit)
    (counted : Reading.Counted limit 0 reading parser.depth) :
    Lockstep .error limit (parser.entriesOfValue reading) (parser.read reading)
      ((parser.under limit).read reading) := by
  fun_induction read parser reading with
  | case1 parser reading depth error refused =>
    -- Within the lower limit there is room for a group, so it is none that is refused.
    have outside : ¬ reading.Enters parser.token := by
      intro enters
      obtain ⟨inside, step⟩ := Reading.step_of_enters enters parser.depth
      have bound := counted.bound
      rw [step, if_neg (by omega)] at refused
      simp at refused
    have limited : (parser.under limit).read reading =
        (.error error, { parser.under limit with depth }) :=
      read_of_error ((Reading.step_of_not_enters outside).trans refused)
    rw [limited, entriesOfValue_of_error refused]
    refine .same rfl rfl rfl fun found token same => outside ?_
    rw [Except.error.inj same] at refused
    exact Reading.enters_of_nestedTooDeeply refused
  | case2 parser reading depth further taken tree complete =>
    rw [entriesOfValue_of_ok taken, complete]
    rcases step_lockstep below counted taken with ⟨refused, entered⟩ | ⟨taken', fits⟩
    · rw [← List.append_nil (parser.entry reading)]
      exact read_cut refused entered [] _
    · have limited : (parser.under limit).read reading = _ := read_of_ok taken'
      rw [limited, show (parser.under limit).peek = parser.peek from rfl, complete]
      exact .same fits rfl rfl (by simp)
  | case3 parser reading depth further taken incomplete inductionHypothesis =>
    rw [entriesOfValue_of_ok taken, incomplete]
    rcases step_lockstep below counted taken with ⟨refused, entered⟩ | ⟨taken', fits⟩
    · exact read_cut refused entered _ _
    · have limited : (parser.under limit).read reading = _ := read_of_ok taken'
      rw [limited, show (parser.under limit).peek = parser.peek from rfl, incomplete]
      exact (inductionHypothesis below (Reading.step_ok counted taken').1).before fits

theorem readValue_lockstep {limit : Nat} {parser : Parser} (below : (limit : Int) < parser.limit)
    (closed : parser.depth = 0) :
    Lockstep .error limit (parser.entriesOfValue parser.valueReading) parser.readValue
      (parser.under limit).readValue := by
  rw [readValue_eq_read, readValue_eq_read]
  refine read_lockstep below ⟨?_, ?_⟩
  · rw [closed, groups_valueReading]
    rfl
  · rw [closed]
    exact Int.le_max_left _ _

/-- The induction follows the reader with the higher limit from value to value. -/
theorem readToFinish_lockstep {source : String} {index limit : Nat} {parser : Parser}
    (stands : parser.At source index) (below : (limit : Int) < parser.limit)
    (closed : parser.depth = 0) :
    Lockstep some limit parser.entries parser.readToFinish (parser.under limit).readToFinish := by
  fun_induction readToFinish parser generalizing index with
  | case1 parser finished =>
    have limited : (parser.under limit).readToFinish = (none, parser.under limit) :=
      readToFinish_of_finish finished
    rw [limited, entries_of_finish finished]
    exact .same rfl rfl rfl (by simp)
  | case2 parser more error rest outcome =>
    have more' : (parser.under limit).token.kind ≠ .finish := more
    have value := readValue_lockstep below closed
    rw [outcome] at value
    rw [entries_of_error more outcome]
    cases value with
    | same fits answer kept shallow =>
      have limited : (parser.under limit).readToFinish = (some error, rest.under limit) :=
        readToFinish_of_error more' (Prod.ext answer kept)
      rw [limited]
      exact .same fits rfl rfl fun found token same =>
        shallow found token (congrArg Except.error (Option.some.inj same))
    | cut first deep answer =>
      have limited : (parser.under limit).readToFinish = _ :=
        readToFinish_of_error more' (Prod.ext answer rfl)
      rw [limited]
      exact .cut first deep rfl
  | case3 parser more tree rest outcome inductionHypothesis =>
    have more' : (parser.under limit).token.kind ≠ .finish := more
    have value := readValue_lockstep below closed
    obtain ⟨further, _, effect⟩ := readValue_effect stands
    rw [outcome] at value effect
    have moved := effect.stands.advance_last (some tree)
    have below' : (limit : Int) < rest.limit := effect.limit ▸ below
    have closed' : rest.depth = 0 := (effect.returned tree rfl).trans closed
    rw [entries_of_ok more outcome]
    cases value with
    | same fits answer kept shallow =>
      -- The two readers still differ in their limit only, and go on behind the value.
      have value' : (parser.under limit).readValue = (.ok tree, rest.under limit) :=
        Prod.ext answer kept
      have limited : (parser.under limit).readToFinish =
          (({ rest with last := some tree } : Parser).advance.under limit).readToFinish :=
        readToFinish_of_ok more' value'
      rw [limited]
      exact (inductionHypothesis moved below' closed').before fits
    | cut first deep answer =>
      have limited : (parser.under limit).readToFinish = _ :=
        readToFinish_of_error more' (Prod.ext answer rfl)
      rw [limited]
      exact .cut first (find?_append_of_some deep) rfl

end Parser

/-! ### Enough room -/

/-- The token opens a group. -/
def Token.isOpener (token : Token) : Bool :=
  match token.kind with
  | .opening _ => true
  | _ => false

/-- How many openers a source has. -/
def openers (source : String) : Nat :=
  (words source).countP Token.isOpener

namespace Reading

section
variable {limit : Int} {reading further : Reading} {token : Token}

/-- Only an opener adds to the open groups. -/
theorem length_groups_next (taken : reading.next limit token = .ok further) :
    further.groups.length ≤ reading.groups.length + if token.isOpener then 1 else 0 := by
  rcases next_cases taken with ⟨_, steps⟩ | ⟨_, _, _, _, rfl, opens, steps⟩
  · cases steps with
    | number _ | operator _ => exact Nat.le_add_right _ _
    | opening opens _ => simp [Token.isOpener, opens]
    | closing _ => exact Nat.le_add_right_of_le (Nat.le_succ _)
  · cases steps with
    | number isNumber => simp [isNumber] at opens
    | opening _ _ => simp [Token.isOpener, opens]

/-- Only an opener without room is nested too deeply. -/
theorem next_ne_nestedTooDeeply
    (room : (reading.groups.length : Int) + (if token.isOpener then 1 else 0 : Nat) ≤ limit)
    (found : Int) (named : Token) :
    reading.next limit token ≠ .error ⟨.nestedTooDeeply found, named⟩ := by
  intro refused
  have full {bracket : Bracket} (opens : token.kind = .opening bracket) :
      (reading.groups.length : Int) + 1 ≤ limit := by
    simpa [Token.isOpener, opens] using room
  rcases next_cases refused with ⟨_, steps⟩ | ⟨_, _, bracket, _, rfl, opens, steps⟩
  · obtain ⟨⟨_, bracket, opens⟩, none⟩ := enters_of_steps steps rfl
    have room := full opens
    omega
  · obtain ⟨_, none⟩ := enters_of_steps steps rfl
    have room := full opens
    simp at room
    omega

/-- As many openers as fit cannot be nested too deeply. The induction is on the tokens ahead. -/
theorem run_ne_nestedTooDeeply {finish : Token} (ahead : List Token)
    (room : (reading.groups.length : Int) + ahead.countP Token.isOpener ≤ limit)
    (found : Int) (named : Token) :
    reading.run limit finish ahead ≠ .error ⟨.nestedTooDeeply found, named⟩ := by
  induction ahead generalizing reading with
  | nil =>
    rw [run]
    unfold close
    split <;> simp
  | cons token ahead inductionHypothesis =>
    rw [List.countP_cons] at room
    rw [run_cons]
    split
    · next error refused =>
      intro same
      obtain rfl := Except.error.inj same
      exact next_ne_nestedTooDeeply (by omega) found named refused
    · next further taken =>
      have grown := length_groups_next taken
      exact inductionHypothesis (by omega)

end

end Reading

/-! ### The whole input -/

namespace Parser

/-- At the finish the limit is not asked. -/
theorem answer_under (stopped : Option ParseError × Parser) (limit : Int) :
    answer (stopped.1, stopped.2.under limit) = answer stopped := by
  obtain ⟨_ | error, rest⟩ := stopped <;> rfl

theorem failure_of_nestedTooDeeply {stopped : Option ParseError × Parser} {found : Int}
    {token : Token} (failed : answer stopped = .error ⟨.nestedTooDeeply found, token⟩) :
    stopped.1 = some ⟨.nestedTooDeeply found, token⟩ := by
  obtain ⟨failure, rest⟩ := stopped
  cases failure with
  | some error => exact congrArg some (Except.error.inj failed)
  | none =>
    rw [answer] at failed
    cases last : rest.last <;>
      simp [last, Reading.resume, Reading.atOperand, Reading.after, Reading.close] at failed

end Parser

/-- The groups that are entered while a source is read. -/
def groupsEntered (source : String) (limit : Int) : List Entry :=
  (Parser.start source limit).entries

theorem groupsEntered_sublist (source : String) (limit : Int) :
    ((groupsEntered source limit).map Entry.opener).Sublist (tokens source) := by
  rw [← Parser.upcoming_start source limit]
  exact Parser.entries_sublist _

/-- Of the groups that are entered under a limit, the first that has so many groups around it. -/
def firstWithin (around : Nat) (source : String) (limit : Int) : Option Entry :=
  (groupsEntered source limit).find? (·.around == around)

/-- The parse under a limit keeps step with the one under a higher limit. -/
theorem parse_lockstep (source : String) {limit : Nat} {higher : Int}
    (below : (limit : Int) < higher) :
    (firstWithin limit source higher = none ∧ parse source limit = parse source higher ∧
      ∀ found token, parse source higher ≠ .error ⟨.nestedTooDeeply found, token⟩) ∨
    ∃ first, firstWithin limit source higher = some first ∧
      parse source limit = .error ⟨.nestedTooDeeply limit, first.opener⟩ := by
  have lockstep := Parser.readToFinish_lockstep (Parser.at_start source higher) below rfl
  rw [parse, parse, Parser.parse_outcome, Parser.parse_outcome,
    show Parser.start source limit = (Parser.start source higher).under limit from rfl]
  cases lockstep with
  | same fits answer rest shallow =>
    have limited : ((Parser.start source higher).under limit).readToFinish =
        ((Parser.start source higher).readToFinish.1,
          (Parser.start source higher).readToFinish.2.under limit) := Prod.ext answer rest
    rw [limited, Parser.answer_under]
    exact .inl ⟨fits, rfl, fun found token failed =>
      shallow found token (Parser.failure_of_nestedTooDeeply failed)⟩
  | cut first deep answer =>
    have limited : ((Parser.start source higher).under limit).readToFinish =
        (some ⟨.nestedTooDeeply limit, first.opener⟩, _) := Prod.ext answer rfl
    rw [limited]
    exact .inr ⟨first, deep, rfl⟩

/-- As many openers as the limit allows cannot be nested too deeply, however many operators there
are. -/
theorem parse_ne_nestedTooDeeply {source : String} {limit : Int} (room : openers source ≤ limit)
    (found : Int) (token : Token) :
    parse source limit ≠ .error ⟨.nestedTooDeeply found, token⟩ := by
  obtain ⟨finish, _, run⟩ := parse_eq_run source limit
  rw [run]
  refine Reading.run_ne_nestedTooDeeply (words source) ?_ found token
  exact (Int.zero_add _).trans_le room

/-- The limit of nesting cuts off and never alters. A source that is not cut off under a limit comes
to the same under any higher one. It is cut off if under a higher limit a group is entered that has
as many open groups around it as the limit allows, and at the first such opener, the groups being
listed in the order of the source. The higher limit may be one that nothing can reach, as is any
limit when a source has no more openers. -/
theorem parse_limit (source : String) (limit : Nat) :
    (∀ higher : Int, limit ≤ higher →
      (∀ found token, parse source limit ≠ .error ⟨.nestedTooDeeply found, token⟩) →
      parse source higher = parse source limit) ∧
    (∀ higher : Int, limit < higher → ∀ found token,
      parse source limit = .error ⟨.nestedTooDeeply found, token⟩ ↔
        found = limit ∧ (firstWithin limit source higher).map Entry.opener = some token) ∧
    (∀ higher : Int, ((groupsEntered source higher).map Entry.opener).Sublist (tokens source)) ∧
    (∀ unlimited : Int, openers source ≤ unlimited → ∀ found token,
      parse source unlimited ≠ .error ⟨.nestedTooDeeply found, token⟩) := by
  refine ⟨?_, ?_, groupsEntered_sublist source, fun unlimited room =>
    parse_ne_nestedTooDeeply room⟩
  · intro higher notBelow fits
    rcases Int.lt_or_eq_of_le notBelow with below | same
    · rcases parse_lockstep source below with ⟨_, same, _⟩ | ⟨first, _, cut⟩
      · exact same.symm
      · exact absurd cut (fits _ _)
    · rw [same]
  · intro higher below found token
    rcases parse_lockstep source below with ⟨none, same, shallow⟩ | ⟨first, deep, cut⟩
    · rw [same, none]
      exact ⟨fun failed => absurd failed (shallow found token), by simp⟩
    · rw [cut, deep]
      simp [eq_comm]

end Reckon
