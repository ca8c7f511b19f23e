/-
This file holds tokens, the units an expression is read in: their kinds, and
what a token remembers of its source. The number that a number token stands
for is not stored; it is the value of the characters the token covers.
-/

import Reckon.Numeral
import Reckon.Operation
import Reckon.Spelling
import Reckon.Text.Quoted

namespace Reckon

/-! ### Kinds -/

/-- The three kinds of brackets that make a group. -/
inductive Bracket
  | round
  | square
  | curly
deriving DecidableEq

/-- The comparison signs. The reader of expressions has no use for them. -/
inductive Comparison
  | equal
  | less
  | greater
  | lessOrEqual
  | greaterOrEqual
  | similar
deriving DecidableEq

inductive Kind
  | illegal
  | finish
  | opening (bracket : Bracket)
  | closing (bracket : Bracket)
  | number
  | operator (operator : Operator)
  | comparison (comparison : Comparison)
deriving DecidableEq

/-- The character that ends a group. -/
def Bracket.closer : Bracket → Char
  | .round => ')'
  | .square => ']'
  | .curly => '\x7d'

namespace Kind

/-- The kind of a lexeme that is not a number. -/
def ofLexeme : List Char → Kind
  | ['('] => .opening .round
  | ['['] => .opening .square
  | ['\x7b'] => .opening .curly
  | [')'] => .closing .round
  | [']'] => .closing .square
  | ['\x7d'] => .closing .curly
  | ['+'] => .operator .sum
  | ['-'] => .operator .difference
  | ['*'] => .operator .product
  | ['/'] => .operator .quotient
  | ['='] => .comparison .equal
  | ['<'] => .comparison .less
  | ['>'] => .comparison .greater
  | ['<', '='] => .comparison .lessOrEqual
  | ['>', '='] => .comparison .greaterOrEqual
  | ['~'] => .comparison .similar
  | _ => .illegal

/-- The name under which a kind is shown. -/
def name : Kind → String
  | .illegal => "ILLEGAL"
  | .finish => "EOF"
  | .opening .round => "START_PAREN"
  | .opening .square => "START_BRACKET"
  | .opening .curly => "START_BRACE"
  | .closing .round => "END_PAREN"
  | .closing .square => "END_BRACKET"
  | .closing .curly => "END_BRACE"
  | .number => "NUMBER"
  | .operator .sum => "SUM"
  | .operator .difference => "SUB"
  | .operator .product => "MUL"
  | .operator .quotient => "DIV"
  | .comparison .equal => "EQUAL"
  | .comparison .less => "LESS_THAN"
  | .comparison .greater => "GREATER_THAN"
  | .comparison .lessOrEqual => "LESS_OR_EQUAL"
  | .comparison .greaterOrEqual => "GREATER_OR_EQUAL"
  | .comparison .similar => "SIMILAR"

end Kind

/-! ### Tokens -/

/-- A token: its kind, the characters it covers, how many characters come before it, and how
many of those end a line. -/
structure Token where
  kind : Kind
  text : List Char
  position : Nat
  line : Nat
deriving DecidableEq

namespace Token

/-- The number a number token stands for. -/
def value (token : Token) : Float :=
  Numeral.value token.text

/-- A token as messages name it. The finish covers nothing and has a name of its own. -/
def lexeme (token : Token) : String :=
  if token.kind = .finish then "EOF" else String.ofList token.text

/-- Whether two tokens are the same but for how their number is spelled. -/
def same (first second : Token) : Bool :=
  first.kind == second.kind && first.position == second.position && first.line == second.line &&
    (if first.kind = .number then first.value == second.value else first.text == second.text)

/-- The description of a token. -/
def describe (token : Token) : String :=
  let content :=
    match token.kind with
    | .finish => "None"
    | .number => Spelling.literal.write token.value
    | _ => Text.quoted (String.ofList token.text)
  "Token(" ++ token.kind.name ++ ", " ++ content ++ ", pos=" ++ toString token.position ++ ")"

end Token

end Reckon
