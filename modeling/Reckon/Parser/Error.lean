/-
This file lists what can be wrong with an expression. Every error names the
token at which the reader gave up; only for an empty group is that the token
that opened the group.
-/

import Reckon.Token

namespace Reckon

namespace ParseError

inductive Cause
  | illegalToken
  | operatorExpected
  | operandExpected
  | notAGroup
  | unclosedGroup (bracket : Bracket)
  | emptyInput
  | emptyGroup
  | nestedTooDeeply (limit : Int)
deriving DecidableEq

end ParseError

structure ParseError where
  cause : ParseError.Cause
  token : Token
deriving DecidableEq

namespace ParseError

/-- What is wrong, without the place. -/
def detail (error : ParseError) : String :=
  match error.cause with
  | .illegalToken => "Illegal token '" ++ error.token.lexeme ++ "'"
  | .operatorExpected =>
    "Expected an operation (" ++ String.intercalate ", " (Operator.all.map Operator.symbol) ++
      "), got '" ++ error.token.lexeme ++ "'"
  | .operandExpected => "Expected a number, got '" ++ error.token.lexeme ++ "'"
  | .notAGroup => "Could not parse group, unknown symbol '" ++ error.token.lexeme ++ "'"
  | .unclosedGroup bracket =>
    "Expected '" ++ String.singleton bracket.closer ++ "' before end of input"
  | .emptyInput => "Could not parse input: result is empty"
  | .emptyGroup => "Could not parse group: result is empty"
  | .nestedTooDeeply limit => "Expression nests deeper than " ++ toString limit ++ " levels"

def message (error : ParseError) : String :=
  error.detail ++ " at position " ++ toString error.token.position

end ParseError

end Reckon
