/-
This file holds the arithmetic of the language: its four operators, and
operations in general, which a caller may also make up. An operation is known
by its symbol and its priority; its function is not compared.
-/

namespace Reckon

/-! ### Operations -/

/-- A function of two numbers, the symbol written between them, and how tightly it binds: of two
operations side by side, the one with the higher priority takes the operand between them. -/
structure Operation where
  symbol : String
  apply : Float → Float → Float
  priority : Int

namespace Operation

instance : BEq Operation where
  beq first second := first.symbol == second.symbol && first.priority == second.priority

theorem beq_self (operation : Operation) : (operation == operation) = true := by
  show (operation.symbol == operation.symbol && operation.priority == operation.priority) = true
  simp only [beq_self_eq_true, Bool.and_self]

/-- Two operands with the symbol between them. -/
def join (operation : Operation) (left right : String) : String :=
  left ++ (" " ++ operation.symbol ++ " " ++ right)

end Operation

/-! ### The four operators -/

inductive Operator
  | sum
  | difference
  | product
  | quotient
deriving DecidableEq

namespace Operator

/-- The operators in the order in which messages list them. -/
def all : List Operator := [.sum, .difference, .product, .quotient]

def symbol : Operator → String
  | .sum => "+"
  | .difference => "-"
  | .product => "*"
  | .quotient => "/"

/-- Products and quotients bind tighter than sums and differences. -/
def priority : Operator → Int
  | .sum | .difference => 0
  | .product | .quotient => 1

/-- The arithmetic of doubles. A quotient by zero is an infinity with the sign of both operands,
or no number when the dividend is zero too. -/
def apply : Operator → Float → Float → Float
  | .sum => (· + ·)
  | .difference => (· - ·)
  | .product => (· * ·)
  | .quotient => (· / ·)

/-- The operation an operator stands for. -/
def operation (operator : Operator) : Operation :=
  ⟨operator.symbol, operator.apply, operator.priority⟩

/-- The operator with a symbol. -/
def ofSymbol? (symbol : String) : Option Operator :=
  all.find? (·.symbol == symbol)

theorem ofSymbol?_symbol (operator : Operator) : ofSymbol? operator.symbol = some operator := by
  cases operator <;> rfl

theorem ofSymbol?_eq_some_iff {symbol : String} {operator : Operator} :
    ofSymbol? symbol = some operator ↔ symbol = operator.symbol := by
  constructor
  · intro found
    have same : operator.symbol = symbol := by simpa using List.find?_some found
    exact same.symm
  · rintro rfl
    exact ofSymbol?_symbol operator

end Operator

end Reckon
