/-
This file says what a library that runs command line programs is given, and what
it promises.

A program is declared. It has an option of its own, a callback that comes before
everything else, and actions; an action has a name, perhaps an option, operands
of given kinds, and a callback. The library takes the arguments apart, takes
texts for values, calls the callbacks, and makes an exit code of how they end.

The library itself is a parameter. `Framework.Conforms` lists the part of its
documentation that the program relies on: what texts are taken for, and what
becomes of arguments whose operands stand behind two dashes. What it does with
other arguments, the request for help that it adds to every program, and the
colours it leaves out where nothing shows them have no part in it.
-/

import Reckon.Text.Integer

namespace Reckon.CommandLine

/-! ### Texts and values -/

/-- What the text of an operand or of an option is taken for. -/
inductive Kind
  | text
  | wholeFrom (least : Int)
  | oneOf (words : List String)

/-- The values of a kind. -/
abbrev Kind.Value : Kind → Type
  | .text | .oneOf _ => String
  | .wholeFrom _ => Int

/-- Values of some kinds, in order. -/
abbrev Values : List Kind → Type
  | [] => Unit
  | kind :: kinds => kind.Value × Values kinds

/-! ### Programs -/

/-- The name of an option: two dashes and something behind them, with no equals sign. -/
def IsOptionName (name : String) : Prop :=
  name.toList.take 2 = ['-', '-'] ∧ 2 < name.toList.length ∧ '=' ∉ name.toList

instance (name : String) : Decidable (IsOptionName name) :=
  inferInstanceAs (Decidable (_ ∧ _ ∧ _))

/-- An option that takes a value. -/
structure Flag where
  name : String
  kind : Kind
  /-- What counts where the option is not given. -/
  default? : Option kind.Value
  named : IsOptionName name

/-- What a callback gets for its option. -/
abbrev Picked : Option Flag → Type
  | none => Unit
  | some flag => Option flag.kind.Value

/-- How a callback ends: it returns, it asks for an exit code, or something else stops it. -/
inductive Ending (Result : Type)
  | returned (result : Result)
  | exited (code : Nat)
  | failed

/-- What a callback has printed when it ends, and how it ends. -/
structure Outcome (Result : Type) where
  ending : Ending Result
  stdout : String
  stderr : String

/-- One of the things that a program does. Its callback gets what that of the program returned. -/
structure Action (Context : Type) where
  name : String
  flag : Option Flag
  kinds : List Kind
  call : Context → Picked flag → Values kinds → Outcome Unit
  named : name.toList.head? ≠ some '-'

structure Program (Context : Type) where
  flag : Flag
  enter : Option flag.kind.Value → Outcome Context
  actions : List (Action Context)
  distinct : (actions.map Action.name).Nodup

/-! ### Libraries -/

/-- What a run leaves behind. -/
structure Output where
  exitCode : Nat
  stdout : String
  stderr : String
deriving DecidableEq

/-- A library that runs programs. -/
structure Framework where
  /-- The value that a text is taken for. -/
  convert : (kind : Kind) → String → Option kind.Value
  run : {Context : Type} → Program Context → List String → Output

namespace Framework

variable (framework : Framework)

/-- The values that texts are taken for, one text for each kind. -/
def values? : (kinds : List Kind) → List String → Option (Values kinds)
  | [], [] => some ()
  | kind :: kinds, text :: texts => do
    return (← framework.convert kind text, ← values? kinds texts)
  | _, _ => none

/-- Arguments that give an option its value: none, or its name and a text behind it. -/
inductive Picks : (flag : Option Flag) → List String → Picked flag → Prop
  | nothing : Picks none [] ()
  | default (flag : Flag) : Picks (some flag) [] flag.default?
  | given (flag : Flag) {text : String} {value : flag.kind.Value}
    (takes : framework.convert flag.kind text = some value) :
    Picks (some flag) [flag.name, text] (some value)

/-- Arguments that call an action: the option of the program, the name of the action, its option,
and its operands behind two dashes. -/
inductive Calls {Context : Type} (program : Program Context) (action : Action Context)
    (chosen : Option program.flag.kind.Value) (picked : Picked action.flag)
    (operands : List String) : List String → Prop
  | intro {before between : List String} (member : action ∈ program.actions)
    (first : framework.Picks (some program.flag) before chosen)
    (second : framework.Picks action.flag between picked) :
    Calls program action chosen picked operands
      (before ++ action.name :: (between ++ "--" :: operands))

end Framework

/-- The exit code that an ending comes to. -/
def Ending.exitCode? {Result : Type} : Ending Result → Option Nat
  | .returned _ => some 0
  | .exited code => some code
  | .failed => none

/-- What the documentation of a library promises. -/
structure Framework.Conforms (framework : Framework) : Prop where
  /-- A text is taken as it is. -/
  takesText : ∀ text, framework.convert .text text = some text
  /-- A whole number is read as numbers of free text are, and must not be too small. -/
  takesWhole : ∀ least text value, framework.convert (.wholeFrom least) text = some value ↔
    Text.integer? text = some value ∧ least ≤ value
  /-- Each of the words that may stand is taken as it is. -/
  takesWord : ∀ words, ∀ word ∈ words, framework.convert (.oneOf words) word = some word
  /-- What stands behind two dashes is an operand, whatever it looks like. The callback of the
  program comes first and that of the action gets what it returned, and their texts are printed
  in this order. A callback that returns ends the run with zero, and one that asks for an exit
  code with that. -/
  answers : ∀ {Context : Type} {program : Program Context} {action : Action Context}
    {chosen : Option program.flag.kind.Value} {picked : Picked action.flag}
    {operands arguments : List String} {context : Context} {values : Values action.kinds}
    {code : Nat},
    framework.Calls program action chosen picked operands arguments →
    (program.enter chosen).ending = .returned context →
    framework.values? action.kinds operands = some values →
    (action.call context picked values).ending.exitCode? = some code →
    framework.run program arguments =
      ⟨code, (program.enter chosen).stdout ++ (action.call context picked values).stdout,
        (program.enter chosen).stderr ++ (action.call context picked values).stderr⟩
  /-- Operands that are too few, too many, or not taken for values are an error of usage, which
  has the exit code two. It is found when the callback of the program has returned. -/
  misused : ∀ {Context : Type} {program : Program Context} {action : Action Context}
    {chosen : Option program.flag.kind.Value} {picked : Picked action.flag}
    {operands arguments : List String} {context : Context},
    framework.Calls program action chosen picked operands arguments →
    (program.enter chosen).ending = .returned context →
    framework.values? action.kinds operands = none →
    (framework.run program arguments).exitCode = 2

end Reckon.CommandLine
