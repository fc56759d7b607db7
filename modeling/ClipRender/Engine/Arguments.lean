set_option autoImplicit false

/-!
How the engine reads its arguments: the options of its input, the input, the options of its output
and the output. An option is for the file that it stands in front of, so the same option limits what
is read when it stands before the input, and what is written when it stands after it.
-/

namespace ClipRender.Engine

/-- Words that say all by themselves. Every other option has its value in the word behind it. -/
def switches : List String := ["-y", "-hide_banner", "-nostdin", "-nostats"]

def isOption (word : String) : Bool := word.toList.head? = some '-'

abbrev Options := List (String × String)

/-- Of an option that is given again the last value counts. -/
def Options.value? (options : Options) (name : String) : Option String :=
  options.reverse.lookup name

def readInput? : List String → Option (Options × String × List String)
  | name :: value :: rest =>
    if name ∈ switches then readInput? (value :: rest)
    else if name = "-i" then some ([], value, rest)
    else if isOption name then do
      let (options, source, rest) ← readInput? rest
      return ((name, value) :: options, source, rest)
    else none
  | _ => none

def readOutput? : List String → Option (Options × String)
  | [] => none
  | [target] => some ([], target)
  | name :: value :: rest =>
    if name ∈ switches then readOutput? (value :: rest)
    else if isOption name ∧ name ≠ "-i" then do
      let (options, target) ← readOutput? rest
      return ((name, value) :: options, target)
    else none

structure Invocation where
  program : String
  inputOptions : Options
  source : String
  outputOptions : Options
  target : String
deriving DecidableEq

def Invocation.read? : List String → Option Invocation
  | [] => none
  | program :: words => do
    let (inputOptions, source, words) ← readInput? words
    let (outputOptions, target) ← readOutput? words
    return ⟨program, inputOptions, source, outputOptions, target⟩

end ClipRender.Engine
