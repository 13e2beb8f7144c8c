import Reckoner.Calculator
import Reckoner.CommandLine.Invocation
import Reckoner.CommandLine.Usage
import Reckoner.Json.Printer
import Reckoner.Text.Case
import Reckoner.Text.Split

/-!
# Running the command line

The expressions of an invocation are evaluated one after the other by one calculator. Without
expressions they are read from the input, one on each line, up to a line that says to stop. Every
evaluation adds its answer to the output and its warnings to the diagnostics.
-/

set_option autoImplicit false

namespace Reckoner.CommandLine

open Text

/-- The words that end the input, in lower case. -/
def stopWords : List String := ["exit", "quit"]

def isStop (line : String) : Bool :=
  stopWords.contains (lowerCase line)

/-- The expressions on the lines of an input. Blank lines are skipped, and nothing is read after a
line that says to stop. -/
def expressionsOfInput (input : String) : List String :=
  let lines := (splitAtMark '\n' input.toList).map fun line => strip (String.ofList line)
  (lines.filter fun line => !line.isEmpty).takeWhile fun line => !isStop line

def answerLines (invocation : Invocation) (report : Report) : List String :=
  if invocation.json then [Json.text report.toJson]
  else
    (if invocation.verbose then ["postfix: " ++ String.intercalate " " report.postfixTexts]
      else []) ++ report.display.toList

/-- What evaluating expressions leaves behind: the output, the diagnostics, and the reason for which
it stopped before the end, if it did. -/
structure Transcript where
  output : String := ""
  diagnostics : String := ""
  failure : Option EvaluationFailure := none
  deriving Repr, DecidableEq

/-- The expressions evaluated one after the other. -/
def evaluateAll (invocation : Invocation) (calculator : Calculator) (random : RandomSource) :
    List String → Transcript
  | [] => {}
  | expression :: rest =>
    match calculator.evaluate random expression with
    | (.error failure, _, _) => { failure := some failure }
    | (.ok report, calculator, random) =>
      let later := evaluateAll invocation calculator random rest
      { later with
        output := unlines (answerLines invocation report) ++ later.output
        diagnostics := unlines report.warnings.messages ++ later.diagnostics }

/-- What running the program leaves behind: its output, its diagnostics, the complaint about its
command line, its exit code, and the reason for which an evaluation stopped it. -/
structure Outcome where
  output : String := ""
  diagnostics : String := ""
  complaint : String := ""
  exitCode : Nat := 0
  failure : Option EvaluationFailure := none
  deriving Repr, DecidableEq

def Outcome.refused (error : UsageError) : Outcome :=
  { complaint := CommandLine.complaint error.message, exitCode := 2 }

/-- The outcome of an invocation on an input, which is read only if there are no expressions. -/
def runInvocation (invocation : Invocation) (input : String) (random : RandomSource) : Outcome :=
  match invocation.settings with
  | .error error => .refused error
  | .ok settings =>
    let expressions :=
      if invocation.expressions.isEmpty then expressionsOfInput input else invocation.expressions
    let transcript := evaluateAll invocation { settings := settings } random expressions
    { output := transcript.output
      diagnostics := transcript.diagnostics
      failure := transcript.failure }

/-- Whether running the program with arguments reads its input: only if they ask for an evaluation
and hold no expression. -/
def readsInput (arguments : List String) : Bool :=
  match Request.ofTexts arguments with
  | .ok (.evaluate invocation) => invocation.expressions.isEmpty
  | _ => false

def run (arguments : List String) (input : String) (random : RandomSource) : Outcome :=
  match Request.ofTexts arguments with
  | .error error => .refused error
  | .ok .help => { output := help }
  | .ok (.evaluate invocation) => runInvocation invocation input random

end Reckoner.CommandLine
