/-!
# Usage

The texts that explain the command line, as they stand on a terminal of eighty columns.
-/

set_option autoImplicit false

namespace Reckoner.CommandLine

def programName : String := "calc"

/-- Lines of text, each with its line break. -/
def unlines (lines : List String) : String :=
  String.join (lines.map (· ++ "\n"))

def usage : String :=
  unlines
    ["usage: " ++ programName ++
        " [-h] [--precision PRECISION] [--result-precision RESULT_PRECISION]",
      "            [--degree] [--verbose] [--json]",
      "            [expressions ...]"]

def help : String :=
  usage ++ unlines
    ["",
      "Evaluate arithmetic expressions. Reads one expression per line from stdin when",
      "none are given.",
      "",
      "positional arguments:",
      "  expressions           Expressions evaluated in order against shared",
      "                        variables",
      "",
      "options:",
      "  -h, --help            show this help message and exit",
      "  --precision PRECISION",
      "                        Decimals each operand is rounded to (-1 disables)",
      "  --result-precision RESULT_PRECISION",
      "                        Decimals the final result is rounded to (-1 disables)",
      "  --degree              Interpret trigonometric angles in degrees",
      "  --verbose             Print the postfix form of every expression",
      "  --json                Print a JSON payload per expression"]

def complaint (message : String) : String :=
  usage ++ programName ++ ": error: " ++ message ++ "\n"

end Reckoner.CommandLine
