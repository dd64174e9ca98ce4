import LoxLexer.Text.Line
import LoxLexer.Text.Quoted

namespace LoxLexer.CommandLine

open Text

inductive Switch
  | help
  | verbose
  | version
  deriving DecidableEq, Repr

namespace Switch

def spellings : List (List Char × Switch) :=
  [("-h".toList, .help),
    ("--help".toList, .help),
    ("-v".toList, .verbose),
    ("--verbose".toList, .verbose),
    ("--version".toList, .version)]

def ofSpelling? (text : List Char) : Option Switch := spellings.lookup text

def title : Switch → List Char
  | help => "-h/--help".toList
  | verbose => "-v/--verbose".toList
  | version => "--version".toList

end Switch

inductive UsageError
  | ambiguous (argument : List Char) (candidates : List (List Char))
  | ignoredArgument (switch : Switch) (argument : List Char)
  | unrecognized (arguments : List (List Char))
  deriving DecidableEq, Repr

def usageLine : List Char := "usage: loxscan [-h] [-v] [--version] [script ...]".toList

namespace UsageError

def message : UsageError → List Char
  | ambiguous argument candidates =>
    "ambiguous option: ".toList ++ argument ++ " could match ".toList ++
      List.intercalate ", ".toList candidates
  | ignoredArgument switch argument =>
    "argument ".toList ++ switch.title ++ ": ignored explicit argument ".toList ++
      quoted argument
  | unrecognized arguments => "unrecognized arguments: ".toList ++ List.intercalate [' '] arguments

def toText (e : UsageError) : List Char :=
  asLines [usageLine, "loxscan: error: ".toList ++ e.message]

end UsageError

def helpText : List Char :=
  asLine usageLine ++ asLines (helpLines.map String.toList)
where
  helpLines : List String :=
    ["",
      "Scan Lox source into tokens",
      "",
      "positional arguments:",
      "  script         Script to scan (omit for an interactive prompt)",
      "",
      "options:",
      "  -h, --help     show this help message and exit",
      "  -v, --verbose  Enable debug logging",
      "  --version      show program's version number and exit",
      "",
      "Examples:",
      "    loxscan                 # Interactive prompt",
      "    loxscan hello.lox       # Print the tokens of a script",
      "    loxscan -v hello.lox    # Same, with debug logging on stderr",
      "        "]

def version : String := "0.1.0"

def versionText : List Char := asLine ("loxscan ".toList ++ version.toList)

def misuseText : List Char := asLine "usage: loxscan [script]".toList

end LoxLexer.CommandLine
