import LoxLexer.CommandLine.Switch
import LoxLexer.Text.Classes
import LoxLexer.Text.ForeignDigit

/-! Arguments of the command line.

Each argument is first classified by itself, and an ambiguous one is refused before anything else
happens.  Then they are taken from left to right.  The scripts are the first unbroken run of
arguments that are not switches: what stands behind a later switch is left over. -/

namespace LoxLexer.CommandLine

open Text

inductive Spelling
  | short
  | long
  deriving DecidableEq, Repr

inductive Argument
  | positional (text : List Char)
  | separator
  | switch (s : Switch) (spelling : Spelling) (attached : Option (List Char))
  | unknown (text : List Char)
  deriving DecidableEq, Repr

def splitAttached (text : List Char) : List Char × Option (List Char) :=
  match text.dropWhile (· ≠ '=') with
  | [] => (text, none)
  | _ :: attached => (text.takeWhile (· ≠ '='), some attached)

def spellingOf : List Char → Spelling
  | '-' :: '-' :: _ => .long
  | _ => .short

/-- The switches that an abbreviation may stand for, with their full spelling.  A long spelling may
be cut short before its equals sign; behind a short one stands what is attached to it. -/
def candidates (text : List Char) : List (List Char × Argument) :=
  match text with
  | '-' :: '-' :: _ =>
    let (name, attached) := splitAttached text
    (Switch.spellings.filter fun p => name.isPrefixOf p.1).map fun p =>
      (p.1, .switch p.2 .long attached)
  | '-' :: c :: attached =>
    (Switch.spellings.filter fun p => p.1 = ['-', c]).map fun p =>
      (p.1, .switch p.2 .short (some attached))
  | _ => []

def isAnyDigit (c : Char) : Bool := c.isDigit || (foreignDigitValue? c).isSome

/-- A negative number, with or without a fraction, is a script and not a switch.  One newline may
follow it. -/
def isNegativeNumber : List Char → Bool
  | '-' :: text =>
    match text.dropWhile isAnyDigit with
    | '.' :: fraction =>
      fraction.takeWhile isAnyDigit ≠ [] && isLineEnd (fraction.dropWhile isAnyDigit)
    | rest => text.takeWhile isAnyDigit ≠ [] && isLineEnd rest
  | _ => false
where
  isLineEnd (rest : List Char) : Bool := rest = [] || rest = ['\n']

def classifyDashed (text : List Char) : Except UsageError Argument :=
  match candidates text with
  | [] =>
    if isNegativeNumber text || ' ' ∈ text then .ok (.positional text) else .ok (.unknown text)
  | [(_, argument)] => .ok argument
  | several => .error (.ambiguous text (several.map (·.1)))

def classify (text : List Char) : Except UsageError Argument :=
  match text with
  | '-' :: _ :: _ =>
    match Switch.ofSpelling? text with
    | some s => .ok (.switch s (spellingOf text) none)
    | none =>
      match splitAttached text with
      | (name, some attached) =>
        match Switch.ofSpelling? name with
        | some s => .ok (.switch s (spellingOf name) (some attached))
        | none => classifyDashed text
      | (_, none) => classifyDashed text
  | _ => .ok (.positional text)

def classifyAll : List (List Char) → Except UsageError (List Argument)
  | [] => .ok []
  | text :: rest =>
    if text = ['-', '-'] then .ok (.separator :: rest.map .positional)
    else do
      let argument ← classify text
      let arguments ← classifyAll rest
      return argument :: arguments

def letters (s : Switch) : List Char → Except UsageError (List Switch)
  | [] => .ok [s]
  | c :: rest =>
    match Switch.ofSpelling? ['-', c] with
    | some next => (letters next rest).map (s :: ·)
    | none => .error (.ignoredArgument s (c :: rest))

def expand (s : Switch) : Spelling → Option (List Char) → Except UsageError (List Switch)
  | _, none => .ok [s]
  | .short, some (c :: rest) => letters s (c :: rest)
  | _, some attached => .error (.ignoredArgument s attached)

inductive Refusal
  | help
  | version
  | usage (e : UsageError)
  deriving DecidableEq, Repr

inductive Phase
  | before
  | within
  | behind
  deriving DecidableEq, Repr

structure Gathered where
  verbose : Bool := false
  scripts : List (List Char) := []
  phase : Phase := .before
  leftOver : List (List Char) := []
  deriving DecidableEq, Repr

namespace Gathered

def interrupt (g : Gathered) : Gathered :=
  { g with phase := if g.phase = .within then .behind else g.phase }

def act (g : Gathered) : Switch → Except Refusal Gathered
  | .help => .error .help
  | .version => .error .version
  | .verbose => .ok { g with verbose := true }

def add (g : Gathered) : Argument → Except Refusal Gathered
  | .positional text =>
    if g.phase = .behind then .ok { g with leftOver := g.leftOver ++ [text] }
    else .ok { g with scripts := g.scripts ++ [text], phase := .within }
  | .separator =>
    if g.phase = .behind then .ok { g with leftOver := g.leftOver ++ [['-', '-']] }
    else .ok { g with phase := .within }
  | .unknown text =>
    let g := g.interrupt
    .ok { g with leftOver := g.leftOver ++ [text] }
  | .switch s spelling attached =>
    match expand s spelling attached with
    | .error e => .error (.usage e)
    | .ok switches => switches.foldlM act g.interrupt

end Gathered

structure Arguments where
  verbose : Bool
  scripts : List (List Char)
  deriving DecidableEq, Repr

def Arguments.parse (texts : List (List Char)) : Except Refusal Arguments := do
  let arguments ← (classifyAll texts).mapError .usage
  let gathered ← arguments.foldlM Gathered.add {}
  if gathered.leftOver = [] then return ⟨gathered.verbose, gathered.scripts⟩
  else throw (.usage (.unrecognized gathered.leftOver))

end LoxLexer.CommandLine
