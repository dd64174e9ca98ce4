import LoxLexer.Lexer.Unit

namespace LoxLexer.Lexer

def sweep (accepts : Bool) (x : Lexer) : Outcome Unit :=
  if _h : x.atEnd then ⟨.ok (), x, []⟩
  else
    let step := x.markHere.readUnit accepts
    match _hanswer : step.answer with
    | .error _ => step
    | .ok () =>
      let swept := step.lexer.sweep accepts
      { swept with notices := step.notices ++ swept.notices }
termination_by (x.source.length - x.cursor).toNat
decreasing_by
  have hlt : ¬ (x.source.length : Int) ≤ x.cursor := by simpa [atEnd] using _h
  have hstep := cursor_lt_cursor_readUnit accepts x.markHere
    (rest_ne_nil_of_readUnit accepts x.markHere _hanswer)
  simp only [source_readUnit]
  simp only [markHere] at hstep ⊢
  omega

def run (accepts : Bool) (x : Lexer) : Outcome (List Token) :=
  if x.hasRun then ⟨.error .alreadyRun, x, []⟩
  else
    let swept := { x with hasRun := true }.sweep accepts
    match swept.answer with
    | .error fault => ⟨.error fault, swept.lexer, swept.notices⟩
    | .ok () =>
      let y := swept.lexer.emitEnd
      ⟨.ok y.tokens, y, swept.notices ++ [.scanned y.tokens.length y.line]⟩

def scan (source : List Char) : Outcome (List Token) := (ofSource source).run true

variable {accepts : Bool} {x : Lexer}

end LoxLexer.Lexer
