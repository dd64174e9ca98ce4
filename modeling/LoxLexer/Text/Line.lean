namespace LoxLexer.Text

def asLine (text : List Char) : List Char := text ++ ['\n']

def asLines (texts : List (List Char)) : List Char := texts.flatMap asLine

@[simp] theorem asLines_nil : asLines [] = [] := rfl

@[simp] theorem asLines_cons (text : List Char) (texts : List (List Char)) :
    asLines (text :: texts) = asLine text ++ asLines texts := rfl

end LoxLexer.Text
