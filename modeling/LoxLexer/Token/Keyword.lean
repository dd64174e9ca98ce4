import LoxLexer.Token.Kind

namespace LoxLexer.Keyword

def table : List (List Char × Kind) :=
  [("and".toList, .andWord),
    ("class".toList, .classWord),
    ("else".toList, .elseWord),
    ("false".toList, .falseWord),
    ("for".toList, .forWord),
    ("fun".toList, .funWord),
    ("if".toList, .ifWord),
    ("nil".toList, .nilWord),
    ("or".toList, .orWord),
    ("print".toList, .printWord),
    ("return".toList, .returnWord),
    ("super".toList, .superWord),
    ("this".toList, .thisWord),
    ("true".toList, .trueWord),
    ("var".toList, .varWord),
    ("while".toList, .whileWord)]

def kind? (word : List Char) : Option Kind := table.lookup word

def contains (word : List Char) : Bool := (kind? word).isSome

end LoxLexer.Keyword

namespace LoxLexer.Kind

def ofWord (word : List Char) : Kind := (Keyword.kind? word).getD .identifier

end LoxLexer.Kind
