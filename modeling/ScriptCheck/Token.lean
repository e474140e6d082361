import ScriptCheck.Literal

/-!
# Tokens

A program text is a sequence of tokens: reserved words, operators, names, literals, and the ends of
lines, which the language uses as terminators. `Kind.name` and `Kind.ofName` relate the kinds to the
names under which they are dumped and reported; a token that was made elsewhere may be of a kind
that the language does not have, and such a token is accepted by no rule of the grammar.
-/

namespace ScriptCheck

/-- The reserved words. -/
inductive Keyword where
  | fn | if_ | else_ | for_ | while_ | do_ | end_ | print | return_
  | and_ | or_ | true_ | false_ | nil
  deriving DecidableEq, Repr

namespace Keyword

/-- Every reserved word. -/
def all : List Keyword :=
  [fn, if_, else_, for_, while_, do_, end_, print, return_, and_, or_, true_, false_, nil]

/-- The word as it is written. -/
def word : Keyword → String
  | fn => "fn" | if_ => "if" | else_ => "else" | for_ => "for" | while_ => "while"
  | do_ => "do" | end_ => "end" | print => "print" | return_ => "return"
  | and_ => "and" | or_ => "or" | true_ => "true" | false_ => "false" | nil => "nil"

/-- The name of the kind of token that the word is. -/
def name : Keyword → String
  | fn => "FN" | if_ => "IF" | else_ => "ELSE" | for_ => "FOR" | while_ => "WHILE"
  | do_ => "DO" | end_ => "END" | print => "PRINT" | return_ => "RETURN"
  | and_ => "AND" | or_ => "OR" | true_ => "TRUE" | false_ => "FALSE" | nil => "NIL"

/-- The reserved word that is written `w`. -/
def ofWord? (w : String) : Option Keyword :=
  all.find? (·.word == w)

end Keyword

/-- The operators and the punctuation. -/
inductive Operator where
  | assign | eq | ne | gt | ge | lt | le | plus | minus | star | slash | pow | coalesce | bang
  | lparen | rparen | comma
  deriving DecidableEq, Repr

namespace Operator

/-- Every operator. -/
def all : List Operator :=
  [assign, eq, ne, gt, ge, lt, le, plus, minus, star, slash, pow, coalesce, bang,
   lparen, rparen, comma]

/-- The operator as it is written. -/
def symbol : Operator → String
  | assign => "=" | eq => "==" | ne => "!=" | gt => ">" | ge => ">=" | lt => "<" | le => "<="
  | plus => "+" | minus => "-" | star => "*" | slash => "/" | pow => "**" | coalesce => "??"
  | bang => "!" | lparen => "(" | rparen => ")" | comma => ","

/-- The name of the kind of token that the operator is. -/
def name : Operator → String
  | assign => "ASSIGN" | eq => "EQ" | ne => "NE" | gt => "GT" | ge => "GE" | lt => "LT"
  | le => "LE" | plus => "PLUS" | minus => "MINUS" | star => "STAR" | slash => "SLASH"
  | pow => "POW" | coalesce => "COALESCE" | bang => "BANG" | lparen => "LPAREN"
  | rparen => "RPAREN" | comma => "COMMA"

/-- The operator that is written `s`. -/
def ofSymbol? (s : String) : Option Operator :=
  all.find? (·.symbol == s)

/-- The longest operator that `cs` starts with: no operator has more than two characters. -/
def longest? (cs : List Char) : Option Operator :=
  ofSymbol? (String.ofList (cs.take 2)) <|> ofSymbol? (String.ofList (cs.take 1))

end Operator

/-- The kinds of token. -/
inductive Kind where
  | keyword (word : Keyword)
  | operator (op : Operator)
  | ident
  | number
  | string
  /-- The end of a line. -/
  | eol
  /-- The end of the input. -/
  | eof
  /-- A character that starts no token. -/
  | error
  /-- A kind that the language does not have. -/
  | foreign (name : String)
  deriving DecidableEq, Repr

namespace Kind

/-- The name of a kind. -/
def name : Kind → String
  | keyword w => w.name
  | operator op => op.name
  | ident => "IDENT"
  | number => "NUMBER"
  | string => "STRING"
  | eol => "EOL"
  | eof => "EOF"
  | error => "ERROR"
  | foreign s => s

/-- Every kind that the language has. -/
def all : List Kind :=
  Keyword.all.map keyword ++ Operator.all.map operator ++ [ident, number, string, eol, eof, error]

/-- The kind of the given name. -/
def ofName (s : String) : Kind :=
  (all.find? (·.name == s)).getD (foreign s)

/-- A kind that is found under a name has that name. -/
theorem name_ofName (s : String) : (ofName s).name = s := by
  unfold ofName
  cases h : all.find? (·.name == s) with
  | none => rfl
  | some k => simpa using List.find?_some h

/-- The operators that compare for equality. -/
def isEquality : Kind → Bool
  | operator .eq | operator .ne => true
  | _ => false

/-- The operators that compare by order. -/
def isComparison : Kind → Bool
  | operator .gt | operator .ge | operator .lt | operator .le => true
  | _ => false

/-- The additive operators. -/
def isTerm : Kind → Bool
  | operator .plus | operator .minus => true
  | _ => false

/-- The multiplicative operators; the power and the default operator are of their tier. -/
def isFactor : Kind → Bool
  | operator .slash | operator .star | operator .pow | operator .coalesce => true
  | _ => false

/-- The operators in front of an operand. -/
def isUnary : Kind → Bool
  | operator .bang | operator .minus => true
  | _ => false

/-- The words that start a statement. Reading is resumed in front of them after an error. -/
def startsStatement : Kind → Bool
  | keyword .fn | keyword .if_ | keyword .for_ | keyword .print | keyword .return_
  | keyword .while_ | keyword .do_ => true
  | _ => false

/-- The tokens that end a simple statement without belonging to it. -/
def closesStatement : Kind → Bool
  | eof | keyword .end_ | keyword .else_ => true
  | _ => false

end Kind

/-- A token: its kind, its text as it stands in the source, where it starts, and the value that a
number or a string denotes. -/
structure Token where
  kind : Kind
  text : String
  line : Int := 0
  column : Int := 0
  literal : Option Literal := none
  deriving DecidableEq, Repr

namespace Token

/-- Whether two tokens are the same up to the values that they denote. -/
def agrees (a b : Token) : Bool :=
  a.kind == b.kind && a.text == b.text && a.line == b.line && a.column == b.column

/-- A token as it is shown in messages. -/
def display (t : Token) : String :=
  "Token(" ++ t.kind.name ++ ", " ++ t.text ++ ")"

/-- The value of a number token: the value that it carries, or else the one that its text denotes,
which is a real number when the text has a point. -/
def numberValue (t : Token) : Except Numeral.Fault Literal :=
  match t.literal with
  | some value => .ok value
  | none =>
    if t.text.contains '.' then Literal.float <$> Numeral.readReal t.text
    else Literal.int <$> Numeral.readInteger t.text

end Token

end ScriptCheck
