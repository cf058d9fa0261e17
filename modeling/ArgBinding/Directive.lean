import ArgBinding.Numeral.Standard

/-! Text in which a percent sign opens a directive, at a point where no argument is left to be
shown. A percent sign written twice stands for itself. Every other directive is an error, since it
asks for an argument or is not finished.
-/

namespace ArgBinding

open ArgBinding.Numeral

/-- Why a text with directives cannot be written out. -/
inductive DirectiveError where
  /-- A directive asks for an argument and none is left. -/
  | noArgument
  /-- A directive asks for an argument by name. -/
  | namedArgument
  /-- The text ends inside a directive. -/
  | incomplete
  /-- The width of a directive is out of range. -/
  | widthTooBig
  /-- The precision of a directive is out of range. -/
  | precisionTooBig
  deriving DecidableEq, Repr

/-- The text of the error. -/
def DirectiveError.message : DirectiveError → String
  | noArgument => "not enough arguments for format string"
  | namedArgument => "format requires a mapping"
  | incomplete => "incomplete format"
  | widthTooBig => "width too big"
  | precisionTooBig => "precision too big"

/-- The greatest width of a directive. -/
def maxWidth : Nat := 0x7fffffffffffffff

/-- The greatest precision of a directive. -/
def maxPrecision : Nat := 0x7fffffff

/-- A flag of a directive. -/
def isFlag (c : Char) : Bool :=
  c == '-' || c == '+' || c == ' ' || c == '#' || c == '0'

/-- A mark for the size of an argument, which has no effect. -/
def isSizeMark (c : Char) : Bool :=
  c == 'h' || c == 'l' || c == 'L'

/-- What follows a number of at most `limit` in a directive. An asterisk in its place asks for the
number as an argument.
-/
def afterNumber (limit : Nat) (tooBig : DirectiveError) (cs : List Char)
    : Except DirectiveError (List Char) :=
  if cs.head? = some '*' then
    .error .noArgument
  else if limit < natOfDigits (cs.takeWhile isDigit) then
    .error tooBig
  else
    .ok (cs.dropWhile isDigit)

/-- What follows the precision of a directive, which is a number after a point. -/
def afterPrecision : List Char → Except DirectiveError (List Char)
  | '.' :: rest => afterNumber maxPrecision .precisionTooBig rest
  | rest => .ok rest

/-- What follows a mark for the size of an argument, if there is one. -/
def afterSizeMark : List Char → List Char
  | [] => []
  | c :: rest => if isSizeMark c then rest else c :: rest

/-- What is wrong with a directive, given what follows the percent sign that opens it. Its parts are
looked at in order: a name, flags, a width, a precision, a size, and the kind of its argument.
-/
def directiveError (cs : List Char) : DirectiveError :=
  if cs.head? = some '(' then
    .namedArgument
  else
    match afterNumber maxWidth .widthTooBig (cs.dropWhile isFlag) with
    | .error e => e
    | .ok rest =>
        match afterPrecision rest with
        | .error e => e
        | .ok rest => if (afterSizeMark rest).isEmpty then .incomplete else .noArgument

/-- The text with its directives written out. -/
def expandDirectives : List Char → Except DirectiveError (List Char)
  | [] => .ok []
  | '%' :: '%' :: rest => (expandDirectives rest).map ('%' :: ·)
  | '%' :: rest => .error (directiveError rest)
  | c :: rest => (expandDirectives rest).map (c :: ·)

end ArgBinding
