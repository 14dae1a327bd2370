import ClassBindings.Text.Trim

/-! # Written type names

A type is written with qualifiers that do not change what it is: `const String&`, `String *` and
`String` name one type.  `TypeName.normalize` drops them.  A C string (`const char*`) is the one
case where a qualifier counts: it is text, not a pointer to a small integer. -/
namespace ClassBindings.TypeName

open Text

/-- The builtin text type. -/
def textType : String := "String"

/-- The word that makes a type constant, written before or after it. -/
def constWord : List Char := ['c', 'o', 'n', 's', 't']

/-- The characters of a declarator: reference, pointer and the blank between them. -/
def isDeclarator (c : Char) : Bool := c = '&' || c = '*' || c = ' '

/-- Drops one leading `const` and the blanks after it. -/
def dropLeadingConst (cs : List Char) : List Char :=
  match stripStart? (constWord ++ [' ']) cs with
  | some rest => trimStart rest
  | none => cs

/-- The innermost declarator that is not a reference is a pointer. -/
def isPointer (cs : List Char) : Bool :=
  (dropEndWhile (fun c => c = '&' || c = ' ') cs).getLast? = some '*'

/-- Drops the declarators at the end, then each `const` before them. -/
def dropQualifiers (cs : List Char) : List Char :=
  trim (dropEndCopies (' ' :: constWord) (by simp) (dropEndWhile isDeclarator cs))

/-- The base name of a written type, as characters. -/
def normalizeChars (token : List Char) : List Char :=
  let written := dropLeadingConst (trim token)
  let base := dropQualifiers written
  if isPointer written && base = ['c', 'h', 'a', 'r'] then ['S', 't', 'r', 'i', 'n', 'g'] else base

/-- The base name of a written type. -/
def normalize (token : String) : String := String.ofList (normalizeChars token.toList)

end ClassBindings.TypeName
