import GettextTemplate.Literal
import GettextTemplate.Template

/-!
Reading templates back. A template is read line by line: comments and blank lines are passed over,
a keyword begins a statement with its first literal, and a literal alone goes on with the statement
before it. The bodies of literals are kept as they are written.
-/

namespace GettextTemplate.Template

inductive Keyword where
  | context
  | text
  | localized
deriving DecidableEq

namespace Keyword

def word : Keyword → List Char
  | .context => "msgctxt".toList
  | .text => "msgid".toList
  | .localized => "msgstr".toList

end Keyword

inductive Line where
  | empty
  | statement (keyword : Keyword) (body : List Char)
  | continuation (body : List Char)
deriving DecidableEq

namespace Line

/-- The body of a line that is one closed literal. -/
def literal? : List Char → Option (List Char)
  | '"' :: rest =>
    if rest.getLast? = some '"' && Literal.isBody rest.dropLast then some rest.dropLast else none
  | _ => none

/-- The rest of a line that begins with a keyword and a blank. -/
def after? (keyword : Keyword) (line : List Char) : Option (List Char) :=
  if (keyword.word ++ [' ']).isPrefixOf line then some (line.drop (keyword.word.length + 1))
  else none

def ofChars? (line : List Char) : Option Line :=
  match line with
  | [] => some .empty
  | '#' :: _ => some .empty
  | '"' :: _ => (literal? line).map .continuation
  | _ =>
    [Keyword.context, .text, .localized].findSome? fun keyword =>
      (after? keyword line).bind fun rest => (literal? rest).map (.statement keyword)

end Line

/-- Joins the literals of each statement, of which the current one may go on. A literal that no
statement comes before is refused. -/
def joinLiterals (current : Option (Keyword × List Char)) :
    List Line → Option (List (Keyword × List Char))
  | [] => some current.toList
  | .empty :: rest => joinLiterals current rest
  | .statement keyword body :: rest =>
    (joinLiterals (some (keyword, body)) rest).map (current.toList ++ ·)
  | .continuation more :: rest =>
    match current with
    | some (keyword, body) => joinLiterals (some (keyword, body ++ more)) rest
    | none => none

/-- A message of a template, as its literals write it. The header has no context. -/
structure Block where
  context : Option (List Char)
  text : List Char
  localized : List Char
deriving DecidableEq

def blocks : List (Keyword × List Char) → Option (List Block)
  | [] => some []
  | (.context, context) :: (.text, text) :: (.localized, localized) :: rest =>
    (blocks rest).map (⟨some context, text, localized⟩ :: ·)
  | (.text, text) :: (.localized, localized) :: rest =>
    (blocks rest).map (⟨none, text, localized⟩ :: ·)
  | _ => none

def read? (template : String) : Option (List Block) := do
  let lines ← (template.toList.splitOn '\n').mapM Line.ofChars?
  blocks (← joinLiterals none lines)

end GettextTemplate.Template
