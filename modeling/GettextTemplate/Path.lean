/-!
Paths of a file system. A path is a way to go: from the root or from where one stands, step by
step. Its text separates the steps by slashes, and `text_ofText` says that a path keeps the text
it was read from, to the last slash too many: what a system accepts depends on its length.
-/

namespace GettextTemplate

/-- One step of a path: to stay in a directory, which is written as nothing or as a dot, to leave
it for the one around it, or to enter what has a name in it. -/
inductive Step where
  | blank
  | stay
  | up
  | enter (name : String)
deriving DecidableEq

namespace Step

def ofPart (part : String) : Step :=
  if part = "" then .blank
  else if part = "." then .stay
  else if part = ".." then .up
  else .enter part

def text : Step → String
  | .blank => ""
  | .stay => "."
  | .up => ".."
  | .enter name => name

theorem text_ofPart (part : String) : (ofPart part).text = part := by
  unfold ofPart
  split
  · simp [text, *]
  split
  · simp [text, *]
  split
  · simp [text, *]
  · rfl

def isIdle : Step → Bool
  | .blank | .stay => true
  | .up | .enter _ => false

end Step

structure Path where
  fromRoot : Bool
  steps : List Step
deriving DecidableEq

namespace Path

def stepsOf (chars : List Char) : List Step :=
  (chars.splitOn '/').map fun part => .ofPart (.ofList part)

/-- Reads a path. The empty text is a path without steps, which leads nowhere. -/
def ofText (text : String) : Path :=
  match text.toList with
  | [] => ⟨false, []⟩
  | '/' :: rest => ⟨true, stepsOf rest⟩
  | chars => ⟨false, stepsOf chars⟩

def text (path : Path) : String :=
  (if path.fromRoot then "/" else "") ++ "/".intercalate (path.steps.map Step.text)

theorem intercalate_stepsOf (chars : List Char) :
    "/".intercalate ((stepsOf chars).map Step.text) = String.ofList chars := by
  have h : ((stepsOf chars).map Step.text).map String.toList = chars.splitOn '/' := by
    simp [stepsOf, Function.comp_def, Step.text_ofPart]
  rw [← String.toList_inj, String.toList_intercalate, h]
  exact (List.intercalate_splitOn '/').trans String.toList_ofList.symm

theorem text_ofText (text : String) : (ofText text).text = text := by
  unfold ofText
  split
  · next h => rw [← String.toList_inj, h]; rfl
  · next h => rw [← String.toList_inj, h]; simp [Path.text, intercalate_stepsOf]
  · simp [Path.text, intercalate_stepsOf]

/-- The text of a path to a file in a directory. A file text that begins at the root stands for
itself, and a slash is put between the two only where there is none. -/
def joinText (directory file : String) : String :=
  if file.toList.head? = some '/' then file
  else if directory.isEmpty || directory.toList.getLast? = some '/' then directory ++ file
  else directory ++ "/" ++ file

def here : Path := ⟨false, [.stay]⟩

/-- The directory that a path leads through last. Idle steps at the end of either do not count. -/
def directory (path : Path) : Path :=
  let outward := (path.steps.reverse.dropWhile Step.isIdle).tail.dropWhile Step.isIdle
  if outward.isEmpty && !path.fromRoot then here else { path with steps := outward.reverse }

def size (path : Path) : Nat := path.text.utf8ByteSize

/-- Whether a name on the path holds a null character, which no name can. -/
def hasNull (path : Path) : Bool :=
  path.steps.any fun step => step.text.toList.contains '\x00'

end Path

end GettextTemplate
