import GettextTemplate.Json.Bytes
import GettextTemplate.Path

/-!
What a run needs of a file system. A template is first staged beside its target and then put in
its place at once, so that a reader never sees a part of it.
-/

namespace GettextTemplate

inductive FileError where
  | notFound
  | exists
  | notDirectory
  | isDirectory
  | invalidArgument
  | nameTooLong
  /-- A name holds a null character. -/
  | nullInName
  /-- Any other refusal, in words. -/
  | other (reason : String)
deriving DecidableEq

namespace FileError

def message : FileError → String
  | .notFound => "No such file or directory (os error 2)"
  | .exists => "File exists (os error 17)"
  | .notDirectory => "Not a directory (os error 20)"
  | .isDirectory => "Is a directory (os error 21)"
  | .invalidArgument => "Invalid argument (os error 22)"
  | .nameTooLong => "File name too long (os error 36)"
  | .nullInName => "file name contained an unexpected NUL byte"
  | .other reason => reason

end FileError

def utf8 (text : String) : Json.Bytes := text.toUTF8.data.toList

/-- A file system that acts in a monad `m` and tells staged files apart by tokens `σ`. -/
structure Files (m : Type → Type) (σ : Type) where
  read : Path → ExceptT FileError m Json.Bytes
  isDirectory : Path → m Bool
  /-- Makes a directory inside one that is there. -/
  makeDirectory : Path → ExceptT FileError m Unit
  /-- Writes a new file into a directory, under a name that nobody uses. -/
  stage : Path → Json.Bytes → ExceptT FileError m σ
  /-- Moves a staged file to its target, over a file that may be there. A staged file that cannot
  be moved is removed. -/
  commit : σ → Path → ExceptT FileError m Unit
  /-- The present second, counted from 1970-01-01 00:00. -/
  now : m Int

namespace Files

variable {m : Type → Type} [Monad m] {σ : Type}

def unlessDirectory (files : Files m σ) (path : Path) (e : FileError) :
    ExceptT FileError m Unit := do
  if ← files.isDirectory path then return else throw e

/-- Makes the directory at the end of some steps, given last first, unless it is there. When the
one before it is missing, that is made first, and stays even if the last cannot be made. An idle
step makes nothing. -/
def makeDirectoriesAlong (files : Files m σ) (fromRoot : Bool) :
    List Step → ExceptT FileError m Unit
  | [] => return
  | last :: before =>
    if last.isIdle then files.makeDirectoriesAlong fromRoot before else
    let path : Path := ⟨fromRoot, (last :: before).reverse⟩
    tryCatch (files.makeDirectory path) fun
      | .notFound => do
        files.makeDirectoriesAlong fromRoot before
        tryCatch (files.makeDirectory path) (files.unlessDirectory path)
      | e => files.unlessDirectory path e

/-- Makes a directory and those around it, as far as they are not there. -/
def makeDirectories (files : Files m σ) (path : Path) : ExceptT FileError m Unit :=
  files.makeDirectoriesAlong path.fromRoot path.steps.reverse

/-- Writes a text to a file, which is replaced as a whole. -/
def replaceFile (files : Files m σ) (target : Path) (text : String) :
    ExceptT FileError m Unit := do
  files.makeDirectories target.directory
  let staged ← files.stage target.directory (utf8 text)
  files.commit staged target

end Files

end GettextTemplate
