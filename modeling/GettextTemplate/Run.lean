import GettextTemplate.Collection
import GettextTemplate.Files
import GettextTemplate.ModelTree.Reader
import GettextTemplate.Template

/-!
Runs. A run opens a stored tree, collects the messages of one package and publishes its template.
`Destination.publishFrom` does so at one go; `Phase.advance` does the same step by step, so that
several runs can take turns, as many at a time as there are permits.
-/

namespace GettextTemplate

structure Report where
  package : String
  path : String
  counts : Counts
deriving DecidableEq

structure Destination where
  format : Template.Format := {}
  directory : String := "."

variable {m : Type → Type} [Monad m] {σ : Type}

def Files.openTree (files : Files m σ) (path : String) : ExceptT SourceFailure m ModelTree := do
  let content ← (files.read (.ofText path)).adapt fun e =>
    .unavailable (path ++ ": " ++ e.message)
  ModelTree.ofJson content

namespace Destination

/-- The text of the path that the template of a package is written to. -/
def pathText (destination : Destination) (package : String) : String :=
  Path.joinText destination.directory (package ++ "." ++ destination.format.extension)

def path (destination : Destination) (package : String) : Path :=
  .ofText (destination.pathText package)

def report (destination : Destination) (package : String) (counts : Counts) : Report :=
  ⟨package, destination.pathText package, counts⟩

/-- Writes the template of a package that is looked up in a source. Nothing is written before its
messages have been collected. -/
def publish (destination : Destination) (files : Files m σ) (source : Source) (package : String) :
    ExceptT RunError m Report := do
  let collection ← source.collection package
  let text := Template.compose destination.format collection.catalog (← files.now)
  (files.replaceFile (destination.path package) text).adapt fun e => .file e.message
  return destination.report package collection.counts

/-- Writes the template of a package of the tree in a file. -/
def publishFrom (destination : Destination) (files : Files m σ) (path package : String) :
    ExceptT RunError m Report := do
  let tree ← (files.openTree path).adapt RunError.ofSource
  destination.publish files tree.source package

end Destination

/-- Where a run stands: what it does next. -/
inductive Phase (σ : Type) where
  | opening (path : String)
  | collecting (source : Source)
  | preparing (counts : Counts) (text : String)
  | staging (counts : Counts) (text : String)
  | committing (counts : Counts) (staged : σ)
  | finished (outcome : Except RunError Report)

namespace Phase

/-- Goes on with a value, or finishes the run with an error. -/
def goOn {ε α : Type} (error : ε → RunError) (next : α → Phase σ) : Except ε α → Phase σ
  | .ok value => next value
  | .error e => .finished (.error (error e))

/-- Takes the next step of a run. A run that is finished stays as it is. -/
def advance (files : Files m σ) (destination : Destination) (package : String) :
    Phase σ → m (Phase σ)
  | .opening path => do
    return goOn .ofSource (fun tree => .collecting tree.source) (← (files.openTree path).run)
  | .collecting source => do
    let created ← files.now
    return goOn id
      (fun c => .preparing c.counts (Template.compose destination.format c.catalog created))
      (source.collection package)
  | .preparing counts text => do
    let directory := (destination.path package).directory
    return goOn (.file ·.message) (fun () => .staging counts text)
      (← (files.makeDirectories directory).run)
  | .staging counts text => do
    let directory := (destination.path package).directory
    return goOn (.file ·.message) (.committing counts) (← (files.stage directory (utf8 text)).run)
  | .committing counts staged => do
    return goOn (.file ·.message) (fun () => .finished (.ok (destination.report package counts)))
      (← (files.commit staged (destination.path package)).run)
  | .finished outcome => return .finished outcome

def outcome? : Phase σ → Option (Except RunError Report)
  | .finished outcome => some outcome
  | _ => none

end Phase

structure Job (σ : Type) where
  package : String
  phase : Phase σ

namespace Job

/-- Lets the runs that hold a permit take one step each. The first runs that are not finished hold
the permits, and a run that finishes gives its permit back. -/
def sweep (files : Files m σ) (destination : Destination) :
    (permits : Nat) → List (Job σ) → m (List (Job σ))
  | _, [] => return []
  | permits, job :: rest => do
    if job.phase.outcome?.isSome then
      return job :: (← sweep files destination permits rest)
    else
      match permits with
      | 0 => return job :: rest
      | permits + 1 =>
        let next ← job.phase.advance files destination job.package
        return { job with phase := next } :: (← sweep files destination permits rest)

def sweeps (files : Files m σ) (destination : Destination) (permits : Nat) :
    (count : Nat) → List (Job σ) → m (List (Job σ))
  | 0, jobs => return jobs
  | count + 1, jobs => do
    sweeps files destination permits count (← sweep files destination permits jobs)

end Job

namespace Destination

/-- Publishes several packages of the tree in a file, at most `permits` at a time, and lists how
the runs ended. A run takes five steps at most, and with a permit at hand each sweep takes one, so
only a run without any permits is left without an end. -/
def publishAll (destination : Destination) (files : Files m σ) (permits : Nat) (path : String)
    (packages : List String) : m (List (Option (Except RunError Report))) := do
  let jobs : List (Job σ) := packages.map fun package => ⟨package, .opening path⟩
  let ended ← Job.sweeps files destination permits (5 * packages.length) jobs
  return ended.map fun job => job.phase.outcome?

end Destination

end GettextTemplate
