import GettextTemplate.Proofs.Questions

/-!
One step of an extraction. `extract_eq` and `extractWithin_eq` say what an entity makes of the
extraction of its children, at the root and below it, in terms of its first failure alone. The
theories of whole trees rest on these equations and on `extractAll_cons`, and do not open the
extraction again.
-/

namespace GettextTemplate

namespace Answers

/-- Whether an extraction goes down from the entity. -/
def isOpen (answers : Answers) : Bool := answers.isContainer && answers.isComplete

/-- Whether an entity below the root costs its subtree. -/
def isLost (answers : Answers) : Bool := answers.failure?.any SourceFailure.isReported

/-- The failure with which an entity ends the extraction from anywhere in the tree. -/
def fatal? (answers : Answers) : Option SourceFailure :=
  answers.failure?.filter fun e => !e.isReported

variable {answers : Answers}

theorem isOpen_of_complete (hcomplete : answers.failure? = none) :
    answers.isOpen = answers.isContainer := by
  rw [isOpen, isComplete, hcomplete, Option.isNone_none, Bool.and_true]

theorem isOpen_of_failure {e : SourceFailure} (hfailure : answers.failure? = some e) :
    answers.isOpen = false := by
  rw [isOpen, isComplete, hfailure, Option.isNone_some, Bool.and_false]

theorem failure?_of_kind {e : SourceFailure} (hkind : answers.kind = .error e) :
    answers.failure? = some e := by
  obtain ⟨rest, hquestions⟩ := questions_start answers
  simp only [failure?, hquestions, List.findSome?_cons, failureAt?, hkind, failureOf]

theorem failure?_of_ident {kind : Kind} {e : SourceFailure} (hkind : answers.kind = .ok kind)
    (hident : answers.ident = .error e) : answers.failure? = some e := by
  obtain ⟨rest, hquestions⟩ := questions_start answers
  simp only [failure?, hquestions, List.findSome?_cons, failureAt?, hkind, hident, failureOf]

/-- The two questions that are asked before an entity is extracted below the root are the first
ones of the extraction itself, so they meet the same failure. -/
theorem failure?_of_scopeWithin {scope : String} {e : SourceFailure}
    (h : answers.scopeWithin scope = .error e) : answers.failure? = some e := by
  cases hkind : answers.kind with
  | error e' =>
    rw [scopeWithin, hkind] at h
    cases h
    exact failure?_of_kind hkind
  | ok kind =>
    rw [scopeWithin, hkind] at h
    change (if kind.isContainer then answers.ident else .ok scope) = _ at h
    split at h
    · exact failure?_of_ident hkind h
    · cases h

theorem scopeWithin_of_complete (scope : String) (hcomplete : answers.failure? = none) :
    answers.scopeWithin scope = .ok (if answers.isContainer then answers.name else scope) := by
  cases hkind : answers.kind with
  | error e =>
    rw [failure?_of_kind hkind] at hcomplete
    cases hcomplete
  | ok kind =>
    cases hident : answers.ident with
    | error e =>
      rw [failure?_of_ident hkind hident] at hcomplete
      cases hcomplete
    | ok ident =>
      rw [scopeWithin, hkind]
      change (if kind.isContainer then answers.ident else .ok scope) = _
      simp only [isContainer, name, hkind, hident, Except.toOption, Option.any_some,
        Option.getD_some]
      split <;> rfl

end Answers

theorem Extraction.append_empty (x : Extraction) : x ++ empty = x := by
  change append x empty = x
  simp only [append, empty, List.append_nil, Nat.add_zero]

theorem Extraction.isReported_of_tolerate {found : Answer Extraction} {e : SourceFailure}
    (h : tolerate found = .error e) : e.isReported = false := by
  cases found with
  | ok x => cases h
  | error e' =>
    unfold tolerate at h
    cases hreported : e'.isReported with
    | true => simp [hreported] at h
    | false =>
      simp only [hreported, Bool.false_eq_true, if_false, Except.error.injEq] at h
      rw [← h, hreported]

namespace Entity

/-- The extraction of an entity that stands below the root, where a reported failure is a loss. -/
def extractWithin (scope : String) (child : Entity) : Answer Extraction :=
  Extraction.tolerate do
    let inner ← child.answers.scopeWithin scope
    child.extract inner

theorem extractAll_cons (scope : String) (child : Entity) (rest : List Entity) :
    extractAll scope (child :: rest) = do
      let first ← child.extractWithin scope
      let later ← extractAll scope rest
      return first ++ later := rfl

/-- The extraction of a tree: its own failure, or its own messages and those of its children. -/
theorem extract_eq (scope : String) (answers : Answers) (children : List Entity) :
    Entity.extract scope (.mk answers children) =
      match answers.failure? with
      | some e => .error e
      | none => do
        let below ← if answers.isOpen then extractAll answers.name children else .ok .empty
        return .single (answers.ownMessages scope) ++ below := by
  rw [extract, answers.share_eq]
  cases hfailure : answers.failure? with
  | some e => rfl
  | none =>
    rw [Answers.isOpen_of_complete hfailure]
    cases answers.isContainer with
    | true => rfl
    | false =>
      change Except.ok _ = Except.ok _
      rw [Extraction.append_empty]

theorem extract_of_failure {scope : String} {entity : Entity} {e : SourceFailure}
    (hfailure : entity.answers.failure? = some e) : entity.extract scope = .error e := by
  obtain ⟨answers, children⟩ := entity
  rw [extract_eq, show answers.failure? = some e from hfailure]

theorem isReported_of_extractAll {scope : String} {children : List Entity} {e : SourceFailure}
    (h : extractAll scope children = .error e) : e.isReported = false := by
  induction children with
  | nil => cases h
  | cons child rest ih =>
    rw [extractAll_cons] at h
    cases hfirst : child.extractWithin scope with
    | error e' =>
      rw [hfirst] at h
      cases h
      exact Extraction.isReported_of_tolerate hfirst
    | ok first =>
      rw [hfirst] at h
      cases hlater : extractAll scope rest with
      | error e' =>
        rw [hlater] at h
        cases h
        exact ih hlater
      | ok later =>
        rw [hlater] at h
        cases h

/-- An entity whose own questions are all answered can only fail for what lies below it, and not by
a reported failure. -/
theorem isReported_of_extract {scope : String} {entity : Entity} {e : SourceFailure}
    (hcomplete : entity.answers.failure? = none) (h : entity.extract scope = .error e) :
    e.isReported = false := by
  obtain ⟨answers, children⟩ := entity
  rw [extract_eq, show answers.failure? = none from hcomplete] at h
  cases hopen : answers.isOpen with
  | true =>
    cases hbelow : extractAll answers.name children with
    | error e' =>
      simp only [hopen, if_true, hbelow] at h
      cases h
      exact isReported_of_extractAll hbelow
    | ok below =>
      simp only [hopen, if_true, hbelow] at h
      cases h
  | false =>
    simp only [hopen] at h
    cases h

/-- The extraction of an entity below the root, by its own first failure. -/
theorem extractWithin_eq (scope : String) (child : Entity) :
    child.extractWithin scope =
      match child.answers.failure? with
      | some e => if e.isReported then .ok .lost else .error e
      | none =>
        child.extract (if child.answers.isContainer then child.answers.name else scope) := by
  unfold extractWithin
  cases hfailure : child.answers.failure? with
  | some e =>
    have hfails : (do
        let inner ← child.answers.scopeWithin scope
        child.extract inner) = .error e := by
      cases hscope : child.answers.scopeWithin scope with
      | error e' =>
        rw [Answers.failure?_of_scopeWithin hscope] at hfailure
        cases hfailure
        rfl
      | ok inner => exact extract_of_failure hfailure
    rw [hfails]
    rfl
  | none =>
    rw [Answers.scopeWithin_of_complete scope hfailure]
    change Extraction.tolerate (child.extract _) = child.extract _
    cases hextract : child.extract (if child.answers.isContainer then child.answers.name else scope)
      with
    | error e => simp [Extraction.tolerate, isReported_of_extract hfailure hextract]
    | ok x => rfl

end Entity

end GettextTemplate
