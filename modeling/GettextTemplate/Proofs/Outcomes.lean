import GettextTemplate.Run

/-!
What computations that may fail come to when they are run on a state. `outcome_bind` says so of a
sequence, and its inversions take the outcome of a sequence apart again: one that failed did so in
some part after the success of those before it, and one that succeeded did so in every part. A whole
run comes to what `outcome_publish` says, for any operations that leave the state as it is when they
are asked for the time.
-/

namespace GettextTemplate

section

variable {ε σ α β : Type}

/-- What a computation returns when it is run on a state, and the state that it leaves. -/
def outcome (x : ExceptT ε (StateM σ) α) (before : σ) : Except ε α × σ := x.run.run before

theorem outcome_liftExcept (x : Except ε α) (before : σ) :
    outcome (liftM x : ExceptT ε (StateM σ) α) before = (x, before) := rfl

theorem outcome_lift (x : StateM σ α) (before : σ) :
    outcome (liftM x : ExceptT ε (StateM σ) α) before = (.ok (x.run before).1, (x.run before).2) :=
  rfl

theorem outcome_bind (x : ExceptT ε (StateM σ) α) (f : α → ExceptT ε (StateM σ) β) (before : σ) :
    outcome (x >>= f) before =
      match outcome x before with
      | (.ok a, middle) => outcome (f a) middle
      | (.error e, middle) => (.error e, middle) := by
  change (ExceptT.bindCont f (outcome x before).1).run (outcome x before).2 = _
  rcases outcome x before with ⟨_ | _, middle⟩ <;> rfl

theorem outcome_bind_of_ok {x : ExceptT ε (StateM σ) α} {f : α → ExceptT ε (StateM σ) β}
    {before middle : σ} {a : α} (h : outcome x before = (.ok a, middle)) :
    outcome (x >>= f) before = outcome (f a) middle := by
  rw [outcome_bind, h]

theorem outcome_bind_of_error {x : ExceptT ε (StateM σ) α} {f : α → ExceptT ε (StateM σ) β}
    {before after : σ} {e : ε} (h : outcome x before = (.error e, after)) :
    outcome (x >>= f) before = (.error e, after) := by
  rw [outcome_bind, h]

theorem outcome_tryCatch (x : ExceptT ε (StateM σ) α) (handler : ε → ExceptT ε (StateM σ) α)
    (before : σ) :
    outcome (tryCatch x handler) before =
      match outcome x before with
      | (.ok a, middle) => (.ok a, middle)
      | (.error e, middle) => outcome (handler e) middle := by
  simp only [outcome, tryCatch, tryCatchThe, MonadExceptOf.tryCatch, ExceptT.tryCatch,
    ExceptT.mk, ExceptT.run, StateT.run_bind]
  rcases StateT.run x before with ⟨_ | _, middle⟩ <;> rfl

/-- A sequence that fails does so in its first part or in what follows the success of that. -/
theorem outcome_bind_eq_error {x : ExceptT ε (StateM σ) α} {f : α → ExceptT ε (StateM σ) β}
    {before after : σ} {e : ε} (h : outcome (x >>= f) before = (.error e, after)) :
    outcome x before = (.error e, after) ∨
      ∃ a middle, outcome x before = (.ok a, middle) ∧
        outcome (f a) middle = (.error e, after) := by
  rw [outcome_bind] at h
  match hrun : outcome x before with
  | (.error e', middle) =>
    rw [hrun] at h
    cases h
    exact .inl rfl
  | (.ok a, middle) =>
    rw [hrun] at h
    exact .inr ⟨a, middle, rfl, h⟩

/-- A sequence that succeeds does so in both of its parts. -/
theorem outcome_bind_eq_ok {x : ExceptT ε (StateM σ) α} {f : α → ExceptT ε (StateM σ) β}
    {before after : σ} {b : β} (h : outcome (x >>= f) before = (.ok b, after)) :
    ∃ a middle, outcome x before = (.ok a, middle) ∧ outcome (f a) middle = (.ok b, after) := by
  rw [outcome_bind] at h
  match hrun : outcome x before with
  | (.error e, middle) =>
    rw [hrun] at h
    cases h
  | (.ok a, middle) =>
    rw [hrun] at h
    exact ⟨a, middle, rfl, h⟩

theorem outcome_adapt {ε' : Type} (f : ε → ε') (x : ExceptT ε (StateM σ) α) (before : σ) :
    outcome (x.adapt f) before = ((outcome x before).1.mapError f, (outcome x before).2) := rfl

end

namespace Destination

/-- A report for something that is to be written, once that is done. -/
def reportAfter {m : Type → Type} [Monad m] (destination : Destination) (package : String)
    (counts : Counts) (write : ExceptT FileError m Unit) : ExceptT RunError m Report := do
  write.adapt fun e => .file e.message
  return destination.report package counts

variable {δ σ : Type} {files : Files (StateM δ) σ} {destination : Destination} {source : Source}
  {package : String} {before : δ}

theorem outcome_reportAfter (counts : Counts) (write : ExceptT FileError (StateM δ) Unit)
    (before : δ) :
    outcome (destination.reportAfter package counts write) before =
      match outcome write before with
      | (.ok (), after) => (.ok (destination.report package counts), after)
      | (.error e, after) => (.error (.file e.message), after) := by
  rw [reportAfter, outcome_bind, outcome_adapt]
  rcases outcome write before with ⟨_ | _, after⟩ <;> rfl

theorem outcome_reportAfter_bind {α : Type} (counts : Counts) (x : ExceptT FileError (StateM δ) α)
    (next : α → ExceptT FileError (StateM δ) Unit) (before : δ) :
    outcome (destination.reportAfter package counts (x >>= next)) before =
      match outcome x before with
      | (.ok a, middle) => outcome (destination.reportAfter package counts (next a)) middle
      | (.error e, middle) => (.error (.file e.message), middle) := by
  rw [outcome_reportAfter, outcome_bind]
  rcases outcome x before with ⟨_ | a, middle⟩
  · rfl
  · exact (outcome_reportAfter counts (next a) middle).symm

theorem outcome_reportAfter_eq_error {counts : Counts} {write : ExceptT FileError (StateM δ) Unit}
    {after : δ} {e : RunError}
    (h : outcome (destination.reportAfter package counts write) before = (.error e, after)) :
    ∃ failure, e = .file failure.message ∧ outcome write before = (.error failure, after) := by
  rw [outcome_reportAfter] at h
  rcases hwrite : outcome write before with ⟨failure | _, next⟩
  · rw [hwrite] at h
    cases h
    exact ⟨failure, rfl, rfl⟩
  · rw [hwrite] at h
    cases h

theorem outcome_reportAfter_eq_ok {counts : Counts} {write : ExceptT FileError (StateM δ) Unit}
    {after : δ} {report : Report} :
    outcome (destination.reportAfter package counts write) before = (.ok report, after) ↔
      report = destination.report package counts ∧ outcome write before = (.ok (), after) := by
  rw [outcome_reportAfter]
  rcases outcome write before with ⟨failure | _, next⟩
  · simp
  · simp [eq_comm]

/-- A run collects its messages, which does not touch the state, and then writes its file. -/
theorem outcome_publish (hnow : (files.now.run before).2 = before) :
    outcome (destination.publish files source package) before =
      match source.collection package with
      | .error e => (.error e, before)
      | .ok c =>
        outcome (destination.reportAfter package c.counts
          (files.replaceFile (destination.path package)
            (Template.compose destination.format c.catalog (files.now.run before).1))) before := by
  rw [publish, outcome_bind, outcome_liftExcept]
  cases source.collection package with
  | error e => rfl
  | ok c =>
    change outcome (_ >>= _) before = _
    rw [outcome_bind, outcome_lift, hnow]
    rfl

end Destination

end GettextTemplate
