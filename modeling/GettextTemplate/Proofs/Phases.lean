import GettextTemplate.Proofs.Outcomes

/-!
Runs that go step by step. What is left of a run at a phase can be done at one go (`Phase.rest`),
and a step takes a part of it off (`outcome_rest`), so a run that is alone comes to the same either
way (`publishAll_single`), as long as it may go on at all.
-/

namespace GettextTemplate

section

variable {m : Type → Type} [Monad m] {σ : Type}

namespace Phase

/-- What is left of a run, at one go. -/
def rest (files : Files m σ) (destination : Destination) (package : String) :
    Phase σ → ExceptT RunError m Report
  | .opening path => destination.publishFrom files path package
  | .collecting source => destination.publish files source package
  | .preparing counts text =>
    destination.reportAfter package counts (files.replaceFile (destination.path package) text)
  | .staging counts text => destination.reportAfter package counts do
    let staged ← files.stage (destination.path package).directory (utf8 text)
    files.commit staged (destination.path package)
  | .committing counts staged =>
    destination.reportAfter package counts (files.commit staged (destination.path package))
  | .finished outcome => ExceptT.mk (pure outcome)

/-- How many steps a run may still take. -/
def stepsLeft : Phase σ → Nat
  | .opening _ => 5
  | .collecting _ => 4
  | .preparing .. => 3
  | .staging .. => 2
  | .committing .. => 1
  | .finished _ => 0

end Phase

end

variable {δ σ α : Type} {files : Files (StateM δ) σ} {destination : Destination} {package : String}

namespace Phase

/-- A step other than the last carries out a part of the run and goes on with what that gives. -/
theorem run_goOn {ε : Type} (error : ε → RunError) (next : α → Phase σ)
    (part : ExceptT ε (StateM δ) α) (before : δ) :
    (do return goOn error next (← part.run) : StateM δ (Phase σ)).run before =
      (goOn error next (outcome part before).1, (outcome part before).2) := rfl

theorem outcome_rest_goOn {ε : Type} (error : ε → RunError) (next : α → Phase σ)
    (result : Except ε α) (before : δ) :
    outcome ((goOn error next result).rest files destination package) before =
      match result with
      | .ok a => outcome ((next a).rest files destination package) before
      | .error e => (.error (error e), before) := by
  cases result <;> rfl

theorem stepsLeft_goOn {ε : Type} {error : ε → RunError} {next : α → Phase σ} {count : Nat}
    (hnext : ∀ a, (next a).stepsLeft ≤ count) (result : Except ε α) :
    (goOn error next result).stepsLeft ≤ count := by
  cases result with
  | error e => exact Nat.zero_le count
  | ok a => exact hnext a

/-- A step brings a run nearer to its end. -/
theorem stepsLeft_advance (phase : Phase σ) (before : δ) :
    ((phase.advance files destination package).run before).1.stepsLeft ≤ phase.stepsLeft - 1 := by
  cases phase with
  | opening path =>
    rw [advance, run_goOn]
    dsimp only
    exact stepsLeft_goOn (fun _ => Nat.le_refl 4) _
  | collecting source =>
    change (goOn id _ (source.collection package)).stepsLeft ≤ 3
    exact stepsLeft_goOn (fun _ => Nat.le_refl 3) _
  | preparing counts text =>
    rw [advance, run_goOn]
    dsimp only
    exact stepsLeft_goOn (fun _ => Nat.le_refl 2) _
  | staging counts text =>
    rw [advance, run_goOn]
    dsimp only
    exact stepsLeft_goOn (fun _ => Nat.le_refl 1) _
  | committing counts staged =>
    rw [advance, run_goOn]
    dsimp only
    exact stepsLeft_goOn (fun _ => Nat.le_refl 0) _
  | finished result => exact Nat.le_refl 0

/-- A step takes a part off what is left of a run. -/
theorem outcome_rest (hnow : ∀ state, (files.now.run state).2 = state) (phase : Phase σ)
    (before : δ) :
    outcome (phase.rest files destination package) before =
      outcome
        (((phase.advance files destination package).run before).1.rest files destination package)
        ((phase.advance files destination package).run before).2 := by
  cases phase with
  | opening path =>
    change outcome (_ >>= _) before = _
    rw [outcome_bind, outcome_adapt, advance, run_goOn, outcome_rest_goOn]
    rcases outcome (files.openTree path) before with ⟨e | tree, middle⟩ <;> rfl
  | collecting source =>
    change _ = outcome ((goOn id _ (source.collection package)).rest files destination package)
      (files.now.run before).2
    rw [outcome_rest_goOn, hnow]
    change outcome (destination.publish files source package) before = _
    rw [Destination.outcome_publish (hnow before)]
    cases source.collection package <;> rfl
  | preparing counts text =>
    rw [advance, run_goOn, outcome_rest_goOn]
    change outcome (destination.reportAfter package counts (_ >>= _)) before = _
    rw [Destination.outcome_reportAfter_bind]
    rcases outcome (files.makeDirectories (destination.path package).directory) before
      with ⟨e | _, middle⟩ <;> rfl
  | staging counts text =>
    rw [advance, run_goOn, outcome_rest_goOn]
    change outcome (destination.reportAfter package counts (_ >>= _)) before = _
    rw [Destination.outcome_reportAfter_bind]
    rcases outcome (files.stage (destination.path package).directory (utf8 text)) before
      with ⟨e | staged, middle⟩ <;> rfl
  | committing counts staged =>
    rw [advance, run_goOn, outcome_rest_goOn]
    change outcome (destination.reportAfter package counts _) before = _
    rw [Destination.outcome_reportAfter]
    rcases outcome (files.commit staged (destination.path package)) before
      with ⟨e | _, middle⟩ <;> rfl
  | finished result => rfl

theorem eq_finished_of_outcome? {phase : Phase σ} {result : Except RunError Report}
    (h : phase.outcome? = some result) : phase = .finished result := by
  cases phase <;> cases h
  rfl

theorem eq_finished_of_stepsLeft {phase : Phase σ} (h : phase.stepsLeft = 0) :
    ∃ result, phase = .finished result := by
  cases phase with
  | finished result => exact ⟨result, rfl⟩
  | _ => cases h

end Phase

namespace Job

/-- A run that is alone takes a step whenever there is a permit. -/
theorem sweep_single (permits : Nat) (job : Job σ) (before : δ) :
    (sweep files destination (permits + 1) [job]).run before =
      ([{ job with phase := ((job.phase.advance files destination job.package).run before).1 }],
        ((job.phase.advance files destination job.package).run before).2) := by
  obtain ⟨package, phase⟩ := job
  rw [sweep]
  cases hphase : phase.outcome? with
  | some result =>
    -- No step is taken here, but a step would leave the run as it is.
    obtain rfl := Phase.eq_finished_of_outcome? hphase
    rfl
  | none =>
    rw [if_neg (by simp), sweep]
    rfl

/-- A run that is alone and has time enough comes to its end. -/
theorem sweeps_single (hnow : ∀ state, (files.now.run state).2 = state) (permits : Nat)
    {count : Nat} {phase : Phase σ} (hcount : phase.stepsLeft ≤ count) (before : δ) :
    (sweeps files destination (permits + 1) count [⟨package, phase⟩]).run before =
      ([⟨package, .finished (outcome (phase.rest files destination package) before).1⟩],
        (outcome (phase.rest files destination package) before).2) := by
  induction count generalizing phase before with
  | zero =>
    obtain ⟨result, rfl⟩ := Phase.eq_finished_of_stepsLeft (Nat.le_zero.mp hcount)
    rfl
  | succ count ih =>
    have hleft :
        ((phase.advance files destination package).run before).1.stepsLeft ≤ count :=
      Nat.le_trans (phase.stepsLeft_advance before) (Nat.sub_le_of_le_add hcount)
    change (sweeps files destination (permits + 1) count
      ((sweep files destination (permits + 1) [⟨package, phase⟩]).run before).1).run
      ((sweep files destination (permits + 1) [⟨package, phase⟩]).run before).2 = _
    -- The other sweeps do what is left after one step, and that is what was left without the step.
    rw [sweep_single, ih hleft, Phase.outcome_rest hnow phase]

end Job

namespace Destination

/-- A run that is alone comes step by step to what it comes to at one go. -/
theorem publishAll_single (hnow : ∀ state, (files.now.run state).2 = state) {permits : Nat}
    (hpermits : 0 < permits) (path : String) (before : δ) :
    (destination.publishAll files permits path [package]).run before =
      ([some (outcome (destination.publishFrom files path package) before).1],
        (outcome (destination.publishFrom files path package) before).2) := by
  obtain ⟨permits, rfl⟩ := Nat.exists_eq_add_of_lt hpermits
  rw [Nat.zero_add]
  have hopening : (Phase.opening path : Phase σ).stepsLeft ≤ 5 := Nat.le_refl 5
  change (List.map _ ((Job.sweeps files destination (permits + 1) 5
    [⟨package, .opening path⟩]).run before).1, ((Job.sweeps files destination (permits + 1) 5
    [⟨package, .opening path⟩]).run before).2) = _
  rw [Job.sweeps_single hnow permits hopening]
  rfl

end Destination

end GettextTemplate
