import GettextTemplate.Proofs.Interleavings

/-!
Sweeps are one of the orders in which runs may take turns. Between two sweeps the runs that are under
way stand in front of those that have not begun, and there are no more of them than permits
(`Ready`). So a run that begins finds a permit, and sweeps go on until all runs are at their ends
(`reaches_publishAll`).
-/

namespace GettextTemplate

namespace Job

/-- The turn of a run between two sweeps, where each run that is finished has given its permit back
and each that has not done anything has got none. -/
def turn (job : Job Place) : Turn :=
  match job.phase with
  | .opening _ => .waiting
  | .finished outcome => .released outcome
  | phase => .holding phase

def run (job : Job Place) : Run := ⟨job.package, job.turn⟩

/-- Whether a run has not begun, or has come to its end. -/
def IsIdle (path : String) (job : Job Place) : Prop :=
  job.phase = .opening path ∨ job.phase.outcome?.isSome = true

/-- Whether the runs that are under way stand in front of those that have not begun and hold no more
than some permits. -/
inductive Ready (path : String) : Nat → List (Job Place) → Prop
  | none {permits : Nat} : Ready path permits []
  | finished {permits : Nat} {package : String} {outcome : Except RunError Report}
      {rest : List (Job Place)} (others : Ready path permits rest) :
      Ready path permits (⟨package, .finished outcome⟩ :: rest)
  | underway {permits : Nat} {package : String} {phase : Phase Place} {rest : List (Job Place)}
      (begun : phase.stepsLeft ≤ 4) (unfinished : phase.outcome? = none)
      (others : Ready path permits rest) :
      Ready path (permits + 1) (⟨package, phase⟩ :: rest)
  | opening {permits : Nat} {package : String} {rest : List (Job Place)}
      (others : ∀ job ∈ rest, IsIdle path job) :
      Ready path permits (⟨package, .opening path⟩ :: rest)

variable {destination : Destination} {path : String} {permits : Nat} {jobs : List (Job Place)}

theorem isHolding_of_isIdle {job : Job Place} (h : IsIdle path job) :
    job.turn.isHolding = false := by
  obtain ⟨package, phase⟩ := job
  rcases h with rfl | houtcome
  · rfl
  · obtain ⟨outcome, houtcome⟩ := Option.isSome_iff_exists.mp houtcome
    obtain rfl := Phase.eq_finished_of_outcome? houtcome
    rfl

theorem Ready.of_isIdle (permits : Nat) (h : ∀ job ∈ jobs, IsIdle path job) :
    Ready path permits jobs := by
  induction jobs with
  | nil => exact .none
  | cons job rest ih =>
    obtain ⟨package, phase⟩ := job
    have hrest : ∀ job ∈ rest, IsIdle path job := fun job hmem => h job (List.mem_cons_of_mem _ hmem)
    rcases h _ List.mem_cons_self with hopening | houtcome
    · dsimp only at hopening
      subst hopening
      exact .opening hrest
    · obtain ⟨outcome, houtcome⟩ := Option.isSome_iff_exists.mp houtcome
      obtain rfl := Phase.eq_finished_of_outcome? houtcome
      exact .finished (ih hrest)

theorem Ready.succ (h : Ready path permits jobs) : Ready path (permits + 1) jobs := by
  induction h with
  | none => exact .none
  | finished _ ih => exact .finished ih
  | underway begun unfinished _ ih => exact .underway begun unfinished ih
  | opening others => exact .opening others

section

variable {package : String} {phase : Phase Place} {rest : List (Job Place)}

theorem run_sweep_finished (now : Int) (package : String) (outcome : Except RunError Report)
    (rest : List (Job Place)) (disk : Disk) :
    (sweep (Disk.files now) destination permits (⟨package, .finished outcome⟩ :: rest)).run disk =
      (⟨package, .finished outcome⟩ ::
        ((sweep (Disk.files now) destination permits rest).run disk).1,
        ((sweep (Disk.files now) destination permits rest).run disk).2) := by
  rw [sweep.eq_def]
  rfl

theorem run_sweep_zero (now : Int) (hunfinished : phase.outcome? = none) (disk : Disk) :
    (sweep (Disk.files now) destination 0 (⟨package, phase⟩ :: rest)).run disk =
      (⟨package, phase⟩ :: rest, disk) := by
  rw [sweep.eq_def]
  simp only [hunfinished]
  rfl

theorem run_sweep_succ (now : Int) (hunfinished : phase.outcome? = none) (disk : Disk) :
    (sweep (Disk.files now) destination (permits + 1) (⟨package, phase⟩ :: rest)).run disk =
      let next := destination.step now package phase disk
      let others := (sweep (Disk.files now) destination permits rest).run next.2
      (⟨package, next.1⟩ :: others.1, others.2) := by
  rw [sweep.eq_def]
  simp only [hunfinished]
  rfl

end

/-- After a step a run has begun. -/
theorem stepsLeft_advance_le (now : Int) (package : String) (phase : Phase Place) (disk : Disk) :
    (destination.step now package phase disk).1.stepsLeft ≤ 4 := by
  have hfirst : phase.stepsLeft ≤ 5 := by cases phase <;> simp [Phase.stepsLeft]
  exact Nat.le_trans (phase.stepsLeft_advance disk) (Nat.sub_le_of_le_add hfirst)

theorem turn_of_begun {package : String} {phase : Phase Place} (hbegun : phase.stepsLeft ≤ 4)
    (hunfinished : phase.outcome? = none) : turn ⟨package, phase⟩ = .holding phase := by
  cases phase with
  | opening path => simp [Phase.stepsLeft] at hbegun
  | finished outcome => cases hunfinished
  | _ => rfl

theorem Ready.step (now : Int) {package : String} {phase : Phase Place} {disk : Disk}
    (hrest : Ready path permits jobs) :
    Ready path (permits + 1)
      (⟨package, (destination.step now package phase disk).1⟩ :: jobs) := by
  have hbegun : (destination.step now package phase disk).1.stepsLeft ≤ 4 :=
    stepsLeft_advance_le now package phase disk
  generalize (destination.step now package phase disk).1 = next at hbegun
  cases houtcome : next.outcome? with
  | none => exact .underway hbegun houtcome hrest
  | some outcome =>
    obtain rfl := Phase.eq_finished_of_outcome? houtcome
    exact .finished hrest.succ

section

variable {before later : List Run} {disk : Disk} {limit : Nat}

/-- A run that is under way takes its step, and gives its permit back if that was its last. -/
theorem reaches_step (now : Int) {package : String} {phase : Phase Place}
    (hunfinished : phase.outcome? = none) :
    let next := destination.step now package phase disk
    Scene.Reaches destination path limit ⟨disk, before ++ ⟨package, .holding phase⟩ :: later⟩
      ⟨next.2, before ++ run ⟨package, next.1⟩ :: later⟩ := by
  intro next
  refine (Scene.reaches_work now hunfinished).trans ?_
  have hbegun : next.1.stepsLeft ≤ 4 := stepsLeft_advance_le now package phase disk
  change Scene.Reaches destination path limit
    ⟨next.2, before ++ ⟨package, .holding next.1⟩ :: later⟩ _
  cases houtcome : next.1.outcome? with
  | none =>
    rw [run, turn_of_begun hbegun houtcome]
  | some outcome =>
    rw [Phase.eq_finished_of_outcome? houtcome]
    exact Scene.reaches_release outcome

theorem sweep_reaches (now : Int) (before : List Run) (h : Ready path permits jobs)
    (hlimit : before.countP (·.turn.isHolding) + permits ≤ limit) :
    let next := (sweep (Disk.files now) destination permits jobs).run disk
    Ready path permits next.1 ∧
      Scene.Reaches destination path limit ⟨disk, before ++ jobs.map run⟩
        ⟨next.2, before ++ next.1.map run⟩ := by
  induction jobs generalizing permits before disk with
  | nil => exact ⟨h, .refl⟩
  | cons job rest ih =>
    -- The others take their steps after a run that has taken its own.
    have hothers {permits : Nat} (hrest : Ready path permits rest) (first : Run) (middle : Disk)
        (hlimit : (first :: before).countP (·.turn.isHolding) + permits ≤ limit) :
        let others := (sweep (Disk.files now) destination permits rest).run middle
        Ready path permits others.1 ∧
          Scene.Reaches destination path limit ⟨middle, before ++ first :: rest.map run⟩
            ⟨others.2, before ++ first :: others.1.map run⟩ := by
      have hlimit' : (before ++ [first]).countP (·.turn.isHolding) + permits ≤ limit := by
        rw [List.perm_append_comm.countP_eq]
        exact hlimit
      obtain ⟨hready, hreaches⟩ := @ih permits middle (before ++ [first]) hrest hlimit'
      rw [List.append_assoc, List.append_assoc] at hreaches
      exact ⟨hready, hreaches⟩
    have hunderway {permits : Nat} (package : String) (phase : Phase Place)
        (hunfinished : phase.outcome? = none) (hrest : Ready path permits rest)
        (hlimit : before.countP (·.turn.isHolding) + (permits + 1) ≤ limit) :
        let next := destination.step now package phase disk
        let others := (sweep (Disk.files now) destination permits rest).run next.2
        Ready path (permits + 1) (⟨package, next.1⟩ :: others.1) ∧
          Scene.Reaches destination path limit
            ⟨disk, before ++ ⟨package, .holding phase⟩ :: rest.map run⟩
            ⟨others.2, before ++ run ⟨package, next.1⟩ :: others.1.map run⟩ := by
      intro next others
      have hcount : (run ⟨package, next.1⟩ :: before).countP (·.turn.isHolding) + permits ≤
          limit := by
        rw [List.countP_cons]
        split <;> omega
      obtain ⟨hready, hreaches⟩ := hothers hrest (run ⟨package, next.1⟩) next.2 hcount
      exact ⟨hready.step now, (reaches_step now hunfinished).trans hreaches⟩
    cases h with
    | @finished _ package outcome _ others =>
      rw [run_sweep_finished]
      obtain ⟨hready, hreaches⟩ := hothers others (run ⟨package, .finished outcome⟩) disk hlimit
      exact ⟨.finished hready, hreaches⟩
    | @underway permits package phase _ begun unfinished others =>
      rw [run_sweep_succ now unfinished, List.map_cons, run, turn_of_begun begun unfinished]
      exact hunderway package phase unfinished others hlimit
    | @opening _ package _ others =>
      cases permits with
      | zero =>
        rw [run_sweep_zero now rfl]
        exact ⟨.opening others, .refl⟩
      | succ permits =>
        rw [run_sweep_succ now rfl]
        have hheld : Scene.held ⟨disk, before ++ ⟨package, .waiting⟩ :: rest.map run⟩ < limit := by
          have hidle : (rest.map run).countP (·.turn.isHolding) = 0 := by
            rw [List.countP_eq_zero]
            intro other hmem
            obtain ⟨job, hjob, rfl⟩ := List.mem_map.mp hmem
            exact Bool.eq_false_iff.mp (isHolding_of_isIdle (others job hjob))
          rw [Scene.held, List.countP_append, List.countP_cons, hidle,
            if_neg (by simp [Turn.isHolding])]
          omega
        obtain ⟨hready, hreaches⟩ :=
          hunderway package (.opening path) rfl (.of_isIdle permits others) hlimit
        exact ⟨hready, (Scene.reaches_acquire hheld).trans hreaches⟩

end

/-- How many steps several runs together may still take. -/
def stepsLeft : List (Job Place) → Nat
  | [] => 0
  | job :: rest => job.phase.stepsLeft + stepsLeft rest

/-- A sweep takes a step, unless all runs are finished or there is no permit. -/
theorem stepsLeft_sweep (now : Int) (jobs : List (Job Place)) (disk : Disk) :
    stepsLeft ((sweep (Disk.files now) destination permits jobs).run disk).1 ≤
      stepsLeft jobs - min permits 1 := by
  induction jobs generalizing permits disk with
  | nil => exact Nat.zero_le _
  | cons job rest ih =>
    obtain ⟨package, phase⟩ := job
    cases houtcome : phase.outcome? with
    | some outcome =>
      obtain rfl := Phase.eq_finished_of_outcome? houtcome
      have hrest := @ih permits disk
      rw [run_sweep_finished]
      simp only [stepsLeft, Phase.stepsLeft]
      omega
    | none =>
      cases permits with
      | zero =>
        rw [run_sweep_zero now houtcome]
        exact Nat.le_refl _
      | succ permits =>
        have hnext := destination.stepsLeft_step now package phase disk
        have hphase : phase.stepsLeft ≠ 0 := by
          intro hzero
          obtain ⟨result, rfl⟩ := Phase.eq_finished_of_stepsLeft hzero
          cases houtcome
        have hrest := @ih permits (destination.step now package phase disk).2
        rw [run_sweep_succ now houtcome]
        simp only [stepsLeft]
        omega

/-- Sweeps with a permit bring all runs to their ends. -/
theorem sweeps_reaches (destination : Destination) (now : Int) (hpermits : 0 < permits) {count : Nat}
    (h : Ready path permits jobs) (hcount : stepsLeft jobs ≤ count) (disk : Disk) :
    let ended := (sweeps (Disk.files now) destination permits count jobs).run disk
    stepsLeft ended.1 = 0 ∧ Scene.Reaches destination path permits ⟨disk, jobs.map run⟩
      ⟨ended.2, ended.1.map run⟩ := by
  induction count generalizing jobs disk with
  | zero => exact ⟨Nat.le_zero.mp hcount, .refl⟩
  | succ count ih =>
    let next := (sweep (Disk.files now) destination permits jobs).run disk
    have hleft : stepsLeft next.1 ≤ stepsLeft jobs - min permits 1 := stepsLeft_sweep now jobs disk
    have hnext : Ready path permits next.1 ∧
        Scene.Reaches destination path permits ⟨disk, jobs.map run⟩ ⟨next.2, next.1.map run⟩ :=
      sweep_reaches now [] h (by simp)
    obtain ⟨hended, hreaches⟩ := ih hnext.1 (by omega) next.2
    exact ⟨hended, hnext.2.trans hreaches⟩

theorem exists_ended (h : stepsLeft jobs = 0) (disk : Disk) :
    ∃ results, Scene.Ended ⟨disk, jobs.map run⟩ results ∧
      jobs.map (fun job => job.phase.outcome?) = results.map some := by
  induction jobs with
  | nil => exact ⟨[], rfl, rfl⟩
  | cons job rest ih =>
    obtain ⟨package, phase⟩ := job
    rw [stepsLeft] at h
    obtain ⟨result, rfl⟩ := Phase.eq_finished_of_stepsLeft (Nat.eq_zero_of_add_eq_zero_right h)
    obtain ⟨results, hended, houtcomes⟩ := ih (Nat.eq_zero_of_add_eq_zero_left h)
    exact ⟨result :: results, hended.cons package result, congrArg (some result :: ·) houtcomes⟩

end Job

namespace Scene

/-- What the sweeps come to is one of the ends that runs may come to who take turns. -/
theorem reaches_publishAll (destination : Destination) (path : String) (now : Int) {permits : Nat}
    (hpermits : 0 < permits) (packages : List String) (disk : Disk) :
    let all := (destination.publishAll (Disk.files now) permits path packages).run disk
    ∃ runs results, Reaches destination path permits (start disk packages) ⟨all.2, runs⟩ ∧
      Ended ⟨all.2, runs⟩ results ∧ all.1 = results.map some := by
  let jobs : List (Job Place) := packages.map fun package => ⟨package, .opening path⟩
  have hready : Job.Ready path permits jobs := by
    apply Job.Ready.of_isIdle
    intro job hmem
    obtain ⟨package, -, rfl⟩ := List.mem_map.mp hmem
    exact .inl rfl
  have hsteps (packages : List String) :
      Job.stepsLeft (packages.map fun package => ⟨package, .opening path⟩) =
        5 * packages.length := by
    induction packages with
    | nil => rfl
    | cons package rest ih =>
      rw [List.map_cons, Job.stepsLeft, ih, List.length_cons]
      simp only [Phase.stepsLeft]
      omega
  have hruns : jobs.map Job.run = (start disk packages).runs := by
    rw [List.map_map]
    rfl
  obtain ⟨hended, hreaches⟩ := 
    Job.sweeps_reaches destination now hpermits hready (Nat.le_of_eq (hsteps packages)) disk
  obtain ⟨results, hresults, houtcomes⟩ := Job.exists_ended hended _
  rw [hruns] at hreaches
  exact ⟨_, results, hreaches, hresults, houtcomes⟩

end Scene

end GettextTemplate
