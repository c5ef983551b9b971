import GettextTemplate.Proofs.Phases
import GettextTemplate.Disk
import Mathlib.Logic.Relation

/-!
Runs that take turns. A run waits for a permit, goes through its phases while it holds one, and gives
it back at its end, however that turns out. `Scene.Step` lets any run take its next step at any
time, as long as there is a permit for it. Every order of the steps comes to an end of all runs
(`exists_ended`), and one of the orders is that one run follows another (`reaches_inTurn`).
-/

namespace GettextTemplate

inductive Turn where
  | waiting
  | holding (phase : Phase Place)
  | released (outcome : Except RunError Report)

namespace Turn

def isHolding : Turn → Bool
  | .holding _ => true
  | _ => false

/-- How many steps a run may still take, to get its permit and to give it back among them. -/
def stepsLeft : Turn → Nat
  | .waiting => 7
  | .holding phase => phase.stepsLeft + 1
  | .released _ => 0

end Turn

/-- The next phase of a run, and the disk that its step leaves. -/
def Destination.step (destination : Destination) (now : Int) (package : String)
    (phase : Phase Place) (disk : Disk) : Phase Place × Disk :=
  (phase.advance (Disk.files now) destination package).run disk

theorem Destination.stepsLeft_step (destination : Destination) (now : Int) (package : String)
    (phase : Phase Place) (disk : Disk) :
    (destination.step now package phase disk).1.stepsLeft ≤ phase.stepsLeft - 1 :=
  phase.stepsLeft_advance disk

structure Run where
  package : String
  turn : Turn

/-- Several runs on one disk. -/
structure Scene where
  disk : Disk
  runs : List Run

namespace Scene

/-- No run has a permit yet. -/
def start (disk : Disk) (packages : List String) : Scene :=
  ⟨disk, packages.map fun package => ⟨package, .waiting⟩⟩

theorem turn_of_mem_start {disk : Disk} {packages : List String} {run : Run}
    (h : run ∈ (start disk packages).runs) : run.turn = .waiting := by
  obtain ⟨package, -, rfl⟩ := List.mem_map.mp h
  rfl

/-- The number of permits that are held. -/
def held (scene : Scene) : Nat := scene.runs.countP (·.turn.isHolding)

theorem held_eq_zero {scene : Scene} (h : ∀ run ∈ scene.runs, run.turn.isHolding = false) :
    scene.held = 0 :=
  List.countP_eq_zero.mpr fun run hmem => by simp [h run hmem]

/-- All runs have given their permits back, with these results. -/
def Ended (scene : Scene) (results : List (Except RunError Report)) : Prop :=
  scene.runs.map Run.turn = results.map Turn.released

theorem Ended.cons {disk : Disk} {runs : List Run} {results : List (Except RunError Report)}
    (h : Ended ⟨disk, runs⟩ results) (package : String) (result : Except RunError Report) :
    Ended ⟨disk, ⟨package, .released result⟩ :: runs⟩ (result :: results) :=
  congrArg (Turn.released result :: ·) h

/-- One run takes its next step, at a time of its own. -/
inductive Step (destination : Destination) (path : String) (permits : Nat) : Scene → Scene → Prop
  | acquire {scene : Scene} {i : Nat} {package : String}
      (waits : scene.runs[i]? = some ⟨package, .waiting⟩) (permit : scene.held < permits) :
      Step destination path permits scene
        ⟨scene.disk, scene.runs.set i ⟨package, .holding (.opening path)⟩⟩
  | work {scene : Scene} {i : Nat} {package : String} {phase : Phase Place} (now : Int)
      (holds : scene.runs[i]? = some ⟨package, .holding phase⟩)
      (unfinished : phase.outcome? = none) :
      Step destination path permits scene
        ⟨(destination.step now package phase scene.disk).2,
          scene.runs.set i ⟨package, .holding (destination.step now package phase scene.disk).1⟩⟩
  | release {scene : Scene} {i : Nat} {package : String} {outcome : Except RunError Report}
      (holds : scene.runs[i]? = some ⟨package, .holding (.finished outcome)⟩) :
      Step destination path permits scene
        ⟨scene.disk, scene.runs.set i ⟨package, .released outcome⟩⟩

/-- One scene comes of another by steps of any runs in any order. -/
abbrev Reaches (destination : Destination) (path : String) (permits : Nat) : Scene → Scene → Prop :=
  Relation.ReflTransGen (Step destination path permits)

variable {destination : Destination} {path : String} {permits : Nat} {scene after : Scene}

/-- A step gives one run another turn, which is nearer to its end. -/
theorem exists_turn (h : Step destination path permits scene after) :
    ∃ i run turn, scene.runs[i]? = some run ∧ after.runs = scene.runs.set i ⟨run.package, turn⟩ ∧
      turn.stepsLeft < run.turn.stepsLeft := by
  cases h with
  | acquire waits permit => exact ⟨_, _, _, waits, rfl, Nat.lt_succ_self 6⟩
  | @work i package phase now holds unfinished =>
    refine ⟨_, _, _, holds, rfl, ?_⟩
    have hphase : phase.stepsLeft ≠ 0 := by
      intro hzero
      obtain ⟨result, rfl⟩ := Phase.eq_finished_of_stepsLeft hzero
      cases unfinished
    have hnext := destination.stepsLeft_step now package phase scene.disk
    simp only [Turn.stepsLeft]
    omega
  | release holds => exact ⟨_, _, _, holds, rfl, Nat.zero_lt_one⟩

/-- A run among others. -/
theorem exists_split {runs : List Run} {i : Nat} {run : Run} (h : runs[i]? = some run) :
    ∃ before later, before.length = i ∧ runs = before ++ run :: later ∧
      ∀ run', runs.set i run' = before ++ run' :: later := by
  obtain ⟨hlength, hrun⟩ := List.getElem?_eq_some_iff.mp h
  refine ⟨runs.take i, runs.drop (i + 1), by simp; omega, ?_, fun run' => ?_⟩
  · rw [← hrun, List.getElem_cons_drop, List.take_append_drop]
  · rw [List.set_eq_take_append_cons_drop, if_pos hlength]

theorem map_package_set {i : Nat} {run : Run} (hrun : scene.runs[i]? = some run) (turn : Turn) :
    (scene.runs.set i ⟨run.package, turn⟩).map Run.package = scene.runs.map Run.package := by
  obtain ⟨before, later, -, hruns, hset⟩ := exists_split hrun
  rw [hset, hruns, List.map_append, List.map_append, List.map_cons, List.map_cons]

theorem packages_start (disk : Disk) (packages : List String) :
    (start disk packages).runs.map Run.package = packages := by
  rw [start, List.map_map]
  exact List.map_id packages

theorem packages_of_step (h : Step destination path permits scene after) :
    after.runs.map Run.package = scene.runs.map Run.package := by
  obtain ⟨i, run, turn, hrun, hafter, -⟩ := exists_turn h
  rw [hafter]
  exact map_package_set hrun turn

theorem packages_of_reaches (h : Reaches destination path permits scene after) :
    after.runs.map Run.package = scene.runs.map Run.package := by
  induction h with
  | refl => rfl
  | tail _ hstep ih => exact (packages_of_step hstep).trans ih

/-- How many steps several runs together may still take. -/
def stepsLeft : List Run → Nat
  | [] => 0
  | run :: rest => run.turn.stepsLeft + stepsLeft rest

theorem stepsLeft_append (runs later : List Run) :
    stepsLeft (runs ++ later) = stepsLeft runs + stepsLeft later := by
  induction runs with
  | nil => rw [List.nil_append, stepsLeft, Nat.zero_add]
  | cons run rest ih => rw [List.cons_append, stepsLeft, stepsLeft, ih, Nat.add_assoc]

theorem stepsLeft_of_step (h : Step destination path permits scene after) :
    stepsLeft after.runs < stepsLeft scene.runs := by
  obtain ⟨i, run, turn, hrun, hafter, hless⟩ := exists_turn h
  obtain ⟨before, later, -, hruns, hset⟩ := exists_split hrun
  rw [hafter, hset, hruns, stepsLeft_append, stepsLeft_append]
  simp only [stepsLeft]
  omega

theorem exists_results {turns : List Turn}
    (h : ∀ turn ∈ turns, ∃ outcome, Turn.released outcome = turn) :
    ∃ results : List (Except RunError Report), turns = results.map Turn.released := by
  induction turns with
  | nil => exact ⟨[], rfl⟩
  | cons turn rest ih =>
    obtain ⟨outcome, rfl⟩ := h turn List.mem_cons_self
    obtain ⟨results, rfl⟩ := ih fun turn hmem => h turn (List.mem_cons_of_mem _ hmem)
    exact ⟨outcome :: results, rfl⟩

/-- Unless all runs are at their end, one of them can take a step. -/
theorem exists_step (destination : Destination) (path : String) (hpermits : 0 < permits)
    (scene : Scene) :
    (∃ results, scene.Ended results) ∨ ∃ after, Step destination path permits scene after := by
  by_cases hholding : ∃ run ∈ scene.runs, run.turn.isHolding = true
  · obtain ⟨⟨package, turn⟩, hmem, hturn⟩ := hholding
    obtain ⟨i, hrun⟩ := List.mem_iff_getElem?.mp hmem
    cases turn with
    | holding phase =>
      cases houtcome : phase.outcome? with
      | none => exact .inr ⟨_, .work 0 hrun houtcome⟩
      | some outcome =>
        obtain rfl := Phase.eq_finished_of_outcome? houtcome
        exact .inr ⟨_, .release hrun⟩
    | waiting => cases hturn
    | released outcome => cases hturn
  · have hheld : scene.held = 0 :=
      held_eq_zero fun run hmem => by simpa using fun hturn => hholding ⟨run, hmem, hturn⟩
    by_cases hwaiting : ∃ package, ⟨package, .waiting⟩ ∈ scene.runs
    · obtain ⟨package, hmem⟩ := hwaiting
      obtain ⟨i, hrun⟩ := List.mem_iff_getElem?.mp hmem
      exact .inr ⟨_, .acquire hrun (hheld ▸ hpermits)⟩
    · have hreleased : ∀ turn ∈ scene.runs.map Run.turn, ∃ outcome, Turn.released outcome = turn := by
        intro turn hmem
        obtain ⟨⟨package, turn⟩, hrun, rfl⟩ := List.mem_map.mp hmem
        cases turn with
        | waiting => exact absurd ⟨package, hrun⟩ hwaiting
        | holding phase => exact absurd ⟨_, hrun, rfl⟩ hholding
        | released outcome => exact ⟨outcome, rfl⟩
      exact .inl (exists_results hreleased)

/-- No order of steps goes on forever, and none stops before all runs are at their end. -/
theorem exists_ended (destination : Destination) (path : String) (hpermits : 0 < permits)
    (scene : Scene) :
    ∃ after results, Reaches destination path permits scene after ∧ after.Ended results := by
  rcases exists_step destination path hpermits scene with ⟨results, hended⟩ | ⟨next, hstep⟩
  · exact ⟨scene, results, .refl, hended⟩
  · have hless := stepsLeft_of_step hstep
    obtain ⟨after, results, hreaches, hended⟩ := exists_ended destination path hpermits next
    exact ⟨after, results, .head hstep hreaches, hended⟩
termination_by stepsLeft scene.runs

section

variable {package : String} {before later : List Run} {disk : Disk}

theorem getElem?_middle (before : List Run) (run : Run) (later : List Run) :
    (before ++ run :: later)[before.length]? = some run := by
  rw [List.getElem?_append_right (Nat.le_refl _), Nat.sub_self, List.getElem?_cons_zero]

theorem set_middle (before : List Run) (run run' : Run) (later : List Run) :
    (before ++ run :: later).set before.length run' = before ++ run' :: later := by
  rw [List.set_append_right _ _ (Nat.le_refl _), Nat.sub_self, List.set_cons_zero]

theorem reaches_acquire
    (hpermit : Scene.held ⟨disk, before ++ ⟨package, .waiting⟩ :: later⟩ < permits) :
    Reaches destination path permits ⟨disk, before ++ ⟨package, .waiting⟩ :: later⟩
      ⟨disk, before ++ ⟨package, .holding (.opening path)⟩ :: later⟩ := by
  have hstep : Step destination path permits ⟨disk, before ++ ⟨package, .waiting⟩ :: later⟩ _ :=
    .acquire (getElem?_middle before _ later) hpermit
  rw [set_middle] at hstep
  exact .single hstep

theorem reaches_work (now : Int) {phase : Phase Place} (hunfinished : phase.outcome? = none) :
    Reaches destination path permits ⟨disk, before ++ ⟨package, .holding phase⟩ :: later⟩
      ⟨(destination.step now package phase disk).2,
        before ++ ⟨package, .holding (destination.step now package phase disk).1⟩ :: later⟩ := by
  have hstep : Step destination path permits
      ⟨disk, before ++ ⟨package, .holding phase⟩ :: later⟩ _ :=
    .work now (getElem?_middle before _ later) hunfinished
  rw [set_middle] at hstep
  exact .single hstep

theorem reaches_release (outcome : Except RunError Report) :
    Reaches destination path permits
      ⟨disk, before ++ ⟨package, .holding (.finished outcome)⟩ :: later⟩
      ⟨disk, before ++ ⟨package, .released outcome⟩ :: later⟩ := by
  have hstep : Step destination path permits
      ⟨disk, before ++ ⟨package, .holding (.finished outcome)⟩ :: later⟩ _ :=
    .release (getElem?_middle before _ later)
  rw [set_middle] at hstep
  exact .single hstep

/-- A run that holds a permit may come to its end before any other takes a step. -/
theorem reaches_finished (destination : Destination) (path : String) (permits : Nat) (now : Int)
    (phase : Phase Place) (disk : Disk) :
    Reaches destination path permits ⟨disk, before ++ ⟨package, .holding phase⟩ :: later⟩
      ⟨(outcome (phase.rest (Disk.files now) destination package) disk).2,
        before ++ ⟨package, .holding (.finished
          (outcome (phase.rest (Disk.files now) destination package) disk).1)⟩ :: later⟩ := by
  cases houtcome : phase.outcome? with
  | some result =>
    obtain rfl := Phase.eq_finished_of_outcome? houtcome
    exact .refl
  | none =>
    have hless := destination.stepsLeft_step now package phase disk
    have hleft : phase.stepsLeft ≠ 0 := by
      intro hzero
      obtain ⟨result, rfl⟩ := Phase.eq_finished_of_stepsLeft hzero
      cases houtcome
    rw [Phase.outcome_rest (fun _ => rfl) phase]
    exact (reaches_work now houtcome).trans (reaches_finished destination path permits now _ _)
termination_by phase.stepsLeft

/-- A run may go all its way while the others stand still. -/
theorem reaches_released (destination : Destination) (path : String) (now : Int) (before : List Run)
    (hpermit : Scene.held ⟨disk, before ++ ⟨package, .waiting⟩ :: later⟩ < permits) :
    Reaches destination path permits
      ⟨disk, before ++ ⟨package, .waiting⟩ :: later⟩
      ⟨(outcome (destination.publishFrom (Disk.files now) path package) disk).2,
        before ++ ⟨package, .released
          (outcome (destination.publishFrom (Disk.files now) path package) disk).1⟩ :: later⟩ := by
  exact ((reaches_acquire hpermit).trans
    (reaches_finished destination path permits now (.opening path) disk)).trans (reaches_release _)

end

end Scene

namespace Destination

/-- Publishes several packages of the tree in a file, one after another. -/
def publishInTurn {m : Type → Type} [Monad m] {σ : Type} (destination : Destination)
    (files : Files m σ) (path : String) (packages : List String) :
    m (List (Except RunError Report)) :=
  packages.mapM fun package => (destination.publishFrom files path package).run

theorem run_publishInTurn_cons {δ σ : Type} (destination : Destination)
    (files : Files (StateM δ) σ) (path package : String) (rest : List String) (disk : δ) :
    (destination.publishInTurn files path (package :: rest)).run disk =
      let first := outcome (destination.publishFrom files path package) disk
      let others := (destination.publishInTurn files path rest).run first.2
      (first.1 :: others.1, others.2) := by
  rw [publishInTurn, List.mapM_cons]
  rfl

end Destination

namespace Scene

/-- Where none holds a permit, those that wait may publish one after another. -/
theorem reaches_inTurn_after (destination : Destination) (path : String) (now : Int)
    (hpermits : 0 < permits) (done : List Run) (hdone : ∀ run ∈ done, run.turn.isHolding = false)
    (packages : List String) (disk : Disk) :
    let inTurn := (destination.publishInTurn (Disk.files now) path packages).run disk
    ∃ runs, Reaches destination path permits ⟨disk, done ++ (start disk packages).runs⟩
        ⟨inTurn.2, done ++ runs⟩ ∧
      Ended ⟨inTurn.2, runs⟩ inTurn.1 := by
  induction packages generalizing done disk with
  | nil => exact ⟨[], .refl, rfl⟩
  | cons package rest ih =>
    let first := outcome (destination.publishFrom (Disk.files now) path package) disk
    have hheld : Scene.held ⟨disk, done ++ (start disk (package :: rest)).runs⟩ = 0 := by
      apply held_eq_zero
      intro run hmem
      rcases List.mem_append.mp hmem with hmem | hmem
      · exact hdone run hmem
      · rw [turn_of_mem_start hmem]
        rfl
    have hfirst := reaches_released destination path now done (hheld ▸ hpermits)
    have hdone' : ∀ run ∈ done ++ [⟨package, .released first.1⟩], run.turn.isHolding = false := by
      intro run hmem
      rcases List.mem_append.mp hmem with hmem | hmem
      · exact hdone run hmem
      · rw [List.mem_singleton.mp hmem]
        rfl
    obtain ⟨runs, hreaches, hended⟩ := ih _ hdone' first.2
    rw [List.append_assoc, List.append_assoc] at hreaches
    rw [Destination.run_publishInTurn_cons]
    exact ⟨⟨package, .released first.1⟩ :: runs, hfirst.trans hreaches, hended.cons package first.1⟩

/-- To publish packages one after another is one of the orders. -/
theorem reaches_inTurn (destination : Destination) (path : String) (now : Int)
    (hpermits : 0 < permits) (packages : List String) (disk : Disk) :
    let inTurn := (destination.publishInTurn (Disk.files now) path packages).run disk
    ∃ runs, Reaches destination path permits (start disk packages) ⟨inTurn.2, runs⟩ ∧
      Ended ⟨inTurn.2, runs⟩ inTurn.1 :=
  reaches_inTurn_after destination path now hpermits [] (by simp) packages disk

end Scene

end GettextTemplate
