import GettextTemplate.Proofs.Interleavings
import GettextTemplate.Proofs.Seats
import GettextTemplate.Proofs.Tracks

/-!
What holds while runs take turns. Until a run has tried to make the folder the disk is as it was at
first (`Unprepared`). From then on it is the disk with the folder, but for the texts at the seats of
the runs (`Prepared`). Each step of a run keeps it so (`Prepared.of_step`), and so at any time each
run finds what it would find if it were alone.
-/

namespace GettextTemplate

namespace Destination

/-- Whether packages may be published side by side. Their templates do not tell the time, they stand
in one folder, and none of them is the file that all runs read. -/
structure Admits (destination : Destination) (path : String) (disk : Disk)
    (packages : List String) : Prop where
  noHeader : destination.format.hasHeader = false
  extension : destination.format.extension = "pot"
  noSlash : ∀ package ∈ packages, '/' ∉ package.toList
  apart : ∀ package ∈ packages, ∀ place, disk.find (.ofText path) = .ok place →
    (destination.prepared disk).find (destination.path package) ≠ .ok place

/-- What the attempt of run `i` to make the folder comes to when run `k` is the first to try. -/
def attemptOf (destination : Destination) (disk : Disk) (k i : Nat) : Except FileError Unit :=
  if i = k then destination.attempt disk else destination.attempt (destination.prepared disk)

variable {destination : Destination} {disk : Disk} {k i : Nat}

/-- Either all runs can make the folder or none can. -/
theorem isOk_attemptOf : (destination.attemptOf disk k i).isOk =
    (destination.attempt (destination.prepared disk)).isOk := by
  rw [attemptOf]
  split
  · exact isOk_attempt_prepared.symm
  · rfl

theorem attemptOf_eq_ok_iff : destination.attemptOf disk k i = .ok () ↔
    destination.attempt (destination.prepared disk) = .ok () := by
  rw [eq_ok_iff, eq_ok_iff, isOk_attemptOf]

end Destination

namespace Turn

/-- Whether the run has been past making the folder. -/
def hasPrepared : Turn → Bool
  | .holding (.staging ..) | .holding (.committing ..) | .holding (.finished _) | .released _ => true
  | _ => false

/-- The phase of a run that has got its permit. -/
def phase? : Turn → Option (Phase Place)
  | .waiting => none
  | .holding phase => some phase
  | .released outcome => some (.finished outcome)

end Turn

namespace Run

variable (destination : Destination) (path : String) (disk : Disk)

/-- Where the text of a run stands. -/
def seat? (run : Run) : Option Seat := do
  let c ← (disk.gathered path run.package).toOption
  let content := utf8 (destination.textOf c)
  match ← run.turn.phase? with
  | .committing _ staged => return ⟨staged, content, true⟩
  | .finished (.ok _) =>
    let place ← ((destination.prepared disk).target (destination.path run.package)).toOption
    return ⟨place, content, false⟩
  | _ => none

variable {destination path disk}

theorem seat?_eq_some {run : Run} {seat : Seat} (h : run.seat? destination path disk = some seat) :
    ∃ c, disk.gathered path run.package = .ok c ∧ seat.content = utf8 (destination.textOf c) ∧
      (seat.isStaged = true →
        ∃ counts, run.turn.phase? = some (.committing counts seat.place)) ∧
      (seat.isStaged = false →
        (destination.prepared disk).target (destination.path run.package) = .ok seat.place) := by
  unfold seat? at h
  cases hgathers : disk.gathered path run.package with
  | error e => simp [hgathers, Except.toOption] at h
  | ok c =>
    refine ⟨c, rfl, ?_⟩
    cases hphase : run.turn.phase? with
    | none => simp [hgathers, hphase, Except.toOption] at h
    | some phase =>
      simp only [hgathers, hphase, Except.toOption, Option.bind_eq_bind, Option.bind_some] at h
      split at h
      · cases h
        exact ⟨rfl, fun _ => ⟨_, rfl⟩, fun hstaged => Bool.noConfusion hstaged⟩
      · cases htarget : (destination.prepared disk).target (destination.path run.package) with
        | error e => simp [htarget] at h
        | ok place =>
          simp only [htarget, Option.bind_some] at h
          cases h
          exact ⟨rfl, fun hstaged => Bool.noConfusion hstaged, fun _ => rfl⟩
      · cases h

theorem seat?_eq_none {run : Run}
    (hcommitting : ∀ counts staged, run.turn.phase? ≠ some (.committing counts staged))
    (hfinished : ∀ report, run.turn.phase? ≠ some (.finished (.ok report))) :
    run.seat? destination path disk = none := by
  unfold seat?
  cases hgathers : disk.gathered path run.package with
  | error e => rfl
  | ok c =>
    cases hphase : run.turn.phase? with
    | none => rfl
    | some phase =>
      simp only [Except.toOption, Option.bind_eq_bind, Option.bind_some]
      split
      · exact absurd hphase (hcommitting _ _)
      · exact absurd hphase (hfinished _)
      · rfl

theorem seat?_of_onTrack {package : String} {turn : Turn}
    (h : ∀ phase ∈ turn.phase?, destination.OnTrack path disk none package phase) :
    seat? destination path disk ⟨package, turn⟩ = none := by
  apply seat?_eq_none
  · intro counts staged hphase
    cases h _ hphase with
    | committing _ makes => cases makes
  · intro report hphase
    generalize hfinished : Phase.finished (.ok report) = phase at hphase
    cases h _ hphase with
    | finished _ makes => cases makes
    | _ => cases hfinished

section

variable (run : Run) {c : Collection}

theorem seat?_committing (hgathers : disk.gathered path run.package = .ok c) {counts : Counts}
    {staged : Place} (hphase : run.turn.phase? = some (.committing counts staged)) :
    run.seat? destination path disk = some ⟨staged, utf8 (destination.textOf c), true⟩ := by
  rw [seat?, hgathers, hphase]
  rfl

theorem seat?_finished (hgathers : disk.gathered path run.package = .ok c) {report : Report}
    (hphase : run.turn.phase? = some (.finished (.ok report))) {place : Place}
    (htarget : (destination.prepared disk).target (destination.path run.package) = .ok place) :
    run.seat? destination path disk = some ⟨place, utf8 (destination.textOf c), false⟩ := by
  rw [seat?, hgathers, hphase]
  simp [Except.toOption, htarget]

end

end Run

namespace Scene

section

variable (destination : Destination) (path : String) (disk : Disk) (packages : List String)

/-- The seats of the runs. -/
def seats (runs : List Run) (i : Nat) : Option Seat := do
  let run ← runs[i]?
  run.seat? destination path disk

/-- No run has tried to make the folder. -/
structure Unprepared (scene : Scene) : Prop where
  named : scene.runs.map Run.package = packages
  unchanged : scene.disk = disk
  onTrack : ∀ run ∈ scene.runs, ∀ phase ∈ run.turn.phase?,
    destination.OnTrack path disk none run.package phase

/-- Run `k` was the first to try to make the folder. -/
structure Prepared (k : Nat) (scene : Scene) : Prop where
  named : scene.runs.map Run.package = packages
  onTrack : ∀ i run, scene.runs[i]? = some run → ∀ phase ∈ run.turn.phase?,
    destination.OnTrack path disk (some (destination.attemptOf disk k i)) run.package phase
  leader : ∃ run c, scene.runs[k]? = some run ∧ disk.gathered path run.package = .ok c ∧
    run.turn.hasPrepared = true
  seated : Disk.Seated (destination.prepared disk) (seats destination path disk scene.runs) scene.disk
  closed : ¬ destination.IsOpen disk → scene.disk = destination.prepared disk

end

variable {destination : Destination} {path : String} {disk : Disk} {packages : List String}
  {scene after : Scene} {permits i k : Nat} {run : Run} {turn : Turn}

theorem seats_eq (hrun : scene.runs[i]? = some run) :
    seats destination path disk scene.runs i = run.seat? destination path disk := by
  rw [seats, hrun]
  rfl

theorem seats_set {runs : List Run} (hrun : runs[i]? = some run) (run' : Run) :
    seats destination path disk (runs.set i run') =
      Function.update (seats destination path disk runs) i (run'.seat? destination path disk) := by
  funext j
  obtain ⟨hlength, -⟩ := List.getElem?_eq_some_iff.mp hrun
  by_cases hj : j = i
  · subst hj
    rw [Function.update_self, seats, List.getElem?_set_self hlength]
    rfl
  · rw [Function.update_of_ne hj, seats, List.getElem?_set_ne (Ne.symm hj)]
    rfl

namespace Prepared

/-- How one run takes another turn. -/
theorem set (h : Prepared destination path disk packages k scene) (hrun : scene.runs[i]? = some run)
    {later : Disk}
    (htrack : ∀ phase ∈ turn.phase?,
      destination.OnTrack path disk (some (destination.attemptOf disk k i)) run.package phase)
    (hprepared : run.turn.hasPrepared = true → turn.hasPrepared = true)
    (hseated : Disk.Seated (destination.prepared disk)
      (Function.update (seats destination path disk scene.runs) i
        (Run.seat? destination path disk ⟨run.package, turn⟩)) later)
    (hclosed : ¬ destination.IsOpen disk → later = destination.prepared disk) :
    Prepared destination path disk packages k ⟨later, scene.runs.set i ⟨run.package, turn⟩⟩ := by
  obtain ⟨hlength, -⟩ := List.getElem?_eq_some_iff.mp hrun
  constructor
  case named => exact (map_package_set hrun turn).trans h.named
  case onTrack =>
    intro j run' hrun'
    by_cases hj : j = i
    · subst hj
      rw [List.getElem?_set_self hlength] at hrun'
      cases hrun'
      exact htrack
    · rw [List.getElem?_set_ne (Ne.symm hj)] at hrun'
      exact h.onTrack j run' hrun'
  case leader =>
    obtain ⟨leader, c, hleader, hgathers, hpast⟩ := h.leader
    by_cases hk : k = i
    · subst hk
      rw [hrun] at hleader
      cases hleader
      exact ⟨_, c, List.getElem?_set_self hlength, hgathers, hprepared hpast⟩
    · exact ⟨leader, c, (List.getElem?_set_ne (Ne.symm hk)).trans hleader, hgathers, hpast⟩
  case seated => exact seats_set hrun _ ▸ hseated
  case closed => exact hclosed

/-- A turn that leaves the disk as it is. -/
theorem set_of_seat?_eq (h : Prepared destination path disk packages k scene)
    (hrun : scene.runs[i]? = some run)
    (htrack : ∀ phase ∈ turn.phase?,
      destination.OnTrack path disk (some (destination.attemptOf disk k i)) run.package phase)
    (hprepared : run.turn.hasPrepared = true → turn.hasPrepared = true)
    (hseat : Run.seat? destination path disk ⟨run.package, turn⟩ =
      seats destination path disk scene.runs i) :
    Prepared destination path disk packages k
      ⟨scene.disk, scene.runs.set i ⟨run.package, turn⟩⟩ := by
  refine h.set hrun htrack hprepared ?_ h.closed
  rw [hseat, Function.update_eq_self]
  exact h.seated

section

variable (hadmits : destination.Admits path disk packages)
  (h : Prepared destination path disk packages k scene)

include h

theorem mem_packages (hrun : scene.runs[i]? = some run) : run.package ∈ packages := by
  rw [← h.named]
  exact List.mem_map_of_mem (List.mem_of_getElem? hrun)

include hadmits

/-- No run has touched the file that all runs read. -/
theorem read_eq : scene.disk.read (.ofText path) = disk.read (.ofText path) := by
  obtain ⟨leader, c, -, hgathers, -⟩ := h.leader
  obtain ⟨place, content, hfind, hitem⟩ := Disk.exists_file_of_gathered hgathers
  have hgrows : Disk.Grows disk (destination.prepared disk) := Destination.grows_prepared
  have hbase := hgrows.kept place _ hitem
  have hkept : scene.disk.item? place = some (.file content) := by
    rw [h.seated.vacant place, hbase]
    rintro i seat hseat rfl
    obtain ⟨run, hrun, hseat'⟩ := Option.bind_eq_some_iff.mp hseat
    obtain ⟨-, -, -, -, htarget⟩ := Run.seat?_eq_some hseat'
    cases hstaged : seat.isStaged with
    | true =>
      rw [(h.seated.fresh i seat hseat hstaged).1] at hbase
      cases hbase
    | false =>
      obtain ⟨-, hfound, -⟩ := Disk.target_eq_ok_iff.mp (htarget hstaged)
      exact hadmits.apart run.package (h.mem_packages hrun) seat.place hfind hfound
  have hfind' := h.seated.sameDirectories.keeps.find (hgrows.keepsDirectories.find hfind)
  rw [Disk.read_eq_ok hfind' hkept, Disk.read_eq_ok hfind hitem]

end

/-- Another attempt to make the folder changes nothing. -/
theorem attempt_eq (h : Prepared destination path disk packages k scene) :
    destination.attempt scene.disk = destination.attempt (destination.prepared disk) ∧
      destination.prepared scene.disk = scene.disk := by
  by_cases hopen : destination.IsOpen disk
  · have hmade : outcome ((Disk.files 0).makeDirectories destination.folder)
        (destination.prepared disk) = (.ok (), destination.prepared disk) := by
      rw [Destination.outcome_makeDirectories]
      exact Prod.ext hopen.1 Destination.prepared_prepared
    have hagain := Files.makeDirectories_of_keepsDirectories 0 0 hmade h.seated.sameDirectories.keeps
    rw [Destination.outcome_makeDirectories] at hagain
    exact ⟨(congrArg Prod.fst hagain).trans hopen.1.symm, congrArg Prod.snd hagain⟩
  · rw [h.closed hopen, Destination.prepared_prepared]
    exact ⟨rfl, rfl⟩

/-- Who has not got as far as making the folder did not do so first. -/
theorem ne_leader (h : Prepared destination path disk packages k scene)
    (hrun : scene.runs[i]? = some run) (hturn : run.turn.hasPrepared = false) : i ≠ k := by
  rintro rfl
  obtain ⟨leader, c, hleader, -, hpast⟩ := h.leader
  rw [hrun] at hleader
  rw [← Option.some.inj hleader, hturn] at hpast
  cases hpast

section

variable {package : String} {c : Collection}

/-- A step of a run that has not come to the folder and does not come past it. -/
theorem of_onTrack (h : Prepared destination path disk packages k scene)
    {phase next : Phase Place} (hrun : scene.runs[i]? = some ⟨package, .holding phase⟩)
    (hturn : Turn.hasPrepared (.holding phase) = false)
    (hphase : destination.OnTrack path disk none package phase)
    (hnext : destination.OnTrack path disk none package next) :
    Prepared destination path disk packages k
      ⟨scene.disk, scene.runs.set i ⟨package, .holding next⟩⟩ := by
  refine h.set_of_seat?_eq hrun ?_ (by simp [hturn]) ?_
  · rintro _ ⟨⟩
    exact hnext.of_none _
  · have hnone {phase : Phase Place} (hphase : destination.OnTrack path disk none package phase) :
        Run.seat? destination path disk ⟨package, .holding phase⟩ = none := by
      apply Run.seat?_of_onTrack
      rintro _ ⟨⟩
      exact hphase
    rw [seats_eq hrun, hnone hphase, hnone hnext]

theorem of_preparing (hadmits : destination.Admits path disk packages)
    (h : Prepared destination path disk packages k scene) (now : Int)
    (hrun : scene.runs[i]? = some ⟨package, .holding (.preparing c.counts (destination.textOf c))⟩)
    (hgathers : disk.gathered path package = .ok c) :
    let next := destination.step now package (.preparing c.counts (destination.textOf c)) scene.disk
    Prepared destination path disk packages k
      ⟨next.2, scene.runs.set i ⟨package, .holding next.1⟩⟩ := by
  have hpackage := hadmits.noSlash package (h.mem_packages hrun)
  have hmade : destination.attemptOf disk k i = destination.attempt (destination.prepared disk) :=
    if_neg (h.ne_leader hrun rfl)
  dsimp only
  rw [Destination.step_preparing now hadmits.extension hpackage, h.attempt_eq.1, h.attempt_eq.2]
  dsimp only
  refine h.set_of_seat?_eq hrun ?_ nofun ?_
  · rintro _ ⟨⟩
    rw [hmade]
    exact .of_made hgathers _
  · rw [(seats_eq hrun).trans (Run.seat?_eq_none nofun nofun)]
    cases destination.attempt (destination.prepared disk) with
    | error e => exact Run.seat?_eq_none nofun nofun
    | ok _ => exact Run.seat?_eq_none nofun nofun

theorem of_staging (hadmits : destination.Admits path disk packages)
    (h : Prepared destination path disk packages k scene) (now : Int)
    (hrun : scene.runs[i]? = some ⟨package, .holding (.staging c.counts (destination.textOf c))⟩)
    (hgathers : disk.gathered path package = .ok c)
    (hmakes : destination.attemptOf disk k i = .ok ()) :
    let next := destination.step now package (.staging c.counts (destination.textOf c)) scene.disk
    Prepared destination path disk packages k
      ⟨next.2, scene.runs.set i ⟨package, .holding next.1⟩⟩ := by
  have hpackage := hadmits.noSlash package (h.mem_packages hrun)
  have hnone : seats destination path disk scene.runs i = none :=
    (seats_eq hrun).trans (Run.seat?_eq_none nofun nofun)
  dsimp only
  by_cases hopen : destination.IsOpen disk
  · obtain ⟨staged, hfree, hnamed, hstep⟩ := Destination.step_staging now hadmits.extension hpackage
      hopen h.seated.sameDirectories c.counts (destination.textOf c)
    have hvacant : (destination.prepared disk).item? staged = none := by
      rw [← h.seated.vacant staged, hfree]
      exact fun j seat hseat => h.seated.ne_of_item?_eq_none hfree hseat
    rw [hstep]
    refine h.set hrun ?_ (fun _ => rfl) ?_ (absurd hopen)
    · rintro _ ⟨⟩
      exact .committing hgathers (congrArg some hmakes) hopen
    · have hseat : Run.seat? destination path disk
          ⟨package, .holding (.committing c.counts staged)⟩ =
            some ⟨staged, utf8 (destination.textOf c), true⟩ :=
        Run.seat?_committing ⟨package, _⟩ hgathers rfl
      rw [hseat]
      refine h.seated.put hnone _ ?_ (fun _ => ⟨hvacant, hnamed⟩) ?_
      · rw [hvacant]
        nofun
      · exact fun j other hother hplace =>
          absurd hplace (h.seated.ne_of_item?_eq_none hfree hother)
  · have hclosed : (destination.prepared disk).isDirectory destination.folder = false := by
      have hmade := Destination.attemptOf_eq_ok_iff.mp hmakes
      simpa [Destination.IsOpen, hmade] using hopen
    obtain ⟨e, hending, hstep⟩ :=
      Destination.step_staging_closed now hadmits.extension hpackage hgathers hclosed
    have hdisk := h.closed hopen
    rw [hdisk, hstep, ← hdisk]
    refine h.set_of_seat?_eq hrun ?_ (fun _ => rfl) ?_
    · rintro _ ⟨⟩
      rw [← hending]
      exact .finished hgathers (congrArg some hmakes)
    · rw [hnone]
      exact Run.seat?_eq_none nofun nofun

/-- Only texts of one package can come to one target, and these are the same. -/
theorem content_of_target (hadmits : destination.Admits path disk packages)
    (h : Prepared destination path disk packages k scene) (hopen : destination.IsOpen disk)
    (hmem : package ∈ packages) (hgathers : disk.gathered path package = .ok c) {j : Nat}
    {other : Seat}
    (htarget : (destination.prepared disk).target (destination.path package) = .ok other.place)
    (hother : seats destination path disk scene.runs j = some other) :
    other.isStaged = false ∧ other.content = utf8 (destination.textOf c) := by
  obtain ⟨top, hfolder, htop⟩ := Disk.isDirectory_iff.mp hopen.2
  have hplace := Destination.eq_of_target hadmits.extension (hadmits.noSlash package hmem) hfolder
    htop htarget
  obtain ⟨run, hrun, hseat⟩ := Option.bind_eq_some_iff.mp hother
  obtain ⟨c', hgathers', hcontent, -, htarget'⟩ := Run.seat?_eq_some hseat
  cases hstaged : other.isStaged with
  | true => exact absurd hplace ((h.seated.fresh j other hother hstaged).2.ne_template package)
  | false =>
    have hplace' := Destination.eq_of_target hadmits.extension
      (hadmits.noSlash run.package (h.mem_packages hrun)) hfolder htop (htarget' hstaged)
    have hname : package = run.package := by
      have hnames := (List.cons.inj (hplace.symm.trans hplace')).1
      rw [← String.toList_inj, String.toList_append, String.toList_append] at hnames
      exact String.toList_inj.mp (List.append_cancel_right hnames)
    rw [← hname, hgathers] at hgathers'
    exact ⟨rfl, by rw [hcontent, Except.ok.inj hgathers']⟩

theorem of_committing (hadmits : destination.Admits path disk packages)
    (h : Prepared destination path disk packages k scene) (now : Int) {staged : Place}
    (hrun : scene.runs[i]? = some ⟨package, .holding (.committing c.counts staged)⟩)
    (hgathers : disk.gathered path package = .ok c)
    (hmakes : destination.attemptOf disk k i = .ok ()) (hopen : destination.IsOpen disk) :
    let next := destination.step now package (.committing c.counts staged) scene.disk
    Prepared destination path disk packages k
      ⟨next.2, scene.runs.set i ⟨package, .holding next.1⟩⟩ := by
  have hpackage := hadmits.noSlash package (h.mem_packages hrun)
  have hseat : seats destination path disk scene.runs i =
      some ⟨staged, utf8 (destination.textOf c), true⟩ :=
    (seats_eq hrun).trans (Run.seat?_committing ⟨package, _⟩ hgathers rfl)
  have hremoved := h.seated.remove hseat rfl
  have hstep := Destination.step_committing now hadmits.extension hpackage hgathers hopen
    h.seated.sameDirectories (h.seated.held i _ hseat)
  have hending : destination.ending path disk (.ok ()) package = _ :=
    Destination.ending_of_made hgathers
  rw [Destination.placed_of_isDirectory hopen.2] at hending
  have htrack : destination.OnTrack path disk (some (destination.attemptOf disk k i)) package
      (.finished (destination.ending path disk (.ok ()) package)) :=
    .finished hgathers (congrArg some hmakes)
  dsimp only
  rw [hstep]
  cases htarget : (destination.prepared disk).target (destination.path package) with
  | error e =>
    rw [htarget] at hending
    rw [hending] at htrack ⊢
    refine h.set hrun ?_ (fun _ => rfl) ?_ (absurd hopen)
    · rintro _ ⟨⟩
      exact htrack
    · have hnone : Run.seat? destination path disk
          ⟨package, .holding (.finished (.error (.file e.message)))⟩ = none :=
        Run.seat?_eq_none nofun nofun
      rw [hnone]
      exact hremoved
  | ok place =>
    rw [htarget] at hending
    rw [hending] at htrack ⊢
    refine h.set hrun ?_ (fun _ => rfl) ?_ (absurd hopen)
    · rintro _ ⟨⟩
      exact htrack
    · have hseat' : Run.seat? destination path disk
          ⟨package, .holding (.finished (.ok (destination.report package c.counts)))⟩ =
            some ⟨place, utf8 (destination.textOf c), false⟩ :=
        Run.seat?_finished ⟨package, _⟩ hgathers rfl htarget
      rw [hseat']
      let target : Seat := ⟨place, utf8 (destination.textOf c), false⟩
      have hothers : ∀ j other, Function.update (seats destination path disk scene.runs) i none j =
          some other → other.place = target.place →
            other.isStaged = false ∧ target.isStaged = false ∧ other.content = target.content := by
        intro j other hother hplace
        have hj : j ≠ i := by
          rintro rfl
          simp at hother
        rw [Function.update_of_ne hj] at hother
        obtain ⟨hstaged, hcontent⟩ :=
          h.content_of_target hadmits hopen (h.mem_packages hrun) hgathers (hplace ▸ htarget) hother
        exact ⟨hstaged, rfl, hcontent⟩
      obtain ⟨-, -, hfit⟩ := Disk.target_eq_ok_iff.mp htarget
      have hput := hremoved.put (Function.update_self ..) target hfit nofun hothers
      rw [Function.update_idem] at hput
      exact hput

end

/-- No step of any run undoes what another has done. -/
theorem of_step (hadmits : destination.Admits path disk packages)
    (h : Prepared destination path disk packages k scene)
    (hstep : Step destination path permits scene after) :
    Prepared destination path disk packages k after := by
  cases hstep with
  | acquire waits permit =>
    refine h.set_of_seat?_eq waits ?_ nofun ?_
    · rintro _ ⟨⟩
      exact .opening
    · rw [(seats_eq waits).trans (Run.seat?_eq_none nofun nofun)]
      exact Run.seat?_eq_none nofun nofun
  | release holds =>
    refine h.set_of_seat?_eq holds ?_ (fun _ => rfl) (seats_eq holds).symm
    exact h.onTrack _ _ holds
  | @work i package phase now holds unfinished =>
    have htrack : destination.OnTrack path disk _ package phase := h.onTrack _ _ holds _ rfl
    cases htrack with
    | opening =>
      obtain ⟨next, hstep, hnext⟩ := Destination.step_opening now (h.read_eq hadmits)
      rw [hstep]
      exact h.of_onTrack holds rfl .opening hnext
    | collecting opens =>
      obtain ⟨next, hstep, hnext⟩ := Destination.step_collecting now hadmits.noHeader opens
      rw [hstep]
      exact h.of_onTrack holds rfl (.collecting opens) hnext
    | preparing gathers => exact h.of_preparing hadmits now holds gathers
    | staging gathers makes => exact h.of_staging hadmits now holds gathers (Option.some.inj makes)
    | committing gathers makes isOpen =>
      exact h.of_committing hadmits now holds gathers (Option.some.inj makes) isOpen
    | refused refuses => cases unfinished
    | finished gathers makes => cases unfinished

theorem of_reaches (hadmits : destination.Admits path disk packages)
    (h : Prepared destination path disk packages k scene)
    (hreaches : Reaches destination path permits scene after) :
    Prepared destination path disk packages k after := by
  induction hreaches with
  | refl => exact h
  | tail _ hstep ih => exact ih.of_step hadmits hstep

end Prepared

namespace Unprepared

theorem start (destination : Destination) (path : String) (disk : Disk) (packages : List String) :
    Unprepared destination path disk packages (start disk packages) where
  named := packages_start disk packages
  unchanged := rfl
  onTrack run hrun phase hphase := by
    obtain ⟨package, -, rfl⟩ := List.mem_map.mp hrun
    cases hphase

theorem of_onTrack (h : Unprepared destination path disk packages scene)
    (hrun : scene.runs[i]? = some run)
    (htrack : ∀ phase ∈ turn.phase?, destination.OnTrack path disk none run.package phase) :
    Unprepared destination path disk packages
      ⟨scene.disk, scene.runs.set i ⟨run.package, turn⟩⟩ where
  named := (map_package_set hrun turn).trans h.named
  unchanged := h.unchanged
  onTrack run' hrun' := by
    rcases List.mem_or_eq_of_mem_set hrun' with hold | rfl
    · exact h.onTrack run' hold
    · exact htrack

theorem seats_eq_none (h : Unprepared destination path disk packages scene) (j : Nat) :
    seats destination path disk scene.runs j = none := by
  cases hrun : scene.runs[j]? with
  | none =>
    rw [seats, hrun]
    rfl
  | some run =>
    rw [seats_eq hrun]
    exact Run.seat?_of_onTrack (h.onTrack run (List.mem_of_getElem? hrun))

/-- The first run that tries to make the folder makes it for all others. -/
theorem of_preparing (hadmits : destination.Admits path disk packages)
    (h : Unprepared destination path disk packages scene) (now : Int) {package : String}
    {c : Collection}
    (hrun : scene.runs[i]? = some ⟨package, .holding (.preparing c.counts (destination.textOf c))⟩)
    (hgathers : disk.gathered path package = .ok c) :
    let next := destination.step now package (.preparing c.counts (destination.textOf c)) scene.disk
    Prepared destination path disk packages i
      ⟨next.2, scene.runs.set i ⟨package, .holding next.1⟩⟩ := by
  have hmem : package ∈ packages := by
    rw [← h.named]
    exact List.mem_map_of_mem (List.mem_of_getElem? hrun)
  have hmade : destination.attemptOf disk i i = destination.attempt disk := if_pos rfl
  have hnext : destination.OnTrack path disk _ package _ :=
    Destination.OnTrack.of_made hgathers (destination.attempt disk)
  obtain ⟨hlength, -⟩ := List.getElem?_eq_some_iff.mp hrun
  dsimp only
  rw [Destination.step_preparing now hadmits.extension (hadmits.noSlash package hmem), h.unchanged]
  dsimp only
  constructor
  case named => exact (map_package_set hrun _).trans h.named
  case onTrack =>
    intro j run hrun'
    by_cases hj : j = i
    · subst hj
      rw [List.getElem?_set_self hlength] at hrun'
      cases hrun'
      rintro _ ⟨⟩
      rw [hmade]
      exact hnext
    · rw [List.getElem?_set_ne (Ne.symm hj)] at hrun'
      intro phase hphase
      exact (h.onTrack run (List.mem_of_getElem? hrun') phase hphase).of_none _
  case leader =>
    refine ⟨_, c, List.getElem?_set_self hlength, hgathers, ?_⟩
    cases destination.attempt disk <;> rfl
  case seated =>
    apply Disk.Seated.of_none
    intro j
    rw [seats_set hrun]
    by_cases hj : j = i
    · rw [hj, Function.update_self]
      cases destination.attempt disk with
      | error e => exact Run.seat?_eq_none nofun nofun
      | ok _ => exact Run.seat?_eq_none nofun nofun
    · rw [Function.update_of_ne hj]
      exact h.seats_eq_none j
  case closed => exact fun _ => rfl

theorem of_step (hadmits : destination.Admits path disk packages)
    (h : Unprepared destination path disk packages scene)
    (hstep : Step destination path permits scene after) :
    Unprepared destination path disk packages after ∨
      ∃ k, Prepared destination path disk packages k after := by
  cases hstep with
  | acquire waits permit =>
    refine .inl (h.of_onTrack waits ?_)
    rintro _ ⟨⟩
    exact .opening
  | release holds => exact .inl (h.of_onTrack holds (h.onTrack _ (List.mem_of_getElem? holds)))
  | @work i package phase now holds unfinished =>
    have htrack : destination.OnTrack path disk none package phase :=
      h.onTrack _ (List.mem_of_getElem? holds) _ rfl
    cases htrack with
    | opening =>
      obtain ⟨next, hstep, hnext⟩ := Destination.step_opening now
        (congrArg (Disk.read · (.ofText path)) h.unchanged)
      rw [hstep]
      refine .inl (h.of_onTrack holds ?_)
      rintro _ ⟨⟩
      exact hnext
    | collecting opens =>
      obtain ⟨next, hstep, hnext⟩ := Destination.step_collecting now hadmits.noHeader opens
      rw [hstep]
      refine .inl (h.of_onTrack holds ?_)
      rintro _ ⟨⟩
      exact hnext
    | preparing gathers => exact .inr ⟨_, h.of_preparing hadmits now holds gathers⟩
    | staging gathers makes => cases makes
    | committing gathers makes isOpen => cases makes
    | refused refuses => cases unfinished
    | finished gathers makes => cases unfinished

theorem of_reaches (hadmits : destination.Admits path disk packages)
    (h : Unprepared destination path disk packages scene)
    (hreaches : Reaches destination path permits scene after) :
    Unprepared destination path disk packages after ∨
      ∃ k, Prepared destination path disk packages k after := by
  induction hreaches with
  | refl => exact .inl h
  | tail _ hstep ih =>
    rcases ih with hunprepared | ⟨k, hprepared⟩
    · exact hunprepared.of_step hadmits hstep
    · exact .inr ⟨k, hprepared.of_step hadmits hstep⟩

end Unprepared

end Scene

end GettextTemplate
