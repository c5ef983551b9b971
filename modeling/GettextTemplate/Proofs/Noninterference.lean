import GettextTemplate.Proofs.Coexistence
import GettextTemplate.Proofs.Sweeps

/-!
What becomes of runs that take turns. The disk that they leave does not depend on the order of their
steps, and each run comes to what it comes to alone, or at least to another refusal to write. They
might as well have followed one another, with the first that came to the folder in front
(`runs_do_not_interfere`).
-/

namespace GettextTemplate

namespace Destination

variable {destination : Destination} {path package : String} {disk : Disk}
  {packages order : List String}

theorem Admits.of_subset (h : destination.Admits path disk packages) (hsubset : order ⊆ packages) :
    destination.Admits path disk order where
  noHeader := h.noHeader
  extension := h.extension
  noSlash package hmem := h.noSlash package (hsubset hmem)
  apart package hmem := h.apart package (hsubset hmem)

theorem ending_of_refused {e : RunError} (h : disk.gathered path package = .error e)
    (made : Except FileError Unit) : destination.ending path disk made package = .error e := by
  rw [ending, h]

/-- Runs of a package that can all make the folder, or that all cannot, come to the same but for what
is said about the folder. -/
theorem ending_agrees {made made' : Except FileError Unit} (h : made.isOk = made'.isOk) :
    destination.ending path disk made package = destination.ending path disk made' package ∨
      ∃ reason reason', destination.ending path disk made package = .error (.file reason) ∧
        destination.ending path disk made' package = .error (.file reason') := by
  cases hgathers : disk.gathered path package with
  | error e =>
    rw [ending_of_refused hgathers, ending_of_refused hgathers]
    exact .inl rfl
  | ok c =>
    rcases made with e | _ <;> rcases made' with e' | _
    · refine .inr ⟨e.message, e'.message, ?_, ?_⟩ <;> rw [ending, hgathers] <;> rfl
    · cases h
    · cases h
    · exact .inl rfl

end Destination

namespace Scene

variable {destination : Destination} {path : String} {disk : Disk} {packages order : List String}
  {scene after : Scene} {permits i k : Nat} {run : Run} {package : String} {rest : List String}
  {c : Collection} {results results' : List (Except RunError Report)}

theorem Ended.getElem? (hended : scene.Ended results) (i : Nat) :
    (scene.runs[i]?).map Run.turn = (results[i]?).map Turn.released := by
  rw [← List.getElem?_map, ← List.getElem?_map, hended]

theorem Ended.exists_result (hended : scene.Ended results) (hrun : scene.runs[i]? = some run) :
    ∃ result, results[i]? = some result ∧ run.turn.phase? = some (.finished result) := by
  have hi := hended.getElem? i
  rw [hrun] at hi
  obtain ⟨result, hresult, hturn⟩ := Option.map_eq_some_iff.mp hi.symm
  refine ⟨result, hresult, ?_⟩
  rw [← hturn]
  rfl

/-- The results of runs that have been on track to their ends. -/
theorem Ended.results_eq (hended : scene.Ended results)
    (hnamed : scene.runs.map Run.package = packages) (made : Nat → Except FileError Unit)
    (htrack : ∀ i run, scene.runs[i]? = some run → ∀ phase ∈ run.turn.phase?,
      destination.OnTrack path disk (some (made i)) run.package phase) :
    results = packages.mapIdx fun i package => destination.ending path disk (made i) package := by
  apply List.ext_getElem?
  intro i
  rw [List.getElem?_mapIdx, ← hnamed, List.getElem?_map, Option.map_map]
  cases hrun : scene.runs[i]? with
  | none =>
    have hi := hended.getElem? i
    rw [hrun] at hi
    simpa using hi.symm
  | some run =>
    obtain ⟨result, hresult, hphase⟩ := hended.exists_result hrun
    rw [hresult, (htrack i run hrun _ hphase).ending_eq]
    rfl

namespace Unprepared

/-- Unless a run has come to the folder, none has collected anything. -/
theorem refused (h : Unprepared destination path disk packages scene)
    (hended : scene.Ended results) {package : String} (hmem : package ∈ packages) :
    ∃ e, disk.gathered path package = .error e := by
  rw [← h.named] at hmem
  obtain ⟨run, hrun, rfl⟩ := List.mem_map.mp hmem
  obtain ⟨i, hrun'⟩ := List.mem_iff_getElem?.mp hrun
  obtain ⟨result, -, hphase⟩ := hended.exists_result hrun'
  exact (h.onTrack run hrun _ hphase).refuses

theorem results_eq (h : Unprepared destination path disk packages scene)
    (hended : scene.Ended results) (made : Except FileError Unit) :
    results = packages.map (destination.ending path disk made) := by
  rw [hended.results_eq h.named (fun _ => made) fun _ run hrun phase hphase =>
    (h.onTrack run (List.mem_of_getElem? hrun) phase hphase).of_none _]
  exact List.mapIdx_eq_iff.mpr fun i => List.getElem?_map

end Unprepared

/-- Whether the template of a package comes to stand at a place. -/
def Writes (destination : Destination) (path : String) (disk : Disk) (package : String)
    (c : Collection) (place : Place) : Prop :=
  disk.gathered path package = .ok c ∧ destination.IsOpen disk ∧
    (destination.prepared disk).target (destination.path package) = .ok place

namespace Prepared

theorem exists_gathered (h : Prepared destination path disk packages k scene) :
    ∃ package c, packages[k]? = some package ∧ disk.gathered path package = .ok c := by
  obtain ⟨run, c, hrun, hgathers, -⟩ := h.leader
  refine ⟨run.package, c, ?_, hgathers⟩
  rw [← h.named, List.getElem?_map, hrun]
  rfl

/-- All runs but the first that came to the folder find it as that one left it. -/
theorem results_eq (h : Prepared destination path disk packages k scene)
    (hended : scene.Ended results) :
    ∃ before package later, packages = before ++ package :: later ∧ before.length = k ∧
      (∃ c, disk.gathered path package = .ok c) ∧
      results = before.map (destination.ending path disk
          (destination.attempt (destination.prepared disk))) ++
        destination.ending path disk (destination.attempt disk) package ::
        later.map (destination.ending path disk
          (destination.attempt (destination.prepared disk))) := by
  obtain ⟨package, c, hpackage, hgathers⟩ := h.exists_gathered
  obtain ⟨hlength, hpackage⟩ := List.getElem?_eq_some_iff.mp hpackage
  have hsplit : packages = packages.take k ++ package :: packages.drop (k + 1) := by
    rw [← hpackage, List.getElem_cons_drop, List.take_append_drop]
  have hk : (packages.take k).length = k := List.length_take_of_le (Nat.le_of_lt hlength)
  have hleader (package : String) :
      destination.ending path disk (destination.attemptOf disk k k) package =
        destination.ending path disk (destination.attempt disk) package := by
    rw [Destination.attemptOf, if_pos rfl]
  have hother {i : Nat} (hi : i ≠ k) (package : String) :
      destination.ending path disk (destination.attemptOf disk k i) package =
        destination.ending path disk (destination.attempt (destination.prepared disk)) package := by
    rw [Destination.attemptOf, if_neg hi]
  refine ⟨_, package, _, hsplit, hk, ⟨c, hgathers⟩, ?_⟩
  rw [hended.results_eq h.named _ h.onTrack]
  conv_lhs => rw [hsplit]
  rw [List.mapIdx_append, List.mapIdx_cons, Nat.zero_add, hk, hleader]
  congr 1
  · refine List.ext_getElem (by simp) fun i hi _ => ?_
    have hi : i ≠ k := by simp at hi; omega
    rw [List.getElem_mapIdx, hother hi, List.getElem_map]
  · congr 1
    refine List.ext_getElem (by simp) fun i hi _ => ?_
    rw [List.getElem_mapIdx, hother (by omega), List.getElem_map]

theorem item?_of_writes (h : Prepared destination path disk packages k scene)
    (hended : scene.Ended results) {package : String} (hmem : package ∈ packages)
    {c : Collection} {place : Place} (hwrites : Writes destination path disk package c place) :
    scene.disk.item? place = some (.file (utf8 (destination.textOf c))) := by
  obtain ⟨hgathers, hopen, htarget⟩ := hwrites
  rw [← h.named] at hmem
  obtain ⟨run, hrun, rfl⟩ := List.mem_map.mp hmem
  obtain ⟨i, hrun⟩ := List.mem_iff_getElem?.mp hrun
  obtain ⟨result, -, hphase⟩ := hended.exists_result hrun
  have hresult := (h.onTrack i run hrun _ hphase).ending_eq
  rw [Destination.attemptOf_eq_ok_iff.mpr hopen.1, Destination.ending_of_made hgathers,
    Destination.placed_of_isDirectory hopen.2, htarget] at hresult
  rw [hresult] at hphase
  exact h.seated.held i _ ((seats_eq hrun).trans (run.seat?_finished hgathers hphase htarget))

/-- What is not as it was when the folder had been made is a template. -/
theorem exists_writes (h : Prepared destination path disk packages k scene)
    (hended : scene.Ended results) {place : Place}
    (hchanged : scene.disk.item? place ≠ (destination.prepared disk).item? place) :
    ∃ package ∈ packages, ∃ c, Writes destination path disk package c place := by
  have hopen : destination.IsOpen disk := by
    by_contra hclosed
    exact hchanged (congrArg (Disk.item? · place) (h.closed hclosed))
  have hseat : ∃ i seat, seats destination path disk scene.runs i = some seat ∧
      seat.place = place := by
    by_contra hnone
    push Not at hnone
    exact hchanged (h.seated.vacant place hnone)
  obtain ⟨i, seat, hseat, rfl⟩ := hseat
  obtain ⟨run, hrun, hseat⟩ := Option.bind_eq_some_iff.mp hseat
  obtain ⟨c, hgathers, -, hstaged, htarget⟩ := Run.seat?_eq_some hseat
  obtain ⟨result, -, hphase⟩ := hended.exists_result hrun
  refine ⟨run.package, h.mem_packages hrun, c, hgathers, hopen, htarget ?_⟩
  cases hkind : seat.isStaged with
  | false => rfl
  | true =>
    obtain ⟨counts, hcommitting⟩ := hstaged hkind
    rw [hphase] at hcommitting
    cases hcommitting

/-- For the disk it does not matter who came to the folder first. -/
theorem item?_eq (h : Prepared destination path disk packages k scene)
    (hended : scene.Ended results) {k' : Nat} (h' : Prepared destination path disk order k' after)
    (hended' : after.Ended results') (hperm : order.Perm packages) (place : Place) :
    scene.disk.item? place = after.disk.item? place := by
  by_cases hchanged : scene.disk.item? place = (destination.prepared disk).item? place
  · by_cases hchanged' : after.disk.item? place = (destination.prepared disk).item? place
    · rw [hchanged, hchanged']
    · obtain ⟨package, hmem, c, hwrites⟩ := h'.exists_writes hended' hchanged'
      rw [h'.item?_of_writes hended' hmem hwrites,
        h.item?_of_writes hended (hperm.mem_iff.mp hmem) hwrites]
  · obtain ⟨package, hmem, c, hwrites⟩ := h.exists_writes hended hchanged
    rw [h.item?_of_writes hended hmem hwrites,
      h'.item?_of_writes hended' (hperm.mem_iff.mpr hmem) hwrites]

end Prepared

theorem not_prepared_of_unprepared (h : Unprepared destination path disk packages scene)
    (hended : scene.Ended results) (hsubset : order ⊆ packages) :
    ¬ Prepared destination path disk order k after := by
  intro hprepared
  obtain ⟨package, c, hpackage, hgathers⟩ := hprepared.exists_gathered
  obtain ⟨e, hrefused⟩ := h.refused hended (hsubset (List.mem_of_getElem? hpackage))
  rw [hgathers] at hrefused
  cases hrefused

/-- All orders of the steps leave the same disk. -/
theorem item?_eq_of_reaches (hadmits : destination.Admits path disk packages)
    (hperm : order.Perm packages) {permits' : Nat}
    (hreaches : Reaches destination path permits (start disk packages) scene)
    (hended : scene.Ended results)
    (hreaches' : Reaches destination path permits' (start disk order) after)
    (hended' : after.Ended results') (place : Place) :
    scene.disk.item? place = after.disk.item? place := by
  have hadmits' := hadmits.of_subset hperm.subset
  rcases (Unprepared.start ..).of_reaches hadmits hreaches with h | ⟨k, h⟩ <;>
    rcases (Unprepared.start ..).of_reaches hadmits' hreaches' with h' | ⟨k', h'⟩
  · rw [h.unchanged, h'.unchanged]
  · exact absurd h' (not_prepared_of_unprepared h hended hperm.subset)
  · exact absurd h (not_prepared_of_unprepared h' hended' hperm.symm.subset)
  · exact h.item?_eq hended h' hended' hperm place

/-- Some run `k` may have been the first to try to make the folder. -/
theorem exists_results_eq (hadmits : destination.Admits path disk packages)
    (hreaches : Reaches destination path permits (start disk packages) scene)
    (hended : scene.Ended results) :
    ∃ k, results = packages.mapIdx fun i package =>
      destination.ending path disk (destination.attemptOf disk k i) package := by
  rcases (Unprepared.start ..).of_reaches hadmits hreaches with h | ⟨k, h⟩
  · refine ⟨0, hended.results_eq h.named _ fun i run hrun phase hphase => ?_⟩
    exact (h.onTrack run (List.mem_of_getElem? hrun) phase hphase).of_none _
  · exact ⟨k, hended.results_eq h.named _ h.onTrack⟩

/-- When the first of several runs has a permit to itself and collects something, it is the first that
tries to make the folder. -/
theorem prepared_released (hadmits : destination.Admits path disk (package :: rest)) (now : Int)
    (hgathers : disk.gathered path package = .ok c) :
    let first := outcome (destination.publishFrom (Disk.files now) path package) disk
    Prepared destination path disk (package :: rest) 0
      ⟨first.2, ⟨package, .released first.1⟩ :: (start first.2 rest).runs⟩ := by
  intro first
  have hheld : (start disk (package :: rest)).held = 0 := by
    apply held_eq_zero
    intro run hmem
    rw [turn_of_mem_start hmem]
    rfl
  have hreaches : Reaches destination path 1 (start disk (package :: rest))
      ⟨first.2, ⟨package, .released first.1⟩ :: (start first.2 rest).runs⟩ :=
    reaches_released destination path now [] (hheld ▸ Nat.one_pos)
  rcases (Unprepared.start ..).of_reaches hadmits hreaches with h | ⟨k, h⟩
  · have htrack : destination.OnTrack path disk none package (.finished first.1) :=
      h.onTrack _ List.mem_cons_self _ rfl
    obtain ⟨e, hrefused⟩ := htrack.refuses
    rw [hgathers] at hrefused
    cases hrefused
  · cases k with
    | zero => exact h
    | succ k =>
      obtain ⟨run, -, hrun, -, hpast⟩ := h.leader
      rw [List.getElem?_cons_succ] at hrun
      rw [turn_of_mem_start (List.mem_of_getElem? hrun)] at hpast
      cases hpast

/-- When the first of several runs that follow one another collects something, it makes the folder for
all of them. -/
theorem inTurn_eq (hadmits : destination.Admits path disk (package :: rest)) (now : Int)
    (hgathers : disk.gathered path package = .ok c) :
    ((destination.publishInTurn (Disk.files now) path (package :: rest)).run disk).1 =
      destination.ending path disk (destination.attempt disk) package ::
        rest.map (destination.ending path disk (destination.attempt (destination.prepared disk))) := by
  let first := outcome (destination.publishFrom (Disk.files now) path package) disk
  obtain ⟨runs, hreaches, hended⟩ := reaches_inTurn_after destination path now Nat.one_pos
    [⟨package, .released first.1⟩] (by simp [Turn.isHolding]) rest first.2
  have h := (prepared_released hadmits now hgathers).of_reaches hadmits hreaches
  obtain ⟨before, package', later, hpackages, hlength, -, hresults⟩ :=
    h.results_eq (hended.cons package first.1)
  obtain rfl := List.length_eq_zero_iff.mp hlength
  obtain ⟨rfl, rfl⟩ := List.cons.inj hpackages
  rw [Destination.run_publishInTurn_cons]
  exact hresults

/-- What a run comes to that is alone. -/
theorem outcome_publishFrom_eq (hadmits : destination.Admits path disk [package]) (now : Int) :
    (outcome (destination.publishFrom (Disk.files now) path package) disk).1 =
      destination.ending path disk (destination.attempt disk) package := by
  have hcons := Destination.run_publishInTurn_cons destination (Disk.files now) path package [] disk
  cases hgathers : disk.gathered path package with
  | ok c =>
    have hresults := inTurn_eq hadmits now hgathers
    rw [hcons] at hresults
    exact (List.cons.inj hresults).1
  | error e =>
    obtain ⟨runs, hreaches, hended⟩ :=
      reaches_inTurn destination path now Nat.one_pos [package] disk
    rcases (Unprepared.start ..).of_reaches hadmits hreaches with h | ⟨k, h⟩
    · have hresults := h.results_eq hended (destination.attempt disk)
      rw [hcons] at hresults
      exact (List.cons.inj hresults).1
    · obtain ⟨package', c, hmem, hgathers'⟩ := h.exists_gathered
      rw [List.mem_singleton.mp (List.mem_of_getElem? hmem), hgathers] at hgathers'
      cases hgathers'

theorem zip_map_self {α β : Type} (f : α → β) (l : List α) :
    l.zip (l.map f) = l.map fun a => (a, f a) := by
  have hzip := List.zip_map' (l := l) (f := id) (g := f)
  rw [List.map_id] at hzip
  exact hzip

theorem map_fst_pairs {α β : Type} (f : α → β) (l : List α) :
    (l.map fun a => (a, f a)).map Prod.fst = l := by
  rw [List.map_map]
  exact List.map_id l

/-- Runs that take turns come to what they come to one after another, in some order. -/
theorem exists_sequence (hadmits : destination.Admits path disk packages)
    (hreaches : Reaches destination path permits (start disk packages) scene)
    (hended : scene.Ended results) (now : Int) :
    ∃ sequence : List (String × Except RunError Report), sequence.Perm (packages.zip results) ∧
      ((destination.publishInTurn (Disk.files now) path (sequence.map Prod.fst)).run disk).1 =
        sequence.map Prod.snd := by
  let others := destination.ending path disk (destination.attempt (destination.prepared disk))
  rcases (Unprepared.start ..).of_reaches hadmits hreaches with h | ⟨k, h⟩
  · -- Nothing was written, and so it is in any order.
    refine ⟨packages.zip results, .refl _, ?_⟩
    have hresults : results = packages.map others := h.results_eq hended _
    rw [hresults, zip_map_self, map_fst_pairs, List.map_map]
    obtain ⟨runs, hreaches', hended'⟩ :=
      reaches_inTurn destination path now Nat.one_pos packages disk
    rcases (Unprepared.start ..).of_reaches hadmits hreaches' with h' | ⟨k, h'⟩
    · exact h'.results_eq hended' _
    · exact absurd h' (not_prepared_of_unprepared h hended fun _ hmem => hmem)
  · obtain ⟨before, package, later, rfl, -, ⟨c, hgathers⟩, rfl⟩ := h.results_eq hended
    let leader := destination.ending path disk (destination.attempt disk) package
    refine ⟨(package, leader) :: (before ++ later).map fun other => (other, others other), ?_, ?_⟩
    · rw [List.zip_append (by simp), List.zip_cons_cons, zip_map_self, zip_map_self, List.map_append]
      exact List.perm_middle.symm
    · have hmoved : package :: (before ++ later) ⊆ before ++ package :: later :=
        List.perm_middle.symm.subset
      have hresults := inTurn_eq (hadmits.of_subset hmoved) now hgathers
      rw [List.map_cons, List.map_cons, map_fst_pairs, List.map_map]
      exact hresults

theorem exists_made_of_mem (hadmits : destination.Admits path disk packages)
    (hreaches : Reaches destination path permits (start disk packages) scene)
    (hended : scene.Ended results) {result : Except RunError Report}
    (hmem : (package, result) ∈ packages.zip results) :
    ∃ made, made.isOk = (destination.attempt (destination.prepared disk)).isOk ∧
      result = destination.ending path disk made package := by
  obtain ⟨k, rfl⟩ := exists_results_eq hadmits hreaches hended
  obtain ⟨i, hi, hpair⟩ := List.mem_iff_getElem.mp hmem
  rw [List.getElem_zip, List.getElem_mapIdx] at hpair
  obtain ⟨rfl, rfl⟩ := Prod.mk.inj hpair
  exact ⟨_, Destination.isOk_attemptOf, rfl⟩

/-- When a second attempt to make the folder comes to the same as the first, each run comes to what it
comes to alone. -/
theorem results_eq_alone (hadmits : destination.Admits path disk packages)
    (hreaches : Reaches destination path permits (start disk packages) scene)
    (hended : scene.Ended results) (now : Int)
    (hfolder : (destination.attempt disk).isOk = true ∨ destination.prepared disk = disk) :
    results = packages.map fun package =>
      (outcome (destination.publishFrom (Disk.files now) path package) disk).1 := by
  have hagain (k i : Nat) : destination.attemptOf disk k i = destination.attempt disk := by
    rw [Destination.attemptOf]
    split
    · rfl
    · rcases hfolder with hmade | hunchanged
      · rw [Destination.eq_ok_iff.mpr hmade,
          Destination.eq_ok_iff.mpr (Destination.isOk_attempt_prepared.trans hmade)]
      · rw [hunchanged]
  obtain ⟨k, rfl⟩ := exists_results_eq hadmits hreaches hended
  refine List.ext_getElem (by simp) fun i hi hi' => ?_
  rw [List.getElem_mapIdx, List.getElem_map, hagain, outcome_publishFrom_eq]
  refine hadmits.of_subset fun package hmem => ?_
  rw [List.mem_singleton.mp hmem]
  exact List.getElem_mem _

/-- Runs that take turns come to an end in any order of their steps, and sweeps are one of the orders.
The disk that they leave is the one that they leave one after another, in any order, and so are their
results, if it is all the same to them who makes the folder: if that can be made, or if nothing is left
of an attempt to. Otherwise their results differ in nothing but the words of a refusal to write, and
are those of some order. -/
theorem runs_do_not_interfere (hadmits : destination.Admits path disk packages)
    (hpermits : 0 < permits) :
    (∀ scene, Reaches destination path permits (start disk packages) scene →
      ∃ after results, Reaches destination path permits scene after ∧ after.Ended results) ∧
    (∀ now,
      let all := (destination.publishAll (Disk.files now) permits path packages).run disk
      ∃ runs results, Reaches destination path permits (start disk packages) ⟨all.2, runs⟩ ∧
        Ended ⟨all.2, runs⟩ results ∧ all.1 = results.map some) ∧
    ∀ after results, Reaches destination path permits (start disk packages) after →
      after.Ended results → ∀ now,
        let alone (package : String) :=
          (outcome (destination.publishFrom (Disk.files now) path package) disk).1
        after.runs.map Run.package = packages ∧ results.length = packages.length ∧
        (∀ order : List String, order.Perm packages →
          let inTurn := (destination.publishInTurn (Disk.files now) path order).run disk
          (∀ place, after.disk.item? place = inTurn.2.item? place) ∧
          ((destination.attempt disk).isOk = true ∨ destination.prepared disk = disk →
            results = packages.map alone ∧ inTurn.1 = order.map alone) ∧
          ∀ package result result', (package, result) ∈ packages.zip results →
            (package, result') ∈ order.zip inTurn.1 →
              result = result' ∨ ∃ reason reason', result = .error (.file reason) ∧
                result' = .error (.file reason')) ∧
        ∃ sequence : List (String × Except RunError Report),
          sequence.Perm (packages.zip results) ∧
          ((destination.publishInTurn (Disk.files now) path (sequence.map Prod.fst)).run disk).1 =
            sequence.map Prod.snd := by
  refine ⟨fun scene _ => exists_ended destination path hpermits scene,
    fun now => reaches_publishAll destination path now hpermits packages disk, ?_⟩
  intro after results hreaches hended now alone
  obtain ⟨k, hresults⟩ := exists_results_eq hadmits hreaches hended
  have hpackages := (packages_of_reaches hreaches).trans (packages_start disk packages)
  refine ⟨hpackages, by rw [hresults, List.length_mapIdx], fun order hperm => ?_,
    exists_sequence hadmits hreaches hended now⟩
  have hadmits' := hadmits.of_subset hperm.subset
  obtain ⟨runs, hreaches', hended'⟩ :=
    reaches_inTurn destination path now hpermits order disk
  refine ⟨item?_eq_of_reaches hadmits hperm hreaches hended hreaches' hended', ?_, ?_⟩
  · exact fun hfolder => ⟨results_eq_alone hadmits hreaches hended now hfolder,
      results_eq_alone hadmits' hreaches' hended' now hfolder⟩
  · intro package result result' hmem hmem'
    obtain ⟨made, hmade, rfl⟩ := exists_made_of_mem hadmits hreaches hended hmem
    obtain ⟨made', hmade', rfl⟩ := exists_made_of_mem hadmits' hreaches' hended' hmem'
    exact Destination.ending_agrees (hmade.trans hmade'.symm)

/-- A tree with two packages. -/
def pairText : String := "[[[\"container\",\"P\",\"c\"],[\"container\",\"Q\",\"d\"]]]"

/-- A disk with the tree and another file. -/
def pairDisk : Disk where
  items := [(["t"], .file (utf8 pairText)), (["f"], .file [])]

/-- A folder that is made on the disk. -/
def intoNew : Destination where
  format := { hasHeader := false }
  directory := "new"

theorem runs_into_new_do_not_interfere :
    intoNew.Admits "t" pairDisk ["P", "N", "Q", "P"] ∧ 0 < 2 ∧
    (∃ after results, Reaches intoNew "t" 2 (start pairDisk ["P", "N", "Q", "P"]) after ∧
      after.Ended results) ∧
    ∀ after results, Reaches intoNew "t" 2 (start pairDisk ["P", "N", "Q", "P"]) after →
      after.Ended results →
        results = [.ok ⟨"P", "new/P.pot", ⟨1, 1, 1, 0⟩⟩, .error (.packageNotFound "N"),
          .ok ⟨"Q", "new/Q.pot", ⟨1, 1, 1, 0⟩⟩, .ok ⟨"P", "new/P.pot", ⟨1, 1, 1, 0⟩⟩] ∧
        after.disk.item? ["P.pot", "new"] =
          some (.file (utf8 "msgctxt \"P\"\nmsgid \"c\"\nmsgstr \"\"\n")) := by
  have hplaces : pairDisk.find (.ofText "t") = .ok ["t"] ∧
      ∀ package ∈ ["P", "N", "Q", "P"], (intoNew.prepared pairDisk).find (intoNew.path package) =
        .ok [package ++ ".pot", "new"] := by
    decide +kernel
  have hadmits : intoNew.Admits "t" pairDisk ["P", "N", "Q", "P"] := by
    refine ⟨rfl, rfl, by decide +kernel, fun package hmem place hplace => ?_⟩
    rw [hplaces.2 package hmem]
    cases hplaces.1.symm.trans hplace
    simp
  obtain ⟨hends, -, hall⟩ := runs_do_not_interfere hadmits Nat.zero_lt_two
  refine ⟨hadmits, by decide, hends _ .refl, fun after results hreaches hended => ?_⟩
  obtain ⟨-, -, hsame, -⟩ := hall after results hreaches hended 0
  obtain ⟨hdisk, hresults, -⟩ := hsame _ (.refl _)
  have hmade : (intoNew.attempt pairDisk).isOk = true := by decide +kernel
  refine ⟨?_, ?_⟩
  · rw [(hresults (.inl hmade)).1]
    decide +kernel
  · rw [hdisk]
    decide +kernel

/-- A folder that cannot be made, but an attempt to leaves a directory behind. -/
def pastFile : Destination where
  format := { hasHeader := false }
  directory := "new/../f/x"

/-- Who comes first makes `new` and then finds that `new/../f` exists, as a file. All others find that
`f`, in which `x` is to be made, is not a directory. -/
theorem runs_past_file_differ :
    pastFile.Admits "t" pairDisk ["P", "Q"] ∧ ["Q", "P"].Perm ["P", "Q"] ∧
    ∃ after ofP ofQ ofP' ofQ', Reaches pastFile "t" 1 (start pairDisk ["P", "Q"]) after ∧
      after.Ended [ofP, ofQ] ∧
      ((pastFile.publishInTurn (Disk.files 0) "t" ["Q", "P"]).run pairDisk).1 = [ofQ', ofP'] ∧
      ofP ≠ ofP' ∧ ofQ ≠ ofQ' := by
  have hplaces : ∀ package ∈ ["P", "Q"],
      (pastFile.prepared pairDisk).find (pastFile.path package) = .error .notDirectory := by
    decide +kernel
  have hadmits : pastFile.Admits "t" pairDisk ["P", "Q"] := by
    refine ⟨rfl, rfl, by decide +kernel, fun package hmem place _ => ?_⟩
    rw [hplaces package hmem]
    nofun
  obtain ⟨runs, hreaches, hended⟩ := reaches_inTurn pastFile "t" 0 Nat.one_pos ["P", "Q"] pairDisk
  have hinTurn : ((pastFile.publishInTurn (Disk.files 0) "t" ["P", "Q"]).run pairDisk).1 =
      [.error (.file "File exists (os error 17)"),
        .error (.file "Not a directory (os error 20)")] := by
    decide +kernel
  have hturned : ((pastFile.publishInTurn (Disk.files 0) "t" ["Q", "P"]).run pairDisk).1 =
      [.error (.file "File exists (os error 17)"),
        .error (.file "Not a directory (os error 20)")] := by
    decide +kernel
  rw [hinTurn] at hended
  exact ⟨hadmits, by decide, _, _, _, _, _, hreaches, hended, hturned, by decide, by decide⟩

end Scene

end GettextTemplate
