import GettextTemplate.Proofs.Neighbours
import Mathlib.Logic.Function.Basic

/-!
Texts of several runs on one disk. Each run may have its text at one place, its seat: where it is
staged at first, and at its target in the end. Apart from the seats the disk is the one that all runs
have begun with (`Seated`). To take a seat, and to leave one where a text was staged, keeps it so.
-/

namespace GettextTemplate

/-- Where the text of a run stands on a disk. -/
structure Seat where
  place : Place
  content : Json.Bytes
  isStaged : Bool

namespace Disk

/-- Whether a disk is another one but for the texts at the seats of some runs. -/
structure Seated (base : Disk) (seats : Nat → Option Seat) (disk : Disk) : Prop where
  here : disk.here = base.here
  held : ∀ i seat, seats i = some seat → disk.item? seat.place = some (.file seat.content)
  vacant : ∀ place, (∀ i seat, seats i = some seat → seat.place ≠ place) →
    disk.item? place = base.item? place
  fresh : ∀ i seat, seats i = some seat → seat.isStaged = true →
    base.item? seat.place = none ∧ IsStagedName seat.place
  fit : ∀ i seat, seats i = some seat → base.item? seat.place ≠ some .directory
  alone : ∀ i j seat other, seats i = some seat → seats j = some other → seat.isStaged = true →
    other.place = seat.place → i = j

namespace Seated

variable {base disk : Disk} {seats : Nat → Option Seat} {i : Nat} {seat : Seat}

theorem of_none (base : Disk) (h : ∀ i, seats i = none) : Seated base seats base where
  here := rfl
  held i seat hseat := by simp [h i] at hseat
  vacant _ _ := rfl
  fresh i seat hseat := by simp [h i] at hseat
  fit i seat hseat := by simp [h i] at hseat
  alone i j seat other hseat := by simp [h i] at hseat

theorem sameDirectories (h : Seated base seats disk) : SameDirectories base disk := by
  refine ⟨h.here, fun place => ?_⟩
  by_cases hvacant : ∀ i seat, seats i = some seat → seat.place ≠ place
  · rw [h.vacant place hvacant]
  · push Not at hvacant
    obtain ⟨i, seat, hseat, rfl⟩ := hvacant
    rw [h.held i seat hseat]
    simpa using h.fit i seat hseat

/-- A place that is free has nobody's text. -/
theorem ne_of_item?_eq_none (h : Seated base seats disk) {place : Place}
    (hfree : disk.item? place = none) (hseat : seats i = some seat) : seat.place ≠ place := by
  rintro rfl
  rw [h.held i seat hseat] at hfree
  cases hfree

/-- A text may be put where no other is, or beside others that are the same. -/
theorem put (h : Seated base seats disk) (hnone : seats i = none) (seat : Seat)
    (hfit : base.item? seat.place ≠ some .directory)
    (hfresh : seat.isStaged = true → base.item? seat.place = none ∧ IsStagedName seat.place)
    (hothers : ∀ j other, seats j = some other → other.place = seat.place →
      other.isStaged = false ∧ seat.isStaged = false ∧ other.content = seat.content) :
    Seated base (Function.update seats i (some seat))
      (disk.put seat.place (.file seat.content)) := by
  have hcases {j : Nat} {other : Seat} (hother : Function.update seats i (some seat) j = some other) :
      j = i ∧ seat = other ∨ j ≠ i ∧ seats j = some other := by
    by_cases hj : j = i
    · subst hj
      rw [Function.update_self] at hother
      exact .inl ⟨rfl, Option.some.inj hother⟩
    · rw [Function.update_of_ne hj] at hother
      exact .inr ⟨hj, hother⟩
  have hitem := item?_putFile seat.content
    ((h.sameDirectories.directory seat.place).not.mpr hfit)
  constructor
  case here => exact h.here
  case held =>
    intro j other hother
    rw [hitem]
    rcases hcases hother with ⟨-, rfl⟩ | ⟨-, hother⟩
    · exact if_pos rfl
    · split
      · next hplace => rw [(hothers j other hother hplace).2.2]
      · exact h.held j other hother
  case vacant =>
    intro place hvacant
    have hplace := hvacant i seat (Function.update_self ..)
    rw [hitem, if_neg hplace.symm]
    refine h.vacant place fun j other hother => hvacant j other ?_
    rw [Function.update_of_ne, hother]
    rintro rfl
    simp [hnone] at hother
  case fresh =>
    intro j other hother
    rcases hcases hother with ⟨-, rfl⟩ | ⟨-, hother⟩
    · exact hfresh
    · exact h.fresh j other hother
  case fit =>
    intro j other hother
    rcases hcases hother with ⟨-, rfl⟩ | ⟨-, hother⟩
    · exact hfit
    · exact h.fit j other hother
  case alone =>
    intro j k one other hone hother hstaged hplace
    rcases hcases hone with ⟨rfl, rfl⟩ | ⟨-, hold⟩ <;>
      rcases hcases hother with ⟨rfl, rfl⟩ | ⟨-, hold'⟩
    · rfl
    · have hnot := (hothers k other hold' hplace).2.1
      rw [hstaged] at hnot
      cases hnot
    · have hnot := (hothers j one hold hplace.symm).1
      rw [hstaged] at hnot
      cases hnot
    · exact h.alone j k one other hold hold' hstaged hplace

/-- A staged text may be removed. -/
theorem remove (h : Seated base seats disk) (hseat : seats i = some seat)
    (hstaged : seat.isStaged = true) :
    Seated base (Function.update seats i none) (disk.remove seat.place) := by
  have hcases {j : Nat} {other : Seat} (hother : Function.update seats i none j = some other) :
      j ≠ i ∧ seats j = some other := by
    by_cases hj : j = i
    · subst hj
      rw [Function.update_self] at hother
      cases hother
    · rw [Function.update_of_ne hj] at hother
      exact ⟨hj, hother⟩
  have hfree := (h.fresh i seat hseat hstaged).1
  have hitem : ∀ other, (disk.remove seat.place).item? other = _ :=
    item?_remove (ne_nil_of_item?_eq_none hfree)
  constructor
  case here => exact h.here
  case held =>
    intro j other hother
    obtain ⟨hj, hother⟩ := hcases hother
    rw [hitem, if_neg, h.held j other hother]
    intro hplace
    exact hj (h.alone i j seat other hseat hother hstaged hplace).symm
  case vacant =>
    intro place hvacant
    rw [hitem]
    split
    · next hplace => rw [hplace, hfree]
    · next hplace =>
      refine h.vacant place fun j other hother => ?_
      by_cases hj : j = i
      · rintro rfl
        rw [hj, hseat] at hother
        exact hplace (congrArg Seat.place (Option.some.inj hother)).symm
      · exact hvacant j other (by rw [Function.update_of_ne hj, hother])
  case fresh => exact fun j other hother => h.fresh j other (hcases hother).2
  case fit => exact fun j other hother => h.fit j other (hcases hother).2
  case alone =>
    exact fun j k one other hone hother => h.alone j k one other (hcases hone).2 (hcases hother).2

end Seated

end Disk

end GettextTemplate
