import GettextTemplate.Proofs.Alike
import GettextTemplate.Proofs.PreOrder

/-!
Which failure an extraction ends with. A failure of the root always ends it. Below the root only a
failure that the source does not report does, and of several the one that comes first in pre-order.
A failure that is not the first of its entity is never seen.
-/

namespace GettextTemplate

namespace Answers

theorem fatal?_eq_some {answers : Answers} {e : SourceFailure} :
    answers.fatal? = some e ↔ answers.failure? = some e ∧ e.isReported = false := by
  simp [fatal?, Option.filter_eq_some_iff]

theorem fatal?_eq_none {answers : Answers} :
    answers.fatal? = none ↔ ∀ e, answers.failure? = some e → e.isReported = true := by
  simp [fatal?, Option.filter_eq_none_iff]

/-- Answers that are the same, or that have the same first failure and may differ otherwise. -/
def SameFailure (a b : Answers) : Prop :=
  a = b ∨ ∃ e, a.failure? = some e ∧ b.failure? = some e

theorem share_of_sameFailure {a b : Answers} (h : SameFailure a b) (scope : String) :
    a.share scope = b.share scope := by
  rcases h with rfl | ⟨e, ha, hb⟩
  · rfl
  · rw [share_eq, share_eq, ha, hb]

end Answers

/-- In a list in pre-order, what is found first is what is found at the least position. -/
theorem Visit.findSome?_eq_some_iff {β : Type} {visits : List Visit} {f : Visit → Option β} {b : β}
    (h : visits.Pairwise fun v w => v.position < w.position) :
    visits.findSome? f = some b ↔
      ∃ visit ∈ visits, f visit = some b ∧
        ∀ other ∈ visits, other.position < visit.position → f other = none := by
  rw [List.findSome?_eq_some_iff]
  constructor
  · rintro ⟨before, visit, after, rfl, hfound, hbefore⟩
    refine ⟨visit, by simp, hfound, fun other hother hlt => ?_⟩
    rcases List.mem_append.mp hother with hother | hother
    · exact hbefore other hother
    · exfalso
      rcases List.mem_cons.mp hother with rfl | hother
      · exact List.lt_irrefl _ hlt
      · have hafter := (List.pairwise_cons.mp (List.pairwise_append.mp h).2.1).1 other hother
        exact List.lt_irrefl _ (List.lt_trans hlt hafter)
  · rintro ⟨visit, hvisit, hfound, hleast⟩
    obtain ⟨before, after, rfl⟩ := List.append_of_mem hvisit
    refine ⟨before, visit, after, rfl, hfound, fun other hother => ?_⟩
    have hlt := (List.pairwise_append.mp h).2.2 other hother visit List.mem_cons_self
    exact hleast other (List.mem_append_left _ hother) hlt

namespace Entity

/-- The visit at which an extraction ends: the first one below the root, in pre-order, to an entity
whose first failure is not a reported one. -/
structure EndsAt (root : Entity) (visit : Visit) (e : SourceFailure) : Prop where
  visited : root.Visited Answers.isOpen visit
  below : visit.position ≠ []
  failure : visit.entity.answers.failure? = some e
  notReported : e.isReported = false
  first : ∀ other f, root.Visited Answers.isOpen other → other.position ≠ [] →
    other.position < visit.position → other.entity.answers.failure? = some f → f.isReported = true

theorem entity_eq_root {isOpen : Answers → Bool} {root : Entity} {visit : Visit}
    (h : root.Visited isOpen visit) (hposition : visit.position = []) : visit.entity = root := by
  cases h with
  | root => rfl
  | child => simp at hposition

/-- A walk comes below the root only if it opens the root. -/
theorem isOpen_root {isOpen : Answers → Bool} {root : Entity} {visit : Visit}
    (h : root.Visited isOpen visit) (hbelow : visit.position ≠ []) :
    isOpen root.answers = true := by
  induction h with
  | root => exact absurd rfl hbelow
  | @child position _ _ _ _ above opened _ ih =>
    by_cases hposition : position = []
    · rw [← entity_eq_root above hposition]
      exact opened
    · exact ih hposition

/-- The first fatal failure on a walk from a complete root. -/
theorem findSome?_fatal_eq_some_iff {root : Entity} {e : SourceFailure}
    (hroot : root.answers.failure? = none) :
    (root.visits Answers.isOpen none).findSome? Visit.fatal? = some e ↔
      ∃ visit, root.EndsAt visit e := by
  have hbelow {visit : Visit} {f : SourceFailure} (hvisited : root.Visited Answers.isOpen visit)
      (hfailure : visit.entity.answers.failure? = some f) : visit.position ≠ [] := by
    intro hposition
    rw [entity_eq_root hvisited hposition, hroot] at hfailure
    cases hfailure
  rw [Visit.findSome?_eq_some_iff (pairwise_visits none root)]
  constructor
  · rintro ⟨visit, hvisit, hfatal, hleast⟩
    obtain ⟨hfailure, hreported⟩ := Answers.fatal?_eq_some.mp hfatal
    have hvisited := mem_visits.mp hvisit
    refine ⟨visit, hvisited, hbelow hvisited hfailure, hfailure, hreported, ?_⟩
    intro other f hother _ hlt hotherFailure
    have hnone := hleast other (mem_visits.mpr hother) hlt
    exact Answers.fatal?_eq_none.mp hnone f hotherFailure
  · rintro ⟨visit, hends⟩
    refine ⟨visit, mem_visits.mpr hends.visited,
      Answers.fatal?_eq_some.mpr ⟨hends.failure, hends.notReported⟩, ?_⟩
    intro other hother hlt
    apply Answers.fatal?_eq_none.mpr
    intro f hfailure
    have hvisited := mem_visits.mp hother
    exact hends.first other f hvisited (hbelow hvisited hfailure) hlt hfailure

theorem extract_eq_error {scope : String} {root : Entity} {e : SourceFailure} :
    root.extract scope = .error e ↔
      root.answers.failure? = some e ∨
        root.answers.failure? = none ∧ ∃ visit, root.EndsAt visit e := by
  rw [extract_eq_ofVisits]
  cases hfailure : root.answers.failure? with
  | some f => simp
  | none =>
    rw [← findSome?_fatal_eq_some_iff hfailure]
    simp only [Extraction.ofVisits]
    cases (root.visits Answers.isOpen none).findSome? Visit.fatal? <;> simp

/-- A fatal failure below the root that the walk comes to leaves no way to succeed. -/
theorem extract_of_fatal (scope : String) {root : Entity} {visit : Visit} {e : SourceFailure}
    (hvisited : root.Visited Answers.isOpen visit) (hbelow : visit.position ≠ [])
    (hfatal : visit.fatal? = some e) :
    ∃ f, root.extract scope = .error f ∧ f.isReported = false := by
  have hopen := isOpen_root hvisited hbelow
  have hroot : root.answers.failure? = none :=
    Option.isNone_iff_eq_none.mp (Bool.and_eq_true_iff.mp hopen).2
  have hsome : ((root.visits Answers.isOpen none).findSome? Visit.fatal?).isSome = true := by
    rw [List.findSome?_isSome_iff]
    exact ⟨visit, mem_visits.mpr hvisited, by rw [hfatal]; rfl⟩
  obtain ⟨f, hfirst⟩ := Option.isSome_iff_exists.mp hsome
  obtain ⟨last, hends⟩ := (findSome?_fatal_eq_some_iff hroot).mp hfirst
  exact ⟨f, extract_eq_error.mpr (.inr ⟨hroot, last, hends⟩), hends.notReported⟩

/-- An extraction ends with the first failure of the root, or else with that of the first entity
below it whose first failure is not a reported one. So a reported failure below the root is never
passed on, one of another kind that the walk comes to always ends the extraction, and trees that
differ only in what follows the first failures of their entities have the same extraction. -/
theorem extract_eq_error_iff (scope : String) (root : Entity) :
    (∀ e, root.extract scope = .error e ↔
      root.answers.failure? = some e ∨
        root.answers.failure? = none ∧ ∃ visit, root.EndsAt visit e) ∧
    (∀ e, root.extract scope = .error e → e.isReported = true → root.answers.failure? = some e) ∧
    (∀ visit e, root.Visited Answers.isOpen visit → visit.position ≠ [] →
      visit.entity.answers.failure? = some e → e.isReported = false →
      ∃ f, root.extract scope = .error f ∧ f.isReported = false) ∧
    ∀ other, root.Alike Answers.SameFailure other → root.extract scope = other.extract scope := by
  refine ⟨fun e => extract_eq_error, ?_, ?_, ?_⟩
  · intro e h hreported
    rcases extract_eq_error.mp h with hroot | ⟨_, visit, hends⟩
    · exact hroot
    · rw [hends.notReported] at hreported
      cases hreported
  · intro visit e hvisited hbelow hfailure hreported
    exact extract_of_fatal scope hvisited hbelow (Answers.fatal?_eq_some.mpr ⟨hfailure, hreported⟩)
  · intro other halike
    exact extract_congr (fun _ _ => Answers.share_of_sameFailure) scope root other halike

end Entity

/-- A package with a part that reports a failure, and after it a part whose children cannot be made
sense of. -/
def brokenPackage : Entity :=
  .mk (Node.answers { kind := .container, ident := "Lib" })
    [Node.toEntity { kind := .parameter, ident := "k", fault := some "E_FAIL" },
      .mk { Node.answers { kind := .container, ident := "Sub" } with
        listing := .error (.malformed "no list") } []]

theorem extract_brokenPackage :
    brokenPackage.extract "Lib" = .error (.malformed "no list") ∧
      ∃ visit, brokenPackage.EndsAt visit (.malformed "no list") := by
  have h : brokenPackage.extract "Lib" = .error (.malformed "no list") := by rfl
  have hroot : brokenPackage.answers.failure? = none := by rfl
  refine ⟨h, ?_⟩
  rcases ((Entity.extract_eq_error_iff "Lib" brokenPackage).1 _).mp h with hfailure | ⟨_, hends⟩
  · rw [hroot] at hfailure
    cases hfailure
  · exact hends

end GettextTemplate
