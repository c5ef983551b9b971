import GettextTemplate.Proofs.PreOrder

/-!
Failed subtrees are isolated. Pruning takes each subtree out that an extraction gives up, and the
extraction of what is left is that of the whole tree apart from the count of losses: nothing of a
lost subtree gets into the messages or the other counts, and its siblings do not notice it.
-/

namespace GettextTemplate

namespace Entity

mutual

/-- A tree without the subtrees of its containers whose first failure is a reported one. -/
def prune : Entity → Entity
  | .mk answers children =>
    .mk answers (if answers.isContainer then pruneAll children else children)

def pruneAll : List Entity → List Entity
  | [] => []
  | child :: rest =>
    if child.answers.isLost then pruneAll rest else prune child :: pruneAll rest

end

mutual

/-- The subtrees that pruning takes out. What lies below one of them is not told apart. -/
def cuttings : Entity → List Entity
  | .mk answers children => if answers.isContainer then cuttingsAll children else []

def cuttingsAll : List Entity → List Entity
  | [] => []
  | child :: rest =>
    (if child.answers.isLost then [child] else cuttings child) ++ cuttingsAll rest

end

@[simp] theorem answers_prune (entity : Entity) : entity.prune.answers = entity.answers := by
  obtain ⟨answers, children⟩ := entity
  rfl

end Entity

namespace Extraction

def lose (losses : Nat) (x : Extraction) : Extraction := { x with skipped := x.skipped + losses }

theorem lost_append_lose (n : Nat) (x : Extraction) : lost ++ lose n x = lose (1 + n) x := by
  change append lost (lose n x) = _
  simp only [append, lost, lose, List.nil_append, Nat.zero_add, Extraction.mk.injEq, true_and]
  omega

theorem lose_append_lose (m n : Nat) (x y : Extraction) :
    lose m x ++ lose n y = lose (m + n) (x ++ y) := by
  change append (lose m x) (lose n y) = lose (m + n) (append x y)
  simp only [append, lose, Extraction.mk.injEq, true_and]
  omega

theorem sum_map_lose (m n : Nat) (first later : Answer Extraction) :
    (do let a ← first.map (lose m); let b ← later.map (lose n); return a ++ b) =
      Except.map (lose (m + n)) (do let a ← first; let b ← later; return a ++ b) := by
  cases first with
  | error e => rfl
  | ok a =>
    cases later with
    | error e => rfl
    | ok b => exact congrArg Except.ok (lose_append_lose m n a b)

end Extraction

namespace Entity

open Extraction

mutual

/-- Pruning changes nothing about an extraction but the count of losses. -/
theorem extract_eq_map_prune (scope : String) : ∀ entity : Entity,
    entity.extract scope = (entity.prune.extract scope).map (lose entity.cuttings.length)
  | .mk answers children => by
    rw [prune, cuttings, extract_eq, extract_eq]
    cases hfailure : answers.failure? with
    | some e => rfl
    | none =>
      have hopen : answers.isOpen = answers.isContainer := Answers.isOpen_of_complete hfailure
      cases hcontainer : answers.isContainer with
      | false =>
        rw [hcontainer] at hopen
        simp only [hopen]
        rfl
      | true =>
        rw [hcontainer] at hopen
        simp only [hopen, if_true]
        rw [extractAll_eq_map_prune answers.name children]
        have hsum := sum_map_lose 0 (cuttingsAll children).length
          (.ok (.single (answers.ownMessages scope))) (extractAll answers.name (pruneAll children))
        rw [Nat.zero_add] at hsum
        exact hsum

theorem extractAll_eq_map_prune (scope : String) : ∀ children : List Entity,
    extractAll scope children =
      (extractAll scope (pruneAll children)).map (lose (cuttingsAll children).length)
  | [] => rfl
  | child :: rest => by
    rw [extractAll_cons, extractAll_eq_map_prune scope rest, extractWithin_eq, pruneAll,
      cuttingsAll, List.length_append]
    cases hlost : child.answers.isLost with
    | true =>
      obtain ⟨e, hfailure, hreported⟩ := (Option.any_eq_true _ _).mp hlost
      simp only [hfailure, hreported, if_true, List.length_singleton]
      cases extractAll scope (pruneAll rest) with
      | error e => rfl
      | ok x => exact congrArg Except.ok (lost_append_lose _ x)
    | false =>
      rw [if_neg Bool.false_ne_true, if_neg Bool.false_ne_true, extractAll_cons, extractWithin_eq,
        answers_prune, ← sum_map_lose]
      congr 1
      cases hfailure : child.answers.failure? with
      | none => exact extract_eq_map_prune _ child
      | some e =>
        have hreported : e.isReported = false := by
          simpa [Answers.isLost, hfailure] using hlost
        simp only [hreported]
        rfl

end

mutual

/-- In a pruned tree nothing is lost but possibly the root. -/
theorem isLost_of_mem_visits_prune (parent : Option Answers) : ∀ entity : Entity,
    entity.answers.isLost = false →
    ∀ visit ∈ entity.prune.visits Answers.isOpen parent, visit.isLost = false
  | .mk answers children, hkept, visit, hvisit => by
    rw [prune, visits, List.mem_cons] at hvisit
    rcases hvisit with rfl | hbelow
    · exact hkept
    · cases hopen : answers.isOpen with
      | false => simp [hopen] at hbelow
      | true =>
        have hcontainer := (Bool.and_eq_true_iff.mp hopen).1
        rw [if_pos hopen, if_pos hcontainer] at hbelow
        exact isLost_of_mem_visitsAll_pruneAll answers 0 children visit hbelow

theorem isLost_of_mem_visitsAll_pruneAll (parent : Answers) (index : Nat) :
    ∀ children : List Entity,
    ∀ visit ∈ visitsAll Answers.isOpen parent index (pruneAll children), visit.isLost = false
  | [], _, hvisit => by cases hvisit
  | child :: rest, visit, hvisit => by
    rw [pruneAll] at hvisit
    cases hlost : child.answers.isLost with
    | true =>
      rw [if_pos hlost] at hvisit
      exact isLost_of_mem_visitsAll_pruneAll parent index rest visit hvisit
    | false =>
      rw [if_neg (by simp [hlost]), visitsAll, List.mem_append, List.mem_map] at hvisit
      rcases hvisit with ⟨inner, hinner, rfl⟩ | hlater
      · exact isLost_of_mem_visits_prune (some parent) child hlost inner hinner
      · exact isLost_of_mem_visitsAll_pruneAll parent (index + 1) rest visit hlater

end

/-- A walk through a pruned tree whose extraction succeeds meets complete entities only. -/
theorem isComplete_of_mem_visits_prune {scope : String} {root : Entity} {x : Extraction}
    (hroot : root.answers.failure? = none) (h : root.prune.extract scope = .ok x) :
    ∀ visit ∈ root.prune.visits Answers.isOpen none, visit.isComplete = true := by
  intro visit hvisit
  have hfatal := (eq_gather_of_extract h).1 visit hvisit
  have hkept := isLost_of_mem_visits_prune none root (by simp [Answers.isLost, hroot]) visit hvisit
  cases hfailure : visit.entity.answers.failure? with
  | none => simp [Visit.isComplete, Answers.isComplete, hfailure]
  | some e =>
    have hreported : e.isReported = false := by
      simpa [Visit.isLost, Answers.isLost, hfailure] using hkept
    simp [Visit.fatal?, Answers.fatal?, hfailure, hreported, Option.filter_some] at hfatal

/-- In a pruned tree whose extraction succeeds, each entity below containers only is counted, and
nothing is lost. -/
theorem counts_extract_prune {scope : String} {root : Entity} {x : Extraction}
    (hroot : root.answers.failure? = none) (h : root.prune.extract scope = .ok x) :
    x.visited = (root.prune.visits Answers.isContainer none).length ∧ x.skipped = 0 := by
  have hcomplete := isComplete_of_mem_visits_prune hroot h
  have hwalk : root.prune.visits Answers.isOpen none =
      root.prune.visits Answers.isContainer none := by
    apply visits_congr
    intro visit hvisit
    have hvisitComplete : visit.entity.answers.isComplete = true := hcomplete visit hvisit
    rw [Answers.isOpen, hvisitComplete, Bool.and_true]
  rw [(eq_gather_of_extract h).2]
  constructor
  · rw [← hwalk]
    exact List.countP_eq_length.mpr hcomplete
  · apply List.countP_eq_zero.mpr
    intro visit hvisit
    have hkept := isLost_of_mem_visits_prune none root (by simp [Answers.isLost, hroot]) visit hvisit
    simp [hkept]

/-- The extraction of a tree with a complete root fails exactly as that of the pruned tree does. If
it succeeds, it has the same messages and visits, which are all entities of the pruned tree below
containers only, and its losses are the subtrees that were taken out, each counted once. -/
theorem extract_agrees_with_prune (scope : String) {root : Entity}
    (hroot : root.answers.failure? = none) :
    (∀ e, root.extract scope = .error e ↔ root.prune.extract scope = .error e) ∧
    ∀ x, root.extract scope = .ok x →
      ∃ (pruned : Extraction) (entities : List Visit),
        root.prune.extract scope = .ok pruned ∧
        x.messages = pruned.messages ∧
        x.visited = pruned.visited ∧
        pruned.visited = entities.length ∧
        entities.Pairwise (fun a b => a.position < b.position) ∧
        (∀ visit, visit ∈ entities ↔ root.prune.Visited Answers.isContainer visit) ∧
        pruned.skipped = 0 ∧
        x.skipped = root.cuttings.length := by
  rw [extract_eq_map_prune]
  cases hpruned : root.prune.extract scope with
  | error e =>
    refine ⟨fun f => Iff.rfl, fun x h => ?_⟩
    cases h
  | ok pruned =>
    obtain ⟨hvisited, hskipped⟩ := counts_extract_prune hroot hpruned
    refine ⟨fun e => ⟨nofun, nofun⟩, fun x h => ?_⟩
    cases h
    refine ⟨pruned, root.prune.visits Answers.isContainer none, rfl, rfl, rfl, hvisited,
      pairwise_visits none _, fun visit => mem_visits, hskipped, ?_⟩
    change pruned.skipped + root.cuttings.length = _
    rw [hskipped, Nat.zero_add]

end Entity

theorem extract_faultyPackage_agrees_with_prune :
    faultyPackage.answers.failure? = none ∧
      ∃ pruned, faultyPackage.prune.extract "P.Lib" = .ok pruned ∧
        pruned.messages = [⟨"P.Lib", "a \\\"b\\\""⟩, ⟨"Real", "Unit"⟩] ∧
        pruned.visited = 3 ∧ pruned.skipped = 0 ∧ faultyPackage.cuttings.length = 1 := by
  have hroot : faultyPackage.answers.failure? = none := by rfl
  obtain ⟨pruned, _, hpruned, hmessages, hvisited, _, _, _, hskipped, hcuttings⟩ :=
    (Entity.extract_agrees_with_prune "P.Lib" hroot).2 _ extract_faultyPackage
  exact ⟨hroot, pruned, hpruned, hmessages.symm, hvisited.symm, hskipped, hcuttings.symm⟩

end GettextTemplate
