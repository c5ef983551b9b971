import GettextTemplate.Proofs.Questions

/-!
Walks through a tree of entities. A walk goes down from the entities that are open to it, and
`Entity.visits` lists what it comes to. The list is characterised without the recursion that makes
it: `mem_visits` says which entities it holds, and `pairwise_visits` that they stand in the
lexicographic order of their positions, which is depth-first pre-order.
-/

namespace GettextTemplate

/-- Where an entity stands in a tree: the indexes of the children on the way to it. -/
abbrev Position := List Nat

/-- An entity that a walk comes to, and what is known of the entity around it. Only the root has
nothing around it. -/
structure Visit where
  position : Position
  parent : Option Answers
  entity : Entity

namespace Visit

/-- What a visit below the child with an index is when it is seen from the parent. -/
def under (index : Nat) (visit : Visit) : Visit :=
  { visit with position := index :: visit.position }

@[simp] theorem position_under (index : Nat) (visit : Visit) :
    (visit.under index).position = index :: visit.position := rfl

@[simp] theorem parent_under (index : Nat) (visit : Visit) :
    (visit.under index).parent = visit.parent := rfl

@[simp] theorem entity_under (index : Nat) (visit : Visit) :
    (visit.under index).entity = visit.entity := rfl

end Visit

namespace Entity

/-- What a walk comes to: the root, and each child of an open entity that it comes to. -/
inductive Visited (isOpen : Answers → Bool) (root : Entity) : Visit → Prop
  | root : Visited isOpen root ⟨[], none, root⟩
  | child {position : Position} {parent : Option Answers} {entity child : Entity} {index : Nat}
      (above : Visited isOpen root ⟨position, parent, entity⟩)
      (opened : isOpen entity.answers = true)
      (listed : entity.children[index]? = some child) :
      Visited isOpen root ⟨position ++ [index], some entity.answers, child⟩

mutual

/-- The visits of a walk in pre-order. -/
def visits (isOpen : Answers → Bool) (parent : Option Answers) : Entity → List Visit
  | .mk answers children =>
    ⟨[], parent, .mk answers children⟩ ::
      if isOpen answers then visitsAll isOpen answers 0 children else []

/-- The visits of a walk to siblings, of which the first has an index. -/
def visitsAll (isOpen : Answers → Bool) (parent : Answers) (index : Nat) :
    List Entity → List Visit
  | [] => []
  | child :: rest =>
    (visits isOpen (some parent) child).map (Visit.under index) ++
      visitsAll isOpen parent (index + 1) rest

end

/-- The way down to a visit, read from the top: the counterpart of `Visited` for the recursion of
`visits`. -/
private inductive Leads (isOpen : Answers → Bool) : Option Answers → Entity → Visit → Prop
  | here {parent : Option Answers} {entity : Entity} :
      Leads isOpen parent entity ⟨[], parent, entity⟩
  | onward {parent : Option Answers} {entity child : Entity} {index : Nat} {visit : Visit}
      (opened : isOpen entity.answers = true)
      (listed : entity.children[index]? = some child)
      (rest : Leads isOpen (some entity.answers) child visit) :
      Leads isOpen parent entity (visit.under index)

variable {isOpen : Answers → Bool}

private theorem Leads.further {parent : Option Answers} {top child : Entity} {visit : Visit}
    {index : Nat} (h : Leads isOpen parent top visit)
    (opened : isOpen visit.entity.answers = true)
    (listed : visit.entity.children[index]? = some child) :
    Leads isOpen parent top
      ⟨visit.position ++ [index], some visit.entity.answers, child⟩ := by
  induction h with
  | here => exact .onward opened listed .here
  | onward hopened hlisted _ ih => exact .onward hopened hlisted (ih opened listed)

/-- What lies on a way down from a visited entity is visited. -/
private theorem Leads.visited {root : Entity} {parent : Option Answers} {top : Entity}
    {visit : Visit} {position : Position} (h : Leads isOpen parent top visit)
    (htop : Visited isOpen root ⟨position, parent, top⟩) :
    Visited isOpen root ⟨position ++ visit.position, visit.parent, visit.entity⟩ := by
  induction h generalizing position with
  | here => simpa using htop
  | onward opened listed _ ih => simpa using ih (.child htop opened listed)

private theorem leads_iff_visited {root : Entity} {visit : Visit} :
    Leads isOpen none root visit ↔ Visited isOpen root visit := by
  constructor
  · intro h
    exact h.visited .root
  · intro h
    induction h with
    | root => exact .here
    | child _ opened listed ih => exact ih.further opened listed

theorem mem_visitsAll {parent : Answers} {index : Nat} {children : List Entity} {visit : Visit} :
    visit ∈ visitsAll isOpen parent index children ↔
      ∃ (offset : Nat) (child : Entity) (inner : Visit), children[offset]? = some child ∧
        inner ∈ child.visits isOpen (some parent) ∧ visit = inner.under (index + offset) := by
  induction children generalizing index with
  | nil => simp [visitsAll]
  | cons first rest ih =>
    rw [visitsAll, List.mem_append, List.mem_map, ih]
    constructor
    · rintro (⟨inner, hinner, rfl⟩ | ⟨offset, child, inner, hchild, hinner, rfl⟩)
      · exact ⟨0, first, inner, rfl, hinner, rfl⟩
      · exact ⟨offset + 1, child, inner, hchild, hinner, by congr 1; omega⟩
    · rintro ⟨_ | offset, child, inner, hchild, hinner, rfl⟩
      · obtain rfl : first = child := Option.some.inj hchild
        exact .inl ⟨inner, hinner, rfl⟩
      · exact .inr ⟨offset, child, inner, hchild, hinner, by congr 1; omega⟩

private theorem leads_of_mem_visits {parent : Option Answers} {entity : Entity} {visit : Visit}
    (h : visit ∈ entity.visits isOpen parent) : Leads isOpen parent entity visit := by
  -- Each step down makes the position shorter, so the induction is on it and not on the tree.
  obtain ⟨position, around, found⟩ := visit
  induction position generalizing parent entity with
  | nil =>
    obtain ⟨answers, children⟩ := entity
    rcases List.mem_cons.mp h with hroot | hbelow
    · rw [hroot]
      exact .here
    · split at hbelow
      · obtain ⟨offset, child, inner, _, _, heq⟩ := mem_visitsAll.mp hbelow
        cases congrArg Visit.position heq
      · cases hbelow
  | cons index rest ih =>
    obtain ⟨answers, children⟩ := entity
    rcases List.mem_cons.mp h with hroot | hbelow
    · cases congrArg Visit.position hroot
    · split at hbelow
      case isTrue hopen =>
        obtain ⟨offset, child, inner, hchild, hinner, heq⟩ := mem_visitsAll.mp hbelow
        obtain ⟨position, around', found'⟩ := inner
        rw [Nat.zero_add] at heq
        cases heq
        exact .onward hopen hchild (ih hinner)
      case isFalse => cases hbelow

private theorem mem_visits_of_leads {parent : Option Answers} {entity : Entity} {visit : Visit}
    (h : Leads isOpen parent entity visit) : visit ∈ entity.visits isOpen parent := by
  induction h with
  | @here parent entity =>
    obtain ⟨answers, children⟩ := entity
    exact List.mem_cons_self
  | @onward parent entity child index visit opened listed _ ih =>
    obtain ⟨answers, children⟩ := entity
    rw [visits, if_pos (by exact opened)]
    apply List.mem_cons_of_mem
    rw [mem_visitsAll]
    exact ⟨index, child, visit, listed, ih, by rw [Nat.zero_add]⟩

theorem mem_visits {root : Entity} {visit : Visit} :
    visit ∈ root.visits isOpen none ↔ Visited isOpen root visit := by
  rw [← leads_iff_visited]
  exact ⟨leads_of_mem_visits, mem_visits_of_leads⟩

mutual

/-- An entity is visited before everything below it, and what is below one child before the next
child. -/
theorem pairwise_visits (parent : Option Answers) : ∀ entity : Entity,
    (entity.visits isOpen parent).Pairwise fun a b => a.position < b.position
  | .mk answers children => by
    rw [visits, List.pairwise_cons]
    split
    · refine ⟨fun visit hvisit => ?_, pairwise_visitsAll answers 0 children⟩
      obtain ⟨offset, child, inner, _, _, rfl⟩ := mem_visitsAll.mp hvisit
      exact List.nil_lt_cons _ _
    · exact ⟨fun _ hvisit => (List.not_mem_nil hvisit).elim, .nil⟩

theorem pairwise_visitsAll (parent : Answers) (index : Nat) : ∀ children : List Entity,
    (visitsAll isOpen parent index children).Pairwise fun a b => a.position < b.position
  | [] => .nil
  | child :: rest => by
    rw [visitsAll, List.pairwise_append, List.pairwise_map]
    refine ⟨?_, pairwise_visitsAll parent (index + 1) rest, ?_⟩
    · apply (pairwise_visits (some parent) child).imp
      intro a b hlt
      exact List.cons_lt_cons_iff.mpr (.inr ⟨rfl, hlt⟩)
    · intro a ha b hb
      obtain ⟨inner, _, rfl⟩ := List.mem_map.mp ha
      obtain ⟨offset, _, inner', _, _, rfl⟩ := mem_visitsAll.mp hb
      exact List.cons_lt_cons_iff.mpr (.inl (by omega))

end

mutual

/-- Two walks that agree on what is open wherever the first one comes are one walk. -/
theorem visits_congr {isOpen' : Answers → Bool} (parent : Option Answers) : ∀ entity : Entity,
    (∀ visit ∈ entity.visits isOpen parent,
      isOpen visit.entity.answers = isOpen' visit.entity.answers) →
    entity.visits isOpen parent = entity.visits isOpen' parent
  | .mk answers children, h => by
    have hroot : isOpen answers = isOpen' answers := h _ List.mem_cons_self
    rw [visits, visits, ← hroot]
    cases hopen : isOpen answers with
    | false => rfl
    | true =>
      rw [if_pos rfl, if_pos rfl, visitsAll_congr answers 0 children]
      intro visit hvisit
      apply h visit
      rw [visits, if_pos hopen]
      exact List.mem_cons_of_mem _ hvisit

theorem visitsAll_congr {isOpen' : Answers → Bool} (parent : Answers) (index : Nat) :
    ∀ children : List Entity,
    (∀ visit ∈ visitsAll isOpen parent index children,
      isOpen visit.entity.answers = isOpen' visit.entity.answers) →
    visitsAll isOpen parent index children = visitsAll isOpen' parent index children
  | [], _ => rfl
  | child :: rest, h => by
    rw [visitsAll, visitsAll, visits_congr (some parent) child,
      visitsAll_congr parent (index + 1) rest]
    · intro visit hvisit
      exact h visit (List.mem_append_right _ hvisit)
    · intro visit hvisit
      exact h (visit.under index) (List.mem_append_left _ (List.mem_map_of_mem hvisit))

end

end Entity

end GettextTemplate
