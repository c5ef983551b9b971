import GettextTemplate.Proofs.Collections
import GettextTemplate.Template

/-!
Trees whose siblings stand in another order. An extraction goes through siblings in order, so its
messages come in another order as well, and if several entities are fatal it may end with another of
their failures. But it fails for both orders or for neither (`extract_reordered`), and a collection
keeps no trace of the order: the catalogs, the counts and the templates are the same.
-/

namespace GettextTemplate

namespace Extraction

/-- Whether two extractions differ at most in the order of their messages. -/
structure Rearranged (x y : Extraction) : Prop where
  messages : x.messages.Perm y.messages
  visited : x.visited = y.visited
  skipped : x.skipped = y.skipped

namespace Rearranged

variable {x y z x' y' : Extraction}

theorem refl (x : Extraction) : Rearranged x x := ⟨.refl _, rfl, rfl⟩

theorem trans (h : Rearranged x y) (h' : Rearranged y z) : Rearranged x z :=
  ⟨h.messages.trans h'.messages, h.visited.trans h'.visited, h.skipped.trans h'.skipped⟩

theorem append (h : Rearranged x y) (h' : Rearranged x' y') : Rearranged (x ++ x') (y ++ y') where
  messages := h.messages.append h'.messages
  visited := by
    change x.visited + x'.visited = y.visited + y'.visited
    rw [h.visited, h'.visited]
  skipped := by
    change x.skipped + x'.skipped = y.skipped + y'.skipped
    rw [h.skipped, h'.skipped]

theorem append_left_comm (x y z : Extraction) : Rearranged (x ++ (y ++ z)) (y ++ (x ++ z)) where
  messages := by
    change (x.messages ++ (y.messages ++ z.messages)).Perm
      (y.messages ++ (x.messages ++ z.messages))
    rw [← List.append_assoc, ← List.append_assoc]
    exact List.perm_append_comm.append_right _
  visited := Nat.add_left_comm ..
  skipped := Nat.add_left_comm ..

theorem collection_eq (h : Rearranged x y) : x.collection = y.collection := by
  have hcatalog : Catalog.ofList x.messages = Catalog.ofList y.messages := by
    apply Catalog.ext_mem
    intro m
    rw [Catalog.mem_ofList, Catalog.mem_ofList, h.messages.mem_iff]
  rw [collection, collection, hcatalog, h.messages.length_eq, h.visited, h.skipped]

end Rearranged

/-- What two extractions add up to if both succeed. -/
def sum (first later : Answer Extraction) : Answer Extraction := do
  let a ← first
  let b ← later
  return a ++ b

/-- Whether two extractions end alike. If both fail they may do so for different reasons, because
which failure is met first depends on the order. -/
inductive EndAlike : Answer Extraction → Answer Extraction → Prop
  | failed (e f : SourceFailure) : EndAlike (.error e) (.error f)
  | found {x y : Extraction} (h : Rearranged x y) : EndAlike (.ok x) (.ok y)

namespace EndAlike

variable {first first' later later' last : Answer Extraction}

theorem refl : ∀ found : Answer Extraction, EndAlike found found
  | .error e => .failed e e
  | .ok x => .found (.refl x)

theorem trans (h : EndAlike first later) (h' : EndAlike later last) : EndAlike first last := by
  cases h with
  | failed e f =>
    cases h' with
    | failed _ g => exact .failed e g
  | found h =>
    cases h' with
    | found h' => exact .found (h.trans h')

theorem sum (h : EndAlike first first') (h' : EndAlike later later') :
    EndAlike (Extraction.sum first later) (Extraction.sum first' later') := by
  cases h with
  | failed e f => exact .failed e f
  | found h =>
    cases h' with
    | failed e f => exact .failed e f
    | found h' => exact .found (h.append h')

/-- Of three that are added up, the first two may change places. -/
theorem sum_left_comm (first second later : Answer Extraction) :
    EndAlike (Extraction.sum first (Extraction.sum second later))
      (Extraction.sum second (Extraction.sum first later)) := by
  cases first with
  | error e =>
    cases second with
    | error f => exact .failed e f
    | ok b => exact .failed e e
  | ok a =>
    cases second with
    | error f => exact .failed f f
    | ok b =>
      cases later with
      | error e => exact .failed e e
      | ok c => exact .found (Rearranged.append_left_comm a b c)

theorem isOk_iff (h : EndAlike first later) : (∃ x, first = .ok x) ↔ ∃ y, later = .ok y := by
  cases h with
  | failed e f => exact ⟨nofun, nofun⟩
  | @found x y _ => exact ⟨fun _ => ⟨y, rfl⟩, fun _ => ⟨x, rfl⟩⟩

theorem rearranged {x y : Extraction} (h : EndAlike (.ok x) (.ok y)) : Rearranged x y := by
  cases h with
  | found h => exact h

end EndAlike

end Extraction

namespace Entity

open Extraction

mutual

/-- Whether a tree becomes another when the children of some of its entities, at any depth, are put
into another order. -/
def Reordered : Entity → Entity → Prop
  | .mk answers children, .mk answers' children' =>
    answers = answers' ∧ ∃ middle, ReorderedAll children middle ∧ middle.Perm children'

/-- Siblings that are reordered one by one, each of them in its place. -/
def ReorderedAll : List Entity → List Entity → Prop
  | [], [] => True
  | child :: rest, child' :: rest' => Reordered child child' ∧ ReorderedAll rest rest'
  | _, _ => False

end

mutual

theorem Reordered.refl : ∀ entity : Entity, Reordered entity entity
  | .mk _ children => ⟨rfl, children, ReorderedAll.refl children, .refl _⟩

theorem ReorderedAll.refl : ∀ children : List Entity, ReorderedAll children children
  | [] => trivial
  | child :: rest => ⟨Reordered.refl child, ReorderedAll.refl rest⟩

end

theorem extractAll_cons_eq_sum (scope : String) (child : Entity) (rest : List Entity) :
    extractAll scope (child :: rest) =
      sum (child.extractWithin scope) (extractAll scope rest) := rfl

theorem Reordered.answers {entity entity' : Entity} (h : Reordered entity entity') :
    entity.answers = entity'.answers := by
  obtain ⟨a, children⟩ := entity
  obtain ⟨b, children'⟩ := entity'
  exact h.1

/-- Siblings that change places. -/
theorem extractAll_perm (scope : String) {children children' : List Entity}
    (h : children.Perm children') :
    EndAlike (extractAll scope children) (extractAll scope children') := by
  induction h with
  | nil => exact .refl _
  | cons child _ ih =>
    rw [extractAll_cons_eq_sum, extractAll_cons_eq_sum]
    exact .sum (.refl _) ih
  | swap first second rest =>
    simp only [extractAll_cons_eq_sum]
    exact .sum_left_comm _ _ _
  | trans _ _ ih ih' => exact ih.trans ih'

mutual

theorem extract_reordered (scope : String) : ∀ entity entity' : Entity, Reordered entity entity' →
    EndAlike (entity.extract scope) (entity'.extract scope)
  | .mk answers children, .mk _ children', h => by
    obtain ⟨rfl, middle, hchildren, hperm⟩ := h
    rw [extract_eq, extract_eq]
    cases answers.failure? with
    | some e => exact .failed e e
    | none =>
      cases answers.isOpen with
      | false => exact .refl _
      | true =>
        have hbelow := (extractAll_reordered answers.name children middle hchildren).trans
          (extractAll_perm answers.name hperm)
        exact .sum (.refl (.ok (.single (answers.ownMessages scope)))) hbelow

theorem extractAll_reordered (scope : String) : ∀ children children' : List Entity,
    ReorderedAll children children' →
    EndAlike (extractAll scope children) (extractAll scope children')
  | [], [], _ => .refl _
  | [], _ :: _, h => h.elim
  | _ :: _, [], h => h.elim
  | child :: rest, child' :: rest', h => by
    obtain ⟨hchild, hrest⟩ := h
    have hwithin : EndAlike (child.extractWithin scope) (child'.extractWithin scope) := by
      rw [extractWithin_eq, extractWithin_eq, ← hchild.answers]
      cases child.answers.failure? with
      | some e => exact .refl _
      | none => exact extract_reordered _ child child' hchild
    rw [extractAll_cons_eq_sum, extractAll_cons_eq_sum]
    exact .sum hwithin (extractAll_reordered scope rest rest' hrest)

end

/-- The order of siblings does not show in a collection: if either tree can be extracted both can,
and the catalogs, the counts and the templates are the same, also for sources that find these
trees. -/
theorem collections_of_reordered {root other : Entity} (h : Reordered root other) :
    (∀ scope, (∃ x, root.extract scope = .ok x) ↔ ∃ y, other.extract scope = .ok y) ∧
    (∀ scope x y, root.extract scope = .ok x → other.extract scope = .ok y →
      x.collection.catalog = y.collection.catalog ∧ x.collection.counts = y.collection.counts ∧
      ∀ format created, Template.compose format x.collection.catalog created =
        Template.compose format y.collection.catalog created) ∧
    ∀ (source source' : Source) (package : String), source.find package = .ok (some root) →
      source'.find package = .ok (some other) →
      ∀ c, source.collection package = .ok c ↔ source'.collection package = .ok c := by
  have hsame {scope : String} {x y : Extraction} (hx : root.extract scope = .ok x)
      (hy : other.extract scope = .ok y) : x.collection = y.collection := by
    have hends := extract_reordered scope root other h
    rw [hx, hy] at hends
    exact hends.rearranged.collection_eq
  refine ⟨fun scope => (extract_reordered scope root other h).isOk_iff, ?_, ?_⟩
  · intro scope x y hx hy
    rw [hsame hx hy]
    exact ⟨rfl, rfl, fun _ _ => rfl⟩
  · intro source source' package hfind hfind' c
    have hok := (extract_reordered package root other h).isOk_iff
    rw [Source.collection_eq_ok_iff, Source.collection_eq_ok_iff, hfind, hfind']
    constructor
    · rintro ⟨_, x, ⟨⟩, hx, rfl⟩
      obtain ⟨y, hy⟩ := hok.mp ⟨x, hx⟩
      exact ⟨other, y, rfl, hy, (hsame hx hy).symm⟩
    · rintro ⟨_, y, ⟨⟩, hy, rfl⟩
      obtain ⟨x, hx⟩ := hok.mpr ⟨y, hy⟩
      exact ⟨root, x, rfl, hx, hsame hx hy⟩

end Entity

def inertia : Node := { kind := .parameter, ident := "J", comment := "Inertia" }

def resistance : Node := { kind := .parameter, ident := "R", comment := "Resistance" }

/-- A model, a parameter that cannot be read and one that can. -/
def libraryParts (modelParts : List Node) : List Node :=
  [{ kind := .container, ident := "Motor", children := modelParts },
    { kind := .parameter, ident := "k", fault := some "E_FAIL" },
    { kind := .parameter, ident := "g", comment := "Gain" }]

def library (parts : List Node) : Entity :=
  Node.toEntity { kind := .container, ident := "Lib", children := parts }

theorem collections_of_turned_library :
    (library (libraryParts [inertia, resistance])).Reordered
      (library (libraryParts [resistance, inertia]).reverse) ∧
    ∃ x y, (library (libraryParts [inertia, resistance])).extract "Lib" = .ok x ∧
      (library (libraryParts [resistance, inertia]).reverse).extract "Lib" = .ok y ∧
      x.messages ≠ y.messages ∧
      x.collection.catalog = y.collection.catalog ∧ x.collection.counts = y.collection.counts := by
  have hreordered : (library (libraryParts [inertia, resistance])).Reordered
      (library (libraryParts [resistance, inertia]).reverse) := by
    refine ⟨rfl, Node.toEntities (libraryParts [resistance, inertia]), ⟨?_, ?_⟩, ?_⟩
    · exact ⟨rfl, _, Entity.ReorderedAll.refl _, .swap _ _ _⟩
    · exact Entity.ReorderedAll.refl _
    · exact (List.reverse_perm _).symm
  have hx : (library (libraryParts [inertia, resistance])).extract "Lib" =
      .ok ⟨[⟨"Motor", "Inertia"⟩, ⟨"Motor", "Resistance"⟩, ⟨"Lib", "Gain"⟩], 5, 1⟩ := by rfl
  have hy : (library (libraryParts [resistance, inertia]).reverse).extract "Lib" =
      .ok ⟨[⟨"Lib", "Gain"⟩, ⟨"Motor", "Resistance"⟩, ⟨"Motor", "Inertia"⟩], 5, 1⟩ := by rfl
  obtain ⟨hcatalog, hcounts, _⟩ :=
    (Entity.collections_of_reordered hreordered).2.1 "Lib" _ _ hx hy
  exact ⟨hreordered, _, _, hx, hy, by decide, hcatalog, hcounts⟩

end GettextTemplate
