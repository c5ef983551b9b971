import GettextTemplate.Proofs.Packages
import Mathlib.Data.List.Basic

/-!
Names with dots in them. What a name leads to can be found in two steps at any of its dots: the part
before the dot leads to a node, and the part after it is looked for among the children of that node
(`find?_dotted`, `find?_below`). So a search ends at a container that has the part after the last dot as
its ident (`name_of_find?`).
-/

namespace GettextTemplate

namespace Node

theorem Leads.getLast?_eq {picks : List Node → Node → Prop} {siblings : List Node}
    {idents : List String} {node : Node} (h : Leads picks siblings idents node) :
    idents.getLast? = some node.ident := by
  induction h with
  | here _ _ => rfl
  | further _ _ _ ih => exact List.mem_getLast?_cons ih

end Node

namespace ModelTree

open Node

/-- What stands below a node, as a tree of its own. -/
def below (node : Node) : ModelTree := ⟨node.children⟩

theorem find?_below (node : Node) (name : String) :
    (below node).find? name = descend node (nameParts name) := by
  obtain ⟨first, later, hparts⟩ := List.exists_cons_of_ne_nil (nameParts_ne_nil name)
  rw [find?, hparts]
  rfl

/-- Parts that are joined end with the last of them, which has a separator before it unless it is the
only one. -/
theorem intercalate_of_getLast? {separator last : String} {parts : List String}
    (h : parts.getLast? = some last) :
    separator.intercalate parts = last ∨
      ∃ outer, separator.intercalate parts = outer ++ separator ++ last := by
  induction parts with
  | nil => cases h
  | cons first rest ih =>
    cases rest with
    | nil =>
      obtain rfl : first = last := Option.some.inj h
      exact .inl String.intercalate_singleton
    | cons second rest =>
      rw [List.getLast?_cons_cons] at h
      rw [String.intercalate_cons_cons]
      right
      rcases ih h with hjoined | ⟨outer, hjoined⟩
      · exact ⟨first, by rw [hjoined]⟩
      · refine ⟨first ++ separator ++ outer, ?_⟩
        rw [hjoined]
        simp only [String.append_assoc]

/-- A search ends at a container whose ident is what the name says after its last dot. -/
theorem name_of_find? {tree : ModelTree} {name : String} {node : Node}
    (h : tree.find? name = some node) :
    '.' ∉ node.ident.toList ∧ (name = node.ident ∨ ∃ outer, name = outer ++ "." ++ node.ident) := by
  obtain ⟨idents, hleads, rfl⟩ := find?_eq_some_iff.mp h
  have hlast := hleads.getLast?_eq
  exact ⟨hleads.not_mem _ (List.mem_of_getLast? hlast), intercalate_of_getLast? hlast⟩

/-- Trees that differ in their faults only lead to nodes that do. -/
theorem find?_of_mend_eq {tree other : ModelTree} (hsame : other.mend = tree.mend) (name : String) :
    (other.find? name).map Node.mend = (tree.find? name).map Node.mend := by
  rw [← find?_mend, ← find?_mend, hsame]

/-- A name with a dot in it leads to nothing if the part before the dot does, and otherwise where the part
after the dot leads among the children of the node that was found, whichever dot it is. Faults do not
count, and every node that is found is a container with the part after the last dot as its ident. -/
theorem find?_composes (tree : ModelTree) (p q : String) :
    tree.find? (p ++ "." ++ q) =
      (match tree.find? p with
      | none => none
      | some node => (below node).find? q) ∧
    tree.source.find (p ++ "." ++ q) =
      (match tree.find? p with
      | none => .ok none
      | some node => (below node).source.find q) ∧
    (∀ other : ModelTree, other.mend = tree.mend → ∀ name,
      (other.find? name).map Node.mend = (tree.find? name).map Node.mend) ∧
    ∀ name node, tree.find? name = some node →
      node.kind = .container ∧ '.' ∉ node.ident.toList ∧
        (name = node.ident ∨ ∃ outer, name = outer ++ "." ++ node.ident) := by
  have hdotted : tree.find? (p ++ "." ++ q) =
      (match tree.find? p with
      | none => none
      | some node => (below node).find? q) := by
    rw [find?_dotted]
    cases tree.find? p with
    | none => rfl
    | some node => exact (find?_below node q).symm
  refine ⟨hdotted, ?_, fun other hsame name => find?_of_mend_eq hsame name, ?_⟩
  · rw [find_source, hdotted]
    cases tree.find? p <;> rfl
  · intro name node hfind
    have hcontainer : node.kind = .container := by
      have hkind := isContainer_of_find? hfind
      cases hcase : node.kind <;> simp_all [Kind.isContainer]
    exact ⟨hcontainer, name_of_find? hfind⟩

/-- A package with an empty name in another one, both with faults, before a twin of the inner one. -/
def namelessTree : ModelTree where
  packages := [{
    kind := .container, ident := "", fault := some "E_FAIL",
    children := [
      { kind := .container, ident := "", fault := some "E_FAIL",
        children := [{ kind := .container, ident := "Q" }] },
      { kind := .container, ident := "", children := [{ kind := .container, ident := "R" }] }] }]

/-- Two dots stand for two empty parts before the last one, at whichever of them the name is cut. -/
theorem namelessTree_find?_composes :
    namelessTree.find? "..Q" = some { kind := .container, ident := "Q" } ∧
    namelessTree.find? "..R" = none ∧
    namelessTree.mend.mend = namelessTree.mend ∧
    (namelessTree.mend.find? "..Q").map Node.mend = (namelessTree.find? "..Q").map Node.mend ∧
    ("..Q" = "Q" ∨ ∃ outer, "..Q" = outer ++ "." ++ "Q") := by
  obtain ⟨hfirst, _, hfaults, hnames⟩ := find?_composes namelessTree "" ".Q"
  obtain ⟨hsecond, _, _, _⟩ := find?_composes namelessTree "." "R"
  have hfind : namelessTree.find? "..Q" = some { kind := .container, ident := "Q" } := by
    exact hfirst.trans rfl
  have hmend : namelessTree.mend.mend = namelessTree.mend := by rfl
  exact ⟨hfind, hsecond.trans rfl, hmend, hfaults _ hmend "..Q", (hnames _ _ hfind).2.2⟩

end ModelTree

end GettextTemplate
