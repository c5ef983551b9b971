import GettextTemplate.Proofs.Subpackages

/-!
Which package a name leads to. A name is spelled by the idents of containers, one inside the other,
and the search for it goes to the first container of each ident and never back. So it finds a
package exactly if there is a way to it on which every container comes first among its siblings and
has no dot in its ident (`find?_eq_some_iff`). If siblings have different idents without dots, all
ways are of that kind.
-/

namespace GettextTemplate

namespace Node

/-- Whether a node is what its ident means among some nodes: no dot stands in the ident, and no
container before it has the same one. -/
def IsMeantAmong (siblings : List Node) (node : Node) : Prop :=
  '.' ∉ node.ident.toList ∧ ∃ before after, siblings = before ++ node :: after ∧
    ∀ other ∈ before, other.kind.isContainer = true → other.ident ≠ node.ident

/-- A chain of containers leads from some nodes to its last one, each picked from the nodes or from
the children of the one before. Their idents are listed. -/
inductive Leads (picks : List Node → Node → Prop) : List Node → List String → Node → Prop
  | here {siblings : List Node} {node : Node} : picks siblings node →
      node.kind.isContainer = true → Leads picks siblings [node.ident] node
  | further {siblings : List Node} {package node : Node} {idents : List String} :
      picks siblings package → package.kind.isContainer = true →
      Leads picks package.children idents node →
      Leads picks siblings (package.ident :: idents) node

variable {picks picks' : List Node → Node → Prop} {siblings : List Node} {node : Node}

theorem Leads.ne_nil {idents : List String} (h : Leads picks siblings idents node) :
    idents ≠ [] := by
  cases h <;> exact List.cons_ne_nil _ _

theorem Leads.imp {idents : List String} (h : Leads picks siblings idents node)
    (himp : ∀ siblings node, picks siblings node → picks' siblings node) :
    Leads picks' siblings idents node := by
  induction h with
  | here hpick hcontainer => exact .here (himp _ _ hpick) hcontainer
  | further hpick hcontainer _ ih => exact .further (himp _ _ hpick) hcontainer ih

theorem leads_singleton_iff {ident : String} :
    Leads picks siblings [ident] node ↔
      picks siblings node ∧ node.kind.isContainer = true ∧ node.ident = ident := by
  constructor
  · intro h
    cases h with
    | here hpick hcontainer => exact ⟨hpick, hcontainer, rfl⟩
    | further _ _ hlater => exact absurd rfl hlater.ne_nil
  · rintro ⟨hpick, hcontainer, rfl⟩
    exact .here hpick hcontainer

theorem leads_cons_cons_iff {ident next : String} {later : List String} :
    Leads picks siblings (ident :: next :: later) node ↔
      ∃ package, (picks siblings package ∧ package.kind.isContainer = true ∧
        package.ident = ident) ∧ Leads picks package.children (next :: later) node := by
  constructor
  · intro h
    cases h with
    | further hpick hcontainer hlater => exact ⟨_, ⟨hpick, hcontainer, rfl⟩, hlater⟩
  · rintro ⟨package, ⟨hpick, hcontainer, rfl⟩, hlater⟩
    exact .further hpick hcontainer hlater

theorem IsMeantAmong.mem (h : node.IsMeantAmong siblings) : node ∈ siblings := by
  obtain ⟨_, before, after, rfl, _⟩ := h
  exact List.mem_append_right _ List.mem_cons_self

theorem Leads.not_mem {idents : List String} (h : Leads IsMeantAmong siblings idents node) :
    ∀ ident ∈ idents, '.' ∉ ident.toList := by
  induction h with
  | here hmeant _ => exact List.forall_mem_singleton.mpr hmeant.1
  | further hmeant _ _ ih => exact List.forall_mem_cons.mpr ⟨hmeant.1, ih⟩

theorem find?_isPackage_iff {ident : String} (hdot : '.' ∉ ident.toList) :
    siblings.find? (isPackage ident) = some node ↔
      node.IsMeantAmong siblings ∧ node.kind.isContainer = true ∧ node.ident = ident := by
  rw [List.find?_eq_some_iff_append, isPackage_iff]
  constructor
  · rintro ⟨⟨hcontainer, rfl⟩, before, after, heq, hbefore⟩
    refine ⟨⟨hdot, before, after, heq, fun other hother hkind hsame => ?_⟩, hcontainer, rfl⟩
    have hnot := hbefore other hother
    rw [isPackage_iff.mpr ⟨hkind, hsame⟩] at hnot
    cases hnot
  · rintro ⟨⟨-, before, after, heq, hbefore⟩, hcontainer, rfl⟩
    refine ⟨⟨hcontainer, rfl⟩, before, after, heq, fun other hother => ?_⟩
    rw [Bool.not_eq_true', ← Bool.not_eq_true, isPackage_iff]
    exact fun ⟨hkind, hsame⟩ => hbefore other hother hkind hsame

/-- Whether every container on every level is the only one with its ident among its siblings, and no
dot stands in the ident. -/
inductive HaveClearNames : List Node → Prop
  | intro {nodes : List Node}
      (apart : nodes.Pairwise fun a b =>
        a.kind.isContainer = true → b.kind.isContainer = true → a.ident ≠ b.ident)
      (plain : ∀ node ∈ nodes, node.kind.isContainer = true → '.' ∉ node.ident.toList)
      (below : ∀ node ∈ nodes, node.kind.isContainer = true → HaveClearNames node.children) :
      HaveClearNames nodes

theorem HaveClearNames.isMeantAmong (hclear : HaveClearNames siblings) (hmem : node ∈ siblings)
    (hcontainer : node.kind.isContainer = true) : node.IsMeantAmong siblings := by
  obtain ⟨apart, plain, -⟩ := hclear
  obtain ⟨before, after, rfl⟩ := List.append_of_mem hmem
  refine ⟨plain node hmem hcontainer, before, after, rfl, fun other hother hkind => ?_⟩
  exact (List.pairwise_append.mp apart).2.2 other hother node List.mem_cons_self hkind hcontainer

theorem Leads.isMeantAmong {idents : List String}
    (h : Leads (fun siblings node => node ∈ siblings) siblings idents node)
    (hclear : HaveClearNames siblings) : Leads IsMeantAmong siblings idents node := by
  induction h with
  | here hmem hcontainer => exact .here (hclear.isMeantAmong hmem hcontainer) hcontainer
  | further hmem hcontainer _ ih =>
    refine .further (hclear.isMeantAmong hmem hcontainer) hcontainer (ih ?_)
    obtain ⟨-, -, below⟩ := hclear
    exact below _ hmem hcontainer

end Node

namespace ModelTree

open Node

theorem not_mem_of_mem_splitOn {c : Char} {part text : List Char} (h : part ∈ text.splitOn c) :
    c ∉ part := by
  induction text generalizing part with
  | nil => simp_all [List.splitOn_nil]
  | cons d rest ih =>
    rw [List.splitOn_cons_eq_if_modifyHead] at h
    by_cases hsame : (d == c) = true
    · rw [if_pos hsame] at h
      rcases List.mem_cons.mp h with rfl | h
      · exact List.not_mem_nil
      · exact ih h
    · obtain ⟨first, later, hparts⟩ := List.exists_cons_of_ne_nil (List.splitOn_ne_nil c rest)
      rw [if_neg hsame, hparts, List.modifyHead_cons] at h
      rw [hparts] at ih
      rcases List.mem_cons.mp h with rfl | h
      · have hd : c ≠ d := fun heq => hsame (beq_iff_eq.mpr heq.symm)
        exact List.not_mem_cons_of_ne_of_not_mem hd (ih List.mem_cons_self)
      · exact ih (List.mem_cons_of_mem _ h)

/-- The parts of a name are the only texts without dots that spell it with dots between them. -/
theorem nameParts_eq_iff {name : String} {parts : List String} :
    nameParts name = parts ↔
      parts ≠ [] ∧ (∀ part ∈ parts, '.' ∉ part.toList) ∧ ".".intercalate parts = name := by
  have hdot : ".".toList = ['.'] := String.toList_ofList
  constructor
  · rintro rfl
    refine ⟨nameParts_ne_nil name, ?_, String.toList_inj.mp ?_⟩
    · intro part hpart
      obtain ⟨chars, hchars, rfl⟩ := List.mem_map.mp hpart
      rw [String.toList_ofList]
      exact not_mem_of_mem_splitOn hchars
    · rw [String.toList_intercalate, hdot, nameParts, List.map_map]
      simp [Function.comp_def, List.intercalate_splitOn]
  · rintro ⟨hne, hdots, rfl⟩
    rw [nameParts, String.toList_intercalate, hdot, List.splitOn_intercalate '.' (by simpa using hdots)
      (by simpa using hne), List.map_map]
    simp [Function.comp_def]

/-- The search follows the chain in which each container is what its ident means. -/
theorem bind_descend_eq_some_iff {siblings : List Node} {ident : String} {later : List String}
    (hdots : ∀ part ∈ ident :: later, '.' ∉ part.toList) {node : Node} :
    ((siblings.find? (isPackage ident)).bind fun package => descend package later) = some node ↔
      Leads IsMeantAmong siblings (ident :: later) node := by
  have hident := hdots ident List.mem_cons_self
  induction later generalizing siblings ident with
  | nil =>
    rw [leads_singleton_iff, ← find?_isPackage_iff hident]
    cases siblings.find? (isPackage ident) <;> rfl
  | cons next later ih =>
    have hlater := fun part hpart => hdots part (List.mem_cons_of_mem ident hpart)
    rw [leads_cons_cons_iff, Option.bind_eq_some_iff]
    refine exists_congr fun package => ?_
    rw [find?_isPackage_iff hident]
    exact and_congr_right fun _ => ih hlater (hlater next List.mem_cons_self)

/-- Whether a name is spelled by the idents of a chain that leads to a node of a tree. -/
def Spells (picks : List Node → Node → Prop) (tree : ModelTree) (name : String) (node : Node) :
    Prop :=
  ∃ idents, Leads picks tree.packages idents node ∧ ".".intercalate idents = name

theorem find?_eq_some_iff {tree : ModelTree} {name : String} {node : Node} :
    tree.find? name = some node ↔ tree.Spells IsMeantAmong name node := by
  obtain ⟨first, later, hparts⟩ := List.exists_cons_of_ne_nil (nameParts_ne_nil name)
  have hdots := (nameParts_eq_iff.mp hparts).2.1
  have hname := (nameParts_eq_iff.mp hparts).2.2
  rw [find?, hparts]
  refine (bind_descend_eq_some_iff hdots).trans ⟨fun hleads => ⟨_, hleads, hname⟩, ?_⟩
  rintro ⟨idents, hleads, hidents⟩
  rwa [← hparts, nameParts_eq_iff.mpr ⟨hleads.ne_nil, hleads.not_mem, hidents⟩]

/-- A search ends at the last container of the chain that spells the name with the first container of
each ident, if no ident in it has a dot, and finds nothing if there is no such chain. So what it
finds is always the end of a chain of containers that spells the name, and if names are clear, it
finds every such end. -/
theorem find?_follows_chains (tree : ModelTree) (name : String) :
    (∀ node, tree.find? name = some node ↔ tree.Spells IsMeantAmong name node) ∧
    (tree.find? name = none ↔ ¬∃ node, tree.Spells IsMeantAmong name node) ∧
    (∀ node, tree.find? name = some node →
      tree.Spells (fun siblings node => node ∈ siblings) name node) ∧
    (HaveClearNames tree.packages → ∀ node,
      tree.find? name = some node ↔ tree.Spells (fun siblings node => node ∈ siblings) name node) := by
  have hmem : ∀ node, tree.find? name = some node →
      tree.Spells (fun siblings node => node ∈ siblings) name node := fun node hfind => by
    obtain ⟨idents, hleads, hname⟩ := find?_eq_some_iff.mp hfind
    exact ⟨idents, hleads.imp fun _ _ hmeant => hmeant.mem, hname⟩
  refine ⟨fun node => find?_eq_some_iff, ?_, hmem, fun hclear node => ⟨hmem node, ?_⟩⟩
  · simp only [← find?_eq_some_iff, Option.eq_none_iff_forall_ne_some, not_exists, ne_eq]
  · rintro ⟨idents, hleads, hname⟩
    exact find?_eq_some_iff.mpr ⟨idents, hleads.isMeantAmong hclear, hname⟩

/-- A subpackage behind a parameter of the same name, in a package with an empty name. -/
def leafTree : ModelTree where
  packages := [{
    kind := .container, ident := "",
    children := [{ kind := .parameter, ident := "Q" }, { kind := .container, ident := "Q" }] }]

theorem haveClearNames_leafTree : HaveClearNames leafTree.packages := by
  have hnone : HaveClearNames [] := .intro .nil (by simp) (by simp)
  have hchildren : HaveClearNames
      [{ kind := .parameter, ident := "Q" }, { kind := .container, ident := "Q" }] :=
    .intro (by simp [Kind.isContainer]) (by simp [Kind.isContainer])
      (by simp [Kind.isContainer, hnone])
  exact .intro (by simp [leafTree]) (by simp [leafTree]) (by simp [leafTree, hchildren])

theorem find?_follows_chains_leafTree :
    HaveClearNames leafTree.packages ∧
    leafTree.Spells (fun siblings node => node ∈ siblings) ".Q" { kind := .container, ident := "Q" } ∧
    leafTree.find? ".Q" = some { kind := .container, ident := "Q" } := by
  have hspells : leafTree.Spells (fun siblings node => node ∈ siblings) ".Q"
      { kind := .container, ident := "Q" } :=
    ⟨["", "Q"], .further List.mem_cons_self rfl
      (.here (List.mem_cons_of_mem _ List.mem_cons_self) rfl), by decide⟩
  exact ⟨haveClearNames_leafTree, hspells,
    ((find?_follows_chains leafTree ".Q").2.2.2 haveClearNames_leafTree _).mpr hspells⟩

/-- Two packages with one name, of which only the second has a subpackage, before a package with a
dot in its name. -/
def twinTree : ModelTree where
  packages := [
    { kind := .container, ident := "A" },
    { kind := .container, ident := "A", children := [{ kind := .container, ident := "B" }] },
    { kind := .container, ident := "C.D" }]

/-- The search for the subpackage ends in the first twin, and the name with the dot is taken for that
of a subpackage. -/
theorem twinTree_hides_packages :
    twinTree.Spells (fun siblings node => node ∈ siblings) "A.B"
      { kind := .container, ident := "B" } ∧
    twinTree.find? "A.B" = none ∧
    twinTree.Spells (fun siblings node => node ∈ siblings) "C.D"
      { kind := .container, ident := "C.D" } ∧
    twinTree.find? "C.D" = none := by
  refine ⟨⟨["A", "B"], ?_, by decide⟩, by rfl, ⟨["C.D"], ?_, by decide⟩, by rfl⟩
  · exact .further (List.mem_cons_of_mem _ List.mem_cons_self) rfl (.here List.mem_cons_self rfl)
  · exact .here (List.mem_cons_of_mem _ (List.mem_cons_of_mem _ List.mem_cons_self)) rfl

end ModelTree

end GettextTemplate
