import GettextTemplate.Proofs.Faults

/-!
A package inside another one. Its name leads on from the name of the outer package
(`find?_dotted`), and as long as there is no fault on the way, what it gives by itself is a part of
what the outer package gives (`partOf_extract_descend`). The name that was asked for shows in its
comment only (`messages_rescoped`), so the collections of the two can be compared.
-/

namespace GettextTemplate

namespace Extraction

/-- Whether an extraction went into another one: its messages stand there together, and the other one
counts at least as much. -/
structure PartOf (part whole : Extraction) : Prop where
  messages : part.messages <:+: whole.messages
  visited : part.visited ≤ whole.visited
  skipped : part.skipped ≤ whole.skipped

namespace PartOf

variable {x y z : Extraction}

theorem trans (h : PartOf x y) (h' : PartOf y z) : PartOf x z :=
  ⟨h.messages.trans h'.messages, Nat.le_trans h.visited h'.visited,
    Nat.le_trans h.skipped h'.skipped⟩

theorem append_left (x y : Extraction) : PartOf x (x ++ y) :=
  ⟨(List.prefix_append _ _).isInfix, Nat.le_add_right _ _, Nat.le_add_right _ _⟩

theorem append_right (x y : Extraction) : PartOf y (x ++ y) :=
  ⟨(List.suffix_append _ _).isInfix, Nat.le_add_left _ _, Nat.le_add_left _ _⟩

end PartOf

end Extraction

namespace Answers

/-- The message in the comment of an entity that speaks. -/
def spokenComment (answers : Answers) (scope : String) : List Message :=
  if answers.speaks then (answers.commentMessage scope).toList else []

/-- All messages of a container but its comment have its own name as their scope. -/
theorem ownMessages_eq_append {answers : Answers} (hcontainer : answers.isContainer = true) :
    ∃ rest, ∀ scope, answers.ownMessages scope = answers.spokenComment scope ++ rest := by
  refine ⟨answers.annotated answers.name definitionKeys ++
    if answers.speaks then answers.annotated answers.name dialogKeys else [], fun scope => ?_⟩
  simp only [ownMessages, spokenComment, hcontainer, if_true, List.append_assoc]

end Answers

namespace Entity

open Extraction

/-- A container that is extracted adds its own messages to what its children give. -/
theorem extract_container_eq_ok {scope : String} {answers : Answers} {children : List Entity}
    {x : Extraction} (hcontainer : answers.isContainer = true)
    (h : Entity.extract scope (.mk answers children) = .ok x) :
    answers.failure? = none ∧ ∃ below, extractAll answers.name children = .ok below ∧
      x = single (answers.ownMessages scope) ++ below := by
  rw [extract_eq] at h
  cases hfailure : answers.failure? with
  | some e =>
    rw [hfailure] at h
    cases h
  | none =>
    have hopen : answers.isOpen = true := (Answers.isOpen_of_complete hfailure).trans hcontainer
    rw [hfailure] at h
    simp only [hopen, if_true] at h
    cases hbelow : extractAll answers.name children with
    | error e =>
      rw [hbelow] at h
      cases h
    | ok below =>
      rw [hbelow] at h
      cases h
      exact ⟨rfl, below, rfl, rfl⟩

/-- A container is extracted in any scope if it is in one, and only its comment tells the
difference. -/
theorem messages_rescoped {entity : Entity} (hcontainer : entity.answers.isContainer = true)
    {scope : String} {x : Extraction} (h : entity.extract scope = .ok x) (scope' : String) :
    ∃ rest, x.messages = entity.answers.spokenComment scope ++ rest ∧
      entity.extract scope' =
        .ok ⟨entity.answers.spokenComment scope' ++ rest, x.visited, x.skipped⟩ := by
  obtain ⟨answers, children⟩ := entity
  change answers.isContainer = true at hcontainer
  obtain ⟨own, hown⟩ := Answers.ownMessages_eq_append hcontainer
  obtain ⟨hcomplete, below, hbelow, rfl⟩ := extract_container_eq_ok hcontainer h
  have hopen : answers.isOpen = true := (Answers.isOpen_of_complete hcomplete).trans hcontainer
  refine ⟨own ++ below.messages, ?_, ?_⟩
  · change answers.ownMessages scope ++ below.messages = _
    rw [hown scope, List.append_assoc]
    rfl
  · rw [extract_eq, hcomplete]
    simp only [hopen, if_true, hbelow]
    change Except.ok (single (answers.ownMessages scope') ++ below) = _
    rw [hown scope', ← List.append_assoc]
    rfl

theorem partOf_extractAll {scope : String} {children : List Entity} {x : Extraction}
    (h : extractAll scope children = .ok x) {child : Entity} (hmem : child ∈ children)
    (hcomplete : child.answers.failure? = none) :
    ∃ part, child.extract (if child.answers.isContainer then child.answers.name else scope) =
      .ok part ∧ PartOf part x := by
  induction children generalizing x with
  | nil => cases hmem
  | cons first rest ih =>
    rw [extractAll_cons] at h
    cases hfirst : first.extractWithin scope with
    | error e =>
      rw [hfirst] at h
      cases h
    | ok y =>
      rw [hfirst] at h
      cases hlater : extractAll scope rest with
      | error e =>
        rw [hlater] at h
        cases h
      | ok z =>
        rw [hlater] at h
        cases h
        rcases List.mem_cons.mp hmem with rfl | hmem
        · rw [extractWithin_eq, hcomplete] at hfirst
          exact ⟨y, hfirst, .append_left y z⟩
        · obtain ⟨part, hpart, hin⟩ := ih hlater hmem
          exact ⟨part, hpart, hin.trans (.append_right y z)⟩

/-- What a container gives has a part for each container in it that answers all questions, and is
more than that part by the container itself. -/
theorem partOf_extract {scope : String} {entity child : Entity} {x : Extraction}
    (h : entity.extract scope = .ok x) (hcontainer : entity.answers.isContainer = true)
    (hmem : child ∈ entity.children) (hcomplete : child.answers.failure? = none)
    (hchild : child.answers.isContainer = true) :
    ∃ part, child.extract child.answers.name = .ok part ∧ PartOf part x ∧
      part.visited < x.visited := by
  obtain ⟨answers, children⟩ := entity
  obtain ⟨-, below, hbelow, rfl⟩ := extract_container_eq_ok hcontainer h
  obtain ⟨part, hpart, hin⟩ := partOf_extractAll hbelow hmem hcomplete
  rw [if_pos hchild] at hpart
  refine ⟨part, hpart, hin.trans (.append_right _ below), ?_⟩
  change part.visited < 1 + below.visited
  have := hin.visited
  omega

end Entity

namespace Node

variable {node : Node}

theorem isPackage_iff {ident : String} :
    node.isPackage ident = true ↔ node.kind.isContainer = true ∧ node.ident = ident := by
  simp [isPackage]

theorem failure?_of_sound (hsound : node.fault = none) : node.toEntity.answers.failure? = none := by
  rw [answers_toEntity, failure?_answers, failure?, hsound]
  rfl

theorem isContainer_of_sound (hsound : node.fault = none) :
    node.toEntity.answers.isContainer = node.kind.isContainer := by
  simp [answers_toEntity, Answers.isContainer, answers, answer, hsound, Except.toOption]

theorem name_of_sound (hsound : node.fault = none) : node.toEntity.answers.name = node.ident := by
  simp [answers_toEntity, Answers.name, answers, answer, hsound, Except.toOption]

/-- The message in the comment of a node, if it has one and does not keep it to itself. -/
def commentMessages (node : Node) (scope : String) : List Message :=
  if node.comment = "" ∨ node.kind.hasOwnText node.builtIn = false then []
  else [⟨scope, String.ofList (Literal.escapeEveryQuote node.comment.toList)⟩]

theorem spokenComment_of_sound (hsound : node.fault = none) (scope : String) :
    node.toEntity.answers.spokenComment scope = node.commentMessages scope := by
  have hspeaks : node.toEntity.answers.speaks = node.kind.hasOwnText node.builtIn := by
    rw [Answers.speaks, isContainer_of_sound hsound]
    simp [answers_toEntity, Answers.isBuiltIn, answers, answer, hsound, Except.toOption,
      Kind.hasOwnText]
  have hcomment : node.toEntity.answers.comment = .ok node.comment := by
    simp [answers_toEntity, answers, answer, hsound]
  rw [Answers.spokenComment, hspeaks, Answers.commentMessage, hcomment, commentMessages]
  cases node.kind.hasOwnText node.builtIn <;>
    by_cases hempty : node.comment = "" <;> simp [hempty, Except.toOption]

/-- The nodes that are passed on the way from a node to a package in it, both included. -/
def wayTo (node : Node) : List String → List Node
  | [] => [node]
  | ident :: rest =>
    node :: match node.subpackage? ident with
      | none => []
      | some next => next.wayTo rest

theorem mem_wayTo (node : Node) (idents : List String) : node ∈ node.wayTo idents := by
  cases idents <;> exact List.mem_cons_self

end Node

namespace ModelTree

open Extraction

theorem nameParts_dotted (p q : String) : nameParts (p ++ "." ++ q) = nameParts p ++ nameParts q := by
  have hdot : (p ++ "." ++ q).toList = p.toList ++ '.' :: q.toList := by simp
  rw [nameParts, hdot, List.splitOn_append_cons_self, List.map_append]
  rfl

theorem nameParts_ne_nil (name : String) : nameParts name ≠ [] := by
  simp [nameParts, List.splitOn_ne_nil]

theorem descend_append (node : Node) (idents later : List String) :
    descend node (idents ++ later) = (descend node idents).bind fun next => descend next later := by
  induction idents generalizing node with
  | nil => rfl
  | cons ident rest ih =>
    rw [List.cons_append, descend, descend]
    cases node.subpackage? ident with
    | none => rfl
    | some next => exact ih next

/-- A name with a dot in it leads on from what the part before the dot leads to. -/
theorem find?_dotted (tree : ModelTree) (p q : String) :
    tree.find? (p ++ "." ++ q) = (tree.find? p).bind fun node => descend node (nameParts q) := by
  obtain ⟨first, rest, hparts⟩ := List.exists_cons_of_ne_nil (nameParts_ne_nil p)
  rw [find?, find?, nameParts_dotted, hparts, List.cons_append]
  simp only
  cases tree.packages.find? (Node.isPackage first) with
  | none => rfl
  | some package => exact descend_append package rest (nameParts q)

theorem isContainer_of_descend {node last : Node} {idents : List String}
    (hnode : node.kind.isContainer = true) (h : descend node idents = some last) :
    last.kind.isContainer = true := by
  induction idents generalizing node with
  | nil =>
    cases h
    exact hnode
  | cons ident rest ih =>
    obtain ⟨next, hnext, hlast⟩ := Option.bind_eq_some_iff.mp h
    exact ih (Node.isPackage_iff.mp (List.find?_some hnext)).1 hlast

theorem isContainer_of_find? {tree : ModelTree} {name : String} {node : Node}
    (h : tree.find? name = some node) : node.kind.isContainer = true := by
  obtain ⟨first, rest, hparts⟩ := List.exists_cons_of_ne_nil (nameParts_ne_nil name)
  rw [find?, hparts] at h
  obtain ⟨package, hpackage, hnode⟩ := Option.bind_eq_some_iff.mp h
  exact isContainer_of_descend (Node.isPackage_iff.mp (List.find?_some hpackage)).1 hnode

/-- At the end of a way without faults stands a package that gives a part of what is extracted from
its beginning. -/
theorem partOf_extract_descend {node last : Node} {scope : String} {x : Extraction}
    {idents : List String} (hne : idents ≠ []) (hnode : node.kind.isContainer = true)
    (hx : node.toEntity.extract scope = .ok x) (hlast : descend node idents = some last)
    (hsound : ∀ passed ∈ node.wayTo idents, passed.fault = none) :
    last.fault = none ∧ ∃ part, last.toEntity.extract last.ident = .ok part ∧ PartOf part x ∧
      part.visited < x.visited := by
  induction idents generalizing node scope x with
  | nil => exact absurd rfl hne
  | cons ident rest ih =>
    obtain ⟨next, hnext, hrest⟩ := Option.bind_eq_some_iff.mp hlast
    rw [Node.wayTo, hnext] at hsound
    have hfault := hsound node List.mem_cons_self
    have hlater : ∀ passed ∈ next.wayTo rest, passed.fault = none :=
      fun passed hpassed => hsound passed (List.mem_cons_of_mem _ hpassed)
    have hnextFault := hlater next (next.mem_wayTo rest)
    have hcontainer := (Node.isPackage_iff.mp (List.find?_some hnext)).1
    have hmem : next.toEntity ∈ node.toEntity.children := by
      rw [Node.children_toEntity]
      exact List.mem_map_of_mem (List.mem_of_find?_eq_some hnext)
    -- The next node gives a part, and the rest of the way leads to a part of that.
    obtain ⟨part, hpart, hin, hless⟩ := Entity.partOf_extract hx
      ((Node.isContainer_of_sound hfault).trans hnode) hmem (Node.failure?_of_sound hnextFault)
      ((Node.isContainer_of_sound hnextFault).trans hcontainer)
    rw [Node.name_of_sound hnextFault] at hpart
    by_cases hend : rest = []
    · subst hend
      cases hrest
      exact ⟨hnextFault, part, hpart, hin, hless⟩
    · obtain ⟨hlastFault, inner, hinner, hwithin, hfewer⟩ :=
        ih hend hcontainer hpart hrest hlater
      exact ⟨hlastFault, inner, hinner, hwithin.trans hin,
        Nat.lt_trans hfewer hless⟩

/-- A package that is found inside another one, by way of nodes without faults, is collected when the
outer one is. What it gives under its own name stands together in what the outer one gives, and
under the name asked for it is the same but for the scope of its comment. It visits fewer entities,
and neither collects nor loses more. -/
theorem collection_of_subpackage {tree : ModelTree} {p q : String} {r d : Node}
    (houter : tree.find? p = some r) (hinner : tree.find? (p ++ "." ++ q) = some d)
    (hsound : ∀ node ∈ r.wayTo (nameParts q), node.fault = none) :
    ∃ outer inner part rest,
      r.toEntity.extract p = .ok outer ∧
      d.toEntity.extract (p ++ "." ++ q) = .ok inner ∧
      d.toEntity.extract d.ident = .ok part ∧
      tree.source.collection p = .ok outer.collection ∧
      tree.source.collection (p ++ "." ++ q) = .ok inner.collection ∧
      part.messages <:+: outer.messages ∧
      part.messages = d.commentMessages d.ident ++ rest ∧
      inner.messages = d.commentMessages (p ++ "." ++ q) ++ rest ∧
      inner.collection.counts.visited < outer.collection.counts.visited ∧
      inner.collection.counts.collected ≤ outer.collection.counts.collected ∧
      inner.collection.counts.skipped ≤ outer.collection.counts.skipped := by
  have hr := isContainer_of_find? houter
  have hd := isContainer_of_find? hinner
  have hdescend : descend r (nameParts q) = some d := by
    rw [find?_dotted, houter] at hinner
    exact hinner
  obtain ⟨outer, hx⟩ := Node.extract_of_sound (hsound r (r.mem_wayTo _)) p
  obtain ⟨hfault, part, hpart, hin, hless⟩ :=
    partOf_extract_descend (nameParts_ne_nil q) hr hx hdescend hsound
  obtain ⟨rest, hmessages, hrescoped⟩ := Entity.messages_rescoped
    ((Node.isContainer_of_sound hfault).trans hd) hpart (p ++ "." ++ q)
  rw [Node.spokenComment_of_sound hfault] at hmessages hrescoped
  refine ⟨outer, _, part, rest, hx, hrescoped, hpart, collection_of_extract houter hx,
    collection_of_extract hinner hrescoped, hin.messages, hmessages, rfl, hless, ?_, hin.skipped⟩
  -- The comment counts once under either name.
  have hlength : (d.commentMessages (p ++ "." ++ q)).length = (d.commentMessages d.ident).length := by
    unfold Node.commentMessages
    split <;> rfl
  have hcollected := hin.messages.length_le
  rw [hmessages, List.length_append] at hcollected
  change (_ ++ rest).length ≤ outer.messages.length
  rw [List.length_append, hlength]
  exact hcollected

/-- A package two levels down, with a part that cannot be read. -/
def deepPackage : Node where
  kind := .container
  ident := "Deep"
  comment := "inner"
  children := [{ kind := .parameter, ident := "k", comment := "Gain" },
    { kind := .other, ident := "x", fault := some "E_FAIL" }]

/-- The package around it, with another part that cannot be read. -/
def outerPackage : Node where
  kind := .container
  ident := "Lib"
  comment := "outer"
  children := [{ kind := .container, ident := "Broken", fault := some "E_FAIL" },
    { kind := .container, ident := "Sub", children := [deepPackage] }]

theorem collection_of_subpackage_deepPackage :
    ∃ outer inner part : Extraction,
      outerPackage.toEntity.extract "Lib" = .ok outer ∧
      (ModelTree.mk [outerPackage]).source.collection "Lib.Sub.Deep" = .ok inner.collection ∧
      outer.messages = [⟨"Lib", "outer"⟩, ⟨"Deep", "inner"⟩, ⟨"Deep", "Gain"⟩] ∧
      part.messages = [⟨"Deep", "inner"⟩, ⟨"Deep", "Gain"⟩] ∧
      part.messages <:+: outer.messages ∧
      inner.messages = [⟨"Lib.Sub.Deep", "inner"⟩, ⟨"Deep", "Gain"⟩] ∧
      inner.collection.counts.visited < outer.collection.counts.visited ∧
      inner.collection.counts.skipped ≤ outer.collection.counts.skipped := by
  have houter : (ModelTree.mk [outerPackage]).find? "Lib" = some outerPackage := by rfl
  have hinner : (ModelTree.mk [outerPackage]).find? ("Lib" ++ "." ++ "Sub.Deep") =
      some deepPackage := by rfl
  have hsound : ∀ node ∈ outerPackage.wayTo (nameParts "Sub.Deep"), node.fault = none := by
    rw [show outerPackage.wayTo (nameParts "Sub.Deep") =
      [outerPackage, { kind := .container, ident := "Sub", children := [deepPackage] },
        deepPackage] from rfl]
    simp [outerPackage, deepPackage]
  obtain ⟨outer, inner, part, rest, hx, hy, hpart, -, hcollection, hin, hpartMessages,
    hinnerMessages, hvisited, -, hskipped⟩ := collection_of_subpackage houter hinner hsound
  have hrest : rest = [⟨"Deep", "Gain"⟩] := by
    have hpart' : deepPackage.toEntity.extract deepPackage.ident =
        .ok ⟨[⟨"Deep", "inner"⟩, ⟨"Deep", "Gain"⟩], 2, 1⟩ := by rfl
    rw [Except.ok.inj (hpart.symm.trans hpart')] at hpartMessages
    exact (List.cons.inj hpartMessages).2.symm
  have hx' : outerPackage.toEntity.extract "Lib" =
      .ok ⟨[⟨"Lib", "outer"⟩, ⟨"Deep", "inner"⟩, ⟨"Deep", "Gain"⟩], 4, 2⟩ := by rfl
  refine ⟨outer, inner, part, hx, hcollection, ?_, ?_, hin, ?_, hvisited, hskipped⟩
  · rw [Except.ok.inj (hx.symm.trans hx')]
  · rw [hpartMessages, hrest]
    rfl
  · rw [hinnerMessages, hrest]
    rfl

end ModelTree

end GettextTemplate
