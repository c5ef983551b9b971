import GettextTemplate.ModelTree.Reader
import GettextTemplate.Proofs.Values

/-!
Trees that are written and read back. A node takes two brackets, its own and that of the list of
nodes below it, and the tree takes two around its packages. So with 127 brackets a tree is read back
when no node stands deeper than 62, and is refused otherwise (`ModelTree.ofJson_toJson`).
-/

namespace GettextTemplate

open Json

namespace Kind

theorem run_reader_quote (room : Nat) (bytes : Bytes) :
    Reader.run (reader room) (ascii '"' :: bytes) = (do
      let name ← Reader.run readText bytes
      let kind ← ofKey name.1
      return (kind, name.2)) := by
  have hquote : token? (ascii '"' :: bytes) = some (.one (ascii '"')) := rfl
  rw [Reader.run, reader, hquote]
  simp only [Taken.one, if_true, Reader.run]
  rcases readText bytes with e | name
  · rfl
  · simp only [bind, Except.bind, Except.map]
    cases ofKey name.value <;> rfl

theorem reads_reader (kind : Kind) (room : Nat) :
    Reads (reader room) (utf8 kind.toJson) (.ok kind) := by
  obtain ⟨inside, htext, hinside⟩ := exists_utf8_quoted kind.name
  have hkind : ofKey kind.name = .ok kind := by
    cases kind <;> rfl
  rw [toJson, htext]
  refine ⟨⟨_, _, first?_cons (by rfl) _, by decide⟩, fun rest => ?_⟩
  rw [List.cons_append, run_reader_quote, hinside]
  simp only [bind, Except.bind, hkind]
  rfl

end Kind

namespace Annotations

/-- A pair whose key comes after all others is put behind them. -/
theorem place_of_later {key : String} (value : String) {pairs : List (String × String)}
    (h : ∀ pair ∈ pairs, pair.1 < key) : place key value pairs = pairs ++ [(key, value)] := by
  induction pairs with
  | nil => rfl
  | cons pair rest ih =>
    have hpair := h pair List.mem_cons_self
    rw [place, if_neg (String.lt_asymm hpair), if_pos hpair,
      ih fun pair hmem => h pair (List.mem_cons_of_mem _ hmem), List.cons_append]

theorem ofList_pairs (annotations : Annotations) : ofList annotations.pairs = annotations := by
  have hfold (later : List (String × String)) (start : Annotations)
      (hascending : (start.pairs ++ later).Pairwise fun a b => a.1 < b.1) :
      (later.foldl (fun annotations pair => annotations.insert pair.1 pair.2) start).pairs =
        start.pairs ++ later := by
    induction later generalizing start with
    | nil => rw [List.foldl_nil, List.append_nil]
    | cons pair later ih =>
      have hplace : (start.insert pair.1 pair.2).pairs = start.pairs ++ [pair] :=
        place_of_later pair.2 fun before hbefore =>
          (List.pairwise_append.mp hascending).2.2 before hbefore pair List.mem_cons_self
      rw [List.append_cons, ← hplace] at hascending ⊢
      exact ih _ hascending
  have hpairs := hfold annotations.pairs .empty annotations.ascending
  cases annotations with
  | mk pairs ascending =>
    rw [ofList]
    exact (Annotations.mk.injEq _ _ _ _).mpr hpairs

/-- The pairs of annotations as they are read where `room` brackets may be opened. -/
def readWith (room : Nat) (annotations : Annotations) : Except Error (List (String × String)) :=
  if room = 0 then .error .tooDeep else .ok annotations.pairs

theorem reads_toJson (annotations : Annotations) (room : Nat) :
    Reads (readMap (if room = 0 then none else some readString)) (utf8 annotations.toJson)
      (annotations.readWith room) := by
  let member (pair : String × String) : Member String :=
    ⟨pair.1, utf8 (quoted pair.2), .ok pair.2⟩
  have htext : utf8 annotations.toJson =
      ascii '{' :: listed true ((annotations.pairs.map member).map Member.text) ++ [ascii '}'] := by
    have hmember : utf8 ∘ (fun pair => written pair.1 (quoted pair.2)) =
        Member.text ∘ member := by
      funext pair
      exact utf8_written pair.1 (quoted pair.2)
    rw [toJson, utf8_bracketed, List.map_map, List.map_map, hmember]
    rfl
  rw [htext, readWith]
  split
  · exact reads_readMap_none _
  · have hpairs : (annotations.pairs.map member).mapM Member.pair = .ok annotations.pairs := by
      rw [List.mapM_map]
      exact List.mapM_pure.trans (congrArg _ (List.map_id _))
    rw [← hpairs]
    apply reads_readMap
    intro m hm
    obtain ⟨pair, -, rfl⟩ := List.mem_map.mp hm
    exact reads_readString pair.2

end Annotations

namespace Node

mutual

/-- The number of levels of nodes from a node down. -/
def height : Node → Nat
  | ⟨_, _, _, _, children, _, _⟩ => heights children + 1

/-- The number of levels of nodes below a place. -/
def heights : List Node → Nat
  | [] => 0
  | node :: rest => max node.height (heights rest)

end

/-- A node stands at a depth among some nodes, which stand at depth 1, and those below them. -/
inductive StandsAt : List Node → Nat → Node → Prop
  | top {nodes : List Node} {node : Node} : node ∈ nodes → StandsAt nodes 1 node
  | beneath {nodes : List Node} {parent node : Node} {depth : Nat} :
    parent ∈ nodes → StandsAt parent.children depth node → StandsAt nodes (depth + 1) node

theorem height_eq (node : Node) : node.height = heights node.children + 1 := by
  cases node
  rw [height]

theorem heights_le_iff {nodes : List Node} {n : Nat} :
    heights nodes ≤ n ↔ ∀ node ∈ nodes, node.height ≤ n := by
  induction nodes with
  | nil => simp [heights]
  | cons node rest ih => rw [heights, Nat.max_le, ih, List.forall_mem_cons]

theorem StandsAt.le_heights {nodes : List Node} {depth : Nat} {node : Node}
    (h : StandsAt nodes depth node) : depth ≤ heights nodes := by
  induction h with
  | top hmem =>
    have hheight := heights_le_iff.mp (Nat.le_refl _) _ hmem
    rw [height_eq] at hheight
    omega
  | beneath hparent _ ih =>
    have hheight := heights_le_iff.mp (Nat.le_refl _) _ hparent
    rw [height_eq] at hheight
    omega

theorem heights_le_of_standsAt {nodes : List Node} {n : Nat}
    (h : ∀ depth node, StandsAt nodes depth node → depth ≤ n) : heights nodes ≤ n := by
  induction n generalizing nodes with
  | zero =>
    rw [heights_le_iff]
    intro node hmem
    have hdepth := h 1 node (.top hmem)
    omega
  | succ n ih =>
    rw [heights_le_iff]
    intro node hmem
    have hchildren : heights node.children ≤ n := ih fun depth low hlow => by
      have hdepth := h (depth + 1) low (.beneath hmem hlow)
      omega
    rw [height_eq]
    omega

/-- A node as it is read where `room` brackets may be opened. -/
def readWith (room : Nat) (node : Node) : Except Error Node :=
  if 2 * node.height ≤ room then .ok node else .error .tooDeep

/-- A list of nodes as it is read where `room` brackets may be opened. -/
def readAllWith (room : Nat) (nodes : List Node) : Except Error (List Node) :=
  if 2 * heights nodes < room then .ok nodes else .error .tooDeep

theorem mapM_readWith (room : Nat) (nodes : List Node) :
    nodes.mapM (readWith room) = readAllWith (room + 1) nodes := by
  induction nodes with
  | nil => rfl
  | cons node rest ih =>
    rw [List.mapM_cons, ih, readWith, readAllWith, readAllWith, heights]
    by_cases hnode : 2 * node.height ≤ room
    · by_cases hrest : 2 * heights rest < room + 1
      · rw [if_pos hnode, if_pos hrest, if_pos (by omega)]
        rfl
      · rw [if_pos hnode, if_neg hrest, if_neg (by omega)]
        rfl
    · have hboth : ¬ 2 * max node.height (heights rest) < room + 1 := by omega
      rw [if_neg hnode, if_neg hboth]
      rfl

theorem utf8_toJsons (nodes : List Node) :
    utf8 (bracketed "[" (toJsons nodes) "]") =
      ascii '[' :: listed true (nodes.map fun node => utf8 node.toJson) ++ [ascii ']'] := by
  have htoJsons : toJsons nodes = nodes.map toJson := by
    induction nodes with
    | nil => rfl
    | cons node rest ih => rw [toJsons, ih, List.map_cons]
  rw [utf8_bracketed, htoJsons, List.map_map]
  rfl

theorem reads_listReader {nodes : List Node}
    (h : ∀ node ∈ nodes, ∀ room, Reads (reader room) (utf8 node.toJson) (node.readWith room)) :
    ∀ room, Reads (listReader room) (utf8 (bracketed "[" (toJsons nodes) "]"))
      (readAllWith room nodes)
  | 0 => by
    rw [utf8_toJsons, listReader]
    exact reads_readList_none _
  | room + 1 => by
    rw [utf8_toJsons, listReader, ← mapM_readWith]
    exact reads_readList fun node hmem => h node hmem room

/-- The members that a node is written as, with what they do to a draft. The brackets that may be
opened inside the node are `room`. -/
def members (room : Nat) (node : Node) : List (Member (Draft → Draft)) := [
    ⟨"kind", utf8 node.kind.toJson, .ok fun draft => { draft with kind := some node.kind }⟩,
    ⟨"ident", utf8 (quoted node.ident), .ok fun draft => { draft with ident := some node.ident }⟩,
    ⟨"comment", utf8 (quoted node.comment), .ok fun draft => { draft with comment := node.comment }⟩,
    ⟨"built_in", utf8 (if node.builtIn then "true" else "false"),
      .ok fun draft => { draft with builtIn := node.builtIn }⟩,
    ⟨"children", utf8 (bracketed "[" (toJsons node.children) "]"),
      (readAllWith room node.children).map fun children draft => { draft with children }⟩,
    ⟨"annotations", utf8 node.annotations.toJson,
      (node.annotations.readWith room).map
        fun pairs draft => { draft with annotations := .ofList pairs }⟩] ++
  (node.fault.map fun fault => ⟨"fault", utf8 (quoted fault),
    .ok fun draft => { draft with fault := some fault }⟩).toList

theorem utf8_toJson (room : Nat) (node : Node) :
    utf8 node.toJson =
      ascii '{' :: listed true ((node.members room).map Member.text) ++ [ascii '}'] := by
  obtain ⟨kind, ident, comment, builtIn, children, annotations, fault⟩ := node
  rw [toJson, utf8_bracketed]
  cases fault <;>
    simp only [members, Member.text, List.map_append, List.map_cons, List.map_nil, utf8_written,
      Option.map_some, Option.map_none, Option.toList_some, Option.toList_none] <;>
    rfl

theorem fits_members (room : Nat) {node : Node}
    (hchildren : Reads (listReader room) (utf8 (bracketed "[" (toJsons node.children) "]"))
      (readAllWith room node.children)) :
    ∀ member ∈ node.members room, member.Fits (schema room (listReader room)) := by
  intro member hmem
  rcases List.mem_append.mp hmem with hmem | hmem
  · simp only [List.mem_cons, List.not_mem_nil, or_false] at hmem
    rcases hmem with rfl | rfl | rfl | rfl | rfl | rfl
    · exact ⟨_, rfl, (node.kind.reads_reader room).after _⟩
    · exact ⟨_, rfl, (reads_readString node.ident).after _⟩
    · exact ⟨_, rfl, (reads_readString node.comment).after _⟩
    · exact ⟨_, rfl, (reads_readBool node.builtIn).after _⟩
    · exact ⟨_, rfl, hchildren.after _⟩
    · exact ⟨_, rfl, (node.annotations.reads_toJson room).after _⟩
  · rw [Option.mem_toList, Option.map_eq_some_iff] at hmem
    obtain ⟨fault, -, rfl⟩ := hmem
    exact ⟨_, rfl, (reads_readOptional fault).after _⟩

theorem keys_members (room : Nat) (node : Node) :
    (node.members room).Pairwise fun a b => a.key ≠ b.key := by
  rw [← List.pairwise_map (f := Member.key) (R := (· ≠ ·))]
  obtain ⟨kind, ident, comment, builtIn, children, annotations, fault⟩ := node
  cases fault with
  | none =>
    change List.Pairwise (· ≠ ·)
      ["kind", "ident", "comment", "built_in", "children", "annotations"]
    decide
  | some fault =>
    change List.Pairwise (· ≠ ·)
      ["kind", "ident", "comment", "built_in", "children", "annotations", "fault"]
    decide

theorem complete_members (room : Nat) (node : Node) :
    (putAll (schema room (listReader room)).blank (node.members room)).bind (fun draft =>
      ((schema room (listReader room)).complete draft).mapError .missingField) =
      node.readWith (room + 1) := by
  have hheight := height_eq node
  rw [members]
  by_cases hroom : 2 * heights node.children < room
  · have hnode : node.readWith (room + 1) = .ok node := if_pos (by omega)
    have hchildren : readAllWith room node.children = .ok node.children := if_pos hroom
    have hannotations : node.annotations.readWith room = .ok node.annotations.pairs :=
      if_neg (by omega)
    rw [hnode, hchildren, hannotations]
    obtain ⟨kind, ident, comment, builtIn, children, annotations, fault⟩ := node
    cases fault with
    | none =>
      change Except.ok (Node.mk kind ident comment builtIn children (.ofList annotations.pairs)
        none) = _
      rw [annotations.ofList_pairs]
    | some fault =>
      change Except.ok (Node.mk kind ident comment builtIn children (.ofList annotations.pairs)
        (some fault)) = _
      rw [annotations.ofList_pairs]
  · have hnode : node.readWith (room + 1) = .error .tooDeep := if_neg (by omega)
    have hchildren : readAllWith room node.children = .error .tooDeep := if_neg hroom
    rw [hnode, hchildren]
    rfl

theorem reads_reader {node : Node}
    (hchildren : ∀ room, Reads (listReader room)
      (utf8 (bracketed "[" (toJsons node.children) "]")) (readAllWith room node.children)) :
    ∀ room, Reads (reader room) (utf8 node.toJson) (node.readWith room)
  | 0 => by
    have hheight : ¬ 2 * node.height ≤ 0 := by
      rw [height_eq]
      omega
    rw [utf8_toJson 0, reader, readWith, if_neg hheight]
    exact reads_readRecord_none _ _
  | room + 1 => by
    rw [utf8_toJson room, reader, ← complete_members]
    exact reads_readRecord (fits_members room (hchildren room)) (keys_members room node)

mutual

/-- A node is read back if there is room for its levels, and refused otherwise. -/
theorem reads_toJson : ∀ (node : Node) (room : Nat),
    Reads (reader room) (utf8 node.toJson) (node.readWith room)
  | ⟨_, _, _, _, children, _, _⟩, room =>
    reads_reader (reads_listReader (forall_reads_toJson children)) room

theorem forall_reads_toJson : ∀ nodes : List Node, ∀ node ∈ nodes, ∀ room,
    Reads (reader room) (utf8 node.toJson) (node.readWith room)
  | [], _, hmem, _ => absurd hmem List.not_mem_nil
  | node :: rest, low, hmem, room => by
    rcases List.mem_cons.mp hmem with hsame | hlater
    · rw [hsame]
      exact reads_toJson node room
    · exact forall_reads_toJson rest low hlater room

end

end Node

namespace ModelTree

/-- A node stands at a depth of a tree, whose packages stand at depth 1. -/
def Holds (tree : ModelTree) (depth : Nat) (node : Node) : Prop :=
  Node.StandsAt tree.packages depth node

theorem readJson_toJson (tree : ModelTree) :
    readJson (utf8 tree.toJson) =
      if Node.heights tree.packages ≤ 62 then .ok tree else .error .tooDeep := by
  let member : Member (List Node → List Node) :=
    ⟨"packages", utf8 (bracketed "[" (Node.toJsons tree.packages) "]"),
      (Node.readAllWith 126 tree.packages).map fun nodes _ => nodes⟩
  have htext : utf8 tree.toJson =
      ascii '{' :: listed true ([member].map Member.text) ++ [ascii '}'] := by
    rw [toJson, utf8_bracketed]
    simp only [List.map_cons, List.map_nil, utf8_written]
    rfl
  have hfits : ∀ m ∈ [member], m.Fits (schema (Node.listReader 126)) := by
    intro m hm
    rw [List.mem_singleton] at hm
    subst hm
    exact ⟨_, rfl, (Node.reads_listReader (Node.forall_reads_toJson tree.packages) 126).after _⟩
  have hreads : Reads (readRecord "struct SnapshotSource" (some (schema (Node.listReader 126))))
      (utf8 tree.toJson) _ := htext ▸ reads_readRecord hfits (List.pairwise_singleton _ _)
  rw [readJson]
  refine hreads.readWhole.trans ?_
  by_cases hlevels : Node.heights tree.packages ≤ 62
  · have hpackages : Node.readAllWith 126 tree.packages = .ok tree.packages := if_pos (by omega)
    simp only [member, hpackages, if_pos hlevels]
    rfl
  · have hpackages : Node.readAllWith 126 tree.packages = .error .tooDeep := if_neg (by omega)
    simp only [member, hpackages, if_neg hlevels]
    rfl

/-- A tree is read back from its text exactly when no node of it stands deeper than 62. Otherwise too
many brackets are open in the text, and it is refused as one that makes no sense. -/
theorem ofJson_toJson (tree : ModelTree) :
    ((∀ depth node, tree.Holds depth node → depth ≤ 62) → ofJson (utf8 tree.toJson) = .ok tree) ∧
      ((∃ depth node, tree.Holds depth node ∧ 62 < depth) →
        readJson (utf8 tree.toJson) = .error .tooDeep ∧
          ∃ reason, ofJson (utf8 tree.toJson) = .error (.malformed reason)) := by
  constructor
  · intro hlevels
    rw [ofJson, readJson_toJson, if_pos (Node.heights_le_of_standsAt hlevels)]
    rfl
  · rintro ⟨depth, node, hholds, hdeep⟩
    have hheights := hholds.le_heights
    have hrefused : readJson (utf8 tree.toJson) = .error .tooDeep := by
      rw [readJson_toJson, if_neg (by omega)]
    refine ⟨hrefused, Error.tooDeep.message, ?_⟩
    rw [ofJson, hrefused]
    rfl

/-- A package with quotes, controls and other characters wherever a text can stand, and one below
it. -/
def oddTree : ModelTree where
  packages := [{
    kind := .container, ident := "a\"\\.b", comment := "\x00\t\x1f\n\x7f", builtIn := true,
    children := [{ kind := .container, ident := "\ud7ff" , fault := some "" }],
    annotations := (Annotations.empty.insert "k\"" "/").insert "" "\r\x08\x0c" }]

/-- A package with so many others one inside the other. -/
def nested : Nat → Node
  | 0 => { kind := .container, ident := "P" }
  | n + 1 => { kind := .container, ident := "P", children := [nested n] }

theorem heights_nested (n : Nat) : Node.heights [nested n] = n + 1 := by
  induction n with
  | zero => rfl
  | succ n ih =>
    rw [Node.heights, Node.height_eq, nested, ih]
    exact Nat.max_eq_left (Nat.zero_le _)

theorem standsAt_nested (n : Nat) : Node.StandsAt [nested n] (n + 1) (nested 0) := by
  induction n with
  | zero => exact .top (List.mem_singleton.mpr rfl)
  | succ n ih => exact .beneath (List.mem_singleton.mpr rfl) ih

theorem ofJson_oddTree_toJson :
    ofJson (utf8 oddTree.toJson) = .ok oddTree ∧
      ofJson (utf8 (ModelTree.mk [nested 61]).toJson) = .ok ⟨[nested 61]⟩ ∧
      readJson (utf8 (ModelTree.mk [nested 62]).toJson) = .error .tooDeep ∧
      ∃ reason, ofJson (utf8 (ModelTree.mk [nested 62]).toJson) = .error (.malformed reason) := by
  refine ⟨(ofJson_toJson oddTree).1 fun depth node hholds => ?_,
    (ofJson_toJson ⟨[nested 61]⟩).1 fun depth node hholds => ?_,
    (ofJson_toJson ⟨[nested 62]⟩).2 ⟨63, nested 0, standsAt_nested 62, by decide⟩⟩
  · exact Nat.le_trans hholds.le_heights (by decide)
  · exact Nat.le_trans hholds.le_heights (Nat.le_of_eq (heights_nested 61))

end ModelTree

end GettextTemplate
