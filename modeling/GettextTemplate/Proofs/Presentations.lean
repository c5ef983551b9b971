import GettextTemplate.Proofs.Records
import GettextTemplate.Proofs.RepeatedKeys
import GettextTemplate.Proofs.StoredTrees

/-!
What texts stand for a tree. The members of nodes may stand in any order and among unknown ones, those
with default values may be missing, and annotations may repeat a key, of which the last value counts.
However a tree is presented, and wherever white space stands, it is read as itself, if it is not too
deep (`ModelTree.ofJson_of_isPresentedBy`).
-/

namespace GettextTemplate

open Json

namespace Json.Value

def IsString (value : Value) (text : String) : Prop :=
  ∃ literal, value = .string literal ∧ literal.text? = some text

/-- A text that may be missing is `null` if it is. -/
def IsOptional (value : Value) : Option String → Prop
  | none => value = .null
  | some text => value.IsString text

def IsList (value : Value) (holds : List (Spaced Value) → Prop) : Prop :=
  ∃ inside items, value = .list inside items ∧ holds items

def IsObject (value : Value) (holds : List (Entry Value) → Prop) : Prop :=
  ∃ inside entries, value = .object inside entries ∧ holds entries

end Json.Value

namespace Annotations

/-- The members have texts under their keys, and the last one under each key is that of the
annotations. -/
def ArePresentedBy (annotations : Annotations) (entries : List (Entry Value)) : Prop :=
  ∃ pairs : List (String × String),
    List.Forall₂ (fun entry pair => entry.name? = some pair.1 ∧ entry.value.inside.IsString pair.2)
      entries pairs ∧
    ∀ key, lastValue? key pairs = annotations.get? key

end Annotations

namespace Node

/-- The members that a node may have, where its children are presented as items of a list. -/
def slots (node : Node) (children : List (Spaced Value) → Prop) : List Slot := [
  ⟨"kind", False, (·.IsString node.kind.name)⟩,
  ⟨"ident", False, (·.IsString node.ident)⟩,
  ⟨"comment", node.comment = "", (·.IsString node.comment)⟩,
  ⟨"built_in", node.builtIn = false, (· = .boolean node.builtIn)⟩,
  ⟨"children", node.children = [], (·.IsList children)⟩,
  ⟨"annotations", node.annotations = .empty, (·.IsObject node.annotations.ArePresentedBy)⟩,
  ⟨"fault", node.fault = none, (·.IsOptional node.fault)⟩]

mutual

def IsPresentedBy : Node → Value → Prop
  | ⟨kind, ident, comment, builtIn, children, annotations, fault⟩, value =>
    value.IsObject (IsRecord (slots ⟨kind, ident, comment, builtIn, children, annotations, fault⟩
      (ArePresentedBy children)))

def ArePresentedBy : List Node → List (Spaced Value) → Prop
  | [], [] => True
  | node :: nodes, item :: items => node.IsPresentedBy item.inside ∧ ArePresentedBy nodes items
  | _, _ => False

end

end Node

namespace ModelTree

/-- The member that a tree may have. -/
def slots (tree : ModelTree) : List Slot :=
  [⟨"packages", tree.packages = [], (·.IsList (Node.ArePresentedBy tree.packages))⟩]

def IsPresentedBy (tree : ModelTree) (value : Value) : Prop := value.IsObject (IsRecord tree.slots)

end ModelTree

theorem yields_of_isString {value : Value} {text : String} (h : value.IsString text) :
    Yields readString value text := by
  obtain ⟨literal, rfl, htext⟩ := h
  exact yields_string htext

theorem yields_of_isOptional {value : Value} {text : Option String} (h : value.IsOptional text) :
    Yields (readOptional readString) value text := by
  cases text with
  | none =>
    obtain rfl : value = .null := h
    exact yields_optional_null readString
  | some text =>
    obtain ⟨literal, rfl, htext⟩ := h
    exact yields_optional_string htext

namespace Kind

theorem ofKey_name (kind : Kind) : ofKey kind.name = .ok kind := by cases kind <;> rfl

theorem run_reader (room : Nat) {bytes rest : Bytes} (hfirst : first? bytes = some (ascii '"', rest)) :
    Reader.run (reader room) bytes = (do
      let name ← Reader.run readText rest
      let kind ← ofKey name.1
      return (kind, name.2)) := by
  rw [first?] at hfirst
  rw [Reader.run, reader]
  cases htoken : token? bytes with
  | none =>
    rw [htoken] at hfirst
    cases hfirst
  | some t =>
    obtain ⟨b, after, fewer⟩ := t
    rw [htoken] at hfirst
    cases hfirst
    simp only [Reader.run]
    rcases readText after with e | name
    · rfl
    · simp only [bind, Except.bind, Except.map]
      cases ofKey name.value <;> rfl

theorem yields_of_isString {value : Value} {kind : Kind} (h : value.IsString kind.name) (room : Nat) :
    Yields (reader room) value kind := by
  obtain ⟨literal, rfl, htext⟩ := h
  intro gap rest
  have hfirst : first? (gap.bytes ++ ((Value.string literal).bytes ++ rest)) =
      some (ascii '"', literal.rest ++ rest) := first?_token gap rfl _
  rw [run_reader room hfirst, run_readText htext]
  simp only [bind, Except.bind, ofKey_name]
  rfl

end Kind

namespace Annotations

theorem yields_pairs {annotations : Annotations} {value : Value}
    (h : value.IsObject annotations.ArePresentedBy) :
    ∃ pairs, Yields (readMap (some readString)) value pairs ∧ ofList pairs = annotations := by
  obtain ⟨inside, entries, rfl, pairs, hentries, hlast⟩ := h
  refine ⟨pairs, yields_map (hentries.imp ?_) inside, ?_⟩
  · rintro entry pair ⟨hname, hvalue⟩
    exact ⟨hname, GettextTemplate.yields_of_isString hvalue⟩
  · apply ext_get?
    intro key
    rw [get?_ofList, hlast]

end Annotations

namespace Node

/-- The members of a node with what becomes of them in a draft. -/
def effects (node : Node) (children : List (Spaced Value) → Prop) : List (Effect Draft) :=
  List.zipWith (fun slot effect => ⟨slot, effect.1, effect.2⟩) (node.slots children) [
    (fun draft => { draft with kind := some node.kind }, fun draft => draft.kind = some node.kind),
    (fun draft => { draft with ident := some node.ident },
      fun draft => draft.ident = some node.ident),
    (fun draft => { draft with comment := node.comment }, fun draft => draft.comment = node.comment),
    (fun draft => { draft with builtIn := node.builtIn }, fun draft => draft.builtIn = node.builtIn),
    (fun draft => { draft with children := node.children },
      fun draft => draft.children = node.children),
    (fun draft => { draft with annotations := node.annotations },
      fun draft => draft.annotations = node.annotations),
    (fun draft => { draft with fault := node.fault }, fun draft => draft.fault = node.fault)]

theorem fits_effects {node : Node} {children : List (Spaced Value) → Prop} {room : Nat}
    (hroom : room ≠ 0)
    (hchildren : ∀ value : Value, value.IsList children →
      Yields (listReader room) value node.children) :
    (schema room (listReader room)).Fits (node.effects children) node where
  fields := by
    refine .cons ⟨rfl, fun value h => ?_⟩ (.cons ⟨rfl, fun value h => ?_⟩
      (.cons ⟨rfl, fun value h => ?_⟩ (.cons ⟨rfl, fun value h => ?_⟩
        (.cons ⟨rfl, fun value h => ?_⟩ (.cons ⟨rfl, fun value h => ?_⟩
          (.cons ⟨rfl, fun value h => ?_⟩ .nil))))))
    · exact (Kind.yields_of_isString h room).map _
    · exact (yields_of_isString h).map _
    · exact (yields_of_isString h).map _
    · obtain rfl : value = .boolean node.builtIn := h
      exact (yields_boolean node.builtIn).map _
    · exact (hchildren value h).map _
    · obtain ⟨pairs, hpairs, hsame⟩ := Annotations.yields_pairs h
      rw [← hsame, if_neg hroom]
      exact hpairs.map _
    · exact (yields_of_isOptional h).map _
  distinct := by
    simp [effects, slots]
  put := by
    simp [effects, slots]
  kept := by
    simp [effects, slots]
  blank := by
    simp only [effects, slots, List.zipWith_cons_cons, List.zipWith_nil_left, List.forall_mem_cons]
    exact ⟨False.elim, False.elim, Eq.symm, Eq.symm, Eq.symm, Eq.symm, Eq.symm, by simp⟩
  complete := by
    intro draft h
    simp only [effects, slots, List.zipWith_cons_cons, List.zipWith_nil_left, List.forall_mem_cons] at h
    obtain ⟨hkind, hident, hcomment, hbuiltIn, hchildren, hannotations, hfault, -⟩ := h
    obtain ⟨kind, ident, comment, builtIn, children, annotations, fault⟩ := draft
    dsimp only at *
    subst hkind hident hcomment hbuiltIn hchildren hannotations hfault
    cases node
    rfl

theorem yields_listReader {nodes : List Node} {items : List (Spaced Value)}
    (h : List.Forall₂ (fun item node => ∀ room, 2 * node.height ≤ room →
      Yields (reader room) item.inside node) items nodes)
    (inside : Blank) {room : Nat} (hroom : 2 * heights nodes < room) :
    Yields (listReader room) (.list inside items) nodes := by
  cases room with
  | zero => omega
  | succ room =>
    rw [listReader]
    refine yields_list ?_ inside
    induction h with
    | nil => exact .nil
    | cons hitem _ ih =>
      rw [heights] at hroom
      exact .cons (hitem room (by omega)) (ih (by omega))

theorem yields_reader {node : Node} {value : Value} {children : List (Spaced Value) → Prop}
    (hvalue : value.IsObject (IsRecord (node.slots children)))
    (hchildren : ∀ value : Value, value.IsList children → ∀ room, 2 * heights node.children < room →
      Yields (listReader room) value node.children)
    {room : Nat} (hroom : 2 * node.height ≤ room) : Yields (reader room) value node := by
  rw [height_eq] at hroom
  obtain ⟨inside, entries, rfl, hrecord⟩ := hvalue
  cases room with
  | zero => omega
  | succ room =>
    have hfits : (schema room (listReader room)).Fits (node.effects children) node :=
      fits_effects (by omega) fun value h => hchildren value h room (by omega)
    rw [reader]
    exact hfits.yields hrecord _ inside

mutual

/-- A node is read from every value that presents it, if there is room for its levels. -/
theorem yields_of_isPresentedBy : ∀ (node : Node) (value : Value), node.IsPresentedBy value →
    ∀ room, 2 * node.height ≤ room → Yields (reader room) value node
  | ⟨_, _, _, _, children, _, _⟩, value, h, room, hroom => by
    rw [IsPresentedBy] at h
    refine yields_reader h ?_ hroom
    rintro _ ⟨inside, items, rfl, hitems⟩ room hroom
    exact yields_listReader (forall₂_yields children items hitems) inside hroom

theorem forall₂_yields : ∀ (nodes : List Node) (items : List (Spaced Value)),
    ArePresentedBy nodes items → List.Forall₂ (fun item node => ∀ room, 2 * node.height ≤ room →
      Yields (reader room) item.inside node) items nodes
  | [], [], _ => .nil
  | [], _ :: _, h => h.elim
  | _ :: _, [], h => h.elim
  | node :: nodes, item :: items, h => by
    rw [ArePresentedBy] at h
    exact .cons (yields_of_isPresentedBy node item.inside h.1) (forall₂_yields nodes items h.2)

end

end Node

namespace ModelTree

def effects (tree : ModelTree) : List (Effect (List Node)) :=
  tree.slots.map fun slot => ⟨slot, fun _ => tree.packages, fun packages => packages = tree.packages⟩

theorem fits_effects {tree : ModelTree} {room : Nat} (hroom : 2 * Node.heights tree.packages < room) :
    (schema (Node.listReader room)).Fits tree.effects tree where
  fields := by
    refine .cons ⟨rfl, ?_⟩ .nil
    rintro _ ⟨inside, items, rfl, hitems⟩
    exact (Node.yields_listReader (Node.forall₂_yields _ items hitems) inside hroom).map _
  distinct := List.pairwise_singleton _ _
  put := by simp [effects, slots]
  kept := by simp [effects, slots]
  blank := by
    simp only [effects, slots, List.map_cons, List.map_nil, List.forall_mem_singleton]
    exact Eq.symm
  complete := by
    intro packages h
    simp only [effects, slots, List.map_cons, List.map_nil, List.forall_mem_singleton] at h
    rw [h]
    rfl

/-- A tree is read from every text that presents it, if there is room for its levels. -/
theorem readJson_of_isPresentedBy {tree : ModelTree} {text : Spaced Value}
    (h : tree.IsPresentedBy text.inside) (hlevels : Node.heights tree.packages ≤ 62) :
    readJson (text.bytes Value.bytes) = .ok tree := by
  have hfits : (schema (Node.listReader (maxDepth - 1))).Fits tree.effects tree :=
    fits_effects (by rw [maxDepth]; omega)
  apply Yields.readWhole
  obtain ⟨inside, entries, hobject, hrecord⟩ := h
  rw [hobject]
  exact hfits.yields hrecord _ inside

end ModelTree

end GettextTemplate
