import GettextTemplate.Proofs.Presentations

/-!
The text that a tree is written as, among all that present it. It is compact: no white space, all
members in one order, and characters escaped only where they have to be (`bytes_toValue`).
-/

namespace GettextTemplate

open Json

namespace Json

/-- The code unit of a control character, in small letters. -/
def CodeUnit.ofControl (c : Char) (h : c.toNat < 0x20) : CodeUnit where
  first := ⟨0, false⟩
  second := ⟨0, false⟩
  third := ⟨⟨c.toNat / 16, by omega⟩, false⟩
  fourth := ⟨⟨c.toNat % 16, by omega⟩, false⟩

theorem CodeUnit.value_ofControl {c : Char} (h : c.toNat < 0x20) : (ofControl c h).value = c.toNat := by
  simp only [value, ofControl]
  omega

/-- A character as it is written: escaped if it has to be. -/
def Piece.ofChar (c : Char) : Piece :=
  if hquote : c = '"' then .escape '"' '"' (by decide)
  else if hslash : c = '\\' then .escape '\\' '\\' (by decide)
  else if c = '\x08' then .escape 'b' '\x08' (by decide)
  else if c = '\x0c' then .escape 'f' '\x0c' (by decide)
  else if c = '\n' then .escape 'n' '\n' (by decide)
  else if c = '\r' then .escape 'r' '\r' (by decide)
  else if c = '\t' then .escape 't' '\t' (by decide)
  else if hcontrol : c.toNat < 0x20 then .coded (.ofControl c hcontrol)
  else .plain c ⟨hquote, hslash, hcontrol⟩

def Literal.ofText (text : String) : Literal := ⟨text.toList.map Piece.ofChar⟩

theorem decode_control {c : Char} (h : c.toNat < 0x20) (rest : List Piece) :
    Piece.decode (.coded (.ofControl c h) :: rest) = (Piece.decode rest).map (c :: ·) := by
  have hvalue := CodeUnit.value_ofControl h
  have hleading : (CodeUnit.ofControl c h).isLeading = false := by
    rw [CodeUnit.isLeading, hvalue, Bool.and_eq_false_iff, decide_eq_false_iff_not]
    omega
  have htrailing : (CodeUnit.ofControl c h).isTrailing = false := by
    rw [CodeUnit.isTrailing, hvalue, Bool.and_eq_false_iff, decide_eq_false_iff_not]
    omega
  rw [Piece.decode.eq_def]
  simp only [hleading, htrailing, hvalue, Char.ofNat_toNat, Bool.false_eq_true, if_false]

/-- The piece of a character is written as the character is, and stands for it. -/
theorem ofChar_spec (c : Char) :
    (Piece.ofChar c).bytes = (escape c).flatMap String.utf8EncodeChar ∧
      ∀ rest, Piece.decode (.ofChar c :: rest) = (Piece.decode rest).map (c :: ·) := by
  have hletters : ∀ d ∈ ['"', '\\', '\x08', '\x0c', '\n', '\r', '\t'],
      (Piece.ofChar d).bytes = (escape d).flatMap String.utf8EncodeChar ∧
        ∀ rest, Piece.decode (.ofChar d :: rest) = (Piece.decode rest).map (d :: ·) := by
    simp only [List.forall_mem_cons]
    exact ⟨⟨rfl, fun _ => rfl⟩, ⟨rfl, fun _ => rfl⟩, ⟨rfl, fun _ => rfl⟩, ⟨rfl, fun _ => rfl⟩,
      ⟨rfl, fun _ => rfl⟩, ⟨rfl, fun _ => rfl⟩, ⟨rfl, fun _ => rfl⟩, by simp⟩
  by_cases hmem : c ∈ ['"', '\\', '\x08', '\x0c', '\n', '\r', '\t']
  · exact hletters c hmem
  simp only [List.mem_cons, List.not_mem_nil, or_false, not_or] at hmem
  obtain ⟨hquote, hslash, hback, hform, hline, hreturn, htab⟩ := hmem
  rw [Piece.ofChar, dif_neg hquote, dif_neg hslash, if_neg hback, if_neg hform, if_neg hline,
    if_neg hreturn, if_neg htab, escape, if_neg hquote, if_neg hslash, if_neg hback, if_neg hform,
    if_neg hline, if_neg hreturn, if_neg htab]
  by_cases hcontrol : c.toNat < 0x20
  · have hhigh := utf8EncodeChar_digitChar ⟨c.toNat / 16, by omega⟩
    have hlow := utf8EncodeChar_digitChar ⟨c.toNat % 16, by omega⟩
    rw [dif_pos hcontrol, if_pos hcontrol]
    refine ⟨?_, decode_control hcontrol⟩
    simp only [List.flatMap_cons, List.flatMap_nil, hhigh, hlow]
    rfl
  · rw [dif_neg hcontrol, if_neg hcontrol, List.flatMap_singleton]
    exact ⟨rfl, fun rest => by rw [Piece.decode]⟩

theorem text?_ofText (text : String) : (Literal.ofText text).text? = some text := by
  have hdecode (chars : List Char) : Piece.decode (chars.map Piece.ofChar) = some chars := by
    induction chars with
    | nil => rfl
    | cons c chars ih => rw [List.map_cons, (ofChar_spec c).2, ih, Option.map_some]
  rw [Literal.text?, Literal.ofText, hdecode, Option.map_some, String.ofList_toList]

theorem bytes_ofText (text : String) : (Literal.ofText text).bytes = utf8 (quoted text) := by
  have hpieces : (text.toList.map Piece.ofChar).flatMap Piece.bytes =
      (text.toList.flatMap escape).flatMap String.utf8EncodeChar := by
    rw [List.flatMap_map, List.flatMap_assoc]
    simp only [(ofChar_spec _).1]
  rw [utf8_eq_flatMap, quoted, String.toList_ofList, List.cons_append, List.flatMap_cons,
    List.flatMap_append, ← hpieces]
  rfl

/-- A member without white space. -/
def Entry.compact (name : String) (value : Value) : Entry Value :=
  ⟨⟨.empty, .ofText name, .empty⟩, ⟨.empty, value, .empty⟩⟩

def Spaced.compact (value : Value) : Spaced Value := ⟨.empty, value, .empty⟩

def Value.text (text : String) : Value := .string (.ofText text)

@[simp] theorem name?_compact (name : String) (value : Value) :
    (Entry.compact name value).name? = some name := text?_ofText name

@[simp] theorem inside_compact (name : String) (value : Value) :
    (Entry.compact name value).value.inside = value := rfl

theorem bytes_compact (name : String) (value : Value) :
    (Entry.compact name value).bytes Value.bytes =
      utf8 (quoted name) ++ ascii ':' :: value.bytes := by
  rw [← bytes_ofText]
  simp only [Entry.compact, Entry.bytes, Spaced.bytes, Blank.bytes_empty, List.nil_append,
    List.append_nil]

theorem bytes_list_compact (items : List (Spaced Value)) :
    (Value.list .empty items).bytes =
      ascii '[' :: listed true (items.map (Spaced.bytes Value.bytes)) ++ [ascii ']'] := by
  rw [Value.bytes, Value.itemTexts_eq]
  rfl

theorem bytes_object_compact (entries : List (Entry Value)) :
    (Value.object .empty entries).bytes =
      ascii '\x7b' :: listed true (entries.map (Entry.bytes Value.bytes)) ++ [ascii '\x7d'] := by
  rw [Value.bytes, Value.entryTexts_eq]
  rfl

theorem bytes_spaced_compact (value : Value) :
    (Spaced.compact value).bytes Value.bytes = value.bytes := by
  simp only [Spaced.compact, Spaced.bytes, Blank.bytes_empty, List.nil_append, List.append_nil]

theorem bytes_text (text : String) : (Value.text text).bytes = utf8 (quoted text) :=
  bytes_ofText text

@[simp] theorem isString_text (text : String) : (Value.text text).IsString text :=
  ⟨.ofText text, rfl, text?_ofText text⟩

end Json

namespace Annotations

def toValue (annotations : Annotations) : Value :=
  .object .empty (annotations.pairs.map fun pair => .compact pair.1 (.text pair.2))

theorem bytes_toValue (annotations : Annotations) :
    annotations.toValue.bytes = utf8 annotations.toJson := by
  have hpair (pair : String × String) :
      (Entry.compact pair.1 (.text pair.2)).bytes Value.bytes =
        utf8 (written pair.1 (quoted pair.2)) := by
    rw [bytes_compact, bytes_text, utf8_written]
  rw [toValue, bytes_object_compact, toJson, utf8_bracketed, List.map_map, List.map_map]
  simp only [Function.comp_def, hpair]
  rfl

theorem arePresentedBy_toValue (annotations : Annotations) :
    annotations.toValue.IsObject annotations.ArePresentedBy := by
  refine ⟨_, _, rfl, annotations.pairs, ?_, fun key => ?_⟩
  · rw [List.forall₂_map_left_iff, List.forall₂_same]
    intro pair _
    exact ⟨name?_compact pair.1 _, isString_text pair.2⟩
  · rw [← get?_ofList, ofList_pairs]

end Annotations

namespace Node

mutual

def toValue : Node → Value
  | ⟨kind, ident, comment, builtIn, children, annotations, fault⟩ =>
    .object .empty ([
      .compact "kind" (.text kind.name),
      .compact "ident" (.text ident),
      .compact "comment" (.text comment),
      .compact "built_in" (.boolean builtIn),
      .compact "children" (.list .empty (toItems children)),
      .compact "annotations" annotations.toValue] ++
      (fault.map fun text => .compact "fault" (.text text)).toList)

def toItems : List Node → List (Spaced Value)
  | [] => []
  | node :: nodes => .compact node.toValue :: toItems nodes

end

mutual

theorem bytes_toValue : ∀ node : Node, node.toValue.bytes = utf8 node.toJson
  | ⟨kind, ident, comment, builtIn, children, annotations, fault⟩ => by
    have hchildren := bytes_toItems children
    have hbuiltIn : (Value.boolean builtIn).bytes = utf8 (if builtIn then "true" else "false") := by
      cases builtIn <;> rfl
    rw [utf8_toJson 0, toValue, bytes_object_compact]
    cases fault <;>
      simp only [members, Member.text, bytes_compact, bytes_text, List.map_append, List.map_cons,
        List.map_nil, Option.map_some, Option.map_none, Option.toList_some, Option.toList_none,
        annotations.bytes_toValue, hbuiltIn, bytes_list_compact, hchildren, utf8_toJsons] <;>
      rfl

theorem bytes_toItems : ∀ nodes : List Node,
    (toItems nodes).map (Spaced.bytes Value.bytes) = nodes.map fun node => utf8 node.toJson
  | [] => rfl
  | node :: nodes => by
    rw [toItems, List.map_cons, List.map_cons, bytes_toItems nodes, bytes_spaced_compact,
      bytes_toValue node]

end

mutual

theorem isPresentedBy_toValue : ∀ node : Node, node.IsPresentedBy node.toValue
  | ⟨kind, ident, comment, builtIn, children, annotations, fault⟩ => by
    have hchildren : (Value.list .empty (toItems children)).IsList (ArePresentedBy children) :=
      ⟨_, _, rfl, arePresentedBy_toItems children⟩
    have hannotations := annotations.arePresentedBy_toValue
    rw [IsPresentedBy, toValue]
    refine ⟨_, _, rfl, ?named, ?distinct, ?given, ?missing⟩
    case named => cases fault <;> simp
    case distinct => cases fault <;> simp [slots]
    case given => cases fault <;> simp [slots, Value.IsOptional, hchildren, hannotations]
    case missing => cases fault <;> simp [slots]

theorem arePresentedBy_toItems : ∀ nodes : List Node, ArePresentedBy nodes (toItems nodes)
  | [] => trivial
  | node :: nodes => by
    rw [toItems, ArePresentedBy]
    exact ⟨isPresentedBy_toValue node, arePresentedBy_toItems nodes⟩

end

end Node

namespace ModelTree

def toValue (tree : ModelTree) : Value :=
  .object .empty [.compact "packages" (.list .empty (Node.toItems tree.packages))]

theorem bytes_toValue (tree : ModelTree) : tree.toValue.bytes = utf8 tree.toJson := by
  rw [toValue, bytes_object_compact, toJson, utf8_bracketed, List.map_singleton, List.map_singleton,
    bytes_compact, utf8_written, bytes_list_compact, Node.bytes_toItems, Node.utf8_toJsons]
  rfl

theorem isPresentedBy_toValue (tree : ModelTree) : tree.IsPresentedBy tree.toValue := by
  have hpackages : (Value.list .empty (Node.toItems tree.packages)).IsList
      (Node.ArePresentedBy tree.packages) := ⟨_, _, rfl, Node.arePresentedBy_toItems tree.packages⟩
  refine ⟨_, _, rfl, ?named, ?distinct, ?given, ?missing⟩
  case named => simp
  case distinct => simp
  case given => simp [slots, hpackages]
  case missing => simp [slots]

/-- How a tree is presented makes no difference to reading it. The text that it is written as is one of
its presentations. In an object of a presentation members may change their places, unknown members may
be added, and members with default values may be left out. From every presentation, with white space
wherever it may stand, the tree is read back if no node of it stands deeper than 62. -/
theorem ofJson_ignores_presentation :
    (∀ tree : ModelTree,
      tree.IsPresentedBy tree.toValue ∧ tree.toValue.bytes = utf8 tree.toJson) ∧
    (∀ (slots : List Slot) (entries : List (Entry Value)), IsRecord slots entries →
      (∀ other, entries.Perm other → IsRecord slots other) ∧
      (∀ entry name, entry.name? = some name → (∀ slot ∈ slots, slot.name ≠ name) →
        IsRecord slots (entry :: entries)) ∧
      ∀ entry rest, entries = entry :: rest →
        (∀ slot ∈ slots, entry.name? = some slot.name → slot.isDefault) → IsRecord slots rest) ∧
    ∀ tree : ModelTree, (∀ depth node, tree.Holds depth node → depth ≤ 62) →
      ∀ text : Spaced Value, tree.IsPresentedBy text.inside →
        ofJson (text.bytes Value.bytes) = .ok tree := by
  refine ⟨fun tree => ⟨tree.isPresentedBy_toValue, tree.bytes_toValue⟩,
    fun slots entries h => ⟨fun other => h.perm, fun entry name => h.cons_unknown, ?_⟩, ?_⟩
  · rintro entry rest rfl hdefault
    exact h.of_cons hdefault
  · intro tree hlevels text htext
    rw [ofJson, readJson_of_isPresentedBy htext (Node.heights_le_of_standsAt hlevels)]
    rfl

/-- A package with one entity and an annotation. -/
def smallTree : ModelTree where
  packages := [{
    kind := .container, ident := "P",
    children := [{ kind := .other, ident := "a" }],
    annotations := Annotations.empty.insert "k" "2" }]

def minusHalf : Numeral where
  isNegative := true
  integer := ⟨0, []⟩
  isShort _ := rfl
  fraction := some ⟨5, []⟩
  exponent := none

/-- Its entity, of which the name is written by a code unit. -/
def smallEntity : Value :=
  .object .empty [
    .compact "ident" (.string ⟨[.coded ⟨⟨0, false⟩, ⟨0, false⟩, ⟨6, false⟩, ⟨1, false⟩⟩]⟩),
    .compact "kind" (.text "other")]

/-- The package with a repeated key, an unknown member and no member for its comment. -/
def smallPackage : Value :=
  .object .empty [
    .compact "ident" (.text "P"),
    .compact "fault" .null,
    .compact "annotations" (.object .empty [.compact "k" (.text "1"), .compact "k" (.text "2")]),
    .compact "x" (.list .empty [.compact (.number minusHalf)]),
    .compact "kind" (.text "container"),
    .compact "children" (.list .empty [.compact smallEntity])]

def smallText : Spaced Value where
  before := ⟨['\n'], by simp⟩
  inside := .object ⟨[' '], by simp⟩ [
    ⟨⟨.empty, .ofText "packages", ⟨[' '], by simp⟩⟩,
      ⟨⟨['\t'], by simp⟩, .list .empty [.compact smallPackage], ⟨[' '], by simp⟩⟩⟩]
  after := ⟨['\r', '\n'], by simp⟩

theorem isPresentedBy_smallEntity :
    Node.IsPresentedBy { kind := .other, ident := "a" } smallEntity := by
  have hident : Value.IsString
      (.string ⟨[.coded ⟨⟨0, false⟩, ⟨0, false⟩, ⟨6, false⟩, ⟨1, false⟩⟩]⟩) "a" := ⟨_, rfl, rfl⟩
  have hkind : (Value.text "other").IsString Kind.other.name := isString_text "other"
  refine ⟨_, _, rfl, ?named, ?distinct, ?given, ?missing⟩
  case named => simp
  case distinct => simp [Node.slots]
  case given => simp [Node.slots, hident, hkind]
  case missing => simp [Node.slots]

theorem isPresentedBy_smallPackage :
    ∀ node ∈ smallTree.packages, node.IsPresentedBy smallPackage := by
  have hkind : (Value.text "container").IsString Kind.container.name := isString_text "container"
  have hchildren : (Value.list .empty [.compact smallEntity]).IsList
      (Node.ArePresentedBy [{ kind := .other, ident := "a" }]) :=
    ⟨_, _, rfl, isPresentedBy_smallEntity, trivial⟩
  have hannotations : (Value.object .empty
      [.compact "k" (.text "1"), .compact "k" (.text "2")]).IsObject
        (Annotations.empty.insert "k" "2").ArePresentedBy := by
    refine ⟨_, _, rfl, [("k", "1"), ("k", "2")], ?_, fun key => ?_⟩
    · exact .cons ⟨name?_compact _ _, isString_text _⟩
        (.cons ⟨name?_compact _ _, isString_text _⟩ .nil)
    · rw [← Annotations.get?_ofList]
      rfl
  simp only [smallTree, List.forall_mem_singleton]
  refine ⟨_, _, rfl, ?named, ?distinct, ?given, ?missing⟩
  case named => simp
  case distinct => simp [Node.slots]
  case given => simp [Node.slots, Value.IsOptional, hkind, hchildren, hannotations]
  case missing => simp [Node.slots]

theorem isPresentedBy_smallText : smallTree.IsPresentedBy smallText.inside := by
  have hpackages : (Value.list .empty [.compact smallPackage]).IsList
      (Node.ArePresentedBy smallTree.packages) :=
    ⟨_, _, rfl, isPresentedBy_smallPackage _ (List.mem_singleton.mpr rfl), trivial⟩
  refine ⟨_, _, rfl, ?named, ?distinct, ?given, ?missing⟩
  case named => simp [Entry.name?, text?_ofText]
  case distinct => simp
  case given => simp [slots, Entry.name?, text?_ofText, hpackages]
  case missing => simp [slots, Entry.name?, text?_ofText]

/-- The same text in one piece. -/
def smallJson : String :=
  "\n\x7b \"packages\" :\t[\x7b\"ident\":\"P\",\"fault\":null," ++
    "\"annotations\":\x7b\"k\":\"1\",\"k\":\"2\"\x7d,\"x\":[-0.5],\"kind\":\"container\"," ++
    "\"children\":[\x7b\"ident\":\"\\u0061\",\"kind\":\"other\"\x7d]\x7d] \x7d\r\n"

theorem bytes_smallText : smallText.bytes Value.bytes = utf8 smallJson := by decide +kernel

theorem ofJson_smallJson :
    (∀ depth node, smallTree.Holds depth node → depth ≤ 62) ∧
      smallTree.IsPresentedBy smallText.inside ∧ ofJson (utf8 smallJson) = .ok smallTree := by
  have hlevels : ∀ depth node, smallTree.Holds depth node → depth ≤ 62 := fun depth node hholds =>
    Nat.le_trans hholds.le_heights (by decide)
  have hread := ofJson_ignores_presentation.2.2 smallTree hlevels smallText isPresentedBy_smallText
  rw [bytes_smallText] at hread
  exact ⟨hlevels, isPresentedBy_smallText, hread⟩

end ModelTree

end GettextTemplate
