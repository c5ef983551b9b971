import GettextTemplate.Proofs.Collections
import GettextTemplate.Proofs.Findings

/-!
Messages and the header. The header is the message with an empty text, and an extraction gives no such
message: a comment is looked at before its quotes are escaped, a raw value after its delimiters were
taken off, and neither the escapes nor the way in which line breaks are written make a text empty. A
scope, which is written as it is, may still put another message with an empty text into the template.
-/

namespace GettextTemplate

namespace Literal

theorem escapeEveryQuote_ne_nil {text : List Char} (htext : text ≠ []) :
    escapeEveryQuote text ≠ [] := by
  obtain ⟨c, rest, rfl⟩ := List.exists_cons_of_ne_nil htext
  rw [escapeEveryQuote_cons]
  split <;> exact List.cons_ne_nil _ _

theorem escapeUnpaired_ne_nil {text : List Char} (htext : text ≠ []) :
    escapeUnpaired text ≠ [] := by
  fun_cases escapeUnpaired text <;> simp_all

end Literal

namespace Answers

theorem text_ne_empty_of_mem_annotated {answers : Answers} {scope : String} {keys : List String}
    {m : Message} (hm : m ∈ answers.annotated scope keys) : m.text ≠ "" := by
  obtain ⟨_, _, raw, _, hcontent, rfl⟩ := mem_annotated_iff.mp hm
  intro hempty
  exact Literal.escapeUnpaired_ne_nil hcontent (by simpa using congrArg String.toList hempty)

theorem text_ne_empty_of_mem_ownMessages {answers : Answers} {scope : String} {m : Message}
    (hm : m ∈ answers.ownMessages scope) : m.text ≠ "" := by
  rcases mem_ownMessages_iff.mp hm with ⟨_, hcomment⟩ | ⟨_, hdefinition⟩ | ⟨_, hdialog⟩
  · obtain ⟨comment, _, hnonempty, rfl⟩ := commentMessage_eq_some_iff.mp hcomment
    have hchars : comment.toList ≠ [] := by simpa using hnonempty
    intro hempty
    exact Literal.escapeEveryQuote_ne_nil hchars (by simpa using congrArg String.toList hempty)
  · exact text_ne_empty_of_mem_annotated hdefinition
  · exact text_ne_empty_of_mem_annotated hdialog

end Answers

namespace Template

open Literal

theorem joinedText_ne_nil {text : List Char} (htext : text ≠ []) : joinedText text ≠ [] := by
  unfold joinedText
  fun_cases rewriteBreaks ['\\', 'n'] ['\\', 'r'] text with
  | case1 => exact absurd rfl htext
  | case2 => exact List.cons_ne_nil _ _
  | case3 c rest =>
    unfold rewriteBreak
    split
    · exact List.cons_ne_nil _ _
    split <;> exact List.cons_ne_nil _ _

/-- What the lines between their outer quotes hold, joined. -/
def joinLines (lines : List (List Char)) : List Char := lines.flatMap fun line => line.tail.dropLast

theorem joinLines_textLines (text : List Char) : joinLines (textLines text) = joinedText text := by
  obtain ⟨first, later, hliterals, hjoined, -⟩ := exists_literals_eq text
  rw [textLines_eq, hliterals, ← hjoined, joinLines, List.flatMap_map]
  simp [quoted, List.flatMap_id']

/-- The header alone has an empty text if nothing that stands after it has one. -/
theorem filter_headerBlocks_append_eq_iff (format : Format) (created : Int) (found : List Block) :
    (headerBlocks format created ++ found).filter (fun b => b.text = []) =
        headerBlocks format created ↔ ∀ b ∈ found, b.text ≠ [] := by
  have hheader : (headerBlocks format created).filter (fun b => b.text = []) =
      headerBlocks format created := by
    unfold headerBlocks
    split <;> rfl
  rw [List.filter_append, hheader, List.append_right_eq_self, List.filter_eq_nil_iff]
  simp only [decide_eq_true_eq, ne_eq]

end Template

namespace Entity

open Template

theorem text_ne_empty_of_mem_extract {root : Entity} {scope : String} {x : Extraction}
    (h : root.extract scope = .ok x) {m : Message} (hm : m ∈ x.messages) : m.text ≠ "" := by
  obtain ⟨visit, _, hm⟩ := (mem_messages_of_extract h).mp hm
  exact Answers.text_ne_empty_of_mem_ownMessages hm

/-- No message of an extraction is empty: its text is not, and the literals of its block join to a text
that is not. What a reader finds in the template is the header and, message by message, what the block
is read as by itself. So the header is all that is found with an empty text exactly if no block by
itself is read as such a thing, which only one with a scope of several lines can be. -/
theorem only_header_has_empty_text {root : Entity} {scope : String} {x : Extraction}
    (h : root.extract scope = .ok x) :
    (∀ m ∈ x.messages, m.text ≠ "") ∧
    (∀ m ∈ x.collection.catalog.messages,
      block m = "msgctxt \"" ++ m.scope ++ "\"\nmsgid " ++
        String.ofList (['\n'].intercalate (textLines m.text.toList)) ++ "\nmsgstr \"\"\n" ∧
      joinLines (textLines m.text.toList) = joinedText m.text.toList ∧
      joinedText m.text.toList ≠ []) ∧
    ∀ format created,
      compose format x.collection.catalog created = "\n".intercalate
        ((if format.hasHeader then [header (Minute.ofUnixSeconds created).stamp] else []) ++
          x.collection.catalog.messages.map block) ∧
      (∀ found, read? (compose format x.collection.catalog created) = some found ↔
        ∃ parts, found = headerBlocks format created ++ parts.flatten ∧
          List.Forall₂ Message.FoundIn x.collection.catalog.messages parts) ∧
      ∀ found, read? (compose format x.collection.catalog created) = some found →
        (found.filter (fun b => b.text = []) = headerBlocks format created ↔
          ∀ m ∈ x.collection.catalog.messages, ∀ part, read? (block m) = some part →
            ∀ b ∈ part, b.text ≠ []) ∧
        ((∀ m ∈ x.collection.catalog.messages, '\n' ∉ m.scope.toList) →
          found.filter (fun b => b.text = []) = headerBlocks format created) := by
  have hjoined : ∀ m ∈ x.collection.catalog.messages, joinedText m.text.toList ≠ [] := by
    intro m hm
    have htext : m.text ≠ "" := text_ne_empty_of_mem_extract h (Catalog.mem_ofList.mp hm)
    exact joinedText_ne_nil (by simpa using htext)
  refine ⟨fun m hm => text_ne_empty_of_mem_extract h hm, ?_, ?_⟩
  · intro m hm
    exact ⟨block_eq_textLines m, joinLines_textLines _, hjoined m hm⟩
  · intro format created
    refine ⟨compose_eq_intercalate .., fun found => read?_compose_eq_some_iff,
      fun found hfound => ?_⟩
    obtain ⟨parts, rfl, hparts⟩ := read?_compose_eq_some_iff.mp hfound
    refine ⟨?_, fun hscope => ?_⟩
    · rw [filter_headerBlocks_append_eq_iff, forall_mem_flatten_iff hparts]
    · rw [filter_headerBlocks_append_eq_iff, flatten_eq_of_foundIn hparts hscope,
        List.forall_mem_map]
      exact hjoined

end Entity

/-- A package with a part whose annotations are empty in every way, but for one of line breaks. -/
def blankPackage : Entity :=
  Node.toEntity {
    kind := .container
    ident := "P"
    children := [Node.plain .parameter "k"
      |>.annotate "Dialog.tab" ""
      |>.annotate "Dialog.group" "\""
      |>.annotate "Dialog.saveSelector.filter" "\"\""
      |>.annotate "Dialog.saveSelector.caption" "\"\r\n\n\""] }

open Template in
theorem blankPackage_only_header_has_empty_text :
    ∃ x, blankPackage.extract "P" = .ok x ∧ x.messages = [⟨"P", "\r\n\n"⟩] ∧
      (∀ m ∈ x.messages, m.text ≠ "") ∧
      ∃ found, read? (compose {} x.collection.catalog 0) = some found ∧
        found.filter (fun b => b.text = []) = headerBlocks {} 0 := by
  have h : blankPackage.extract "P" = .ok ⟨[⟨"P", "\r\n\n"⟩], 2, 0⟩ := by rfl
  have hcatalog : (Extraction.collection ⟨[⟨"P", "\r\n\n"⟩], 2, 0⟩).catalog.messages =
      [⟨"P", "\r\n\n"⟩] :=
    Catalog.messages_ofList_of_ascending (List.pairwise_singleton ..)
  have hwritable : ∀ m ∈ (Extraction.collection ⟨[⟨"P", "\r\n\n"⟩], 2, 0⟩).catalog.messages,
      m.IsWritable ∧ '\n' ∉ m.scope.toList := by
    rw [hcatalog]
    decide
  obtain ⟨htexts, _, htemplate⟩ := Entity.only_header_has_empty_text h
  have hread := read?_compose {} 0 fun m hm => (hwritable m hm).1
  obtain ⟨_, hfound⟩ := (htemplate {} 0).2.2 _ hread
  exact ⟨_, h, rfl, htexts, _, hread, hfound fun m hm => (hwritable m hm).2⟩

/-- A name that closes the literal of a context and goes on with two messages and the beginning of a
third. -/
def forgedName : String :=
  "P\"\nmsgid \"x\"\nmsgstr \"\"\n\nmsgid \"\"\nmsgstr \"\"\n\nmsgctxt \"P"

def forgedPackage : Entity :=
  Node.toEntity { kind := .container, ident := forgedName, comment := "c" }

open Template in
/-- One message is collected and three are found after the header, of which one has an empty text and
no context, as a header has. -/
theorem forgedPackage_has_another_empty_text :
    ∃ x, forgedPackage.extract forgedName = .ok x ∧ x.messages = [⟨forgedName, "c"⟩] ∧
      ∀ format created,
        read? (compose format x.collection.catalog created) =
          some (headerBlocks format created ++
            [⟨some ['P'], ['x'], []⟩, ⟨none, [], []⟩, ⟨some ['P'], ['c'], []⟩]) ∧
        ∀ found, read? (compose format x.collection.catalog created) = some found →
          found.filter (fun b => b.text = []) ≠ headerBlocks format created := by
  have h : forgedPackage.extract forgedName = .ok ⟨[⟨forgedName, "c"⟩], 1, 0⟩ := by rfl
  have hcatalog : (Extraction.collection ⟨[⟨forgedName, "c"⟩], 1, 0⟩).catalog.messages =
      [⟨forgedName, "c"⟩] :=
    Catalog.messages_ofList_of_ascending (List.pairwise_singleton ..)
  have hparts : List.Forall₂ Message.FoundIn
      (Extraction.collection ⟨[⟨forgedName, "c"⟩], 1, 0⟩).catalog.messages
      [[⟨some ['P'], ['x'], []⟩, ⟨none, [], []⟩, ⟨some ['P'], ['c'], []⟩]] := by
    rw [hcatalog]
    exact .cons (foundIn_iff.mpr (by decide)) .nil
  refine ⟨_, h, rfl, fun format created => ?_⟩
  have hread : read? (compose format _ created) = some (headerBlocks format created ++ _) :=
    read?_compose_eq_some_iff.mpr ⟨_, rfl, hparts⟩
  refine ⟨hread, fun found hfound => ?_⟩
  obtain rfl := Option.some.inj (hread.symm.trans hfound)
  rw [Ne, filter_headerBlocks_append_eq_iff]
  intro hnonempty
  exact hnonempty ⟨none, [], []⟩ (by decide) rfl

end GettextTemplate
