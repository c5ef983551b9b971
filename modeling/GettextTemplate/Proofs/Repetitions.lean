import GettextTemplate.ModelTree
import GettextTemplate.Proofs.Collections
import GettextTemplate.Proofs.Continuations
import GettextTemplate.Proofs.RoundTrip

/-!
When two messages are written in the same way. A block can be cut behind its scope in one way only
(`eq_of_append_eq`), because a line within a text begins with a quote, so blocks are the same only if
their scopes are and their texts have the same line breaks (`block_eq_iff`). A catalog tells texts
apart by all their characters, so it may hold two messages of which that is true.
-/

namespace GettextTemplate

/-- Whether two messages have the same scope and the same text, up to the kinds of their line breaks
and with the escape for each stray carriage return. -/
def Message.WrittenAlike (m m' : Message) : Prop :=
  m.scope = m'.scope ∧
    Template.rewriteBreaks ['\n'] ['\\', 'r'] m.text.toList =
      Template.rewriteBreaks ['\n'] ['\\', 'r'] m'.text.toList

namespace Template

/-- Whether every line after the first begins with a quote. -/
def LaterLinesQuoted (text : List Char) : Prop :=
  ∀ before after, text = before ++ '\n' :: after → after.head? = some '"'

theorem LaterLinesQuoted.append {front rest : List Char} (hfront : '\n' ∉ front)
    (h : LaterLinesQuoted rest) : LaterLinesQuoted (front ++ rest) := by
  intro before after heq
  obtain ⟨more, _, hrest⟩ := exists_of_append_eq_append hfront heq
  exact h more after hrest

theorem laterLinesQuoted_literalText (text : List Char) : LaterLinesQuoted (literalText text) := by
  intro before after heq
  obtain ⟨_, _, _, _, rfl⟩ := literalText_eq_append_iff.mp heq
  rfl

/-- A quote and a line feed at the beginning of a text stand nowhere else in it, if something else
than a quote comes after them: there would be a line that does not begin with a quote. -/
theorem eq_nil_of_eq_append {more x y : List Char} (hx : LaterLinesQuoted x)
    (hy : y.head? ≠ some '"') (h : '"' :: '\n' :: x = more ++ '"' :: '\n' :: y) :
    more = [] ∧ x = y := by
  match more with
  | [] => exact ⟨rfl, (List.cons.inj (List.cons.inj h).2).2⟩
  | [c] =>
    obtain ⟨hfeed, _⟩ := List.cons.inj (List.cons.inj h).2
    cases hfeed
  | c :: d :: more =>
    have hlater : x = more ++ '"' :: '\n' :: y := (List.cons.inj (List.cons.inj h).2).2
    refine absurd (hx (more ++ ['"']) y ?_) hy
    rw [hlater, List.append_assoc, List.singleton_append]

theorem eq_of_append_eq {s t x y : List Char} (hx : LaterLinesQuoted x) (hy : LaterLinesQuoted y)
    (hxhead : x.head? ≠ some '"') (hyhead : y.head? ≠ some '"')
    (h : s ++ '"' :: '\n' :: x = t ++ '"' :: '\n' :: y) : s = t ∧ x = y := by
  rcases List.append_eq_append_iff.mp h with ⟨more, rfl, heq⟩ | ⟨more, rfl, heq⟩
  · obtain ⟨rfl, hxy⟩ := eq_nil_of_eq_append hx hyhead heq
    exact ⟨(List.append_nil s).symm, hxy⟩
  · obtain ⟨rfl, hyx⟩ := eq_nil_of_eq_append hy hxhead heq
    exact ⟨List.append_nil t, hyx.symm⟩

/-- What stands in a block behind its scope and the end of that line, as far as the text goes. -/
def textPart (text : List Char) : List Char := Keyword.text.word ++ [' ', '"'] ++ literalText text

theorem laterLinesQuoted_textPart (text : List Char) : LaterLinesQuoted (textPart text) :=
  (laterLinesQuoted_literalText _).append (by simp [Keyword.word_eq])

theorem head?_textPart (text : List Char) : (textPart text).head? ≠ some '"' := by
  simp [textPart, Keyword.word_eq]

theorem toList_block_eq_textPart (m : Message) :
    (block m).toList =
      Keyword.context.word ++ [' ', '"'] ++
        (m.scope.toList ++ '"' :: '\n' :: textPart m.text.toList) ++
        ('"' :: '\n' :: (Keyword.localized.word ++ [' ', '"', '"', '\n'])) := by
  simp [toList_block, quoted, textPart]

theorem block_eq_iff (m m' : Message) : block m = block m' ↔ m.WrittenAlike m' := by
  rw [Message.WrittenAlike, ← literalText_eq_iff]
  constructor
  · intro h
    have hlists := congrArg String.toList h
    rw [toList_block_eq_textPart, toList_block_eq_textPart] at hlists
    have hcut := List.append_cancel_left (List.append_cancel_right hlists)
    obtain ⟨hscope, htext⟩ :=
      eq_of_append_eq (laterLinesQuoted_textPart m.text.toList)
        (laterLinesQuoted_textPart m'.text.toList) (head?_textPart _) (head?_textPart _) hcut
    exact ⟨String.toList_inj.mp hscope, List.append_cancel_left htext⟩
  · rintro ⟨hscope, htext⟩
    rw [block, block, hscope, htext]

theorem Block.ofMessage_eq_iff (m m' : Message) :
    Block.ofMessage m = Block.ofMessage m' ↔
      m.scope = m'.scope ∧ joinedText m.text.toList = joinedText m'.text.toList := by
  simp [Block.ofMessage, String.toList_inj]

theorem rewriteBreaks_of_not_mem {text : List Char} (stray : List Char) (h : '\r' ∉ text) :
    rewriteBreaks ['\n'] stray text = text := by
  fun_induction rewriteBreaks ['\n'] stray text with
  | case1 => rfl
  | case2 rest => exact absurd List.mem_cons_self h
  | case3 c rest hpair ih =>
    have hc : rewriteBreak ['\n'] stray c = [c] := by
      have hreturn : c ≠ '\r' := fun heq => h (heq ▸ List.mem_cons_self)
      by_cases hfeed : c = '\n' <;> simp [rewriteBreak, hfeed, hreturn]
    rw [hc, ih fun hmem => h (List.mem_cons_of_mem c hmem), List.singleton_append]

/-- Texts without carriage returns are told apart in their blocks. -/
theorem block_inj {m m' : Message} (hm : '\r' ∉ m.text.toList) (hm' : '\r' ∉ m'.text.toList)
    (h : block m = block m') : m = m' := by
  obtain ⟨hscope, htext⟩ := (block_eq_iff m m').mp h
  rw [rewriteBreaks_of_not_mem _ hm, rewriteBreaks_of_not_mem _ hm'] at htext
  cases m
  cases m'
  simp_all [String.toList_inj]

end Template

open Template in
/-- A template has one block for each message of a collection. Two of them are the same exactly if
their messages are written alike, which no two messages are unless a text holds a carriage return. If
all messages are writable, a reader finds as many, and two of these are the same exactly if their
scopes are and their texts with line breaks and carriage returns as escapes. -/
theorem Source.blocks_repeat_iff {source : Source} {package : String} {c : Collection}
    (h : source.collection package = .ok c) (format : Format) (created : Int) :
    (compose format c.catalog created = "\n".intercalate
        ((if format.hasHeader then [header (Minute.ofUnixSeconds created).stamp] else []) ++
          c.catalog.messages.map block) ∧
      (c.catalog.messages.map block).length = c.counts.unique) ∧
    (∀ m ∈ c.catalog.messages, ∀ m' ∈ c.catalog.messages,
      block m = block m' ↔ m.WrittenAlike m') ∧
    ((∀ m ∈ c.catalog.messages, '\r' ∉ m.text.toList) → (c.catalog.messages.map block).Nodup) ∧
    ((∀ m ∈ c.catalog.messages, m.IsWritable) →
      read? (compose format c.catalog created) =
        some ((if format.hasHeader then
          [Block.ofHeader (Minute.ofUnixSeconds created).stamp] else []) ++
            c.catalog.messages.map Block.ofMessage) ∧
      ∀ m ∈ c.catalog.messages, ∀ m' ∈ c.catalog.messages,
        Block.ofMessage m = Block.ofMessage m' ↔
          m.scope = m'.scope ∧ joinedText m.text.toList = joinedText m'.text.toList) := by
  obtain ⟨root, x, _, _, rfl⟩ := collection_eq_ok_iff.mp h
  refine ⟨⟨compose_eq_intercalate .., ?_⟩, fun m _ m' _ => block_eq_iff m m', ?_, ?_⟩
  · rw [List.length_map]
    rfl
  · intro hreturn
    rw [List.Nodup, List.pairwise_map]
    refine x.collection.catalog.nodup_messages.imp_of_mem fun hm hm' hne heq => ?_
    exact hne (block_inj (hreturn _ hm) (hreturn _ hm') heq)
  · intro hwritable
    exact ⟨read?_compose format created hwritable, fun m _ m' _ => Block.ofMessage_eq_iff m m'⟩

/-- A package with two parameters whose comments differ in their line breaks only. -/
def twoBreaksTree : ModelTree where
  packages := [{
    kind := .container, ident := "P",
    children := [
      { kind := .parameter, ident := "a", comment := "a\nb" },
      { kind := .parameter, ident := "b", comment := "a\r\nb" }] }]

theorem collection_twoBreaksTree :
    twoBreaksTree.source.collection "P" =
      .ok (Extraction.collection ⟨[⟨"P", "a\nb"⟩, ⟨"P", "a\r\nb"⟩], 3, 0⟩) := by rfl

theorem messages_twoBreaksTree :
    (Extraction.collection ⟨[⟨"P", "a\nb"⟩, ⟨"P", "a\r\nb"⟩], 3, 0⟩).catalog.messages =
      [⟨"P", "a\nb"⟩, ⟨"P", "a\r\nb"⟩] :=
  Catalog.messages_ofList_of_ascending (by decide)

open Template in
theorem twoBreaksTree_is_read_twice :
    ∃ c, twoBreaksTree.source.collection "P" = .ok c ∧
      read? (compose { hasHeader := false } c.catalog 0) =
        some [⟨some ['P'], ['a', '\\', 'n', 'b'], []⟩, ⟨some ['P'], ['a', '\\', 'n', 'b'], []⟩] := by
  obtain ⟨_, _, _, hread⟩ :=
    Source.blocks_repeat_iff collection_twoBreaksTree { hasHeader := false } 0
  have hwritable := messages_twoBreaksTree.symm ▸
    (by decide : ∀ m ∈ [Message.mk "P" "a\nb", ⟨"P", "a\r\nb"⟩], m.IsWritable)
  refine ⟨_, collection_twoBreaksTree, (hread hwritable).1.trans ?_⟩
  rw [messages_twoBreaksTree]
  decide

open Template in
/-- Two messages of one collection with one block: a catalog tells them apart, the template does
not. -/
theorem twoBreaksTree_repeats_a_block :
    ∃ c, twoBreaksTree.source.collection "P" = .ok c ∧
      ∃ m ∈ c.catalog.messages, ∃ m' ∈ c.catalog.messages, m ≠ m' ∧ block m = block m' := by
  refine ⟨_, collection_twoBreaksTree, ⟨"P", "a\nb"⟩, ?_, ⟨"P", "a\r\nb"⟩, ?_, by decide, ?_⟩
  · rw [messages_twoBreaksTree]
    exact List.mem_cons_self
  · rw [messages_twoBreaksTree]
    exact List.mem_cons_of_mem _ List.mem_cons_self
  · rw [block_eq_iff, Message.WrittenAlike]
    decide

end GettextTemplate
