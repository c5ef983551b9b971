import GettextTemplate.Proofs.Reading
import GettextTemplate.Proofs.Stamps

/-!
Templates are read back. The header is one message without a context, and each block is the message
it was written for, so the reader finds the messages of the catalog in their order
(`compose_reads_back`).
-/

namespace GettextTemplate

namespace Template

open Literal

/-- The fields of a header, as a reader joins them. -/
def headerFields (created : List Char) : List Char :=
  "Project-Id-Version: PACKAGE VERSION\\n".toList ++
  "Report-Msgid-Bugs-To: \\n".toList ++
  ("POT-Creation-Date: ".toList ++ created ++ ['\\', 'n']) ++
  "PO-Revision-Date: YEAR-MO-DA HO:MI+ZONE\\n".toList ++
  "Last-Translator: FULL NAME <EMAIL@ADDRESS>\\n".toList ++
  "Language-Team: LANGUAGE <LL@li.org>\\n".toList ++
  "Language: \\n".toList ++
  "MIME-Version: 1.0\\n".toList ++
  "Content-Type: text/plain; charset=UTF-8\\n".toList ++
  "Content-Transfer-Encoding: 8bit\\n".toList

/-- The header as a reader finds it: a message with an empty text and without a context. -/
def Block.ofHeader (created : String) : Block := ⟨none, [], headerFields created.toList⟩

/-- The lines of a header before the one with its creation date. -/
def headerTop : List Char :=
  "# SOME DESCRIPTIVE TITLE.\n".toList ++
  "# Copyright (C) YEAR THE PACKAGE'S COPYRIGHT HOLDER\n".toList ++
  "# This file is distributed under the same license as the PACKAGE package.\n".toList ++
  "# FIRST AUTHOR <EMAIL@ADDRESS>, YEAR.\n".toList ++
  "#\n".toList ++
  "msgid \"\"\n".toList ++
  "msgstr \"\"\n".toList ++
  "\"Project-Id-Version: PACKAGE VERSION\\n\"\n".toList ++
  "\"Report-Msgid-Bugs-To: \\n\"".toList

/-- The lines of a header after the one with its creation date. -/
def headerBottom : List Char :=
  "\"PO-Revision-Date: YEAR-MO-DA HO:MI+ZONE\\n\"\n".toList ++
  "\"Last-Translator: FULL NAME <EMAIL@ADDRESS>\\n\"\n".toList ++
  "\"Language-Team: LANGUAGE <LL@li.org>\\n\"\n".toList ++
  "\"Language: \\n\"\n".toList ++
  "\"MIME-Version: 1.0\\n\"\n".toList ++
  "\"Content-Type: text/plain; charset=UTF-8\\n\"\n".toList ++
  "\"Content-Transfer-Encoding: 8bit\\n\"\n".toList

theorem toList_header (created : String) :
    (header created).toList =
      headerTop ++ '\n' ::
        (quoted ("POT-Creation-Date: ".toList ++ created.toList ++ ['\\', 'n']) ++ '\n' ::
          headerBottom) := by
  have htop : "\"Report-Msgid-Bugs-To: \\n\"\n".toList =
      "\"Report-Msgid-Bugs-To: \\n\"".toList ++ ['\n'] := by
    rw [String.toList_ofList, String.toList_ofList]
    rfl
  have hdate : "\"POT-Creation-Date: ".toList = '"' :: "POT-Creation-Date: ".toList := by
    rw [String.toList_ofList, String.toList_ofList]
  have hend : "\\n\"\n".toList = ['\\', 'n', '"', '\n'] := String.toList_ofList
  unfold header headerTop headerBottom quoted
  simp only [String.toList_append, List.append_assoc, List.cons_append, List.nil_append, htop, hdate,
    hend, -String.reduceAppend, -String.reduceToList]

theorem mapM_headerTop :
    (headerTop.splitOn '\n').mapM Line.ofChars? =
      some [.empty, .empty, .empty, .empty, .empty, .statement .text [], .statement .localized [],
        .continuation "Project-Id-Version: PACKAGE VERSION\\n".toList,
        .continuation "Report-Msgid-Bugs-To: \\n".toList] := by
  unfold headerTop
  repeat rw [String.toList_ofList]
  rfl

theorem mapM_headerBottom :
    (headerBottom.splitOn '\n').mapM Line.ofChars? =
      some [.continuation "PO-Revision-Date: YEAR-MO-DA HO:MI+ZONE\\n".toList,
        .continuation "Last-Translator: FULL NAME <EMAIL@ADDRESS>\\n".toList,
        .continuation "Language-Team: LANGUAGE <LL@li.org>\\n".toList,
        .continuation "Language: \\n".toList, .continuation "MIME-Version: 1.0\\n".toList,
        .continuation "Content-Type: text/plain; charset=UTF-8\\n".toList,
        .continuation "Content-Transfer-Encoding: 8bit\\n".toList, .empty] := by
  unfold headerBottom
  repeat rw [String.toList_ofList]
  rfl

theorem isBody_append_of_plain {before : List Char} (hbefore : ∀ c ∈ before, c ≠ '"' ∧ c ≠ '\\')
    (rest : List Char) : isBody (before ++ rest) = isBody rest := by
  induction before with
  | nil => rfl
  | cons c before ih =>
    obtain ⟨hquote, hplain⟩ := hbefore c List.mem_cons_self
    have hlater := ih fun later hlater => hbefore later (List.mem_cons_of_mem c hlater)
    rw [List.cons_append, isBody_plain hplain, decide_eq_true hquote, hlater, Bool.true_and]

/-- A header is read as one message, whatever minute it carries. -/
theorem read?_header (m : Minute) : read? (header m.stamp) = some [Block.ofHeader m.stamp] := by
  have hstamp : ∀ c ∈ m.stamp.toList, c ≠ '"' ∧ c ≠ '\\' ∧ c ≠ '\n' := by
    intro c hc
    have hmark := List.all_eq_true.mp m.all_isStampChar_stamp c hc
    refine ⟨?_, ?_, ?_⟩ <;> (rintro rfl; cases hmark)
  have hname : ∀ c ∈ "POT-Creation-Date: ".toList, c ≠ '"' ∧ c ≠ '\\' ∧ c ≠ '\n' := by
    rw [String.toList_ofList]
    simp
  have hdate : ∀ c ∈ "POT-Creation-Date: ".toList ++ m.stamp.toList,
      c ≠ '"' ∧ c ≠ '\\' ∧ c ≠ '\n' := by
    intro c hc
    rcases List.mem_append.mp hc with hc | hc
    · exact hname c hc
    · exact hstamp c hc
  have hbody : isBody ("POT-Creation-Date: ".toList ++ m.stamp.toList ++ ['\\', 'n']) = true := by
    rw [isBody_append_of_plain fun c hc => ⟨(hdate c hc).1, (hdate c hc).2.1⟩]
    rfl
  have hline : '\n' ∉ "POT-Creation-Date: ".toList ++ m.stamp.toList ++ ['\\', 'n'] := by
    intro hmem
    rcases List.mem_append.mp hmem with hmem | hmem
    · exact (hdate _ hmem).2.2 rfl
    · simp at hmem
  rw [read?, toList_header, List.splitOn_append_cons_self,
    List.splitOn_append_cons_self_of_not_mem (feed_not_mem_quoted hline), List.mapM_append,
    List.mapM_cons, mapM_headerTop, mapM_headerBottom, ofChars?_quoted hbody]
  rfl

theorem return_not_mem_header (m : Minute) : '\r' ∉ (header m.stamp).toList := by
  have htop : '\r' ∉ headerTop := by
    unfold headerTop
    repeat rw [String.toList_ofList]
    decide +kernel
  have hbottom : '\r' ∉ headerBottom := by
    unfold headerBottom
    repeat rw [String.toList_ofList]
    decide +kernel
  have hname : '\r' ∉ "POT-Creation-Date: ".toList := by
    rw [String.toList_ofList]
    decide
  have hstamp : '\r' ∉ m.stamp.toList := by
    intro hmem
    cases List.all_eq_true.mp m.all_isStampChar_stamp _ hmem
  simp [toList_header, quoted, htop, hbottom, hname, hstamp, -String.reduceToList]

theorem mem_intercalate {c d : Char} (hc : c ≠ d) (parts : List (List Char)) :
    c ∈ [d].intercalate parts ↔ ∃ part ∈ parts, c ∈ part := by
  induction parts with
  | nil => simp
  | cons first rest ih =>
    cases rest with
    | nil => simp
    | cons second rest => simp [List.intercalate_cons_cons, ih, hc]

theorem return_mem_block (m : Message) : '\r' ∈ (block m).toList ↔ '\r' ∈ m.scope.toList := by
  have htext := return_not_mem_literalText m.text.toList
  simp [toList_block, quoted, Keyword.word_eq, htext]

/-- The only way for a carriage return into a template is a scope. -/
theorem return_mem_compose (format : Format) (catalog : Catalog) (created : Int) :
    '\r' ∈ (compose format catalog created).toList ↔
      ∃ m ∈ catalog.messages, '\r' ∈ m.scope.toList := by
  have hheader := return_not_mem_header (Minute.ofUnixSeconds created)
  have hfeed : "\n".toList = ['\n'] := String.toList_ofList
  rw [compose_eq_intercalate, String.toList_intercalate, hfeed, mem_intercalate (by decide)]
  constructor
  · rintro ⟨part, hpart, hmem⟩
    obtain ⟨text, htext, rfl⟩ := List.mem_map.mp hpart
    rcases List.mem_append.mp htext with htext | htext
    · split at htext
      · rw [List.mem_singleton.mp htext] at hmem
        exact absurd hmem hheader
      · cases htext
    · obtain ⟨m, hm, rfl⟩ := List.mem_map.mp htext
      exact ⟨m, hm, (return_mem_block m).mp hmem⟩
  · rintro ⟨m, hm, hmem⟩
    have hpart := List.mem_append_right
      (if format.hasHeader then [header (Minute.ofUnixSeconds created).stamp] else [])
      (List.mem_map_of_mem (f := block) hm)
    exact ⟨_, List.mem_map_of_mem hpart, (return_mem_block m).mpr hmem⟩

/-- What a reader finds before the messages. -/
def headerBlocks (format : Format) (created : Int) : List Block :=
  if format.hasHeader then [Block.ofHeader (Minute.ofUnixSeconds created).stamp] else []

theorem length_headerBlocks (format : Format) (created : Int) :
    (headerBlocks format created).length = if format.hasHeader then 1 else 0 := by
  unfold headerBlocks
  cases format.hasHeader <;> rfl

/-- A template is read as its header and then what each of its blocks is read as by itself. -/
theorem read?_compose_of_parts (format : Format) {catalog : Catalog} (created : Int)
    {parts : List (List Block)}
    (h : List.Forall₂ (fun m part => read? (block m) = some part) catalog.messages parts) :
    read? (compose format catalog created) =
      some (headerBlocks format created ++ parts.flatten) := by
  have hblocks : List.Forall₂ (fun text part => read? text = some part)
      (catalog.messages.map block) parts := List.forall₂_map_left_iff.mpr h
  rw [compose_eq_intercalate, headerBlocks]
  cases format.hasHeader with
  | false => exact read?_intercalate hblocks
  | true => exact read?_intercalate (.cons (read?_header _) hblocks)

/-- A template of writable messages is read back message by message, after its header. -/
theorem read?_compose (format : Format) {catalog : Catalog} (created : Int)
    (h : ∀ m ∈ catalog.messages, m.IsWritable) :
    read? (compose format catalog created) =
      some (headerBlocks format created ++ catalog.messages.map Block.ofMessage) := by
  have hparts : List.Forall₂ (fun m part => read? (block m) = some part) catalog.messages
      (catalog.messages.map fun m => [Block.ofMessage m]) := by
    rw [List.forall₂_map_right_iff, List.forall₂_same]
    exact fun m hm => read?_block (h m hm)
  rw [read?_compose_of_parts format created hparts, ← List.flatMap_def, ← List.map_eq_flatMap]

/-- A template of writable messages holds no carriage return and is read back: after the header, if
there is one, come exactly the messages of the catalog, in their order, with their line breaks as
escapes. -/
theorem compose_reads_back (format : Format) {catalog : Catalog} (created : Int)
    (h : ∀ m ∈ catalog.messages, m.IsWritable) :
    '\r' ∉ (compose format catalog created).toList ∧
    read? (compose format catalog created) =
      some ((if format.hasHeader then [Block.ofHeader (Minute.ofUnixSeconds created).stamp] else []) ++
        catalog.messages.map Block.ofMessage) := by
  refine ⟨?_, read?_compose format created h⟩
  rw [return_mem_compose]
  rintro ⟨m, hm, hreturn⟩
  exact ((h m hm).scopeLine _ hreturn).2 rfl

/-- Two messages with all kinds of line breaks, one of them right after a backslash, and with lines
that look like a comment and like a statement. -/
def brokenLines : Catalog where
  messages := [⟨"P", "a\\\n# b\r\nmsgid \\\"c\\\""⟩, ⟨"Q", "\r\r\n"⟩]
  ascending := by decide

theorem compose_brokenLines_reads_back :
    (∀ m ∈ brokenLines.messages, m.IsWritable) ∧
    read? (compose {} brokenLines (-1)) =
      some [Block.ofHeader (Minute.ofUnixSeconds (-1)).stamp,
        ⟨some ['P'], "a\\\\n# b\\nmsgid \\\"c\\\"".toList, []⟩,
        ⟨some ['Q'], ['\\', 'r', '\\', 'n'], []⟩] := by
  have h : ∀ m ∈ brokenLines.messages, m.IsWritable := by decide
  exact ⟨h, (compose_reads_back {} (-1) h).2⟩

end Template

end GettextTemplate
