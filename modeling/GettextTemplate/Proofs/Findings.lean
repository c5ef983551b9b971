import GettextTemplate.Proofs.RoundTrip

/-!
What a reader can find in a template, whatever its messages are. A scope is written as it is and a
text need not be a body, so a template may not be readable at all, and a scope of several lines may
hold statements of its own. But each block begins and goes on with a keyword, which ends what is read
before it, so that a reader that finds anything finds the header and then what each block is read as by
itself, with the message at the end of it (`read?_compose_eq_some_iff`).
-/

namespace GettextTemplate

namespace Template

open Literal

/-- How the statements of a message begin, with or without a context. -/
theorem blocks_cons_eq_some {first : Keyword × List Char} {rest : List (Keyword × List Char)}
    {found : List Block} (h : blocks (first :: rest) = some found) :
    (first.1 = .context ∧ ∃ text localized later,
      rest = (.text, text) :: (.localized, localized) :: later) ∨
    (first.1 = .text ∧ ∃ localized later, rest = (.localized, localized) :: later) := by
  unfold blocks at h
  split at h
  · next heq => cases heq
  · next context text localized later heq =>
    cases heq
    exact .inl ⟨rfl, text, localized, later, rfl⟩
  · next text localized later heq =>
    cases heq
    exact .inr ⟨rfl, localized, later, rfl⟩
  · cases h

/-- A text statement that its localized one follows ends a message, whatever stands before them, so
what goes on to there is read by itself. -/
theorem blocks_append_eq_some {front later : List (Keyword × List Char)} {text localized : List Char}
    {found : List Block}
    (h : blocks (front ++ (.text, text) :: (.localized, localized) :: later) = some found) :
    ∃ forged context rest, found = forged ++ ⟨context, text, localized⟩ :: rest ∧
      blocks (front ++ [(.text, text), (.localized, localized)]) =
        some (forged ++ [⟨context, text, localized⟩]) ∧
      blocks later = some rest := by
  fun_induction blocks front generalizing found with
  | case1 =>
    obtain ⟨rest, hrest, rfl⟩ := Option.map_eq_some_iff.mp h
    exact ⟨[], none, rest, rfl, rfl, hrest⟩
  | case2 context text' localized' front ih =>
    obtain ⟨found, hfound, rfl⟩ := Option.map_eq_some_iff.mp h
    obtain ⟨forged, context, rest, rfl, hfront, hrest⟩ := ih hfound
    exact ⟨_ :: forged, context, rest, rfl, Option.map_eq_some_iff.mpr ⟨_, hfront, rfl⟩, hrest⟩
  | case3 text' localized' front ih =>
    obtain ⟨found, hfound, rfl⟩ := Option.map_eq_some_iff.mp h
    obtain ⟨forged, context, rest, rfl, hfront, hrest⟩ := ih hfound
    exact ⟨_ :: forged, context, rest, rfl, Option.map_eq_some_iff.mpr ⟨_, hfront, rfl⟩, hrest⟩
  | case4 front hnil hthree htwo =>
    -- Of what is no message by itself, only a context alone can begin the message of the text.
    obtain ⟨⟨keyword, body⟩, front, rfl⟩ := List.exists_cons_of_ne_nil hnil
    rcases blocks_cons_eq_some h with ⟨hkeyword, _, _, _, heq⟩ | ⟨hkeyword, _, _, heq⟩
    · subst hkeyword
      cases front with
      | nil =>
        obtain ⟨rest, hrest, rfl⟩ := Option.map_eq_some_iff.mp h
        exact ⟨[], some body, rest, rfl, rfl, hrest⟩
      | cons second front =>
        cases front with
        | nil => cases heq
        | cons third front =>
          cases heq
          exact absurd rfl (hthree _ _ _ _)
    · subst hkeyword
      cases front with
      | nil => cases heq
      | cons second front =>
        cases heq
        exact absurd rfl (htwo _ _ _)

/-- A statement ends what goes on before it, so the lines before it are joined on their own. -/
theorem joinLiterals_append_eq_some {current : Option (Keyword × List Char)} {lines later : List Line}
    {keyword : Keyword} {body : List Char} {found : List (Keyword × List Char)}
    (h : joinLiterals current (lines ++ .statement keyword body :: later) = some found) :
    ∃ s t, joinLiterals current lines = some s ∧
      joinLiterals none (.statement keyword body :: later) = some t ∧ found = s ++ t := by
  induction lines generalizing current found with
  | nil =>
    obtain ⟨t, ht, rfl⟩ := Option.map_eq_some_iff.mp h
    exact ⟨current.toList, t, rfl, Option.map_eq_some_iff.mpr ⟨t, ht, rfl⟩, rfl⟩
  | cons line rest ih =>
    cases line with
    | empty => exact ih h
    | statement keyword' body' =>
      obtain ⟨found', hfound, rfl⟩ := Option.map_eq_some_iff.mp h
      obtain ⟨s, t, hs, ht, rfl⟩ := ih hfound
      exact ⟨current.toList ++ s, t, Option.map_eq_some_iff.mpr ⟨s, hs, rfl⟩, ht,
        (List.append_assoc ..).symm⟩
    | continuation more =>
      cases current with
      | none => cases h
      | some statement => exact ih h

/-- What is read before a line that begins with a keyword, and what is read from that line on. -/
theorem statements?_append_eq_some {a b : List Char} {keyword : Keyword}
    {found : List (Keyword × List Char)}
    (h : statements? (a ++ '\n' :: (keyword.word ++ ' ' :: b)) = some found) :
    ∃ s t, statements? a = some s ∧ statements? (keyword.word ++ ' ' :: b) = some t ∧
      found = s ++ t := by
  have hword : '\n' ∉ keyword.word ++ [' '] := by cases keyword <;> simp [Keyword.word_eq]
  obtain ⟨line, later, hlines⟩ := List.exists_cons_of_ne_nil (List.splitOn_ne_nil '\n' b)
  have hsplit : (keyword.word ++ ' ' :: b).splitOn '\n' = (keyword.word ++ ' ' :: line) :: later := by
    rw [← List.singleton_append, ← List.append_assoc, splitOn_append_of_not_mem hword, hlines,
      List.modifyHead_cons, List.append_assoc, List.singleton_append]
  obtain ⟨lines, hread, hjoin⟩ := Option.bind_eq_some_iff.mp h
  rw [List.splitOn_append_cons_self, hsplit, List.mapM_append] at hread
  obtain ⟨aLines, haLines, hread⟩ := Option.bind_eq_some_iff.mp hread
  obtain ⟨bLines, hbLines, hread⟩ := Option.bind_eq_some_iff.mp hread
  obtain rfl := Option.some.inj hread
  have hstatement := hbLines
  rw [List.mapM_cons, ofChars?_keyword] at hstatement
  obtain ⟨first, hliteral, hstatement⟩ := Option.bind_eq_some_iff.mp hstatement
  obtain ⟨rest, _, hstatement⟩ := Option.bind_eq_some_iff.mp hstatement
  obtain ⟨body, _, rfl⟩ := Option.map_eq_some_iff.mp hliteral
  obtain rfl := Option.some.inj hstatement
  obtain ⟨s, t, hs, ht, rfl⟩ := joinLiterals_append_eq_some hjoin
  refine ⟨s, t, Option.bind_eq_some_iff.mpr ⟨aLines, haLines, hs⟩, ?_, rfl⟩
  exact Option.bind_eq_some_iff.mpr ⟨_, by rw [hsplit, hbLines], ht⟩

theorem isSome_of_mapM {α β : Type} {f : α → Option β} {items : List α} {found : List β}
    (h : items.mapM f = some found) : ∀ item ∈ items, (f item).isSome = true := by
  induction items generalizing found with
  | nil => exact fun _ hitem => absurd hitem List.not_mem_nil
  | cons first rest ih =>
    rw [List.mapM_cons] at h
    obtain ⟨firstFound, hfirst, h⟩ := Option.bind_eq_some_iff.mp h
    obtain ⟨restFound, hrest, _⟩ := Option.bind_eq_some_iff.mp h
    exact List.forall_mem_cons.mpr ⟨Option.isSome_of_eq_some hfirst, ih hrest⟩

/-- If the lines below a context can be read, their text is a body and they are read as it. -/
theorem statements?_belowContext_eq_some {text : List Char} {found : List (Keyword × List Char)}
    (h : statements? (belowContext text) = some found) :
    found = [(.text, joinedText text), (.localized, [])] := by
  obtain ⟨first, later, hliterals, _, hbodies⟩ := exists_literals_eq text
  obtain ⟨_, hread, _⟩ := Option.bind_eq_some_iff.mp h
  have hlines := isSome_of_mapM hread
  rw [splitOn_belowContext hliterals] at hlines
  have htext : isBody text = true := by
    apply hbodies.mp
    intro body hbody
    rcases List.mem_cons.mp hbody with rfl | hbody
    · have hline := hlines _ (List.mem_append_left _ List.mem_cons_self)
      rw [ofChars?_keyword, Option.isSome_map, isSome_literal?] at hline
      exact hline
    · have hline := hlines (quoted body)
        (List.mem_append_left _ (List.mem_cons_of_mem _ (List.mem_map_of_mem hbody)))
      change ((Line.literal? (quoted body)).map Line.continuation).isSome = true at hline
      rw [Option.isSome_map, isSome_literal?] at hline
      exact hline
  exact Option.some.inj (h.symm.trans (statements?_belowContext htext))

theorem statements?_context_eq_some {scope : List Char} {found : List (Keyword × List Char)}
    (hfeed : '\n' ∉ scope)
    (h : statements? (Keyword.context.word ++ ' ' :: quoted scope) = some found) :
    found = [(.context, scope)] := by
  have hscope : isBody scope = true := by
    obtain ⟨_, hread, _⟩ := Option.bind_eq_some_iff.mp h
    have hline := isSome_of_mapM hread (Keyword.context.word ++ ' ' :: quoted scope)
    rw [List.splitOn_eq_singleton (feed_not_mem_statement .context hfeed), ofChars?_keyword,
      Option.isSome_map, isSome_literal?] at hline
    exact hline List.mem_cons_self
  exact Option.some.inj (h.symm.trans (statements?_context hfeed hscope))

/-- What a block is read as, if it can be read. The lines of its scope may be read as anything. -/
theorem statements?_block_eq_some {m : Message} {found : List (Keyword × List Char)}
    (h : statements? (block m).toList = some found) :
    ∃ front, found = front ++ [(.text, joinedText m.text.toList), (.localized, [])] ∧
      ('\n' ∉ m.scope.toList → front = [(.context, m.scope.toList)]) := by
  have hbelow : belowContext m.text.toList =
      Keyword.text.word ++ ' ' :: (quoted (literalText m.text.toList) ++ '\n' ::
        ((Keyword.localized.word ++ ' ' :: quoted []) ++ '\n' :: [])) := by
    simp only [belowContext, List.append_assoc, List.cons_append]
  rw [toList_block_eq_belowContext, hbelow] at h
  obtain ⟨front, below, hfront, hread, rfl⟩ := statements?_append_eq_some h
  rw [← hbelow] at hread
  obtain rfl := statements?_belowContext_eq_some hread
  exact ⟨front, rfl, fun hfeed => statements?_context_eq_some hfeed hfront⟩

end Template

open Template in
/-- Whether some of what a reader finds comes from a message. It is what the block of the message is
read as by itself, and the message is the last of it. What stands before the message can only come
from the lines of its scope. -/
structure Message.FoundIn (m : Message) (part : List Block) : Prop where
  alone : read? (block m) = some part
  last : ∃ forged context, part = forged ++ [⟨context, joinedText m.text.toList, []⟩] ∧
    ('\n' ∉ m.scope.toList → forged = [] ∧ context = some m.scope.toList)

namespace Template

theorem exists_part {m : Message} {s later : List (Keyword × List Char)} {found : List Block}
    (hs : statements? (block m).toList = some s) (h : blocks (s ++ later) = some found) :
    ∃ part rest, found = part ++ rest ∧ m.FoundIn part ∧ blocks later = some rest := by
  obtain ⟨front, rfl, hfront⟩ := statements?_block_eq_some hs
  have hsplit := h
  rw [List.append_assoc] at hsplit
  obtain ⟨forged, context, rest, rfl, halone, hrest⟩ := blocks_append_eq_some hsplit
  refine ⟨forged ++ [⟨context, joinedText m.text.toList, []⟩], rest, by simp, ⟨?_, ?_⟩, hrest⟩
  · rw [read?_eq, hs, Option.bind_some, halone]
  · refine ⟨forged, context, rfl, fun hfeed => ?_⟩
    rw [hfront hfeed] at halone
    have hone : [⟨some m.scope.toList, joinedText m.text.toList, []⟩] =
        forged ++ [⟨context, joinedText m.text.toList, []⟩] := Option.some.inj halone
    cases forged with
    | nil => exact ⟨rfl, by cases hone; rfl⟩
    | cons first forged => simp at hone

theorem foundIn_iff {m : Message} {part : List Block} :
    m.FoundIn part ↔ read? (block m) = some part := by
  refine ⟨fun h => h.alone, fun h => ?_⟩
  have hread := h
  rw [read?_eq] at hread
  obtain ⟨s, hs, hblocks⟩ := Option.bind_eq_some_iff.mp hread
  rw [← List.append_nil s] at hblocks
  obtain ⟨part, rest, rfl, hpart, hrest⟩ := exists_part hs hblocks
  obtain rfl : [] = rest := Option.some.inj hrest
  rwa [List.append_nil]

theorem intercalate_blocks_eq (m : Message) (messages : List Message) :
    ∃ rest, ['\n'].intercalate ((m :: messages).map fun m => (block m).toList) =
      Keyword.context.word ++ ' ' :: rest := by
  cases messages with
  | nil =>
    rw [List.map_singleton, List.intercalate_singleton, toList_block, List.append_assoc]
    exact ⟨_, rfl⟩
  | cons second rest =>
    rw [List.map_cons, List.map_cons, List.intercalate_cons_cons, toList_block]
    simp only [List.append_assoc, List.cons_append]
    exact ⟨_, rfl⟩

/-- The induction goes along the blocks, of which each begins with a keyword and so ends what is read
before it. -/
theorem exists_parts {messages : List Message} {s : List (Keyword × List Char)} {found : List Block}
    (hs : statements? (['\n'].intercalate (messages.map fun m => (block m).toList)) = some s)
    (h : blocks s = some found) :
    ∃ parts, found = parts.flatten ∧ List.Forall₂ Message.FoundIn messages parts := by
  induction messages generalizing s found with
  | nil =>
    obtain rfl : [] = s := Option.some.inj hs
    obtain rfl : [] = found := Option.some.inj h
    exact ⟨[], rfl, .nil⟩
  | cons m rest ih =>
    cases rest with
    | nil =>
      rw [List.map_singleton, List.intercalate_singleton] at hs
      rw [← List.append_nil s] at h
      obtain ⟨part, last, rfl, hpart, hlast⟩ := exists_part hs h
      obtain rfl : [] = last := Option.some.inj hlast
      exact ⟨[part], by simp, .cons hpart .nil⟩
    | cons second rest =>
      obtain ⟨chars, hchars⟩ := intercalate_blocks_eq second rest
      have hblocks : ['\n'].intercalate ((m :: second :: rest).map fun m => (block m).toList) =
          (block m).toList ++ '\n' :: (Keyword.context.word ++ ' ' :: chars) := by
        rw [← hchars]
        simp [List.intercalate_cons_cons]
      rw [hblocks] at hs
      obtain ⟨first, later, hfirst, hlater, rfl⟩ := statements?_append_eq_some hs
      obtain ⟨part, last, rfl, hpart, hlast⟩ := exists_part hfirst h
      obtain ⟨parts, rfl, hparts⟩ := ih (hchars ▸ hlater) hlast
      exact ⟨part :: parts, by simp, .cons hpart hparts⟩

/-- What holds of all that is found holds of all that each block is read as. -/
theorem forall_mem_flatten_iff {messages : List Message} {parts : List (List Block)}
    (h : List.Forall₂ Message.FoundIn messages parts) (P : Block → Prop) :
    (∀ b ∈ parts.flatten, P b) ↔
      ∀ m ∈ messages, ∀ part, read? (block m) = some part → ∀ b ∈ part, P b := by
  induction h with
  | nil => simp
  | cons hpart _ ih =>
    rw [List.flatten_cons, List.forall_mem_append, ih, List.forall_mem_cons, hpart.alone]
    simp

/-- A scope of one line has nothing to put before its message. -/
theorem flatten_eq_of_foundIn {messages : List Message} {parts : List (List Block)}
    (h : List.Forall₂ Message.FoundIn messages parts)
    (hscope : ∀ m ∈ messages, '\n' ∉ m.scope.toList) :
    parts.flatten = messages.map Block.ofMessage := by
  induction h with
  | nil => rfl
  | cons hpart _ ih =>
    obtain ⟨hfirst, hrest⟩ := List.forall_mem_cons.mp hscope
    obtain ⟨forged, context, rfl, hone⟩ := hpart.last
    obtain ⟨rfl, rfl⟩ := hone hfirst
    rw [List.flatten_cons, ih hrest]
    rfl

/-- Whatever a reader finds in a template, it finds the header and then the messages in their
order. -/
theorem parts_of_read?_compose {format : Format} {catalog : Catalog} {created : Int}
    {found : List Block} (h : read? (compose format catalog created) = some found) :
    ∃ parts, found = headerBlocks format created ++ parts.flatten ∧
      List.Forall₂ Message.FoundIn catalog.messages parts := by
  have hfeed : "\n".toList = ['\n'] := String.toList_ofList
  rw [compose_eq_intercalate] at h
  rw [headerBlocks]
  cases hheader : format.hasHeader with
  | false =>
    rw [hheader, read?_eq, String.toList_intercalate, hfeed] at h
    obtain ⟨s, hs, hblocks⟩ := Option.bind_eq_some_iff.mp h
    exact exists_parts (by simpa [Function.comp_def] using hs) hblocks
  | true =>
    have hread := read?_header (Minute.ofUnixSeconds created)
    rw [hheader, if_pos rfl] at h
    rw [if_pos rfl]
    cases hmessages : catalog.messages with
    | nil =>
      have hfound : found = [Block.ofHeader (Minute.ofUnixSeconds created).stamp] := by
        rw [hmessages, List.map_nil, List.append_nil, String.intercalate_singleton, hread] at h
        exact (Option.some.inj h).symm
      exact ⟨[], hfound, .nil⟩
    | cons m rest =>
      obtain ⟨chars, hchars⟩ := intercalate_blocks_eq m rest
      have htemplate : ("\n".intercalate ([header (Minute.ofUnixSeconds created).stamp] ++
            catalog.messages.map block)).toList =
          (header (Minute.ofUnixSeconds created).stamp).toList ++ '\n' ::
            (Keyword.context.word ++ ' ' :: chars) := by
        rw [← hchars, hmessages, String.toList_intercalate, hfeed]
        simp [List.intercalate_cons_cons, Function.comp_def]
      rw [read?_eq, htemplate] at h
      obtain ⟨s, hs, hblocks⟩ := Option.bind_eq_some_iff.mp h
      obtain ⟨first, later, hfirst, hlater, rfl⟩ := statements?_append_eq_some hs
      rw [read?_eq, hfirst, Option.bind_some] at hread
      rw [blocks_append hread] at hblocks
      obtain ⟨found, hfound, rfl⟩ := Option.map_eq_some_iff.mp hblocks
      obtain ⟨parts, rfl, hparts⟩ := exists_parts (hchars ▸ hlater) hfound
      exact ⟨parts, rfl, hparts⟩

/-- A template can be read exactly if each of its blocks can be read by itself, and then what is found
is the header and what the blocks are read as. -/
theorem read?_compose_eq_some_iff {format : Format} {catalog : Catalog} {created : Int}
    {found : List Block} :
    read? (compose format catalog created) = some found ↔
      ∃ parts, found = headerBlocks format created ++ parts.flatten ∧
        List.Forall₂ Message.FoundIn catalog.messages parts := by
  refine ⟨parts_of_read?_compose, ?_⟩
  rintro ⟨parts, rfl, hparts⟩
  exact read?_compose_of_parts format created (hparts.imp fun _ _ hpart => hpart.alone)

end Template

end GettextTemplate
