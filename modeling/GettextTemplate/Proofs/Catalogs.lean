import GettextTemplate.ModelTree
import GettextTemplate.Proofs.Collections
import GettextTemplate.Proofs.Findings
import Mathlib.Data.List.Dedup

/-!
Catalogs as sets of messages. A catalog of a list has the members of the list, each once and in the
order of code points, so it is told by its members alone, and taking the catalog of two lists in one
is taking a union. A template has one block for each member, in the same order, and a reader finds a
part for each (`lists_each_message_once`).
-/

namespace GettextTemplate

/-- The code points of a text. -/
def codePoints (text : String) : List Nat := text.toList.map Char.toNat

theorem codePoints_lt {a b : String} (h : a < b) : codePoints a < codePoints b := by
  have hlists : a.toList < b.toList := h
  exact List.map_lt (fun _ _ hlt => hlt) hlists

/-- Whether a message comes earlier than another: its scope does or, in one scope, its text. -/
def Message.IsEarlier (a b : Message) : Prop :=
  codePoints a.scope < codePoints b.scope ∨
    a.scope = b.scope ∧ codePoints a.text < codePoints b.text

theorem Message.isEarlier_of_lt {a b : Message} (h : a < b) : a.IsEarlier b := by
  rcases h with hscope | ⟨hscope, htext⟩
  · exact .inl (codePoints_lt hscope)
  · exact .inr ⟨hscope, codePoints_lt htext⟩

namespace Catalog

/-- The messages of two catalogs. -/
def union (c d : Catalog) : Catalog := ofList (c.messages ++ d.messages)

theorem mem_union {c d : Catalog} {m : Message} :
    m ∈ (c.union d).messages ↔ m ∈ c.messages ∨ m ∈ d.messages := by
  rw [union, mem_ofList, List.mem_append]

theorem ofList_eq_iff {ms ms' : List Message} :
    ofList ms = ofList ms' ↔ ∀ m, m ∈ ms ↔ m ∈ ms' := by
  constructor
  · intro h m
    rw [← mem_ofList, h, mem_ofList]
  · intro h
    apply ext_mem
    intro m
    rw [mem_ofList, mem_ofList]
    exact h m

theorem ofList_messages (c : Catalog) : ofList c.messages = c :=
  ext_mem fun _ => mem_ofList

theorem ofList_append (ms ms' : List Message) :
    ofList (ms ++ ms') = (ofList ms).union (ofList ms') := by
  apply ext_mem
  intro m
  rw [mem_union, mem_ofList, mem_ofList, mem_ofList, List.mem_append]

/-- A catalog has as many messages as the list has when its repetitions are taken out. -/
theorem size_ofList (ms : List Message) : (ofList ms).size = ms.dedup.length := by
  have hperm : (ofList ms).messages.Perm ms.dedup := by
    apply (List.perm_ext_iff_of_nodup (nodup_messages _) ms.nodup_dedup).mpr
    intro m
    rw [mem_ofList, List.mem_dedup]
  exact hperm.length_eq

theorem size_ofList_le (ms : List Message) : (ofList ms).size ≤ ms.length := by
  rw [size_ofList]
  exact ms.dedup_sublist.length_le

/-- Only a list without repetitions is as long as its catalog. -/
theorem size_ofList_eq_length_iff {ms : List Message} :
    (ofList ms).size = ms.length ↔ ms.Nodup := by
  rw [size_ofList, ← List.dedup_eq_self]
  constructor
  · intro hlength
    exact ms.dedup_sublist.eq_of_length hlength
  · intro hsame
    rw [hsame]

end Catalog

open Catalog Template in
/-- The catalog of a list has its members, each once and in ascending order, and nothing else makes a
difference to it. A template is put together from one block for each of them, which states its scope,
its text and an empty text for another language. So a reader that finds anything finds, after the
header, one part for each message that a collection counts, and nothing but that message in the part
unless its scope is of several lines. These messages are fewer than the messages extracted exactly if
one was extracted again. -/
theorem Catalog.lists_each_message_once :
    (∀ ms : List Message,
      (∀ m, m ∈ (ofList ms).messages ↔ m ∈ ms) ∧ (ofList ms).messages.Nodup ∧
        (ofList ms).messages.Pairwise Message.IsEarlier ∧
        ofList (ofList ms).messages = ofList ms) ∧
    (∀ ms ms' : List Message,
      (ofList ms = ofList ms' ↔ ∀ m, m ∈ ms ↔ m ∈ ms') ∧
        ofList (ms ++ ms') = (ofList ms).union (ofList ms')) ∧
    (∀ (c d : Catalog) (m : Message),
      m ∈ (c.union d).messages ↔ m ∈ c.messages ∨ m ∈ d.messages) ∧
    (∀ (format : Format) (c : Catalog) (created : Int),
      compose format c created =
        "\n".intercalate
          ((if format.hasHeader then [header (Minute.ofUnixSeconds created).stamp] else []) ++
            c.messages.map fun m =>
              "msgctxt \"" ++ m.scope ++ "\"\nmsgid " ++
                String.ofList (['\n'].intercalate (textLines m.text.toList)) ++
                "\nmsgstr \"\"\n")) ∧
    ∀ (source : Source) (package : String) (c : Collection), source.collection package = .ok c →
      (∃ root x, source.find package = .ok (some root) ∧ root.extract package = .ok x ∧
        c.catalog = ofList x.messages ∧
        c.counts.unique = c.catalog.messages.length ∧
        c.counts.unique ≤ c.counts.collected ∧
        (c.counts.unique = c.counts.collected ↔ x.messages.Nodup)) ∧
      ∀ (format : Format) (created : Int),
        ((∀ m ∈ c.catalog.messages, m.IsWritable) →
          ∃ found, read? (compose format c.catalog created) = some found) ∧
        (∀ found, read? (compose format c.catalog created) = some found ↔
          ∃ parts, found = headerBlocks format created ++ parts.flatten ∧
            parts.length = c.counts.unique ∧
            List.Forall₂ Message.FoundIn c.catalog.messages parts) ∧
        ∀ found, read? (compose format c.catalog created) = some found →
          (∀ m ∈ c.catalog.messages, '\n' ∉ m.scope.toList) →
            found = headerBlocks format created ++ c.catalog.messages.map Block.ofMessage ∧
              found.length = c.counts.unique + if format.hasHeader then 1 else 0 := by
  refine ⟨fun ms => ⟨fun m => mem_ofList, nodup_messages _, ?_, ofList_messages _⟩,
    fun ms ms' => ⟨ofList_eq_iff, ofList_append ms ms'⟩, fun c d m => mem_union, ?_, ?_⟩
  · exact (ofList ms).ascending.imp Message.isEarlier_of_lt
  · intro format c created
    rw [compose_eq_intercalate, List.map_congr_left fun m _ => block_eq_textLines m]
  · intro source package c h
    obtain ⟨root, x, hfind, hextract, rfl⟩ := Source.collection_eq_ok_iff.mp h
    have hunique : x.collection.counts.unique = x.collection.catalog.messages.length := rfl
    refine ⟨⟨root, x, hfind, hextract, rfl, hunique, size_ofList_le x.messages,
      size_ofList_eq_length_iff⟩, fun format created => ⟨fun hwritable => ?_, fun found => ?_, ?_⟩⟩
    · exact ⟨_, read?_compose format created hwritable⟩
    · rw [read?_compose_eq_some_iff]
      constructor
      · rintro ⟨parts, rfl, hparts⟩
        exact ⟨parts, rfl, hunique ▸ hparts.length_eq.symm, hparts⟩
      · rintro ⟨parts, rfl, -, hparts⟩
        exact ⟨parts, rfl, hparts⟩
    · intro found hfound hscope
      obtain ⟨parts, rfl, hparts⟩ := read?_compose_eq_some_iff.mp hfound
      rw [flatten_eq_of_foundIn hparts hscope, List.length_append, List.length_map,
        length_headerBlocks, hunique, Nat.add_comm]
      exact ⟨rfl, rfl⟩

/-- A package with two parameters that have the same comment. -/
def twinComments : ModelTree where
  packages := [{
    kind := .container, ident := "P", comment := "Z",
    children := [
      { kind := .parameter, ident := "a", comment := "Gain" },
      { kind := .parameter, ident := "b", comment := "Gain" }] }]

open Catalog Template in
/-- The comment that was found again counts once, and it is written once. -/
theorem Catalog.lists_each_message_once_twinComments :
    ∃ c, twinComments.source.collection "P" = .ok c ∧
      c.catalog.messages = [⟨"P", "Gain"⟩, ⟨"P", "Z"⟩] ∧
      c.counts.unique = 2 ∧ c.counts.collected = 3 ∧
      compose { hasHeader := false } c.catalog 0 =
        "msgctxt \"P\"\nmsgid \"Gain\"\nmsgstr \"\"\n\nmsgctxt \"P\"\nmsgid \"Z\"\nmsgstr \"\"\n" ∧
      ∃ found, read? (compose { hasHeader := false } c.catalog 0) = some found ∧
        found.length = 2 := by
  let found : List Message := [⟨"P", "Z"⟩, ⟨"P", "Gain"⟩, ⟨"P", "Gain"⟩]
  have h : twinComments.source.collection "P" = .ok (Extraction.collection ⟨found, 3, 0⟩) := by rfl
  have hsame : ofList found = ofList [⟨"P", "Gain"⟩, ⟨"P", "Z"⟩] := by
    rw [ofList_eq_iff]
    simp [found, or_comm]
  have hcatalog : (Extraction.collection ⟨found, 3, 0⟩).catalog.messages =
      [⟨"P", "Gain"⟩, ⟨"P", "Z"⟩] := by
    change (ofList found).messages = _
    rw [hsame]
    exact messages_ofList_of_ascending (by decide)
  obtain ⟨-, -, -, hcompose, hcollection⟩ := lists_each_message_once
  obtain ⟨⟨_, _, _, _, _, hunique, _⟩, hreading⟩ := hcollection _ _ _ h
  obtain ⟨hreadable, -, hfound⟩ := hreading { hasHeader := false } 0
  have hplain : ∀ m ∈ (Extraction.collection ⟨found, 3, 0⟩).catalog.messages,
      m.IsWritable ∧ '\n' ∉ m.scope.toList := by
    rw [hcatalog]
    decide
  obtain ⟨blocks, hblocks⟩ := hreadable fun m hm => (hplain m hm).1
  obtain ⟨_, hlength⟩ := hfound blocks hblocks fun m hm => (hplain m hm).2
  rw [hcatalog] at hunique
  refine ⟨_, h, hcatalog, hunique, rfl, ?_, blocks, hblocks, hlength.trans ?_⟩
  · rw [hcompose, hcatalog]
    rfl
  · rw [hunique]
    rfl

end GettextTemplate
