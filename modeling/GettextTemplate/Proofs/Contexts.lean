import GettextTemplate.ModelTree
import GettextTemplate.Proofs.Collections
import GettextTemplate.Proofs.RoundTrip

/-!
Whether a template states the scopes of its messages. Texts are escaped before they are written, but
a scope is written as it is, so its line gives it back only if it holds no quote, no backslash and no
line feed, and a carriage return in it gets into the template.
-/

namespace GettextTemplate

namespace Literal

theorem length_meaning_le (text : List Char) : (meaning text).length ≤ text.length := by
  induction text using scan_induction with
  | nil => exact Nat.le_refl _
  | lone => exact Nat.le_refl _
  | pair c rest ih =>
    simp only [meaning, List.length_cons]
    omega
  | plain c rest hplain ih =>
    simp only [meaning_plain hplain, List.length_cons]
    omega

/-- A body that stands for itself has no pairs, since each pair makes the meaning shorter. -/
theorem isBody_and_meaning_eq_iff (text : List Char) :
    isBody text = true ∧ meaning text = text ↔ ∀ c ∈ text, c ≠ '"' ∧ c ≠ '\\' := by
  induction text using scan_induction with
  | nil => simp [isBody, meaning]
  | lone => simp [isBody]
  | pair c rest ih =>
    constructor
    · rintro ⟨_, hmeaning⟩
      have hlength := congrArg List.length hmeaning
      have hshorter := length_meaning_le rest
      simp only [meaning, List.length_cons] at hlength
      omega
    · intro h
      exact absurd rfl (h '\\' List.mem_cons_self).2
  | plain c rest hplain ih =>
    rw [isBody_plain hplain, meaning_plain hplain, List.forall_mem_cons, ← ih]
    simp [hplain, and_assoc]

end Literal

/-- Whether a scope can be written between quotes on one line and stand for itself there. -/
def Message.HasPlainScope (m : Message) : Prop :=
  ∀ c ∈ m.scope.toList, c ≠ '"' ∧ c ≠ '\\' ∧ c ≠ '\n'

instance (m : Message) : Decidable m.HasPlainScope :=
  decidable_of_iff ((m.scope.toList.all fun c => c ≠ '"' ∧ c ≠ '\\' ∧ c ≠ '\n') = true)
    (by simp [Message.HasPlainScope])

/-- A plain scope is a body that stands for itself. -/
theorem Message.HasPlainScope.isBody_and_meaning_eq {m : Message} (hplain : m.HasPlainScope) :
    Literal.isBody m.scope.toList = true ∧ Literal.meaning m.scope.toList = m.scope.toList := by
  rw [Literal.isBody_and_meaning_eq_iff]
  intro c hc
  exact ⟨(hplain c hc).1, (hplain c hc).2.1⟩

theorem Message.HasPlainScope.isWritable {m : Message} (hplain : m.HasPlainScope)
    (hreturn : '\r' ∉ m.scope.toList) (htext : Literal.isBody m.text.toList = true) :
    m.IsWritable where
  scopeBody := hplain.isBody_and_meaning_eq.1
  scopeLine := by
    intro c hc
    refine ⟨(hplain c hc).2.2, ?_⟩
    rintro rfl
    exact hreturn hc
  textBody := htext

namespace Template

open Literal

/-- The context that the first line of a block states. -/
def contextText? (block : String) : Option (List Char) :=
  match (block.toList.splitOn '\n').head?.bind Line.ofChars? with
  | some (.statement .context body) => some (meaning body)
  | _ => none

theorem contextText?_of_head {block : String} {rest : List Char}
    (h : (block.toList.splitOn '\n').head? = some (Keyword.context.word ++ ' ' :: rest)) :
    contextText? block = (Line.literal? rest).map meaning := by
  rw [contextText?, h, Option.bind_some, ofChars?_keyword]
  cases Line.literal? rest <;> rfl

theorem length_of_literal? {rest body : List Char} (h : Line.literal? ('"' :: rest) = some body) :
    body.length ≤ rest.length := by
  simp only [Line.literal?] at h
  split at h
  · obtain rfl := Option.some.inj h
    simp
  · cases h

theorem contextText?_block_of_not_mem {m : Message} (hfeed : '\n' ∉ m.scope.toList) :
    contextText? (block m) =
      if isBody m.scope.toList then some (meaning m.scope.toList) else none := by
  have hline := feed_not_mem_statement .context hfeed
  have hhead : ((block m).toList.splitOn '\n').head? =
      some (Keyword.context.word ++ ' ' :: quoted m.scope.toList) := by
    rw [toList_block, List.splitOn_append_cons_self_of_not_mem hline, List.head?_cons]
  rw [contextText?_of_head hhead, literal?_quoted]
  cases isBody m.scope.toList <;> rfl

/-- A line feed ends the line within the scope, so what the line states is too short. -/
theorem contextText?_block_of_mem {m : Message} (hfeed : '\n' ∈ m.scope.toList) :
    contextText? (block m) ≠ some m.scope.toList := by
  obtain ⟨before, after, hscope, hbefore⟩ := List.eq_append_cons_of_mem hfeed
  have hline : '\n' ∉ Keyword.context.word ++ ' ' :: '"' :: before := by
    simp [Keyword.word_eq, hbefore]
  have hsplit : (block m).toList =
      (Keyword.context.word ++ ' ' :: '"' :: before) ++ '\n' :: (after ++ '"' :: '\n' ::
        ((Keyword.text.word ++ ' ' :: quoted (literalText m.text.toList)) ++ '\n' ::
          ((Keyword.localized.word ++ ' ' :: quoted []) ++ '\n' :: []))) := by
    rw [toList_block, hscope]
    simp only [quoted, List.append_assoc, List.cons_append, List.nil_append]
  have hhead : ((block m).toList.splitOn '\n').head? =
      some (Keyword.context.word ++ ' ' :: '"' :: before) := by
    rw [hsplit, List.splitOn_append_cons_self_of_not_mem hline, List.head?_cons]
  rw [contextText?_of_head hhead]
  intro h
  obtain ⟨body, hbody, hmeaning⟩ := Option.map_eq_some_iff.mp h
  have hlength := congrArg List.length hmeaning
  have hshort := length_of_literal? hbody
  have hshorter := length_meaning_le body
  rw [hscope, List.length_append, List.length_cons] at hlength
  omega

/-- A block gives a scope back exactly if nothing in it acts on the literal or on the line. -/
theorem contextText?_block (m : Message) :
    contextText? (block m) = some m.scope.toList ↔ m.HasPlainScope := by
  by_cases hfeed : '\n' ∈ m.scope.toList
  · have hplain : ¬m.HasPlainScope := fun hplain => (hplain '\n' hfeed).2.2 rfl
    exact iff_of_false (contextText?_block_of_mem hfeed) hplain
  · have hplain : m.HasPlainScope ↔ ∀ c ∈ m.scope.toList, c ≠ '"' ∧ c ≠ '\\' := by
      constructor
      · intro h c hc
        exact ⟨(h c hc).1, (h c hc).2.1⟩
      · intro h c hc
        refine ⟨(h c hc).1, (h c hc).2, ?_⟩
        rintro rfl
        exact hfeed hc
    rw [contextText?_block_of_not_mem hfeed, hplain, ← isBody_and_meaning_eq_iff]
    cases isBody m.scope.toList <;> simp

end Template

open Template in
/-- The scopes of a collection are the name asked for and names of containers. The template states
all of them exactly if none holds a quote, a backslash or a line feed, and it is free of carriage
returns exactly if they are. If both is so and all texts are bodies, a reader finds as many messages
as the collection counts, each with its scope. -/
theorem Source.contexts_are_stated_iff {source : Source} {package : String} {c : Collection}
    (h : source.collection package = .ok c) (format : Format) (created : Int) :
    (∃ root, source.find package = .ok (some root) ∧
      ∀ m ∈ c.catalog.messages, m.scope = package ∨ root.NamesReached m.scope) ∧
    ((∀ m ∈ c.catalog.messages, contextText? (block m) = some m.scope.toList) ↔
      ∀ m ∈ c.catalog.messages, m.HasPlainScope) ∧
    ('\r' ∉ (compose format c.catalog created).toList ↔
      ∀ m ∈ c.catalog.messages, '\r' ∉ m.scope.toList) ∧
    ((∀ m ∈ c.catalog.messages, m.HasPlainScope ∧ '\r' ∉ m.scope.toList ∧
        Literal.isBody m.text.toList = true) →
      ∃ found, read? (compose format c.catalog created) = some found ∧
        found.length = c.counts.unique + (if format.hasHeader then 1 else 0) ∧
        found.filterMap (fun block => block.context.map Literal.meaning) =
          c.catalog.messages.map fun m => m.scope.toList) := by
  obtain ⟨root, x, hfind, hextract, rfl⟩ := collection_eq_ok_iff.mp h
  refine ⟨⟨root, hfind, ?_⟩, ?_, ?_, ?_⟩
  · intro m hm
    exact Entity.scope_of_mem_extract hextract (Catalog.mem_ofList.mp hm)
  · simp only [contextText?_block]
  · rw [return_mem_compose]
    simp
  · intro hplain
    have hwritable : ∀ m ∈ x.collection.catalog.messages, m.IsWritable := fun m hm =>
      (hplain m hm).1.isWritable (hplain m hm).2.1 (hplain m hm).2.2
    have hmeaning : ∀ m ∈ x.collection.catalog.messages,
        Literal.meaning m.scope.toList = m.scope.toList := fun m hm =>
      (hplain m hm).1.isBody_and_meaning_eq.2
    refine ⟨_, read?_compose format created hwritable, ?_, ?_⟩
    · have hunique : x.collection.counts.unique = x.collection.catalog.messages.length := rfl
      rw [hunique, List.length_append, List.length_map, length_headerBlocks, Nat.add_comm]
    · have hheader : (headerBlocks format created).filterMap
          (fun block => block.context.map Literal.meaning) = [] := by
        unfold headerBlocks
        cases format.hasHeader <;> rfl
      rw [List.filterMap_append, hheader, List.nil_append, List.filterMap_map]
      change List.filterMap (fun m : Message => some (Literal.meaning m.scope.toList)) _ = _
      rw [List.filterMap_eq_map']
      exact List.map_congr_left hmeaning

/-- A package with a subpackage. Both have names that can be written as they are. -/
def plainTree : ModelTree where
  packages := [{
    kind := .container, ident := "P", comment := "c",
    children := [{ kind := .container, ident := "Q's", comment := "d" }] }]

open Template in
theorem plainTree_contexts_are_stated :
    ∃ c, plainTree.source.collection "P" = .ok c ∧
      (∀ m ∈ c.catalog.messages, contextText? (block m) = some m.scope.toList) ∧
      ∃ found, read? (compose {} c.catalog 0) = some found ∧
        found.length = c.counts.unique + 1 := by
  have h : plainTree.source.collection "P" =
      .ok (Extraction.collection ⟨[⟨"P", "c"⟩, ⟨"Q's", "d"⟩], 2, 0⟩) := by rfl
  have hsound : ∀ m ∈ [Message.mk "P" "c", ⟨"Q's", "d"⟩],
      m.HasPlainScope ∧ '\r' ∉ m.scope.toList ∧ Literal.isBody m.text.toList = true := by
    decide
  have hplain := fun m hm => hsound m (Catalog.mem_ofList.mp hm)
  obtain ⟨_, hstated, _, hread⟩ := Source.contexts_are_stated_iff h {} 0
  obtain ⟨found, hfound, hlength, _⟩ := hread hplain
  exact ⟨_, h, hstated.mpr fun m hm => (hplain m hm).1, found, hfound, hlength⟩

/-- A package with a quote and a carriage return in its name. -/
def quotedTree : ModelTree where
  packages := [{ kind := .container, ident := "P\"\r", comment := "c" }]

open Template in
/-- The quote ends the literal of the context, so that the line cannot be read, and the carriage
return is in the template. -/
theorem quotedTree_context_is_not_stated :
    ∃ c, quotedTree.source.collection "P\"\r" = .ok c ∧
      (∃ m ∈ c.catalog.messages, contextText? (block m) ≠ some m.scope.toList) ∧
      '\r' ∈ (compose { hasHeader := false } c.catalog 0).toList ∧
      read? (compose { hasHeader := false } c.catalog 0) = none := by
  have h : quotedTree.source.collection "P\"\r" =
      .ok (Extraction.collection ⟨[⟨"P\"\r", "c"⟩], 1, 0⟩) := by rfl
  have hcatalog : (Extraction.collection ⟨[⟨"P\"\r", "c"⟩], 1, 0⟩).catalog.messages =
      [⟨"P\"\r", "c"⟩] :=
    Catalog.messages_ofList_of_ascending (List.pairwise_singleton ..)
  refine ⟨_, h, ⟨_, hcatalog ▸ List.mem_cons_self, ?_⟩, ?_, ?_⟩
  · rw [Ne, contextText?_block]
    intro hplain
    exact (hplain '"' (by decide)).1 rfl
  · rw [return_mem_compose, hcatalog]
    exact ⟨_, List.mem_cons_self, by decide⟩
  · rw [compose_eq_intercalate, hcatalog]
    decide

end GettextTemplate
