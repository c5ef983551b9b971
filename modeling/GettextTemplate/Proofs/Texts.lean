import GettextTemplate.Collection
import GettextTemplate.Proofs.Bodies
import GettextTemplate.Proofs.PreOrder

/-!
Whether the texts of an extraction are bodies. Annotations always give bodies, because their escape
keeps pairs. Comments are escaped without regard to pairs, so the texts are bodies if and only if
no comment that is read has a backslash in front of a quote or alone at the end.
-/

namespace GettextTemplate

namespace Answers

variable {answers : Answers} {scope : String}

theorem isBody_of_mem_annotated {keys : List String} {m : Message}
    (hm : m ∈ answers.annotated scope keys) : Literal.isBody m.text.toList = true := by
  obtain ⟨_, _, raw, _, _, rfl⟩ := mem_annotated_iff.mp hm
  rw [String.toList_ofList]
  exact Literal.isBody_escapeUnpaired _

/-- Whether the comment, if it can be read, has only sound pairs. -/
def HasSoundComment (answers : Answers) : Prop :=
  ∀ comment, answers.comment = .ok comment → Literal.hasSoundPairs comment.toList = true

theorem forall_mem_commentMessage :
    (∀ m ∈ answers.commentMessage scope, Literal.isBody m.text.toList = true) ↔
      answers.HasSoundComment := by
  unfold commentMessage HasSoundComment
  cases hcomment : answers.comment with
  | error e => simp [Except.toOption]
  | ok comment =>
    by_cases hempty : comment = ""
    · simp [Except.toOption, hempty, Literal.hasSoundPairs]
    · simp [Except.toOption, hempty, Literal.isBody_escapeEveryQuote]

theorem forall_mem_ownMessages :
    (∀ m ∈ answers.ownMessages scope, Literal.isBody m.text.toList = true) ↔
      (answers.speaks = true → answers.HasSoundComment) := by
  have hcomment : (∀ m ∈ answers.commentMessage scope, Literal.isBody m.text.toList = true) ↔
      answers.HasSoundComment := forall_mem_commentMessage
  constructor
  · intro hown hspeaks
    apply hcomment.mp
    intro m hm
    exact hown m (mem_ownMessages_iff.mpr (.inl ⟨hspeaks, hm⟩))
  · intro hsound m hm
    rcases mem_ownMessages_iff.mp hm with ⟨hspeaks, hm⟩ | ⟨_, hm⟩ | ⟨_, hm⟩
    · exact hcomment.mpr (hsound hspeaks) m hm
    · exact isBody_of_mem_annotated hm
    · exact isBody_of_mem_annotated hm

end Answers

namespace Entity

/-- Whether every comment that an extraction reads has only sound pairs. -/
def CommentsAreSound (root : Entity) : Prop :=
  ∀ visit, root.Reached visit → visit.entity.answers.speaks = true →
    visit.entity.answers.HasSoundComment

theorem mem_messages_of_extract {scope : String} {root : Entity} {x : Extraction}
    (h : root.extract scope = .ok x) {m : Message} :
    m ∈ x.messages ↔ ∃ visit, root.Reached visit ∧ m ∈ visit.messages scope := by
  obtain ⟨_, rfl⟩ := eq_gather_of_extract h
  simp only [Extraction.gather, List.mem_flatMap, List.mem_filter, mem_visits, reached_iff]

theorem forall_isBody_iff {scope : String} {root : Entity} {x : Extraction}
    (h : root.extract scope = .ok x) :
    (∀ m ∈ x.messages, Literal.isBody m.text.toList = true) ↔ root.CommentsAreSound := by
  constructor
  · intro hbodies visit hreached
    apply Answers.forall_mem_ownMessages.mp
    intro m hm
    exact hbodies m ((mem_messages_of_extract h).mpr ⟨visit, hreached, hm⟩)
  · intro hsound m hm
    obtain ⟨visit, hreached, hm⟩ := (mem_messages_of_extract h).mp hm
    exact Answers.forall_mem_ownMessages.mpr (hsound visit hreached) m hm

/-- The texts of an extraction are bodies, and the template writes them in closed literals, if and
only if every comment that was read has only sound pairs. -/
theorem texts_are_bodies_iff {scope : String} {root : Entity} {x : Extraction}
    (h : root.extract scope = .ok x) :
    ((∀ m ∈ x.messages, Literal.isBody m.text.toList = true) ↔ root.CommentsAreSound) ∧
    ((∀ m ∈ x.collection.catalog.messages, ∀ line ∈ Template.textLines m.text.toList,
      (Template.Line.literal? line).isSome = true) ↔ root.CommentsAreSound) ∧
    ∀ format created, ∀ m ∈ x.collection.catalog.messages, ∃ before after,
      Template.compose format x.collection.catalog created =
        before ++ "\nmsgid " ++
          String.ofList (['\n'].intercalate (Template.textLines m.text.toList)) ++
          "\nmsgstr \"\"\n" ++ after := by
  have hbodies := forall_isBody_iff h
  refine ⟨hbodies, ?_, fun format created m hm => Template.exists_compose_eq format created hm⟩
  rw [← hbodies]
  simp only [Template.forall_mem_textLines, Extraction.collection, Catalog.mem_ofList]

end Entity

theorem faultyPackage_texts_are_bodies :
    (∀ m ∈ [Message.mk "P.Lib" "a \\\"b\\\"", ⟨"Real", "Unit"⟩],
      Literal.isBody m.text.toList = true) ∧ faultyPackage.CommentsAreSound := by
  have hbodies : ∀ m ∈ [Message.mk "P.Lib" "a \\\"b\\\"", ⟨"Real", "Unit"⟩],
      Literal.isBody m.text.toList = true := by decide
  exact ⟨hbodies, (Entity.texts_are_bodies_iff extract_faultyPackage).1.mp hbodies⟩

/-- A package whose comment ends with a backslash. -/
def drivePackage : Entity :=
  Node.toEntity { kind := .container, ident := "P", comment := "C:\\" }

/-- The backslash takes the closing quote with it, so that the template cannot be read back. -/
theorem drivePackage_text_is_no_body :
    ∃ x, drivePackage.extract "P" = .ok x ∧
      (∃ m ∈ x.messages, Literal.isBody m.text.toList = false) ∧
      (∃ m ∈ x.collection.catalog.messages, ∃ line ∈ Template.textLines m.text.toList,
        Template.Line.literal? line = none) ∧
      Template.read? (Template.compose { hasHeader := false } x.collection.catalog 0) = none := by
  have h : drivePackage.extract "P" = .ok ⟨[⟨"P", "C:\\"⟩], 1, 0⟩ := by rfl
  have hcatalog : (Catalog.ofList [⟨"P", "C:\\"⟩]).messages = [⟨"P", "C:\\"⟩] := by
    simp [Catalog.ofList, Catalog.dropRepeats]
  refine ⟨_, h, ⟨⟨"P", "C:\\"⟩, List.mem_cons_self, by rfl⟩, ?_, ?_⟩
  · refine ⟨⟨"P", "C:\\"⟩, Catalog.mem_ofList.mpr List.mem_cons_self, ?_⟩
    exact ⟨"\"C:\\\"".toList, by decide, by decide⟩
  · rw [Template.compose_eq_intercalate]
    simp only [Extraction.collection, hcatalog]
    decide

end GettextTemplate
