import GettextTemplate.Proofs.Annotations

/-!
Where the two escapes agree. One puts a backslash before every quote, the other looks for pairs first.
They give the same text, and the first of them a body, exactly if the text has sound pairs
(`hasSoundPairs`), so a comment and an annotation of the same content give the same message exactly
then.
-/

namespace GettextTemplate

namespace Literal

theorem escapeEveryQuote_eq_escapeUnpaired {text : List Char} (hsound : hasSoundPairs text = true) :
    escapeEveryQuote text = escapeUnpaired text := by
  induction text using scan_induction with
  | nil => rfl
  | lone => cases hsound
  | pair c rest ih =>
    rw [hasSoundPairs_pair, Bool.and_eq_true, decide_eq_true_iff] at hsound
    have hquote : ('\\' : Char) ≠ '"' := by decide
    rw [escapeEveryQuote_cons, escapeEveryQuote_cons, if_neg hquote, if_neg hsound.1, ih hsound.2]
    rfl
  | plain c rest hplain ih =>
    rw [hasSoundPairs_plain hplain] at hsound
    rw [escapeEveryQuote_cons, escapeUnpaired_plain hplain, ih hsound]
    split <;> rfl

/-- The other escape always makes a body, so the escape of every quote must make one where it agrees. -/
theorem escapeEveryQuote_eq_escapeUnpaired_iff (text : List Char) :
    escapeEveryQuote text = escapeUnpaired text ↔ hasSoundPairs text = true := by
  constructor
  · intro hsame
    rw [← isBody_escapeEveryQuote, hsame]
    exact isBody_escapeUnpaired text
  · exact escapeEveryQuote_eq_escapeUnpaired

end Literal

namespace Answers

open Literal

variable {answers : Answers} {scope key raw : String} {text : List Char}

theorem commentMessages_of_comment (hcomment : answers.comment = .ok (String.ofList text))
    (htext : text ≠ []) :
    answers.commentMessages scope = .ok [⟨scope, String.ofList (escapeEveryQuote text)⟩] := by
  have hmessage : answers.commentMessage scope =
      some ⟨scope, String.ofList (escapeEveryQuote text)⟩ := by
    apply commentMessage_eq_some_iff.mpr
    exact ⟨String.ofList text, hcomment, by simpa using htext, by rw [String.toList_ofList]⟩
  rw [commentMessages_eq, hmessage, once_eq_ok_iff, List.forall_mem_singleton]
  exact ⟨failureOf_eq_none_iff.mpr ⟨_, hcomment⟩, rfl⟩

/-- A comment and an annotation of the same content give the same message exactly if it has sound
pairs. -/
theorem commentMessages_eq_annotationMessages_iff
    (hcomment : answers.comment = .ok (String.ofList text))
    (hraw : answers.annotation key = .ok (some raw)) (hcontent : content raw.toList = text) :
    answers.commentMessages scope = answers.annotationMessages scope [key] ↔
      hasSoundPairs text = true := by
  rw [annotationMessages_singleton hraw]
  by_cases htext : text = []
  · -- There is no message on either side.
    subst htext
    simp [commentMessages, hcomment, annotationMessage, hcontent, hasSoundPairs, bind, Except.bind,
      pure, Except.pure]
  · rw [commentMessages_of_comment hcomment htext, annotationMessage_of_content hcontent htext,
      ← escapeEveryQuote_eq_escapeUnpaired_iff]
    simp [String.ofList_inj]

end Answers

open Literal in
/-- The escape of every quote makes a body of a text exactly if it agrees with the escape of what is
unpaired, and both are so exactly if the text has sound pairs. A comment and an annotation of that
content give the same message then, and otherwise the text of the comment is no body. -/
theorem escapes_agree_iff (text : List Char) :
    (isBody (escapeEveryQuote text) = true ↔ hasSoundPairs text = true) ∧
    (escapeEveryQuote text = escapeUnpaired text ↔ hasSoundPairs text = true) ∧
    ∀ (answers : Answers) (scope key raw : String), answers.comment = .ok (String.ofList text) →
      answers.annotation key = .ok (some raw) → content raw.toList = text →
      (answers.commentMessages scope = answers.annotationMessages scope [key] ↔
        hasSoundPairs text = true) ∧
      (hasSoundPairs text = false → ∃ m, answers.commentMessages scope = .ok [m] ∧
        isBody m.text.toList = false) := by
  refine ⟨by rw [isBody_escapeEveryQuote], escapeEveryQuote_eq_escapeUnpaired_iff text, ?_⟩
  intro answers scope key raw hcomment hraw hcontent
  refine ⟨Answers.commentMessages_eq_annotationMessages_iff hcomment hraw hcontent, ?_⟩
  intro hunsound
  have htext : text ≠ [] := by
    rintro rfl
    cases hunsound
  refine ⟨_, Answers.commentMessages_of_comment hcomment htext, ?_⟩
  rw [String.toList_ofList, isBody_escapeEveryQuote]
  exact hunsound

/-- A part with one content for its comment and its annotation, in which a backslash takes the escape of a
quote. -/
def crossedPart : Answers where
  kind := .ok .parameter
  ident := .ok "k"
  comment := .ok "\\\" wide"
  builtIn := .ok false
  annotation _ := .ok (some "\"\\\" wide\"")
  listing := .ok ()

theorem crossedPart_escapes_differ :
    crossedPart.comment = .ok (String.ofList "\\\" wide".toList) ∧
    crossedPart.annotation "Dialog.tab" = .ok (some "\"\\\" wide\"") ∧
    Literal.content "\"\\\" wide\"".toList = "\\\" wide".toList ∧
    Literal.hasSoundPairs "\\\" wide".toList = false ∧
    crossedPart.commentMessages "P" ≠ crossedPart.annotationMessages "P" ["Dialog.tab"] ∧
    ∃ m, crossedPart.commentMessages "P" = .ok [m] ∧ Literal.isBody m.text.toList = false := by
  have hcontent : Literal.content "\"\\\" wide\"".toList = "\\\" wide".toList := by decide
  have hunsound : Literal.hasSoundPairs "\\\" wide".toList = false := by decide
  obtain ⟨_, _, hmessages⟩ := escapes_agree_iff "\\\" wide".toList
  obtain ⟨hsame, hbody⟩ := hmessages crossedPart "P" "Dialog.tab" "\"\\\" wide\"" rfl rfl hcontent
  refine ⟨rfl, rfl, hcontent, hunsound, ?_, hbody hunsound⟩
  intro hagree
  rw [hsame.mp hagree] at hunsound
  cases hunsound

end GettextTemplate
