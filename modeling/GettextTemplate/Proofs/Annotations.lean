import GettextTemplate.Proofs.EmptyTexts
import GettextTemplate.Proofs.Escapes
import Mathlib.Data.List.Basic

/-!
Messages in annotations. Keys are asked for one after the other until one of them fails
(`annotationMessages_eq_error_iff`), so a list of keys can be asked for piece by piece
(`annotationMessages_append`). Each key gives one message at most, whose text is a body. A raw value
says the same with delimiters and without (`content_quoted`, `content_of_bare`), and a body is taken as
it stands.
-/

namespace GettextTemplate

namespace Literal

/-- Whether a text begins and ends with a quote. A quote that stands alone does both. -/
def IsDelimited (text : List Char) : Prop := text.head? = some '"' ∧ text.getLast? = some '"'

instance (text : List Char) : Decidable (IsDelimited text) :=
  inferInstanceAs (Decidable (text.head? = some '"' ∧ text.getLast? = some '"'))

theorem content_quoted (body : List Char) : content (Template.quoted body) = body := by
  cases body with
  | nil => rfl
  | cons c rest =>
    have hlast : (c :: rest ++ ['"']).getLast? = some '"' := List.getLast?_concat
    change (if (c :: rest ++ ['"']).getLast? = some '"' then (c :: rest ++ ['"']).dropLast else _) = _
    rw [if_pos hlast, List.dropLast_concat]

theorem content_of_bare {text : List Char} (hbare : ¬ IsDelimited text) : content text = text := by
  fun_cases content text with
  | case1 => exact absurd ⟨rfl, rfl⟩ hbare
  | case2 rest hlone hlast => exact absurd ⟨rfl, List.mem_getLast?_cons hlast⟩ hbare
  | case3 => rfl
  | case4 => rfl

end Literal

namespace Answers

open Literal

variable {answers : Answers} {scope : String}

/-- What a raw value says, where there is something between its delimiters. -/
theorem annotationMessage_of_content {raw : String} {text : List Char}
    (hcontent : content raw.toList = text) (htext : text ≠ []) :
    annotationMessage scope raw = some ⟨scope, String.ofList (escapeUnpaired text)⟩ := by
  rw [annotationMessage_eq, hcontent, if_neg htext]

theorem annotationMessages_singleton {key raw : String}
    (hraw : answers.annotation key = .ok (some raw)) :
    answers.annotationMessages scope [key] = .ok (annotationMessage scope raw).toList := by
  simp only [annotationMessages, hraw, bind, Except.bind, pure, Except.pure, Option.bind_some,
    List.append_nil]

/-- The failure that ends the questions is that of the first key that fails. -/
theorem annotationMessages_eq_error_iff {keys : List String} {e : SourceFailure} :
    answers.annotationMessages scope keys = .error e ↔
      ∃ before key after, keys = before ++ key :: after ∧
        (∀ earlier ∈ before, ∃ raw, answers.annotation earlier = .ok raw) ∧
        answers.annotation key = .error e := by
  rw [annotationMessages_eq, once_eq_error_iff, List.findSome?_map, List.findSome?_eq_some_iff]
  simp only [Function.comp_apply, failureAt?, failureOf_eq_some_iff, failureOf_eq_none_iff]
  constructor
  · rintro ⟨before, key, after, hkeys, hfails, hbefore⟩
    exact ⟨before, key, after, hkeys, hbefore, hfails⟩
  · rintro ⟨before, key, after, hkeys, hbefore, hfails⟩
    exact ⟨before, key, after, hkeys, hfails, hbefore⟩

theorem annotationMessages_eq_ok_iff {keys : List String} {ms : List Message} :
    answers.annotationMessages scope keys = .ok ms ↔
      (∀ key ∈ keys, ∃ raw, answers.annotation key = .ok raw) ∧
        ms = answers.annotated scope keys := by
  rw [annotationMessages_eq, once_eq_ok_iff, List.forall_mem_map]
  simp only [failureAt?, failureOf_eq_none_iff]

theorem annotationMessages_append (keys more : List String) :
    answers.annotationMessages scope (keys ++ more) = do
      let first ← answers.annotationMessages scope keys
      let later ← answers.annotationMessages scope more
      return first ++ later := by
  have happend : answers.annotated scope (keys ++ more) =
      answers.annotated scope keys ++ answers.annotated scope more := List.filterMap_append
  rw [annotationMessages_eq, annotationMessages_eq, annotationMessages_eq, List.map_append, happend]
  symm
  apply once_bind
  exact once_bind_pure _

/-- The messages in the annotations under some keys are had from first to last, or the first failure
is. Each is in the scope asked for, and its text is a body that is not empty. A body comes out as it
stands between the delimiters of its raw value, and a text that has no delimiters of its own comes out
in the same way with and without them. -/
theorem annotationMessages_keep_bodies (answers : Answers) (scope : String) :
    (∀ keys e, answers.annotationMessages scope keys = .error e ↔
      ∃ before key after, keys = before ++ key :: after ∧
        (∀ earlier ∈ before, ∃ raw, answers.annotation earlier = .ok raw) ∧
        answers.annotation key = .error e) ∧
    (∀ keys ms, answers.annotationMessages scope keys = .ok ms ↔
      (∀ key ∈ keys, ∃ raw, answers.annotation key = .ok raw) ∧
        ms = answers.annotated scope keys) ∧
    (∀ keys more, answers.annotationMessages scope (keys ++ more) = do
      let first ← answers.annotationMessages scope keys
      let later ← answers.annotationMessages scope more
      return first ++ later) ∧
    (∀ keys ms, answers.annotationMessages scope keys = .ok ms → ∀ m ∈ ms,
      m.scope = scope ∧ m.text ≠ "" ∧ isBody m.text.toList = true) ∧
    (∀ key body, answers.annotation key = .ok (some ("\"" ++ body ++ "\"")) → body ≠ "" →
      isBody body.toList = true → answers.annotationMessages scope [key] = .ok [⟨scope, body⟩]) ∧
    ∀ key text, text ≠ "" → ¬ IsDelimited text.toList →
      answers.annotation key = .ok (some text) ∨
        answers.annotation key = .ok (some ("\"" ++ text ++ "\"")) →
      answers.annotationMessages scope [key] =
        .ok [⟨scope, String.ofList (escapeUnpaired text.toList)⟩] := by
  have hquoted (body : String) : content ("\"" ++ body ++ "\"").toList = body.toList := by
    have hchars : ("\"" ++ body ++ "\"").toList = Template.quoted body.toList := by
      simp [Template.quoted]
    rw [hchars, content_quoted]
  refine ⟨fun keys e => annotationMessages_eq_error_iff, fun keys ms => annotationMessages_eq_ok_iff,
    annotationMessages_append, ?_, ?_, ?_⟩
  · intro keys ms hms m hm
    obtain ⟨_, rfl⟩ := annotationMessages_eq_ok_iff.mp hms
    exact ⟨scope_of_mem_annotated hm, text_ne_empty_of_mem_annotated hm, isBody_of_mem_annotated hm⟩
  · intro key body hraw hne hbody
    have hchars : body.toList ≠ [] := by simpa using hne
    rw [annotationMessages_singleton hraw, annotationMessage_of_content (hquoted body) hchars,
      escapeUnpaired_of_isBody hbody, String.ofList_toList]
    rfl
  · intro key text hne hbare hraw
    have hchars : text.toList ≠ [] := by simpa using hne
    rcases hraw with hraw | hraw
    · rw [annotationMessages_singleton hraw, annotationMessage_of_content (content_of_bare hbare) hchars]
      rfl
    · rw [annotationMessages_singleton hraw, annotationMessage_of_content (hquoted text) hchars]
      rfl

/-- A part with a body between delimiters, one text with delimiters and without, a value with nothing
between its delimiters, and a key that cannot be asked for. -/
def labels : Answers where
  kind := .ok .parameter
  ident := .ok "k"
  comment := .ok ""
  builtIn := .ok false
  annotation
    | "Dialog.tab" => .ok (some "\"\\\"ä\\\" tab\"")
    | "Dialog.group" => .ok (some "5\" wide")
    | "Dialog.loadSelector.filter" => .ok (some "\"5\" wide\"")
    | "Dialog.loadSelector.caption" => .ok (some "\"")
    | "Dialog.saveSelector.caption" => .error (.unavailable "gone")
    | _ => .ok none
  listing := .ok ()

theorem labels_keep_bodies :
    isBody "\\\"ä\\\" tab".toList = true ∧ ¬ IsDelimited "5\" wide".toList ∧
    labels.annotation "Dialog.tab" = .ok (some ("\"" ++ "\\\"ä\\\" tab" ++ "\"")) ∧
    labels.annotationMessages "P" ["Dialog.tab"] = .ok [⟨"P", "\\\"ä\\\" tab"⟩] ∧
    labels.annotation "Dialog.group" = .ok (some "5\" wide") ∧
    labels.annotationMessages "P" ["Dialog.group"] = .ok [⟨"P", "5\\\" wide"⟩] ∧
    labels.annotation "Dialog.loadSelector.filter" = .ok (some ("\"" ++ "5\" wide" ++ "\"")) ∧
    labels.annotationMessages "P" ["Dialog.loadSelector.filter"] = .ok [⟨"P", "5\\\" wide"⟩] ∧
    (∃ ms, labels.annotationMessages "P"
        ["Dialog.tab", "Dialog.loadSelector.caption", "", "Dialog.tab"] = .ok ms ∧
      ms.length = 2 ∧ ∀ m ∈ ms, m.scope = "P" ∧ m.text ≠ "" ∧ isBody m.text.toList = true) ∧
    labels.annotationMessages "P" ["Dialog.tab", "Dialog.saveSelector.caption", "Dialog.group"] =
      .error (.unavailable "gone") := by
  obtain ⟨hfails, _, _, htexts, hbody, hbare⟩ := annotationMessages_keep_bodies labels "P"
  have htab : isBody "\\\"ä\\\" tab".toList = true := by decide
  have hwide : ¬ IsDelimited "5\" wide".toList := by decide
  have hmessages : labels.annotationMessages "P"
      ["Dialog.tab", "Dialog.loadSelector.caption", "", "Dialog.tab"] =
        .ok [⟨"P", "\\\"ä\\\" tab"⟩, ⟨"P", "\\\"ä\\\" tab"⟩] := by rfl
  have hanswers : ∀ earlier ∈ ["Dialog.tab"], ∃ raw, labels.annotation earlier = .ok raw := by
    intro earlier hearlier
    obtain rfl := List.mem_singleton.mp hearlier
    exact ⟨_, rfl⟩
  refine ⟨htab, hwide, rfl, hbody _ _ rfl (by decide) htab, rfl, ?_, rfl, ?_, ?_, ?_⟩
  · exact hbare _ "5\" wide" (by decide) hwide (.inl rfl)
  · exact hbare _ "5\" wide" (by decide) hwide (.inr rfl)
  · exact ⟨_, hmessages, rfl, htexts _ _ hmessages⟩
  · exact (hfails _ _).mpr ⟨["Dialog.tab"], _, ["Dialog.group"], rfl, hanswers, rfl⟩

end Answers

end GettextTemplate
