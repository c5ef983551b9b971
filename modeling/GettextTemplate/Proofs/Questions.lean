import GettextTemplate.Extraction

/-!
The questions that an extraction asks about one entity, and what it makes of the answers. Which
questions there are depends on the kind of the entity and, for a container, on whether it is
built-in. The main statement is `share_eq`: the share of an entity is the first failure among the
answers, and without one the messages that the answers state.
-/

namespace GettextTemplate

inductive Question where
  | kind
  | ident
  | builtIn
  | comment
  | value (key : String)
  | listing
deriving DecidableEq

def failureOf {α : Type} : Answer α → Option SourceFailure
  | .error e => some e
  | .ok _ => none

theorem failureOf_eq_some_iff {α : Type} {answer : Answer α} {e : SourceFailure} :
    failureOf answer = some e ↔ answer = .error e := by
  cases answer <;> simp [failureOf]

theorem failureOf_eq_none_iff {α : Type} {answer : Answer α} :
    failureOf answer = none ↔ ∃ value, answer = .ok value := by
  cases answer <;> simp [failureOf]

namespace Answers

def failureAt? (answers : Answers) : Question → Option SourceFailure
  | .kind => failureOf answers.kind
  | .ident => failureOf answers.ident
  | .builtIn => failureOf answers.builtIn
  | .comment => failureOf answers.comment
  | .value key => failureOf <| answers.annotation key
  | .listing => failureOf answers.listing

def isContainer (answers : Answers) : Bool := answers.kind.toOption.any Kind.isContainer

def isBuiltIn (answers : Answers) : Bool := answers.builtIn.toOption.any id

/-- Only a built-in container keeps its comment and its dialog annotations to itself. -/
def speaks (answers : Answers) : Bool := !(answers.isContainer && answers.isBuiltIn)

/-- The questions about an entity, in the order in which they are asked as long as all are
answered. -/
def questions (answers : Answers) : List Question :=
  if answers.isContainer then
    [.kind, .ident, .builtIn] ++ (if answers.speaks then [.comment] else []) ++
      definitionKeys.map .value ++
      (if answers.speaks then dialogKeys.map .value else []) ++ [.listing]
  else
    [.kind, .ident, .comment] ++ dialogKeys.map .value

def failure? (answers : Answers) : Option SourceFailure :=
  answers.questions.findSome? answers.failureAt?

def isComplete (answers : Answers) : Bool := answers.failure?.isNone

/-- The ident, which is empty if it could not be told. -/
def name (answers : Answers) : String := answers.ident.toOption.getD ""

/-- The message in the comment, whose quotes are escaped one and all. -/
def commentMessage (answers : Answers) (scope : String) : Option Message :=
  answers.comment.toOption.bind fun comment =>
    if comment = "" then none
    else some ⟨scope, String.ofList (Literal.escapeEveryQuote comment.toList)⟩

def value? (answers : Answers) (key : String) : Option String :=
  match answers.annotation key with
  | .ok raw => raw
  | .error _ => none

/-- The message in the annotation under a key: what stands between the delimiters of its value, with
the quotes escaped that are outside pairs. Where nothing stands there, there is none. -/
def valueMessage (answers : Answers) (scope key : String) : Option Message :=
  (answers.value? key).bind fun raw =>
    if Literal.content raw.toList = [] then none
    else some ⟨scope, String.ofList (Literal.escapeUnpaired (Literal.content raw.toList))⟩

/-- The messages in the annotations under some keys, at most one for each key. -/
def annotated (answers : Answers) (scope : String) (keys : List String) : List Message :=
  keys.filterMap (answers.valueMessage scope)

/-- The messages that the answers about an entity state. The comment has the scope that is given,
annotations have the name of a container and the scope given to a leaf. -/
def ownMessages (answers : Answers) (scope : String) : List Message :=
  (if answers.speaks then (answers.commentMessage scope).toList else []) ++
  (if answers.isContainer then answers.annotated answers.name definitionKeys else []) ++
  (if answers.speaks then
    answers.annotated (if answers.isContainer then answers.name else scope) dialogKeys else [])

/-- The value that is had after some questions, unless one of them fails. -/
def once {α : Type} (answers : Answers) (asked : List Question) (value : α) : Answer α :=
  match asked.findSome? answers.failureAt? with
  | some e => .error e
  | none => .ok value

theorem questions_start (answers : Answers) :
    ∃ rest, answers.questions = .kind :: .ident :: rest := by
  unfold questions
  split <;> exact ⟨_, rfl⟩

variable {α β : Type} {answers : Answers}

theorem commentMessage_eq_some_iff {scope : String} {m : Message} :
    answers.commentMessage scope = some m ↔
      ∃ comment, answers.comment = .ok comment ∧ comment ≠ "" ∧
        m = ⟨scope, String.ofList (Literal.escapeEveryQuote comment.toList)⟩ := by
  unfold commentMessage
  cases hcomment : answers.comment with
  | error e => simp [Except.toOption]
  | ok comment =>
    by_cases hempty : comment = ""
    · simp [Except.toOption, hempty]
    · simp [Except.toOption, hempty, eq_comm]

theorem valueMessage_eq_some_iff {scope key : String} {m : Message} :
    answers.valueMessage scope key = some m ↔
      ∃ raw, answers.value? key = some raw ∧ Literal.content raw.toList ≠ [] ∧
        m = ⟨scope, String.ofList (Literal.escapeUnpaired (Literal.content raw.toList))⟩ := by
  unfold valueMessage
  cases answers.value? key with
  | none => simp
  | some raw =>
    by_cases hempty : Literal.content raw.toList = []
    · simp [hempty]
    · simp [hempty, eq_comm (b := m)]

theorem mem_annotated_iff {scope : String} {keys : List String} {m : Message} :
    m ∈ answers.annotated scope keys ↔
      ∃ key ∈ keys, ∃ raw, answers.value? key = some raw ∧ Literal.content raw.toList ≠ [] ∧
        m = ⟨scope, String.ofList (Literal.escapeUnpaired (Literal.content raw.toList))⟩ := by
  simp only [annotated, List.mem_filterMap, valueMessage_eq_some_iff]

/-- The three sources of what an entity says by itself. -/
theorem mem_ownMessages_iff {scope : String} {m : Message} :
    m ∈ answers.ownMessages scope ↔
      (answers.speaks = true ∧ answers.commentMessage scope = some m) ∨
      (answers.isContainer = true ∧ m ∈ answers.annotated answers.name definitionKeys) ∨
      (answers.speaks = true ∧
        m ∈ answers.annotated (if answers.isContainer then answers.name else scope) dialogKeys) := by
  have hmem (condition : Bool) (ms : List Message) :
      (m ∈ if condition then ms else []) ↔ condition = true ∧ m ∈ ms := by
    cases condition <;> simp
  simp only [ownMessages, List.mem_append, hmem, Option.mem_toList, or_assoc]

theorem once_nil (value : α) : answers.once [] value = .ok value := rfl

theorem once_eq_error_iff {asked : List Question} {value : α} {e : SourceFailure} :
    answers.once asked value = .error e ↔ asked.findSome? answers.failureAt? = some e := by
  unfold once
  cases asked.findSome? answers.failureAt? <;> simp

theorem once_eq_ok_iff {asked : List Question} {value given : α} :
    answers.once asked value = .ok given ↔
      (∀ question ∈ asked, answers.failureAt? question = none) ∧ given = value := by
  rw [← List.findSome?_eq_none_iff]
  unfold once
  cases asked.findSome? answers.failureAt? <;> simp [eq_comm]

theorem once_bind {asked later : List Question} {value : α} {result : β} {next : α → Answer β}
    (hnext : next value = answers.once later result) :
    (answers.once asked value >>= next) = answers.once (asked ++ later) result := by
  unfold once at hnext ⊢
  rw [List.findSome?_append]
  cases hasked : asked.findSome? answers.failureAt? with
  | some e => rfl
  | none =>
    change next value = _
    rw [hnext, Option.none_or]

theorem once_bind_pure {asked : List Question} {value : α} (use : α → β) :
    (answers.once asked value >>= fun given => pure (use given)) =
      answers.once asked (use value) := by
  have hnothing : (answers.once asked value >>= fun given => pure (use given)) =
      answers.once (asked ++ []) (use value) := once_bind rfl
  rw [hnothing, List.append_nil]

theorem once_of_failure {asked : List Question} {value : α} {question : Question}
    {e : SourceFailure} (hfailure : answers.failureAt? question = some e) :
    answers.once (question :: asked) value = .error e := by
  simp only [once, List.findSome?_cons, hfailure]

theorem once_cons_of_answered {asked : List Question} {value : α} {question : Question}
    (hanswered : answers.failureAt? question = none) :
    answers.once (question :: asked) value = answers.once asked value := by
  simp only [once, List.findSome?_cons, hanswered]

theorem commentMessages_eq (scope : String) :
    answers.commentMessages scope =
      answers.once [.comment] (answers.commentMessage scope).toList := by
  unfold commentMessages commentMessage
  cases hcomment : answers.comment with
  | error e => exact (once_of_failure (by simp only [failureAt?, hcomment, failureOf])).symm
  | ok comment =>
    rw [once_cons_of_answered (by simp only [failureAt?, hcomment, failureOf]), once_nil]
    by_cases hempty : comment = "" <;>
      simp [hempty, Except.toOption, bind, Except.bind, pure, Except.pure]

theorem annotationMessage_eq (scope raw : String) :
    annotationMessage scope raw =
      if Literal.content raw.toList = [] then none
      else some ⟨scope, String.ofList (Literal.escapeUnpaired (Literal.content raw.toList))⟩ := by
  simp only [annotationMessage, List.isEmpty_iff]

/-- What is asked for under a key once it is answered. -/
theorem valueMessage_of_annotation {scope key : String} {raw : Option String}
    (hraw : answers.annotation key = .ok raw) :
    answers.valueMessage scope key = raw.bind (annotationMessage scope) := by
  simp only [valueMessage, value?, hraw, ← annotationMessage_eq]

theorem annotationMessages_eq (scope : String) (keys : List String) :
    answers.annotationMessages scope keys =
      answers.once (keys.map .value) (answers.annotated scope keys) := by
  induction keys with
  | nil => rfl
  | cons key keys ih =>
    rw [annotationMessages, ih, List.map_cons]
    cases hraw : answers.annotation key with
    | error e => exact (once_of_failure (by simp only [failureAt?, hraw, failureOf])).symm
    | ok raw =>
      rw [once_cons_of_answered (by simp only [failureAt?, hraw, failureOf])]
      have hlater : (raw.bind (annotationMessage scope)).toList ++ answers.annotated scope keys =
          answers.annotated scope (key :: keys) := by
        rw [← valueMessage_of_annotation hraw]
        cases hmessage : answers.valueMessage scope key <;> simp [annotated, hmessage]
      rw [← hlater]
      exact once_bind_pure _

theorem listing_eq : answers.listing = answers.once [.listing] () := by
  cases hlisting : answers.listing with
  | error e => rw [once_of_failure (e := e) (by simp only [failureAt?, hlisting, failureOf])]
  | ok _ =>
    rw [once_cons_of_answered (by simp only [failureAt?, hlisting, failureOf]), once_nil]

theorem containerShare_eq {scope ident : String} (hkind : answers.isContainer = true)
    (hident : answers.ident = .ok ident) :
    answers.containerShare scope ident =
      answers.once (answers.questions.drop 2) ⟨answers.ownMessages scope, some ident⟩ := by
  have hname : answers.name = ident := by simp [name, hident, Except.toOption]
  simp only [questions, hkind, if_true, List.cons_append, List.nil_append, List.drop_succ_cons,
    List.drop_zero]
  cases hbuiltIn : answers.builtIn with
  | error e =>
    rw [containerShare, hbuiltIn,
      once_of_failure (e := e) (by simp only [failureAt?, hbuiltIn, failureOf])]
    rfl
  | ok builtIn =>
    rw [containerShare, hbuiltIn,
      once_cons_of_answered (by simp only [failureAt?, hbuiltIn, failureOf])]
    cases builtIn with
    | true =>
      have hspeaks : answers.speaks = false := by
        simp [speaks, hkind, isBuiltIn, hbuiltIn, Except.toOption]
      simp only [hspeaks, ownMessages, hkind, hname, if_true, Bool.false_eq_true, if_false,
        List.nil_append, List.append_nil]
      change (answers.annotationMessages ident definitionKeys >>= fun definition =>
        answers.listing >>= fun _ => pure (Share.mk ([] ++ definition ++ []) (some ident))) = _
      rw [annotationMessages_eq, listing_eq]
      apply once_bind
      rw [once_bind_pure, List.append_nil, List.nil_append]
    | false =>
      have hspeaks : answers.speaks = true := by
        simp [speaks, isBuiltIn, hbuiltIn, Except.toOption]
      simp only [hspeaks, ownMessages, hkind, hname, if_true, List.append_assoc]
      change (answers.commentMessages scope >>= fun comment =>
        answers.annotationMessages ident definitionKeys >>= fun definition =>
        answers.annotationMessages ident dialogKeys >>= fun dialog =>
        answers.listing >>= fun _ =>
        pure (Share.mk (comment ++ (definition ++ dialog)) (some ident))) = _
      rw [commentMessages_eq, annotationMessages_eq, annotationMessages_eq, listing_eq]
      apply once_bind
      apply once_bind
      apply once_bind
      rw [once_bind_pure]

theorem leafShare_eq {scope : String} (hkind : answers.isContainer = false) :
    answers.leafShare scope =
      answers.once (answers.questions.drop 2) ⟨answers.ownMessages scope, none⟩ := by
  have hspeaks : answers.speaks = true := by simp [speaks, hkind]
  simp only [questions, hkind, hspeaks, ownMessages, Bool.false_eq_true, if_false, if_true,
    List.cons_append, List.nil_append, List.drop_succ_cons, List.drop_zero, List.append_nil]
  rw [leafShare, commentMessages_eq, annotationMessages_eq]
  change _ = answers.once ([.comment] ++ _) _
  exact once_bind (once_bind_pure _)

/-- The share of an entity, as the answers to its questions determine it. No answer after the first
failure is looked at. -/
theorem share_eq (answers : Answers) (scope : String) :
    answers.share scope =
      match answers.failure? with
      | some e => .error e
      | none =>
        .ok ⟨answers.ownMessages scope, if answers.isContainer then some answers.name else none⟩ := by
  change _ = answers.once answers.questions _
  obtain ⟨rest, hquestions⟩ := questions_start answers
  have hrest : rest = answers.questions.drop 2 := by simp [hquestions]
  cases hkind : answers.kind with
  | error e =>
    rw [share, hkind, hquestions,
      once_of_failure (e := e) (by simp only [failureAt?, hkind, failureOf])]
    rfl
  | ok kind =>
    have hcontainer : answers.isContainer = kind.isContainer := by
      simp [isContainer, hkind, Except.toOption]
    rw [share, hkind, hquestions,
      once_cons_of_answered (by simp only [failureAt?, hkind, failureOf])]
    cases hident : answers.ident with
    | error e =>
      rw [once_of_failure (e := e) (by simp only [failureAt?, hident, failureOf])]
      rfl
    | ok ident =>
      rw [once_cons_of_answered (by simp only [failureAt?, hident, failureOf]), hrest]
      change (if kind.isContainer then answers.containerShare scope ident
        else answers.leafShare scope) = _
      rw [← hcontainer]
      cases hcase : answers.isContainer with
      | true =>
        have hname : answers.name = ident := by simp [name, hident, Except.toOption]
        rw [if_pos rfl, if_pos rfl, containerShare_eq hcase hident, hname]
      | false =>
        rw [if_neg Bool.false_ne_true, if_neg Bool.false_ne_true, leafShare_eq hcase]

end Answers

end GettextTemplate
