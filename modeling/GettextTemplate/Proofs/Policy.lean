import GettextTemplate.Node
import GettextTemplate.Proofs.Alike
import GettextTemplate.Proofs.Collections
import Mathlib.Data.List.Basic

/-!
What an extraction goes by. Much of what a source could tell is of no account: what lies below an
entity that is not open, how a leaf is called, whether it is built-in, what a built-in container
says in its comment and its dialogs, and annotations that nobody asks for. Trees that differ in such
things only, be they values or failures, have the same extraction and the same collection
(`extract_of_samePolicy`).
-/

namespace GettextTemplate

namespace Answers

/-- Whether two entities agree in all that an extraction goes by. Each of them is asked for its
ident, but only the one of a container is used, so leaves may have different ones. -/
structure SamePolicy (a b : Answers) : Prop where
  kind : a.kind = b.kind
  identFailure : failureOf a.ident = failureOf b.ident
  ident : a.isContainer = true → a.ident = b.ident
  builtIn : a.isContainer = true → a.builtIn = b.builtIn
  comment : a.speaks = true → a.comment = b.comment
  definition : a.isContainer = true → ∀ key ∈ definitionKeys, a.annotation key = b.annotation key
  dialog : a.speaks = true → ∀ key ∈ dialogKeys, a.annotation key = b.annotation key
  listing : a.isContainer = true → a.listing = b.listing

theorem annotated_congr {a b : Answers} {keys : List String} (scope : String)
    (h : ∀ key ∈ keys, a.annotation key = b.annotation key) :
    a.annotated scope keys = b.annotated scope keys := by
  apply List.filterMap_congr
  intro key hkey
  rw [valueMessage, valueMessage, value?, value?, h key hkey]

/-- Entities that are asked the same questions and fail them alike have the same first failure. -/
theorem failure?_congr {a b : Answers} (hquestions : a.questions = b.questions)
    (hfailures : ∀ question ∈ a.questions, a.failureAt? question = b.failureAt? question) :
    a.failure? = b.failure? := by
  rw [failure?, failure?, ← hquestions, ← List.head?_filterMap, ← List.head?_filterMap,
    List.filterMap_congr hfailures]

/-- Whether an entity is of the sort that a question is meant for. -/
def Invites (answers : Answers) : Question → Prop
  | .kind | .ident => True
  | .builtIn | .listing => answers.isContainer = true
  | .comment => answers.speaks = true
  | .value key => answers.isContainer = true ∧ key ∈ definitionKeys ∨
      answers.speaks = true ∧ key ∈ dialogKeys

theorem invites_of_mem_questions {answers : Answers} {question : Question}
    (h : question ∈ answers.questions) : answers.Invites question := by
  unfold questions at h
  split at h
  case isTrue hcontainer =>
    simp only [List.mem_append, List.mem_cons, List.not_mem_nil, or_false, List.mem_map] at h
    rcases h with (((((rfl | rfl | rfl) | hcomment) | ⟨key, hkey, rfl⟩) | hdialog) | rfl)
    · trivial
    · trivial
    · exact hcontainer
    · split at hcomment
      case isTrue hspeaks =>
        rw [List.mem_singleton.mp hcomment]
        exact hspeaks
      case isFalse => cases hcomment
    · exact .inl ⟨hcontainer, hkey⟩
    · split at hdialog
      case isTrue hspeaks =>
        obtain ⟨key, hkey, rfl⟩ := List.mem_map.mp hdialog
        exact .inr ⟨hspeaks, hkey⟩
      case isFalse => cases hdialog
    · exact hcontainer
  case isFalse hleaf =>
    have hspeaks : answers.speaks = true := by
      rw [speaks, Bool.eq_false_iff.mpr hleaf]
      rfl
    simp only [List.mem_append, List.mem_cons, List.not_mem_nil, or_false, List.mem_map] at h
    rcases h with (rfl | rfl | rfl) | ⟨key, hkey, rfl⟩
    · trivial
    · trivial
    · exact hspeaks
    · exact .inr ⟨hspeaks, hkey⟩

namespace SamePolicy

variable {a b : Answers}

theorem refl (a : Answers) : SamePolicy a a :=
  ⟨rfl, rfl, fun _ => rfl, fun _ => rfl, fun _ => rfl, fun _ _ _ => rfl, fun _ _ _ => rfl,
    fun _ => rfl⟩

theorem isContainer_eq (h : SamePolicy a b) : a.isContainer = b.isContainer := by
  rw [isContainer, isContainer, h.kind]

theorem speaks_eq (h : SamePolicy a b) : a.speaks = b.speaks := by
  rw [speaks, speaks, ← h.isContainer_eq]
  cases hcontainer : a.isContainer with
  | false => rfl
  | true => rw [isBuiltIn, isBuiltIn, h.builtIn hcontainer]

theorem name_eq (h : SamePolicy a b) (hcontainer : a.isContainer = true) : a.name = b.name := by
  rw [name, name, h.ident hcontainer]

theorem failureAt?_eq (h : SamePolicy a b) {question : Question} (hasked : question ∈ a.questions) :
    a.failureAt? question = b.failureAt? question := by
  have hinvites := invites_of_mem_questions hasked
  cases question with
  | kind => rw [failureAt?, failureAt?, h.kind]
  | ident => exact h.identFailure
  | builtIn => rw [failureAt?, failureAt?, h.builtIn hinvites]
  | comment => rw [failureAt?, failureAt?, h.comment hinvites]
  | value key =>
    rcases hinvites with ⟨hcontainer, hkey⟩ | ⟨hspeaks, hkey⟩
    · rw [failureAt?, failureAt?, h.definition hcontainer key hkey]
    · rw [failureAt?, failureAt?, h.dialog hspeaks key hkey]
  | listing => rw [failureAt?, failureAt?, h.listing hinvites]

theorem failure?_eq (h : SamePolicy a b) : a.failure? = b.failure? := by
  apply failure?_congr
  · rw [questions, questions, h.isContainer_eq, h.speaks_eq]
  · intro question hasked
    exact h.failureAt?_eq hasked

theorem ownMessages_eq (h : SamePolicy a b) (scope : String) :
    a.ownMessages scope = b.ownMessages scope := by
  have hdefinition : (if a.isContainer then a.annotated a.name definitionKeys else []) =
      if b.isContainer then b.annotated b.name definitionKeys else [] := by
    rw [← h.isContainer_eq]
    split
    case isTrue hcontainer =>
      rw [h.name_eq hcontainer, annotated_congr b.name (h.definition hcontainer)]
    case isFalse => rfl
  have hscope : (if a.isContainer then a.name else scope) =
      if b.isContainer then b.name else scope := by
    rw [← h.isContainer_eq]
    split
    case isTrue hcontainer => exact h.name_eq hcontainer
    case isFalse => rfl
  rw [ownMessages, ownMessages, hdefinition, hscope, ← h.speaks_eq]
  cases hspeaks : a.speaks with
  | false => rfl
  | true =>
    rw [commentMessage, commentMessage, h.comment hspeaks, annotated_congr _ (h.dialog hspeaks)]

theorem share_eq (h : SamePolicy a b) (scope : String) : a.share scope = b.share scope := by
  rw [Answers.share_eq, Answers.share_eq, h.failure?_eq, h.ownMessages_eq, ← h.isContainer_eq]
  cases hcontainer : a.isContainer with
  | false => rfl
  | true => rw [h.name_eq hcontainer]

end SamePolicy

end Answers

namespace Entity

/-- Trees that agree in all that an extraction goes by have the same extraction in every scope, and
sources that find them the same collection. -/
theorem extract_of_samePolicy {root other : Entity} (h : root.Alike Answers.SamePolicy other) :
    (∀ scope, root.extract scope = other.extract scope) ∧
    ∀ (source source' : Source) (package : String), source.find package = .ok (some root) →
      source'.find package = .ok (some other) →
      source.collection package = source'.collection package := by
  have hextract (scope : String) : root.extract scope = other.extract scope :=
    extract_congr (fun a b hab => hab.share_eq) scope root other h
  refine ⟨hextract, ?_⟩
  intro source source' package hfind hfind'
  rw [Source.collection_of_find hfind, Source.collection_of_find hfind', hextract]

end Entity

/-- The connection is lost, which is fatal wherever an extraction comes to it. -/
def connectionLost : SourceFailure := .unavailable "connection lost"

def silentAnswers : Answers where
  kind := .error connectionLost
  ident := .error connectionLost
  comment := .error connectionLost
  builtIn := .error connectionLost
  annotation _ := .error connectionLost
  listing := .error connectionLost

def leafAnswers : Answers :=
  Node.answers { kind := .parameter, ident := "J", comment := "Inertia" }

/-- The same leaf under another name, of which the source tells no more than the policy asks for. -/
def guardedLeafAnswers : Answers where
  kind := .ok .parameter
  ident := .ok "inertia"
  comment := .ok "Inertia"
  builtIn := .error connectionLost
  annotation key := if key ∈ dialogKeys then .ok none else .error connectionLost
  listing := .error connectionLost

def typeAnswers : Answers :=
  Node.answers { kind := .container, ident := "Real", builtIn := true, comment := "Real number" }

/-- The same type, of which the source tells no more than the policy asks for. -/
def guardedTypeAnswers : Answers where
  kind := .ok .container
  ident := .ok "Real"
  comment := .error connectionLost
  builtIn := .ok true
  annotation key := if key ∈ definitionKeys then .ok none else .error connectionLost
  listing := .ok ()

/-- A library of a leaf, a built-in type and a part that cannot be read, with something below the
leaf and below that part. -/
def hoard (leaf type : Answers) (below : List Entity) : Entity :=
  .mk (Node.answers { kind := .container, ident := "Lib" })
    [.mk leaf below, .mk type [],
      .mk (Node.answers { kind := .container, ident := "Broken", fault := some "E_FAIL" }) below]

theorem samePolicy_guardedLeafAnswers : Answers.SamePolicy leafAnswers guardedLeafAnswers where
  kind := rfl
  identFailure := rfl
  ident := nofun
  builtIn := nofun
  comment _ := rfl
  definition := nofun
  dialog _ _ hkey := (if_pos hkey).symm
  listing := nofun

theorem samePolicy_guardedTypeAnswers : Answers.SamePolicy typeAnswers guardedTypeAnswers where
  kind := rfl
  identFailure := rfl
  ident _ := rfl
  builtIn _ := rfl
  comment := nofun
  definition _ _ hkey := (if_pos hkey).symm
  dialog := nofun
  listing _ := rfl

theorem extract_guarded_hoard :
    (hoard leafAnswers typeAnswers []).Alike Answers.SamePolicy
      (hoard guardedLeafAnswers guardedTypeAnswers [.mk silentAnswers []]) ∧
    (hoard guardedLeafAnswers guardedTypeAnswers [.mk silentAnswers []]).extract "Lib" =
      .ok ⟨[⟨"Lib", "Inertia"⟩], 3, 1⟩ := by
  have halike : (hoard leafAnswers typeAnswers []).Alike Answers.SamePolicy
      (hoard guardedLeafAnswers guardedTypeAnswers [.mk silentAnswers []]) := by
    refine ⟨.refl _, fun _ => ⟨⟨samePolicy_guardedLeafAnswers, nofun⟩,
      ⟨samePolicy_guardedTypeAnswers, fun _ => trivial⟩, ⟨.refl _, nofun⟩, trivial⟩⟩
  have hextract : (hoard leafAnswers typeAnswers []).extract "Lib" =
      .ok ⟨[⟨"Lib", "Inertia"⟩], 3, 1⟩ := by rfl
  exact ⟨halike, (Entity.extract_of_samePolicy halike).1 "Lib" ▸ hextract⟩

end GettextTemplate
