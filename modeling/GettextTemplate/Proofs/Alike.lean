import GettextTemplate.Proofs.Extraction

/-!
Trees that an extraction cannot tell apart. Two trees are alike under a relation on answers when
they have the same shape and related answers as far as an extraction of the first goes down.
Nothing is said of what lies below an entity that is not open. If related answers give the same
share in every scope, alike trees have the same extraction (`extract_congr`).
-/

namespace GettextTemplate

namespace Entity

mutual

def Alike (related : Answers → Answers → Prop) : Entity → Entity → Prop
  | .mk a children, .mk b children' =>
    related a b ∧ (a.isOpen = true → AlikeAll related children children')

/-- Siblings that are alike one by one. -/
def AlikeAll (related : Answers → Answers → Prop) : List Entity → List Entity → Prop
  | [], [] => True
  | child :: rest, child' :: rest' => Alike related child child' ∧ AlikeAll related rest rest'
  | _, _ => False

end

end Entity

namespace Answers

variable {a b : Answers}

/-- A share tells the first failure. -/
theorem failure?_eq_of_share (h : ∀ scope, a.share scope = b.share scope) :
    a.failure? = b.failure? := by
  have hshare := h ""
  rw [share_eq, share_eq] at hshare
  cases ha : a.failure? <;> cases hb : b.failure? <;> simp_all

/-- The share of a complete entity tells its messages and whether its children are extracted, and
in which scope. -/
theorem of_share_of_complete (h : ∀ scope, a.share scope = b.share scope)
    (hcomplete : a.failure? = none) :
    (∀ scope, a.ownMessages scope = b.ownMessages scope) ∧ a.isContainer = b.isContainer ∧
      (a.isContainer = true → a.name = b.name) := by
  have hcomplete' : b.failure? = none := failure?_eq_of_share h ▸ hcomplete
  have hshare (scope : String) :
      Share.mk (a.ownMessages scope) (if a.isContainer then some a.name else none) =
        Share.mk (b.ownMessages scope) (if b.isContainer then some b.name else none) := by
    have hscope := h scope
    rw [share_eq, share_eq, hcomplete, hcomplete'] at hscope
    exact Except.ok.inj hscope
  have hinner := congrArg Share.inner (hshare "")
  refine ⟨fun scope => congrArg Share.messages (hshare scope), ?_, ?_⟩
  · cases ha : a.isContainer <;> cases hb : b.isContainer <;> simp_all
  · intro hcontainer
    cases hb : b.isContainer <;> simp_all

end Answers

namespace Entity

variable {related : Answers → Answers → Prop}

theorem Alike.answers {entity entity' : Entity} (h : Alike related entity entity') :
    related entity.answers entity'.answers := by
  obtain ⟨a, children⟩ := entity
  obtain ⟨b, children'⟩ := entity'
  exact h.1

mutual

theorem extract_congr (hrelated : ∀ a b, related a b → ∀ scope, a.share scope = b.share scope)
    (scope : String) : ∀ entity entity' : Entity, Alike related entity entity' →
    entity.extract scope = entity'.extract scope
  | .mk a children, .mk b children', h => by
    obtain ⟨hab, hchildren⟩ := h
    have hshare := hrelated a b hab
    rw [extract_eq, extract_eq, ← Answers.failure?_eq_of_share hshare]
    cases hfailure : a.failure? with
    | some e => rfl
    | none =>
      obtain ⟨hmessages, hcontainer, hname⟩ := Answers.of_share_of_complete hshare hfailure
      have hopen : a.isOpen = b.isOpen := by
        rw [Answers.isOpen, Answers.isOpen, hcontainer, Answers.isComplete, Answers.isComplete,
          Answers.failure?_eq_of_share hshare]
      rw [← hopen, hmessages]
      cases hcase : a.isOpen with
      | false => rfl
      | true =>
        have hsame : a.name = b.name := hname (Bool.and_eq_true_iff.mp hcase).1
        rw [if_pos rfl, if_pos rfl, ← hsame,
          extractAll_congr hrelated a.name children children' (hchildren hcase)]

theorem extractAll_congr (hrelated : ∀ a b, related a b → ∀ scope, a.share scope = b.share scope)
    (scope : String) : ∀ children children' : List Entity, AlikeAll related children children' →
    extractAll scope children = extractAll scope children'
  | [], [], _ => rfl
  | [], _ :: _, h => h.elim
  | _ :: _, [], h => h.elim
  | child :: rest, child' :: rest', h => by
    obtain ⟨hchild, hrest⟩ := h
    have hshare := hrelated _ _ hchild.answers
    have hwithin : child.extractWithin scope = child'.extractWithin scope := by
      rw [extractWithin_eq, extractWithin_eq, ← Answers.failure?_eq_of_share hshare]
      cases hfailure : child.answers.failure? with
      | some e => rfl
      | none =>
        obtain ⟨_, hcontainer, hname⟩ := Answers.of_share_of_complete hshare hfailure
        have hscope : (if child.answers.isContainer then child.answers.name else scope) =
            if child'.answers.isContainer then child'.answers.name else scope := by
          rw [← hcontainer]
          split
          case isTrue hcase => exact hname hcase
          case isFalse => rfl
        rw [← hscope]
        exact extract_congr hrelated _ child child' hchild
    rw [extractAll_cons, extractAll_cons, hwithin, extractAll_congr hrelated scope rest rest' hrest]

end

end Entity

end GettextTemplate
