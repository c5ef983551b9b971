/-!
One message of a template: a text for human readers and the scope it was found in. Messages are
ordered by scope and then by text, and the order of strings is that of their code points.
-/

namespace GettextTemplate

structure Message where
  scope : String
  text : String
deriving DecidableEq

namespace Message

/-- The scope decides, and between messages of one scope the text. -/
def Before (a b : Message) : Prop :=
  a.scope < b.scope ∨ a.scope = b.scope ∧ a.text < b.text

instance : LT Message := ⟨Before⟩

instance (a b : Message) : Decidable (a < b) :=
  inferInstanceAs (Decidable (a.scope < b.scope ∨ a.scope = b.scope ∧ a.text < b.text))

theorem lt_irrefl (a : Message) : ¬ a < a := by
  rintro (h | ⟨_, h⟩)
  · exact String.lt_irrefl _ h
  · exact String.lt_irrefl _ h

theorem lt_trans {a b c : Message} (hab : a < b) (hbc : b < c) : a < c := by
  rcases hab with h | ⟨e, h⟩ <;> rcases hbc with h' | ⟨e', h'⟩
  · exact .inl (String.lt_trans h h')
  · exact .inl (e' ▸ h)
  · exact .inl (e ▸ h')
  · exact .inr ⟨e.trans e', String.lt_trans h h'⟩

theorem lt_or_eq_or_gt (a b : Message) : a < b ∨ a = b ∨ b < a := by
  rcases Decidable.em (a.scope < b.scope) with h | h
  · exact .inl (.inl h)
  rcases Decidable.em (b.scope < a.scope) with h' | h'
  · exact .inr (.inr (.inl h'))
  have scope : a.scope = b.scope :=
    String.le_antisymm (String.not_lt.mp h') (String.not_lt.mp h)
  rcases Decidable.em (a.text < b.text) with k | k
  · exact .inl (.inr ⟨scope, k⟩)
  rcases Decidable.em (b.text < a.text) with k' | k'
  · exact .inr (.inr (.inr ⟨scope.symm, k'⟩))
  have text : a.text = b.text :=
    String.le_antisymm (String.not_lt.mp k') (String.not_lt.mp k)
  cases a
  cases b
  simp_all

/-- `atMost a b` says that `a` may stand before `b`: it is earlier, or the same message. -/
def atMost (a b : Message) : Bool := !decide (b < a)

theorem atMost_iff {a b : Message} : a.atMost b = true ↔ a < b ∨ a = b := by
  simp only [atMost, Bool.not_eq_true', decide_eq_false_iff_not]
  constructor
  · intro h
    rcases lt_or_eq_or_gt a b with l | e | g
    · exact .inl l
    · exact .inr e
    · exact absurd g h
  · rintro (l | rfl) g
    · exact lt_irrefl _ (lt_trans l g)
    · exact lt_irrefl _ g

theorem atMost_trans (a b c : Message) (hab : a.atMost b = true) (hbc : b.atMost c = true) :
    a.atMost c = true := by
  rw [atMost_iff] at *
  rcases hab with h | rfl
  · rcases hbc with h' | rfl
    · exact .inl (lt_trans h h')
    · exact .inl h
  · exact hbc

theorem atMost_total (a b : Message) : (a.atMost b || b.atMost a) = true := by
  simp only [Bool.or_eq_true, atMost_iff]
  rcases lt_or_eq_or_gt a b with l | e | g
  · exact .inl (.inl l)
  · exact .inl (.inr e)
  · exact .inr (.inl g)

end Message

end GettextTemplate
