import GettextTemplate.Message

/-!
A catalog is a finite set of messages, held as the strictly ascending list of its members. The
main statement is `mem_ofList`: collecting a list loses no message and adds none, while the type
says that each is there once and in order.
-/

namespace GettextTemplate

structure Catalog where
  messages : List Message
  ascending : messages.Pairwise (· < ·)

namespace Catalog

/-- Keeps the last of each run of equal neighbours. -/
def dropRepeats : List Message → List Message
  | [] => []
  | [m] => [m]
  | a :: b :: rest => if a = b then dropRepeats (b :: rest) else a :: dropRepeats (b :: rest)

theorem mem_dropRepeats {m : Message} {ms : List Message} : m ∈ dropRepeats ms ↔ m ∈ ms := by
  fun_induction dropRepeats ms with
  | case1 => rfl
  | case2 => rfl
  | case3 b rest ih => simp [ih]
  | case4 a b rest _ ih => simp [ih]

theorem pairwise_dropRepeats {ms : List Message}
    (sorted : ms.Pairwise fun a b => a.atMost b = true) :
    (dropRepeats ms).Pairwise (· < ·) := by
  fun_induction dropRepeats ms with
  | case1 => exact .nil
  | case2 => exact List.pairwise_singleton ..
  | case3 b rest ih => exact ih (List.pairwise_cons.mp sorted).2
  | case4 a b rest differ ih =>
    have ⟨first, later⟩ := List.pairwise_cons.mp sorted
    refine List.pairwise_cons.mpr ⟨fun m member => ?_, ih later⟩
    have before : a < b := by
      rcases Message.atMost_iff.mp (first b List.mem_cons_self) with l | e
      · exact l
      · exact absurd e differ
    rcases List.mem_cons.mp (mem_dropRepeats.mp member) with rfl | tail
    · exact before
    · rcases Message.atMost_iff.mp ((List.pairwise_cons.mp later).1 m tail) with l | rfl
      · exact Message.lt_trans before l
      · exact before

/-- The distinct messages of a list. -/
def ofList (ms : List Message) : Catalog where
  messages := dropRepeats (ms.mergeSort Message.atMost)
  ascending := pairwise_dropRepeats
    (List.pairwise_mergeSort Message.atMost_trans Message.atMost_total ms)

/-- The number of distinct messages. -/
def size (c : Catalog) : Nat := c.messages.length

theorem mem_ofList {m : Message} {ms : List Message} : m ∈ (ofList ms).messages ↔ m ∈ ms := by
  simp [ofList, mem_dropRepeats]

end Catalog

end GettextTemplate
