import GettextTemplate.Collection
import GettextTemplate.Proofs.Texts

/-!
What collections are made of. A collection that succeeds has found its package and extracted it, and
the scope of each of its messages is the name asked for or the name of a container that was reached.
-/

namespace GettextTemplate

namespace Catalog

theorem dropRepeats_of_ascending {ms : List Message} (h : ms.Pairwise (· < ·)) :
    dropRepeats ms = ms := by
  fun_induction dropRepeats ms with
  | case1 => rfl
  | case2 => rfl
  | case3 m rest ih =>
    have hm := (List.pairwise_cons.mp h).1 m List.mem_cons_self
    exact absurd hm (Message.lt_irrefl m)
  | case4 a b rest differ ih => rw [ih (List.pairwise_cons.mp h).2]

/-- A list that is a catalog already stays as it is. -/
theorem messages_ofList_of_ascending {ms : List Message} (h : ms.Pairwise (· < ·)) :
    (ofList ms).messages = ms := by
  have hsorted : ms.mergeSort Message.atMost = ms :=
    List.mergeSort_of_pairwise (h.imp fun hlt => Message.atMost_iff.mpr (.inl hlt))
  change dropRepeats (ms.mergeSort Message.atMost) = ms
  rw [hsorted, dropRepeats_of_ascending h]

theorem nodup_messages (c : Catalog) : c.messages.Nodup := by
  refine c.ascending.imp ?_
  rintro m _ hlt rfl
  exact Message.lt_irrefl m hlt

/-- Catalogs are sets: those with the same members are the same. -/
theorem ext_mem {c d : Catalog} (h : ∀ m, m ∈ c.messages ↔ m ∈ d.messages) : c = d := by
  have hperm : c.messages.Perm d.messages :=
    (List.perm_ext_iff_of_nodup c.nodup_messages d.nodup_messages).mpr h
  have hmessages : c.messages = d.messages :=
    hperm.eq_of_pairwise
      (fun m _ _ _ hlt hgt => absurd (Message.lt_trans hlt hgt) (Message.lt_irrefl m))
      c.ascending d.ascending
  obtain ⟨messages, _⟩ := c
  obtain ⟨messages', _⟩ := d
  cases hmessages
  rfl

end Catalog

namespace Answers

theorem scope_of_mem_annotated {answers : Answers} {scope : String} {keys : List String} {m : Message}
    (hm : m ∈ answers.annotated scope keys) : m.scope = scope := by
  obtain ⟨_, _, _, _, _, rfl⟩ := mem_annotated_iff.mp hm
  rfl

/-- An entity speaks in the scope that it is given, and a container also under its own name. -/
theorem scope_of_mem_ownMessages {answers : Answers} {scope : String} {m : Message}
    (hm : m ∈ answers.ownMessages scope) :
    m.scope = scope ∨ answers.isContainer = true ∧ m.scope = answers.name := by
  rcases mem_ownMessages_iff.mp hm with ⟨_, hcomment⟩ | ⟨hcontainer, hdefinition⟩ | ⟨_, hdialog⟩
  · obtain ⟨_, _, _, rfl⟩ := commentMessage_eq_some_iff.mp hcomment
    exact .inl rfl
  · exact .inr ⟨hcontainer, scope_of_mem_annotated hdefinition⟩
  · have hscope := scope_of_mem_annotated hdialog
    cases hcontainer : answers.isContainer with
    | true => exact .inr ⟨rfl, by simpa [hcontainer] using hscope⟩
    | false => exact .inl (by simpa [hcontainer] using hscope)

end Answers

namespace Entity

/-- Whether a text is the name of a container that an extraction reaches. -/
def NamesReached (root : Entity) (scope : String) : Prop :=
  ∃ visit, root.Reached visit ∧ visit.entity.answers.isContainer = true ∧
    visit.entity.answers.name = scope

theorem scope_of_reached {root : Entity} {visit : Visit} (initial : String)
    (h : root.Reached visit) :
    visit.scope initial = initial ∨ root.NamesReached (visit.scope initial) := by
  cases h with
  | root => exact .inl rfl
  | @child position parent entity child index above container listed complete =>
    right
    cases hchild : child.answers.isContainer with
    | true =>
      refine ⟨_, .child above container listed complete, hchild, ?_⟩
      simp [Visit.scope, hchild]
    | false =>
      refine ⟨_, above, container, ?_⟩
      simp [Visit.scope, hchild]

/-- The scope of a message comes from the name that was asked for or from a container. -/
theorem scope_of_mem_extract {scope : String} {root : Entity} {x : Extraction}
    (h : root.extract scope = .ok x) {m : Message} (hm : m ∈ x.messages) :
    m.scope = scope ∨ root.NamesReached m.scope := by
  obtain ⟨visit, hreached, hm⟩ := (mem_messages_of_extract h).mp hm
  rcases Answers.scope_of_mem_ownMessages hm with hscope | ⟨hcontainer, hname⟩
  · rw [hscope]
    exact scope_of_reached scope hreached
  · exact .inr ⟨visit, hreached, hcontainer, hname.symm⟩

end Entity

namespace Source

variable {source : Source} {package : String}

theorem collection_of_find {root : Entity} (h : source.find package = .ok (some root)) :
    source.collection package =
      (do return (← (root.extract package).mapError RunError.ofSource).collection) := by
  unfold collection
  rw [h]
  rfl

theorem collection_eq_ok_iff {c : Collection} :
    source.collection package = .ok c ↔
      ∃ root x, source.find package = .ok (some root) ∧ root.extract package = .ok x ∧
        x.collection = c := by
  constructor
  · intro h
    rcases hfind : source.find package with e | _ | root
    · rw [collection, hfind] at h
      cases h
    · rw [collection, hfind] at h
      cases h
    · rw [collection_of_find hfind] at h
      rcases hextract : root.extract package with e | x
      · rw [hextract] at h
        cases h
      · rw [hextract] at h
        exact ⟨root, x, rfl, hextract, Except.ok.inj h⟩
  · rintro ⟨root, x, hfind, hextract, rfl⟩
    rw [collection_of_find hfind, hextract]
    rfl

end Source

end GettextTemplate
