import GettextTemplate.ModelTree.Reader

/-!
Annotations told by what stands under each key. Reading a list of pairs leaves under every key the last
of its values (`get?_ofList`), and no two annotations have the same values under all keys
(`Annotations.ext_get?`).
-/

namespace GettextTemplate

/-- The last value under a key. -/
def lastValue? (key : String) (pairs : List (String × String)) : Option String :=
  (pairs.reverse.find? fun pair => pair.1 == key).map (·.2)

namespace Annotations

theorem find?_cons_key (key : String) (pair : String × String) (rest : List (String × String)) :
    (pair :: rest).find? (fun pair => pair.1 == key) =
      if pair.1 = key then some pair else rest.find? fun pair => pair.1 == key := by
  rw [List.find?_cons]
  by_cases hkey : pair.1 = key
  · simp [hkey]
  · have hother : (pair.1 == key) = false := by simpa using hkey
    simp only [hother, if_neg hkey]

theorem get?_eq_some_iff {annotations : Annotations} {key value : String} :
    annotations.get? key = some value ↔ (key, value) ∈ annotations.pairs := by
  obtain ⟨pairs, ascending⟩ := annotations
  simp only [get?]
  induction pairs with
  | nil => simp
  | cons pair rest ih =>
    obtain ⟨hfirst, hrest⟩ := List.pairwise_cons.mp ascending
    rw [find?_cons_key, List.mem_cons]
    by_cases hkey : pair.1 = key
    · rw [if_pos hkey, Option.map_some, Option.some_inj]
      constructor
      · rintro rfl
        exact .inl (Prod.ext hkey.symm rfl)
      · rintro (rfl | hlater)
        · rfl
        · exact absurd (hfirst _ hlater) (by rw [hkey]; exact String.lt_irrefl key)
    · rw [if_neg hkey, ih hrest]
      constructor
      · exact .inr
      · rintro (rfl | hlater)
        · exact absurd rfl hkey
        · exact hlater

/-- Annotations with the same value under each key are the same. -/
theorem ext_get? {a b : Annotations} (h : ∀ key, a.get? key = b.get? key) : a = b := by
  have hmem (pair : String × String) : pair ∈ a.pairs ↔ pair ∈ b.pairs := by
    rw [← get?_eq_some_iff, h, get?_eq_some_iff]
  have hnodup (c : Annotations) : c.pairs.Nodup := by
    refine c.ascending.imp ?_
    rintro pair _ hlt rfl
    exact String.lt_irrefl pair.1 hlt
  have hperm : a.pairs.Perm b.pairs :=
    (List.perm_ext_iff_of_nodup (hnodup a) (hnodup b)).mpr hmem
  have hpairs : a.pairs = b.pairs :=
    hperm.eq_of_pairwise
      (fun pair _ _ _ hlt hgt => absurd (String.lt_trans hlt hgt) (String.lt_irrefl pair.1))
      a.ascending b.ascending
  obtain ⟨pairs, ascending⟩ := a
  obtain ⟨pairs', ascending'⟩ := b
  cases hpairs
  rfl

theorem find?_place (key value asked : String) (pairs : List (String × String)) :
    (place key value pairs).find? (fun pair => pair.1 == asked) =
      if key = asked then some (key, value) else pairs.find? fun pair => pair.1 == asked := by
  fun_induction place key value pairs with
  | case1 => rw [find?_cons_key]
  | case2 pair rest _ => rw [find?_cons_key]
  | case3 pair rest _ hafter ih =>
    rw [find?_cons_key, find?_cons_key, ih]
    by_cases hasked : pair.1 = asked
    · have hkey : key ≠ asked := by
        rintro rfl
        exact String.lt_irrefl key (hasked ▸ hafter)
      rw [if_pos hasked, if_neg hkey, if_pos hasked]
    · rw [if_neg hasked, if_neg hasked]
  | case4 pair rest hbefore hafter =>
    have hsame : pair.1 = key :=
      String.le_antisymm (String.not_lt.mp hbefore) (String.not_lt.mp hafter)
    rw [find?_cons_key, find?_cons_key, hsame]
    split <;> rfl

/-- Reading after a pair was put in. -/
theorem get?_insert (annotations : Annotations) (key value asked : String) :
    (annotations.insert key value).get? asked =
      if key = asked then some value else annotations.get? asked := by
  rw [get?, insert, find?_place, get?]
  split <;> rfl

theorem get?_ofList (pairs : List (String × String)) (key : String) :
    (ofList pairs).get? key = lastValue? key pairs := by
  rw [ofList, lastValue?, List.foldl_eq_foldr_reverse]
  induction pairs.reverse with
  | nil => rfl
  | cons pair earlier ih =>
    rw [List.foldr_cons, get?_insert, ih, find?_cons_key]
    split <;> rfl

end Annotations

end GettextTemplate
