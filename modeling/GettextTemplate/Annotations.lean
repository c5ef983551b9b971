/-!
Annotations of a node: texts under keys. They are held as a list of pairs with strictly ascending
keys, so that equal annotations are equal lists.
-/

namespace GettextTemplate

structure Annotations where
  pairs : List (String × String)
  ascending : pairs.Pairwise fun a b => a.1 < b.1
deriving DecidableEq

namespace Annotations

def empty : Annotations := ⟨[], .nil⟩

instance : Inhabited Annotations := ⟨empty⟩

def get? (annotations : Annotations) (key : String) : Option String :=
  (annotations.pairs.find? fun pair => pair.1 == key).map (·.2)

/-- Puts a pair into its place. A pair with the same key gives way. -/
def place (key value : String) : List (String × String) → List (String × String)
  | [] => [(key, value)]
  | pair :: rest =>
    if key < pair.1 then (key, value) :: pair :: rest
    else if pair.1 < key then pair :: place key value rest
    else (key, value) :: rest

theorem mem_place {key value : String} {p : String × String} {pairs : List (String × String)}
    (member : p ∈ place key value pairs) : p = (key, value) ∨ p ∈ pairs := by
  fun_induction place key value pairs with
  | case1 => exact .inl (List.mem_singleton.mp member)
  | case2 pair rest _ => exact List.mem_cons.mp member
  | case3 pair rest _ _ ih =>
    rcases List.mem_cons.mp member with rfl | later
    · exact .inr List.mem_cons_self
    · exact (ih later).imp_right (List.mem_cons_of_mem _)
  | case4 pair rest _ _ => exact (List.mem_cons.mp member).imp_right (List.mem_cons_of_mem _)

theorem pairwise_place {key value : String} {pairs : List (String × String)}
    (ascending : pairs.Pairwise fun a b => a.1 < b.1) :
    (place key value pairs).Pairwise fun a b => a.1 < b.1 := by
  fun_induction place key value pairs with
  | case1 => exact List.pairwise_singleton ..
  | case2 pair rest before =>
    refine List.pairwise_cons.mpr ⟨fun p member => ?_, ascending⟩
    rcases List.mem_cons.mp member with rfl | later
    · exact before
    · exact String.lt_trans before ((List.pairwise_cons.mp ascending).1 p later)
  | case3 pair rest _ after ih =>
    have ⟨first, later⟩ := List.pairwise_cons.mp ascending
    refine List.pairwise_cons.mpr ⟨fun p member => ?_, ih later⟩
    rcases mem_place member with rfl | old
    · exact after
    · exact first p old
  | case4 pair rest notBefore notAfter =>
    have ⟨first, later⟩ := List.pairwise_cons.mp ascending
    have same : key = pair.1 :=
      String.le_antisymm (String.not_lt.mp notAfter) (String.not_lt.mp notBefore)
    exact List.pairwise_cons.mpr ⟨fun p member => same ▸ first p member, later⟩

def insert (annotations : Annotations) (key value : String) : Annotations :=
  ⟨place key value annotations.pairs, pairwise_place annotations.ascending⟩

end Annotations

end GettextTemplate
