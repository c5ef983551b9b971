import GettextTemplate.Proofs.Spacing

/-!
Records as objects with known members. The members stand in any order and among others with unknown
names, and one may be missing when its value goes without saying (`IsRecord`). A reader puts the
value of each member into a draft, one by one. What a member puts there stays, whatever is put after it,
so in the end the draft has the values of all members (`foldl_putOf`), and the record is read
(`Schema.Fits.yields`).
-/

namespace GettextTemplate.Json

variable {α δ : Type}

/-- A member that a record may have. It may be missing if its value is the default one. -/
structure Slot where
  name : String
  isDefault : Prop
  Allows : Value → Prop

/-- An object that presents a record: every name is a text, no known name stands twice, and the values
under known names are right. -/
structure IsRecord (slots : List Slot) (entries : List (Entry Value)) : Prop where
  named : ∀ entry ∈ entries, ∃ name, entry.name? = some name
  distinct : entries.Pairwise fun entry other =>
    ∀ slot ∈ slots, entry.name? = some slot.name → other.name? ≠ some slot.name
  given : ∀ entry ∈ entries, ∀ slot ∈ slots, entry.name? = some slot.name →
    slot.Allows entry.value.inside
  missing : ∀ slot ∈ slots, (∀ entry ∈ entries, entry.name? ≠ some slot.name) → slot.isDefault

namespace IsRecord

variable {slots : List Slot} {entries : List (Entry Value)}

/-- The members may change their places. -/
theorem perm {other : List (Entry Value)} (h : IsRecord slots entries) (hperm : entries.Perm other) :
    IsRecord slots other where
  named entry hentry := h.named entry (hperm.mem_iff.mpr hentry)
  distinct := hperm.pairwise h.distinct fun hdistinct slot hslot hname hother =>
    hdistinct slot hslot hother hname
  given entry hentry := h.given entry (hperm.mem_iff.mpr hentry)
  missing slot hslot hmissing :=
    h.missing slot hslot fun entry hentry => hmissing entry (hperm.mem_iff.mp hentry)

/-- A member with an unknown name may be added. -/
theorem cons_unknown {entry : Entry Value} {name : String} (h : IsRecord slots entries)
    (hname : entry.name? = some name) (hunknown : ∀ slot ∈ slots, slot.name ≠ name) :
    IsRecord slots (entry :: entries) := by
  have hother (slot : Slot) (hslot : slot ∈ slots) : entry.name? ≠ some slot.name := by
    rw [hname, Ne, Option.some_inj]
    exact (hunknown slot hslot).symm
  refine ⟨?_, ?_, ?_, ?_⟩
  · rw [List.forall_mem_cons]
    exact ⟨⟨name, hname⟩, h.named⟩
  · rw [List.pairwise_cons]
    exact ⟨fun _ _ slot hslot hsame => absurd hsame (hother slot hslot), h.distinct⟩
  · rw [List.forall_mem_cons]
    exact ⟨fun slot hslot hsame => absurd hsame (hother slot hslot), h.given⟩
  · intro slot hslot hmissing
    exact h.missing slot hslot (List.forall_mem_cons.mp hmissing).2

/-- A member with a default value may be left out. -/
theorem of_cons {entry : Entry Value} (h : IsRecord slots (entry :: entries))
    (hdefault : ∀ slot ∈ slots, entry.name? = some slot.name → slot.isDefault) :
    IsRecord slots entries where
  named := (List.forall_mem_cons.mp h.named).2
  distinct := (List.pairwise_cons.mp h.distinct).2
  given := (List.forall_mem_cons.mp h.given).2
  missing slot hslot hmissing := by
    by_cases hname : entry.name? = some slot.name
    · exact hdefault slot hslot hname
    · exact h.missing slot hslot (List.forall_mem_cons.mpr ⟨hname, hmissing⟩)

end IsRecord

/-- What becomes of a member in a draft: how its value is put there, and whether it is there. -/
structure Effect (δ : Type) where
  slot : Slot
  put : δ → δ
  IsPut : δ → Prop

/-- The fields of a schema put into a draft what makes up a value, and do not disturb each other. -/
structure Schema.Fits (schema : Schema δ α) (effects : List (Effect δ)) (value : α) : Prop where
  fields : List.Forall₂ (fun effect field => field.name = effect.slot.name ∧
    ∀ value, effect.slot.Allows value → Yields field.read value effect.put) effects schema.fields
  distinct : effects.Pairwise fun effect other => effect.slot.name ≠ other.slot.name
  put : ∀ effect ∈ effects, ∀ draft, effect.IsPut (effect.put draft)
  kept : ∀ effect ∈ effects, ∀ other ∈ effects, ∀ draft,
    effect.IsPut draft → effect.IsPut (other.put draft)
  blank : ∀ effect ∈ effects, effect.slot.isDefault → effect.IsPut schema.blank
  complete : ∀ draft, (∀ effect ∈ effects, effect.IsPut draft) → schema.complete draft = .ok value

/-- The effect of the member with a name, if it is a known one. -/
def effectAt? (effects : List (Effect δ)) (name : String) : Option (Effect δ) :=
  effects.find? (·.slot.name == name)

/-- What a member puts into a draft. One with an unknown name puts nothing there. -/
def putOf (effects : List (Effect δ)) (entry : Entry Value) : δ → δ :=
  ((entry.name?.bind (effectAt? effects)).map Effect.put).getD id

variable {effects : List (Effect δ)} {entries : List (Entry Value)}

theorem effectAt?_eq_some {name : String} {effect : Effect δ}
    (h : effectAt? effects name = some effect) :
    effect ∈ effects ∧ effect.slot.name = name :=
  ⟨List.mem_of_find?_eq_some h, by simpa using List.find?_some h⟩

theorem effectAt?_of_mem (h : effects.Pairwise fun effect other => effect.slot.name ≠ other.slot.name)
    {effect : Effect δ} (heffect : effect ∈ effects) :
    effectAt? effects effect.slot.name = some effect := by
  induction effects with
  | nil => cases heffect
  | cons first effects ih =>
    rw [List.pairwise_cons] at h
    rw [effectAt?, List.find?_cons]
    rcases List.mem_cons.mp heffect with rfl | hlater
    · rw [beq_self_eq_true]
    · rw [beq_eq_false_iff_ne.mpr (h.1 effect hlater)]
      exact ih h.2 hlater

theorem putOf_of_effectAt? {entry : Entry Value} {name : String} (h : entry.name? = some name) :
    putOf effects entry = ((effectAt? effects name).map Effect.put).getD id := by
  rw [putOf, h, Option.bind_some]

/-- Effects and fields are found under the same names. -/
theorem find?_of_forall₂ {fields : List (RecordField δ)} {R : Effect δ → RecordField δ → Prop}
    (h : List.Forall₂ (fun effect field => field.name = effect.slot.name ∧ R effect field)
      effects fields)
    (name : String) :
    match effectAt? effects name with
    | some effect => ∃ field, fields.find? (·.name == name) = some field ∧ R effect field
    | none => fields.find? (·.name == name) = none := by
  induction h with
  | nil => rfl
  | @cons effect field effects fields hfirst _ ih =>
    rw [effectAt?, List.find?_cons, List.find?_cons, hfirst.1]
    cases effect.slot.name == name with
    | true => exact ⟨field, rfl, hfirst.2⟩
    | false => exact ih

/-- After all members the value of a known one is in the draft, if a member puts it there or it was
there before. -/
theorem foldl_putOf {schema : Schema δ α} {value : α} (h : schema.Fits effects value)
    {effect : Effect δ} (heffect : effect ∈ effects) (draft : δ)
    (hdraft : (∃ entry ∈ entries, entry.name? = some effect.slot.name) ∨ effect.IsPut draft) :
    effect.IsPut (entries.foldl (fun draft entry => putOf effects entry draft) draft) := by
  induction entries generalizing draft with
  | nil =>
    rcases hdraft with ⟨entry, hentry, -⟩ | hput
    · cases hentry
    · exact hput
  | cons entry entries ih =>
    rw [List.foldl_cons]
    apply ih
    have hkeep (hput : effect.IsPut draft) : effect.IsPut (putOf effects entry draft) := by
      rw [putOf]
      cases hother : entry.name?.bind (effectAt? effects) with
      | none => exact hput
      | some other =>
        obtain ⟨name, -, hfind⟩ := Option.bind_eq_some_iff.mp hother
        exact h.kept effect heffect other (effectAt?_eq_some hfind).1 draft hput
    rcases hdraft with ⟨other, hother, hname⟩ | hput
    · rcases List.mem_cons.mp hother with rfl | hlater
      · right
        rw [putOf_of_effectAt? hname, effectAt?_of_mem h.distinct heffect]
        exact h.put effect heffect draft
      · exact .inl ⟨other, hlater, hname⟩
    · exact .inr (hkeep hput)

theorem puts_of_isRecord {schema : Schema δ α} {value : α} (h : schema.Fits effects value)
    (hrecord : IsRecord (effects.map Effect.slot) entries) :
    ∀ entry ∈ entries, entry.Puts schema (putOf effects) := by
  intro entry hentry
  obtain ⟨name, hname⟩ := hrecord.named entry hentry
  have hfield := find?_of_forall₂ h.fields name
  refine ⟨name, hname, ?_⟩
  rw [putOf_of_effectAt? hname]
  cases heffect : effectAt? effects name with
  | none =>
    simp only [heffect] at hfield
    rw [hfield]
    rfl
  | some effect =>
    simp only [heffect] at hfield
    obtain ⟨field, hfind, hyields⟩ := hfield
    obtain ⟨hmem, rfl⟩ := effectAt?_eq_some heffect
    rw [hfind]
    exact hyields _ (hrecord.given entry hentry effect.slot (List.mem_map_of_mem hmem) hname)

/-- An object that presents a record is read as the value that its members make up. -/
theorem Schema.Fits.yields {schema : Schema δ α} {value : α} (h : schema.Fits effects value)
    (hrecord : IsRecord (effects.map Effect.slot) entries) (name : String) (inside : Blank) :
    Yields (readRecord name (some schema)) (.object inside entries) value := by
  refine yields_record (puts_of_isRecord h hrecord) ?_ ?_ name inside
  · refine hrecord.distinct.imp ?_
    intro entry other hdistinct name hname hother
    have hfield := find?_of_forall₂ h.fields name
    cases heffect : effectAt? effects name with
    | none => simpa only [heffect] using hfield
    | some effect =>
      obtain ⟨hmem, rfl⟩ := effectAt?_eq_some heffect
      exact absurd hother (hdistinct effect.slot (List.mem_map_of_mem hmem) hname)
  · apply h.complete
    intro effect heffect
    apply foldl_putOf h heffect
    by_cases hgiven : ∃ entry ∈ entries, entry.name? = some effect.slot.name
    · exact .inl hgiven
    · right
      apply h.blank effect heffect
      apply hrecord.missing effect.slot (List.mem_map_of_mem heffect)
      intro entry hentry hname
      exact hgiven ⟨entry, hentry, hname⟩

end GettextTemplate.Json
