import GettextTemplate.Proofs.Skipping
import Mathlib.Data.List.Forall2

/-!
Values read wherever white space stands. `Yields` says what a reader makes of a value, however its text
is laid out. Lists and objects yield what their parts yield (`yields_list`, `yields_map`), and a
record is read from known members in any order, among unknown ones of any shape (`yields_record`).
-/

namespace GettextTemplate.Json

variable {α β δ : Type}

/-- A reader takes a value off its text, with white space in front of it and whatever after it. -/
def Yields (reader : Reader α) (value : Value) (result : α) : Prop :=
  ∀ (gap : Blank) (rest : Bytes),
    reader.run (gap.bytes ++ (value.bytes ++ rest)) = .ok (result, rest)

theorem Yields.readWhole {reader : Reader α} {text : Spaced Value} {result : α}
    (h : Yields reader text.inside result) :
    readWhole reader (text.bytes Value.bytes) = .ok result := by
  have hend : first? text.after.bytes = none := by
    rw [← List.append_nil text.after.bytes, first?_blank]
    rfl
  rw [readWhole_eq, Spaced.bytes, List.append_assoc, h text.before text.after.bytes]
  simp only [bind, Except.bind, hend, if_true]

theorem Yields.map {reader : Reader α} {value : Value} {result : α} (h : Yields reader value result)
    (f : α → β) : Yields (fun bytes => return (← reader bytes).map f) value (f result) := by
  intro gap rest
  rw [run_map, h gap rest]
  rfl

theorem yields_string {literal : Literal} {text : String} (h : literal.text? = some text) :
    Yields readString (.string literal) text := by
  intro gap rest
  rw [run_readString, Value.bytes, Literal.bytes, List.cons_append, first?_token gap rfl]
  simp only [if_true, run_readText h]

theorem run_wordAt {bytes : Bytes} (t : Taken UInt8 bytes) (letters : List Char) (value : α) :
    (wordAt t letters value).map (fun t => (t.value, t.rest)) =
      (word t.value letters t.rest).map fun last => (value, last.rest) := by
  rw [wordAt]
  cases word t.value letters t.rest <;> rfl

theorem run_readBool (bytes : Bytes) :
    Reader.run readBool bytes =
      match first? bytes with
      | none => .error .endInValue
      | some (b, rest) =>
        if b = ascii 't' then (word b ['r', 'u', 'e'] rest).map fun last => (true, last.rest)
        else if b = ascii 'f' then
          (word b ['a', 'l', 's', 'e'] rest).map fun last => (false, last.rest)
        else .error (mismatch "a boolean" b rest) := by
  rw [Reader.run, readBool, first?]
  cases token? bytes with
  | none => rfl
  | some t =>
    simp only [Option.map_some]
    split
    · exact run_wordAt t _ _
    split
    · exact run_wordAt t _ _
    · rfl

theorem yields_boolean (value : Bool) : Yields readBool (.boolean value) value := by
  intro gap rest
  cases value with
  | true =>
    rw [run_readBool, Value.bytes, List.map_cons, List.cons_append, first?_token gap rfl]
    exact map_word ['r', 'u', 'e'] rest true
  | false =>
    rw [run_readBool, Value.bytes, List.map_cons, List.cons_append, first?_token gap rfl]
    exact map_word ['a', 'l', 's', 'e'] rest false

theorem run_readOptional_null (reader : Reader α) {bytes rest : Bytes}
    (hfirst : first? bytes = some (ascii 'n', rest)) :
    Reader.run (readOptional reader) bytes =
      (word (ascii 'n') ['u', 'l', 'l'] rest).map fun last => (none, last.rest) := by
  rw [Reader.run, readOptional]
  rw [first?] at hfirst
  cases htoken : token? bytes with
  | none =>
    rw [htoken] at hfirst
    cases hfirst
  | some t =>
    obtain ⟨b, after, fewer⟩ := t
    rw [htoken] at hfirst
    cases hfirst
    exact run_wordAt _ _ _

theorem yields_optional_null (reader : Reader α) : Yields (readOptional reader) .null none := by
  intro gap rest
  rw [Value.bytes, List.map_cons, List.cons_append,
    run_readOptional_null reader (first?_token gap rfl _)]
  exact map_word ['u', 'l', 'l'] rest none

theorem yields_optional_string {literal : Literal} {text : String} (h : literal.text? = some text) :
    Yields (readOptional readString) (.string literal) (some text) := by
  intro gap rest
  have hfirst : first? (gap.bytes ++ ((Value.string literal).bytes ++ rest)) =
      some (ascii '"', literal.rest ++ rest) := first?_token gap rfl _
  rw [run_readOptional readString hfirst (by decide), yields_string h gap rest]
  rfl

theorem run_nextElement_item {element : Reader α} {item : Spaced Value} {result : α}
    (h : Yields element item.inside result) (isFirst : Bool) (gap : Blank) (rest : Bytes) :
    Reader.run (nextElement element isFirst)
        (gap.bytes ++ (placed isFirst (item.bytes Value.bytes) ++ rest)) =
      .ok (some result, item.after.bytes ++ rest) := by
  have hpresent (gap : Blank) :
      present (element.run (gap.bytes ++ (item.bytes Value.bytes ++ rest))) =
        .ok (some result, item.after.bytes ++ rest) := by
    have hitem := h (gap.append item.before) (item.after.bytes ++ rest)
    rw [Blank.bytes_append, List.append_assoc] at hitem
    rw [Spaced.bytes_append, hitem]
    rfl
  obtain ⟨b, after, hfirst, hclosing⟩ :=
    item.inside.exists_first?_eq item.before (item.after.bytes ++ rest)
  rw [← Spaced.bytes_append] at hfirst
  cases isFirst with
  | true =>
    rw [run_nextElement, placed, if_pos rfl, first?_blank, hfirst]
    simp only [if_neg hclosing, if_true]
    exact hpresent gap
  | false =>
    have hcomma : ascii ',' ≠ ascii ']' := by decide
    rw [run_nextElement, placed, if_neg Bool.false_ne_true, List.cons_append, first?_token gap rfl]
    simp only [if_neg hcomma, Bool.false_eq_true, if_false, if_true, hfirst, if_neg hclosing]
    exact hpresent .empty

/-- The items of a list are read one after the other up to the closing bracket. -/
theorem run_elements_items {element : Reader α} {items : List (Spaced Value)} {results : List α}
    (h : List.Forall₂ (fun item result => Yields element item.inside result) items results)
    (isFirst : Bool) (done : List α) (gap : Blank) (rest : Bytes) :
    Reader.run (elements element isFirst done)
        (gap.bytes ++ (listed isFirst (items.map (Spaced.bytes Value.bytes)) ++ ascii ']' :: rest)) =
      .ok (done.reverse ++ results, rest) := by
  induction h generalizing isFirst done gap with
  | nil =>
    rw [run_elements, run_nextElement, List.map_nil, listed, List.nil_append, first?_token gap rfl]
    simp
  | @cons item result items results hitem _ ih =>
    rw [run_elements, List.map_cons, listed, List.append_assoc, run_nextElement_item hitem]
    simp only [ih, List.reverse_cons, List.append_assoc, List.singleton_append]

theorem yields_list {element : Reader α} {items : List (Spaced Value)} {results : List α}
    (h : List.Forall₂ (fun item result => Yields element item.inside result) items results)
    (inside : Blank) : Yields (readList (some element)) (.list inside items) results := by
  intro gap rest
  rw [Value.bytes_list_append, run_readList, first?_token gap rfl]
  exact run_elements_items h true [] inside rest

theorem run_nextKey_entry {entry : Entry Value} {name : String} (h : entry.name? = some name)
    (isFirst : Bool) (gap : Blank) (rest : Bytes) :
    Reader.run (nextKey isFirst)
        (gap.bytes ++ (placed isFirst (entry.bytes Value.bytes) ++ rest)) =
      .ok (some name, entry.key.after.bytes ++ ascii ':' :: (entry.value.before.bytes ++
        (entry.value.inside.bytes ++ (entry.value.after.bytes ++ rest)))) := by
  have hquote : ascii '"' ≠ ascii '\x7d' := by decide
  cases isFirst with
  | true =>
    rw [run_nextKey, placed, if_pos rfl, Entry.bytes_append, first?_token _ rfl]
    simp only [if_neg hquote, if_true, run_readText h]
    rfl
  | false =>
    have hcomma : ascii ',' ≠ ascii '\x7d' := by decide
    have hfirst := first?_blank gap (entry.bytes Value.bytes ++ rest)
    rw [Entry.bytes_append, first?_token _ rfl] at hfirst
    rw [run_nextKey, placed, if_neg Bool.false_ne_true, List.cons_append, first?_token gap rfl]
    simp only [if_neg hcomma, Bool.false_eq_true, if_false, if_true, ← hfirst, run_readText h]
    rfl

theorem run_colon_blank (gap : Blank) (rest : Bytes) :
    Reader.run colon (gap.bytes ++ ascii ':' :: rest) = .ok ((), rest) := by
  rw [run_colon, first?_token gap rfl]
  rfl

theorem run_members_entries {value : Reader α} {entries : List (Entry Value)}
    {pairs : List (String × α)}
    (h : List.Forall₂ (fun entry pair =>
      entry.name? = some pair.1 ∧ Yields value entry.value.inside pair.2) entries pairs)
    (isFirst : Bool) (done : List (String × α)) (gap : Blank) (rest : Bytes) :
    Reader.run (members value isFirst done)
        (gap.bytes ++ (listed isFirst (entries.map (Entry.bytes Value.bytes)) ++
          ascii '\x7d' :: rest)) =
      .ok (done.reverse ++ pairs, rest) := by
  induction h generalizing isFirst done gap with
  | nil =>
    rw [run_members, run_nextKey, List.map_nil, listed, List.nil_append, first?_token gap rfl]
    simp
  | @cons entry pair entries pairs hentry _ ih =>
    obtain ⟨hname, hvalue⟩ := hentry
    rw [run_members, List.map_cons, listed, List.append_assoc, run_nextKey_entry hname]
    simp only [run_colon_blank, bind, Except.bind, hvalue entry.value.before, ih, List.reverse_cons,
      List.append_assoc, List.singleton_append]

theorem yields_map {value : Reader α} {entries : List (Entry Value)} {pairs : List (String × α)}
    (h : List.Forall₂ (fun entry pair =>
      entry.name? = some pair.1 ∧ Yields value entry.value.inside pair.2) entries pairs)
    (inside : Blank) : Yields (readMap (some value)) (.object inside entries) pairs := by
  intro gap rest
  rw [Value.bytes_object_append, run_readMap, first?_token gap rfl]
  exact run_members_entries h true [] inside rest

/-- A member is read by a field of the record with its name, or there is no such field and it changes
nothing. -/
def Entry.Puts (schema : Schema δ α) (put : Entry Value → δ → δ) (entry : Entry Value) : Prop :=
  ∃ name, entry.name? = some name ∧
    match schema.fields.find? (·.name == name) with
    | some field => Yields field.read entry.value.inside (put entry)
    | none => put entry = id

/-- Members with known names are read once each, and those with unknown names are passed over. -/
theorem run_fromObject_entries {schema : Schema δ α} {put : Entry Value → δ → δ}
    {entries : List (Entry Value)} (h : ∀ entry ∈ entries, entry.Puts schema put)
    (hdistinct : entries.Pairwise fun entry other => ∀ name, entry.name? = some name →
      other.name? = some name → schema.fields.find? (·.name == name) = none)
    (isFirst : Bool) {seen : List String}
    (hseen : ∀ entry ∈ entries, ∀ name ∈ seen, entry.name? ≠ some name) (draft : δ) (gap : Blank)
    (rest : Bytes) :
    Reader.run (schema.fromObject isFirst seen draft)
        (gap.bytes ++ (listed isFirst (entries.map (Entry.bytes Value.bytes)) ++
          ascii '\x7d' :: rest)) =
      .ok (entries.foldl (fun draft entry => put entry draft) draft, rest) := by
  induction entries generalizing isFirst seen draft gap with
  | nil =>
    rw [run_fromObject, run_nextKey, List.map_nil, listed, List.nil_append, first?_token gap rfl]
    rfl
  | cons entry entries ih =>
    rw [List.forall_mem_cons] at h hseen
    obtain ⟨⟨name, hname, hput⟩, hlater⟩ := h
    rw [List.pairwise_cons] at hdistinct
    rw [run_fromObject, List.map_cons, listed, List.append_assoc, run_nextKey_entry hname]
    cases hfield : schema.fields.find? (·.name == name) with
    | some field =>
      rw [hfield] at hput
      have hnew : seen.contains name = false := by
        simpa using fun hmem => hseen.1 name hmem hname
      simp only [hfield, hnew, Bool.false_eq_true, if_false, run_colon_blank, bind, Except.bind]
      rw [hput]
      apply ih hlater hdistinct.2
      intro other hother
      rw [List.forall_mem_cons]
      refine ⟨fun hsame => ?_, hseen.2 other hother⟩
      have hunknown := hdistinct.1 other hother name hname hsame
      rw [hfield] at hunknown
      cases hunknown
    | none =>
      rw [hfield] at hput
      have hends := endsNumeral_listed entry.value.after (entries.map (Entry.bytes Value.bytes))
        '\x7d' (by decide) rest
      simp only [hfield, run_colon_blank, bind, Except.bind, run_skipValue _ _ hends, List.foldl_cons,
        hput, id]
      exact ih hlater hdistinct.2 false hseen.2 draft entry.value.after

/-- A record is read from its members in any order, if they complete it. -/
theorem yields_record {schema : Schema δ α} {put : Entry Value → δ → δ}
    {entries : List (Entry Value)} (h : ∀ entry ∈ entries, entry.Puts schema put)
    (hdistinct : entries.Pairwise fun entry other => ∀ name, entry.name? = some name →
      other.name? = some name → schema.fields.find? (·.name == name) = none)
    {value : α} (hcomplete : schema.complete
      (entries.foldl (fun draft entry => put entry draft) schema.blank) = .ok value)
    (name : String) (inside : Blank) :
    Yields (readRecord name (some schema)) (.object inside entries) value := by
  intro gap rest
  rw [Value.bytes_object_append, run_readRecord name _ (first?_token gap rfl _)]
  simp only
  rw [run_fromObject_entries h hdistinct true (by simp)]
  simp only [bind, Except.bind, hcomplete]

end GettextTemplate.Json
