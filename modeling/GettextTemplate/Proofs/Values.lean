import GettextTemplate.ModelTree.Writer
import GettextTemplate.Proofs.Strings

/-!
Values of a JSON text, read back. `Reads` says what a reader makes of a text wherever the text
stands, and arrays, objects and records are read from what their parts are read as
(`reads_readList`, `reads_readMap`, `reads_readRecord`). The first part that cannot be read decides.
-/

namespace GettextTemplate

namespace Json

variable {α β δ : Type}

/-- A reader takes a text off whatever begins with it, and comes to a result. The text is no
closing bracket, so it can stand in a list. -/
structure Reads (reader : Reader α) (text : Bytes) (result : Except Error α) : Prop where
  begins : ∃ b after, first? text = some (b, after) ∧ b ≠ ascii ']'
  takes : ∀ rest, reader.run (text ++ rest) = result.map fun value => (value, rest)

theorem Reads.readWhole {reader : Reader α} {text : Bytes} {result : Except Error α}
    (h : Reads reader text result) : readWhole reader text = result := by
  have htakes := h.takes []
  rw [List.append_nil] at htakes
  rw [readWhole_eq, htakes]
  cases result <;> rfl

theorem reads_readString (text : String) : Reads readString (utf8 (quoted text)) (.ok text) := by
  obtain ⟨inside, htext, hinside⟩ := exists_utf8_quoted text
  rw [htext]
  refine ⟨⟨_, _, first?_cons (by rfl) inside, by decide⟩, fun rest => ?_⟩
  rw [List.cons_append, run_readString, first?_cons (by rfl)]
  simp only [if_true, hinside]
  rfl

theorem reads_readBool (value : Bool) :
    Reads readBool (utf8 (if value then "true" else "false")) (.ok value) := by
  cases value with
  | true => exact ⟨⟨_, _, rfl, by decide⟩, fun _ => rfl⟩
  | false => exact ⟨⟨_, _, rfl, by decide⟩, fun _ => rfl⟩

theorem reads_readOptional (text : String) :
    Reads (readOptional readString) (utf8 (quoted text)) (.ok (some text)) := by
  obtain ⟨inside, htext, -⟩ := exists_utf8_quoted text
  have hstring := reads_readString text
  refine ⟨hstring.begins, fun rest => ?_⟩
  have hfirst : first? (utf8 (quoted text) ++ rest) = some (ascii '"', inside ++ rest) := by
    rw [htext, List.cons_append]
    exact first?_cons rfl _
  rw [run_readOptional readString hfirst (by decide), hstring.takes]
  rfl

/-- A text in its place in a list: all but the first come after a comma. -/
def placed (isFirst : Bool) (text : Bytes) : Bytes :=
  if isFirst then text else ascii ',' :: text

/-- Texts with commas between them. -/
def listed : Bool → List Bytes → Bytes
  | _, [] => []
  | isFirst, text :: later => placed isFirst text ++ listed false later

section

variable {element : Reader α}

theorem run_nextElement_placed {text : Bytes} {result : Except Error α}
    (h : Reads element text result) (isFirst : Bool) (rest : Bytes) :
    Reader.run (nextElement element isFirst) (placed isFirst text ++ rest) =
      result.map fun value => (some value, rest) := by
  obtain ⟨b, after, hfirst, hclosing⟩ := h.begins
  have hpresent : present (element.run (text ++ rest)) =
      result.map fun value => (some value, rest) := by
    rw [h.takes]
    cases result <;> rfl
  cases isFirst with
  | true =>
    rw [run_nextElement, placed, if_pos rfl, first?_append hfirst]
    simp only [if_neg hclosing, if_true, hpresent]
  | false =>
    rw [run_nextElement, placed, if_neg Bool.false_ne_true, List.cons_append,
      first?_cons (by rfl)]
    simp only [first?_append hfirst, if_neg hclosing, Bool.false_eq_true, if_false, if_true,
      hpresent]
    rfl

theorem run_elements_listed {items : List β} {text : β → Bytes} {result : β → Except Error α}
    (h : ∀ item ∈ items, Reads element (text item) (result item)) (isFirst : Bool)
    (done : List α) (rest : Bytes) :
    Reader.run (elements element isFirst done)
        (listed isFirst (items.map text) ++ ascii ']' :: rest) =
      (items.mapM result).map fun values => (done.reverse ++ values, rest) := by
  induction items generalizing isFirst done with
  | nil =>
    rw [run_elements, run_nextElement, List.map_nil, listed, List.nil_append,
      first?_cons (by rfl)]
    simp [pure, Except.pure, Except.map]
  | cons item items ih =>
    rw [run_elements, List.map_cons, listed, List.append_assoc,
      run_nextElement_placed (h item List.mem_cons_self), List.mapM_cons]
    cases result item with
    | error e => rfl
    | ok value =>
      simp only [Except.map]
      rw [ih fun item hitem => h item (List.mem_cons_of_mem _ hitem)]
      cases items.mapM result with
      | error e => rfl
      | ok values => simp [bind, Except.bind, pure, Except.pure, Except.map]

/-- An array is read as the values of its elements, if there may be brackets in its place. -/
theorem reads_readList {items : List β} {text : β → Bytes} {result : β → Except Error α}
    (h : ∀ item ∈ items, Reads element (text item) (result item)) :
    Reads (readList (some element))
      (ascii '[' :: listed true (items.map text) ++ [ascii ']']) (items.mapM result) := by
  refine ⟨⟨_, _, first?_cons (by rfl) _, by decide⟩, fun rest => ?_⟩
  rw [run_readList, List.cons_append, List.cons_append, first?_cons (by rfl), List.append_assoc]
  simp only [if_true]
  exact run_elements_listed h true [] rest

end

theorem reads_readList_none (inside : Bytes) :
    Reads (readList (none : Option (Reader α))) (ascii '[' :: inside) (.error .tooDeep) := by
  refine ⟨⟨_, _, first?_cons (by rfl) _, by decide⟩, fun rest => ?_⟩
  rw [run_readList, List.cons_append, first?_cons (by rfl)]
  rfl

/-- A member of an object: its key, the text of its value, and what the value is read as. -/
structure Member (α : Type) where
  key : String
  value : Bytes
  result : Except Error α

def Member.text (member : Member α) : Bytes :=
  utf8 (quoted member.key) ++ ascii ':' :: member.value

/-- The member as a pair, if its value can be read. -/
def Member.pair (member : Member α) : Except Error (String × α) :=
  member.result.map (member.key, ·)

theorem run_nextKey_placed (isFirst : Bool) (member : Member α) (rest : Bytes) :
    Reader.run (nextKey isFirst) (placed isFirst member.text ++ rest) =
      .ok (some member.key, ascii ':' :: member.value ++ rest) := by
  obtain ⟨inside, hkey, hinside⟩ := exists_utf8_quoted member.key
  have hquote (rest : Bytes) : first? (ascii '"' :: rest) = some (ascii '"', rest) :=
    first?_cons rfl rest
  have hbrace : ascii '"' ≠ ascii '}' := by decide
  cases isFirst with
  | true =>
    rw [run_nextKey, placed, if_pos rfl, Member.text, hkey, List.append_assoc, List.cons_append,
      hquote]
    simp only [if_neg hbrace, if_true, hinside]
    rfl
  | false =>
    have hclosing : ascii ',' ≠ ascii '}' := by decide
    rw [run_nextKey, placed, if_neg Bool.false_ne_true, Member.text, hkey, List.cons_append,
      first?_cons (by rfl), List.append_assoc, List.cons_append]
    simp only [hquote, if_neg hclosing, Bool.false_eq_true, if_false, if_true, hinside]
    rfl

theorem run_colon_cons (rest : Bytes) :
    Reader.run colon (ascii ':' :: rest) = .ok ((), rest) := by
  rw [run_colon, first?_cons (by rfl)]
  rfl

theorem run_members_listed {value : Reader α} {pairs : List (Member α)}
    (h : ∀ member ∈ pairs, Reads value member.value member.result) (isFirst : Bool)
    (done : List (String × α)) (rest : Bytes) :
    Reader.run (members value isFirst done)
        (listed isFirst (pairs.map Member.text) ++ ascii '}' :: rest) =
      (pairs.mapM Member.pair).map fun values =>
        (done.reverse ++ values, rest) := by
  induction pairs generalizing isFirst done with
  | nil =>
    rw [run_members, run_nextKey, List.map_nil, listed, List.nil_append, first?_cons (by rfl)]
    simp [pure, Except.pure, Except.map]
  | cons member pairs ih =>
    rw [run_members, List.map_cons, listed, List.append_assoc, run_nextKey_placed,
      List.mapM_cons, Member.pair]
    simp only [List.cons_append, run_colon_cons, bind, Except.bind]
    rw [(h member List.mem_cons_self).takes]
    cases member.result with
    | error e => rfl
    | ok read =>
      simp only [Except.map]
      rw [ih fun member hmember => h member (List.mem_cons_of_mem _ hmember)]
      cases pairs.mapM Member.pair with
      | error e => rfl
      | ok values => simp [pure, Except.pure, Except.map]

/-- An object with any keys is read as its members, if there may be brackets in its place. -/
theorem reads_readMap {value : Reader α} {pairs : List (Member α)}
    (h : ∀ member ∈ pairs, Reads value member.value member.result) :
    Reads (readMap (some value))
      (ascii '{' :: listed true (pairs.map Member.text) ++ [ascii '}'])
      (pairs.mapM Member.pair) := by
  refine ⟨⟨_, _, first?_cons (by rfl) _, by decide⟩, fun rest => ?_⟩
  rw [run_readMap, List.cons_append, List.cons_append, first?_cons (by rfl), List.append_assoc]
  simp only [if_true]
  exact run_members_listed h true [] rest

theorem reads_readMap_none (inside : Bytes) :
    Reads (readMap (none : Option (Reader α))) (ascii '{' :: inside) (.error .tooDeep) := by
  refine ⟨⟨_, _, first?_cons (by rfl) _, by decide⟩, fun rest => ?_⟩
  rw [run_readMap, List.cons_append, first?_cons (by rfl)]
  rfl

/-- What a value is read as may be worked on, as fields do that put values into a draft. -/
theorem Reads.after {reader : Reader α} {text : Bytes} {result : Except Error α}
    (h : Reads reader text result) (f : α → β) :
    Reads (fun bytes => return (← reader bytes).map f) text (result.map f) := by
  refine ⟨h.begins, fun rest => ?_⟩
  rw [run_map, h.takes]
  cases result <;> rfl

/-- The member is read by a field of the record. -/
def Member.Fits (schema : Schema δ α) (member : Member (δ → δ)) : Prop :=
  ∃ field, schema.fields.find? (·.name == member.key) = some field ∧
    Reads field.read member.value member.result

/-- The draft that comes of putting the values of members into it, one after another. -/
def putAll (draft : δ) (members : List (Member (δ → δ))) : Except Error δ :=
  members.foldlM (fun draft member => member.result.map fun put => put draft) draft

/-- Members with different known names are read as the draft with their values. -/
theorem run_fromObject_listed {schema : Schema δ α} {members : List (Member (δ → δ))}
    (hfields : ∀ member ∈ members, member.Fits schema)
    (hdistinct : members.Pairwise fun a b => a.key ≠ b.key) (isFirst : Bool) {seen : List String}
    (hseen : ∀ member ∈ members, member.key ∉ seen) (draft : δ) (rest : Bytes) :
    Reader.run (schema.fromObject isFirst seen draft)
        (listed isFirst (members.map Member.text) ++ ascii '}' :: rest) =
      (putAll draft members).map fun draft => (draft, rest) := by
  induction members generalizing isFirst seen draft with
  | nil =>
    rw [run_fromObject, run_nextKey, List.map_nil, listed, List.nil_append,
      first?_cons (by rfl)]
    rfl
  | cons member members ih =>
    obtain ⟨field, hfield, hreads⟩ := hfields member List.mem_cons_self
    have hnew : seen.contains member.key = false := by
      simpa using hseen member List.mem_cons_self
    have hothers := List.pairwise_cons.mp hdistinct
    rw [run_fromObject, List.map_cons, listed, List.append_assoc, run_nextKey_placed]
    simp only [hfield, hnew, Bool.false_eq_true, if_false, List.cons_append, run_colon_cons, bind,
      Except.bind]
    rw [hreads.takes, putAll, List.foldlM_cons]
    cases member.result with
    | error e => rfl
    | ok put =>
      simp only [Except.map]
      rw [ih (fun member hmember => hfields member (List.mem_cons_of_mem _ hmember)) hothers.2]
      · rfl
      · intro later hlater
        rw [List.mem_cons, not_or]
        exact ⟨(hothers.1 later hlater).symm, hseen later (List.mem_cons_of_mem _ hlater)⟩

/-- A record is read from an object whose members are fields of it, if there may be brackets in its
place. -/
theorem reads_readRecord {name : String} {schema : Schema δ α} {members : List (Member (δ → δ))}
    (hfields : ∀ member ∈ members, member.Fits schema)
    (hdistinct : members.Pairwise fun a b => a.key ≠ b.key) :
    Reads (readRecord name (some schema))
      (ascii '{' :: listed true (members.map Member.text) ++ [ascii '}'])
      ((putAll schema.blank members).bind fun draft =>
        (schema.complete draft).mapError .missingField) := by
  refine ⟨⟨_, _, first?_cons (by rfl) _, by decide⟩, fun rest => ?_⟩
  rw [List.cons_append, List.cons_append, run_readRecord name _ (first?_cons (by rfl) _),
    List.append_assoc]
  simp only
  rw [List.singleton_append, run_fromObject_listed hfields hdistinct true (by simp)]
  cases putAll schema.blank members with
  | error e => rfl
  | ok draft =>
    simp only [Except.map, bind, Except.bind]
    cases schema.complete draft <;> rfl

theorem reads_readRecord_none (name : String) (inside : Bytes) :
    Reads (readRecord name (none : Option (Schema δ α))) (ascii '{' :: inside)
      (.error .tooDeep) := by
  refine ⟨⟨_, _, first?_cons (by rfl) _, by decide⟩, fun rest => ?_⟩
  rw [List.cons_append, run_readRecord name _ (first?_cons (by rfl) _)]
  rfl

end Json

open Json

theorem utf8_commaSeparated : ∀ items : List String,
    utf8 (commaSeparated items) = listed true (items.map utf8)
  | [] => rfl
  | [item] => by
    rw [commaSeparated, String.intercalate_singleton, List.map_singleton, listed, listed,
      List.append_nil]
    rfl
  | item :: next :: items => by
    have hrest := utf8_commaSeparated (next :: items)
    rw [commaSeparated] at hrest
    rw [commaSeparated, String.intercalate_cons_cons, utf8_append, utf8_append, hrest,
      List.append_assoc]
    rfl

theorem utf8_bracketed (opening closing : String) (items : List String) :
    utf8 (bracketed opening items closing) =
      utf8 opening ++ listed true (items.map utf8) ++ utf8 closing := by
  rw [bracketed, utf8_append, utf8_append, utf8_commaSeparated]

theorem utf8_written (key value : String) :
    utf8 (written key value) = utf8 (quoted key) ++ ascii ':' :: utf8 value := by
  rw [written, utf8_append, utf8_append, List.append_assoc]
  rfl

end GettextTemplate
