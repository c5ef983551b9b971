import GettextTemplate.Json.Record

/-!
What readers take from some bytes. `Reader.run` forgets that fewer bytes are left, so that readers can
be told by equations: each of the equations below says how a reader goes on from the first byte that
is no white space, in terms of the readers inside it. Later theories read these equations and do
not open a reader again.
-/

namespace GettextTemplate.Json

variable {α : Type}

/-- What a reader takes, and the bytes that it leaves. -/
def Reader.run (reader : Reader α) (bytes : Bytes) : Except Error (α × Bytes) :=
  (reader bytes).map fun t => (t.value, t.rest)

theorem run_map {β : Type} (reader : Reader α) (f : α → β) (bytes : Bytes) :
    Reader.run (fun bytes => return (← reader bytes).map f) bytes =
      (reader.run bytes).map fun (value, rest) => (f value, rest) := by
  rw [Reader.run, Reader.run]
  cases reader bytes <;> rfl

/-- The first byte that is no white space, and the bytes after it. -/
def first? (bytes : Bytes) : Option (UInt8 × Bytes) :=
  (token? bytes).map fun t => (t.value, t.rest)

theorem first?_cons {b : UInt8} (h : isSpace b = false) (bytes : Bytes) :
    first? (b :: bytes) = some (b, bytes) := by
  rw [first?, token?, h]
  rfl

theorem first?_space {b : UInt8} (h : isSpace b = true) (bytes : Bytes) :
    first? (b :: bytes) = first? bytes := by
  rw [first?, first?, token?, h, if_pos rfl]
  cases token? bytes <;> rfl

theorem first?_append {text rest after : Bytes} {b : UInt8} (h : first? text = some (b, after)) :
    first? (text ++ rest) = some (b, after ++ rest) := by
  induction text with
  | nil => cases h
  | cons c text ih =>
    cases hspace : isSpace c with
    | true =>
      rw [first?_space hspace] at h
      rw [List.cons_append, first?_space hspace, ih h]
    | false =>
      rw [first?_cons hspace] at h
      cases h
      rw [List.cons_append, first?_cons hspace]

theorem run_colon (bytes : Bytes) :
    Reader.run colon bytes =
      match first? bytes with
      | none => .error .endInObject
      | some (b, rest) => if b = ascii ':' then .ok ((), rest) else .error .expectedColon := by
  rw [Reader.run, colon, first?]
  cases token? bytes with
  | none => rfl
  | some t =>
    simp only [Option.map_some]
    split <;> rfl

theorem run_readString (bytes : Bytes) :
    Reader.run readString bytes =
      match first? bytes with
      | none => .error .endInValue
      | some (b, rest) =>
        if b = ascii '"' then Reader.run readText rest
        else .error (mismatch "a string" b rest) := by
  rw [Reader.run, readString, first?]
  cases token? bytes with
  | none => rfl
  | some t =>
    simp only [Option.map_some]
    split
    · rw [Reader.run]
      cases readText t.rest <;> rfl
    · rfl

theorem run_readOptional (reader : Reader α) {bytes rest : Bytes} {b : UInt8}
    (hfirst : first? bytes = some (b, rest)) (hnull : b ≠ ascii 'n') :
    Reader.run (readOptional reader) bytes =
      (reader.run bytes).map fun (value, rest) => (some value, rest) := by
  rw [Reader.run, readOptional]
  rw [first?] at hfirst
  cases htoken : token? bytes with
  | none =>
    rw [htoken] at hfirst
    cases hfirst
  | some t =>
    rw [htoken] at hfirst
    cases hfirst
    simp only [if_neg hnull, Reader.run]
    cases reader bytes <;> rfl

/-- The value that comes after some bytes, if there is one, among values that may be missing. -/
def present (read : Except Error (α × Bytes)) : Except Error (Option α × Bytes) :=
  read.map fun (value, rest) => (some value, rest)

theorem run_nextElement (element : Reader α) (isFirst : Bool) (bytes : Bytes) :
    Reader.run (nextElement element isFirst) bytes =
      match first? bytes with
      | none => .error .endInList
      | some (b, rest) =>
        if b = ascii ']' then .ok (none, rest)
        else if isFirst then present (element.run bytes)
        else if b = ascii ',' then
          match first? rest with
          | none => .error .endInValue
          | some (next, _) =>
            if next = ascii ']' then .error .trailingComma else present (element.run rest)
        else .error .expectedListComma := by
  rw [Reader.run, nextElement, first?]
  cases token? bytes with
  | none => rfl
  | some t =>
    simp only [Option.map_some]
    split
    · rfl
    split
    · rw [Reader.run]
      cases element bytes <;> rfl
    split
    · rw [first?, Reader.run]
      cases token? t.rest with
      | none => rfl
      | some next =>
        simp only [Option.map_some]
        split
        · rfl
        · cases element t.rest <;> rfl
    · rfl

theorem run_nextKey (isFirst : Bool) (bytes : Bytes) :
    Reader.run (nextKey isFirst) bytes =
      match first? bytes with
      | none => .error .endInObject
      | some (b, rest) =>
        if b = ascii '}' then .ok (none, rest)
        else if isFirst then
          if b = ascii '"' then present (Reader.run readText rest) else .error .keyNotString
        else if b = ascii ',' then
          match first? rest with
          | none => .error .endInValue
          | some (next, after) =>
            if next = ascii '"' then present (Reader.run readText after)
            else if next = ascii '}' then .error .trailingComma
            else .error .keyNotString
        else .error .expectedObjectComma := by
  rw [Reader.run, nextKey, first?]
  cases token? bytes with
  | none => rfl
  | some t =>
    simp only [Option.map_some]
    split
    · rfl
    split
    · split
      · rw [Reader.run]
        cases readText t.rest <;> rfl
      · rfl
    split
    · rw [first?]
      cases token? t.rest with
      | none => rfl
      | some next =>
        simp only [Option.map_some, Reader.run]
        split
        · cases readText next.rest <;> rfl
        split <;> rfl
    · rfl

theorem run_elements (element : Reader α) (isFirst : Bool) (done : List α) (bytes : Bytes) :
    Reader.run (elements element isFirst done) bytes =
      match Reader.run (nextElement element isFirst) bytes with
      | .error e => .error e
      | .ok (none, rest) => .ok (done.reverse, rest)
      | .ok (some value, rest) => Reader.run (elements element false (value :: done)) rest := by
  rw [Reader.run, elements, Reader.run]
  rcases nextElement element isFirst bytes with e | ⟨_ | value, rest, fewer⟩
  · rfl
  · rfl
  · change Except.map _ (elements element false (value :: done) rest >>= _) =
      Reader.run (elements element false (value :: done)) rest
    rw [Reader.run]
    cases elements element false (value :: done) rest <;> rfl

/-- After a key come a colon, a value and what follows. -/
theorem run_afterKey {β γ : Type} {bytes rest : Bytes} (fewer : rest.length < bytes.length)
    (value : Reader β) (next : β → Reader γ) :
    Except.map (fun t => (t.value, t.rest)) (do
        let separator ← colon rest
        let read ← value separator.rest
        let later ← next read.value read.rest
        return later.within (Nat.le_of_lt
          (Nat.lt_trans (Nat.lt_trans read.fewer separator.fewer) fewer)) :
          Except Error (Taken γ bytes)) =
      (do
        let separator ← Reader.run colon rest
        let read ← value.run separator.2
        (next read.1).run read.2) := by
  unfold Reader.run
  rcases colon rest with e | separator
  · rfl
  change Except.map _ (value separator.rest >>= _) = ((value separator.rest).map _ >>= _)
  rcases value separator.rest with e | read
  · rfl
  change Except.map _ (next read.value read.rest >>= _) = (next read.value read.rest).map _
  cases next read.value read.rest <;> rfl

theorem run_members (value : Reader α) (isFirst : Bool) (done : List (String × α)) (bytes : Bytes) :
    Reader.run (members value isFirst done) bytes =
      match Reader.run (nextKey isFirst) bytes with
      | .error e => .error e
      | .ok (none, rest) => .ok (done.reverse, rest)
      | .ok (some key, rest) => (do
        let separator ← Reader.run colon rest
        let read ← value.run separator.2
        Reader.run (members value false ((key, read.1) :: done)) read.2) := by
  rw [Reader.run, members, Reader.run]
  rcases nextKey isFirst bytes with e | ⟨_ | key, rest, fewer⟩
  · rfl
  · rfl
  · exact run_afterKey fewer value fun read => members value false ((key, read) :: done)

/-- A bracket can be opened if there is a reader for what is inside. -/
theorem run_readList (inside : Option (Reader α)) (bytes : Bytes) :
    Reader.run (readList inside) bytes =
      match first? bytes with
      | none => .error .endInValue
      | some (b, rest) =>
        if b = ascii '[' then
          match inside with
          | none => .error .tooDeep
          | some element => Reader.run (elements element true []) rest
        else .error (mismatch "a sequence" b rest) := by
  rw [Reader.run, readList, first?]
  cases token? bytes with
  | none => rfl
  | some t =>
    simp only [Option.map_some]
    split
    · cases inside with
      | none => rfl
      | some element =>
        simp only [Reader.run]
        cases elements element true [] t.rest <;> rfl
    · rfl

theorem run_readMap (inside : Option (Reader α)) (bytes : Bytes) :
    Reader.run (readMap inside) bytes =
      match first? bytes with
      | none => .error .endInValue
      | some (b, rest) =>
        if b = ascii '{' then
          match inside with
          | none => .error .tooDeep
          | some value => Reader.run (members value true []) rest
        else .error (mismatch "a map" b rest) := by
  rw [Reader.run, readMap, first?]
  cases token? bytes with
  | none => rfl
  | some t =>
    simp only [Option.map_some]
    split
    · cases inside with
      | none => rfl
      | some value =>
        simp only [Reader.run]
        cases members value true [] t.rest <;> rfl
    · rfl

theorem readWhole_eq (reader : Reader α) (bytes : Bytes) :
    readWhole reader bytes = (do
      let read ← reader.run bytes
      if first? read.2 = none then .ok read.1 else .error .trailingCharacters) := by
  rw [readWhole, Reader.run]
  rcases reader bytes with e | t
  · rfl
  · dsimp only [bind, Except.bind, Except.map]
    rw [first?]
    cases token? t.rest <;> rfl

section

variable {δ : Type}

/-- One member of an object and those after it. The value of a field goes into the draft, and that of
an unknown name is passed over. -/
theorem run_fromObject (schema : Schema δ α) (isFirst : Bool) (seen : List String) (draft : δ)
    (bytes : Bytes) :
    Reader.run (schema.fromObject isFirst seen draft) bytes =
      match Reader.run (nextKey isFirst) bytes with
      | .error e => .error e
      | .ok (none, rest) => .ok (draft, rest)
      | .ok (some name, rest) =>
        match schema.fields.find? (·.name == name) with
        | some field =>
          if seen.contains name then .error (.repeatedField name)
          else (do
            let separator ← Reader.run colon rest
            let put ← field.read.run separator.2
            Reader.run (schema.fromObject false (name :: seen) (put.1 draft)) put.2)
        | none => (do
          let separator ← Reader.run colon rest
          let skipped ← Reader.run skipValue separator.2
          Reader.run (schema.fromObject false seen draft) skipped.2) := by
  rw [Reader.run, Schema.fromObject, Reader.run]
  rcases nextKey isFirst bytes with e | ⟨_ | name, rest, fewer⟩
  · rfl
  · rfl
  · change Except.map _ (match schema.fields.find? (·.name == name) with
      | some field => _
      | none => _) = _
    cases hfield : schema.fields.find? (·.name == name) with
    | some field =>
      cases hseen : seen.contains name with
      | true =>
        simp only [hfield, hseen, Except.map]
        rfl
      | false =>
        simp only [hfield, hseen, Except.map]
        exact run_afterKey fewer field.read fun put =>
          schema.fromObject false (name :: seen) (put draft)
    | none =>
      simp only [hfield, Except.map]
      exact run_afterKey fewer skipValue fun _ => schema.fromObject false seen draft

theorem run_readRecord (name : String) (inside : Option (Schema δ α)) {bytes rest : Bytes}
    (hfirst : first? bytes = some (ascii '{', rest)) :
    Reader.run (readRecord name inside) bytes =
      match inside with
      | none => .error .tooDeep
      | some schema => (do
        let read ← Reader.run (schema.fromObject true [] schema.blank) rest
        match schema.complete read.1 with
        | .ok value => .ok (value, read.2)
        | .error missing => .error (.missingField missing)) := by
  rw [Reader.run, readRecord]
  rw [first?] at hfirst
  cases htoken : token? bytes with
  | none =>
    rw [htoken] at hfirst
    cases hfirst
  | some t =>
    rw [htoken] at hfirst
    obtain ⟨hbrace, rfl⟩ := Prod.mk.inj (Option.some.inj hfirst)
    simp only [hbrace, if_true]
    cases inside with
    | none => rfl
    | some schema =>
      simp only [Reader.run]
      rcases schema.fromObject true [] schema.blank t.rest with e | read
      · rfl
      · change Except.map _ (match schema.complete read.value with
          | .ok value => _
          | .error _ => _) = _
        rcases hcomplete : schema.complete read.value with missing | value
        · simp only [Except.map, bind, Except.bind, hcomplete]
        · simp only [Except.map, bind, Except.bind, hcomplete]
          rfl

end

end GettextTemplate.Json
