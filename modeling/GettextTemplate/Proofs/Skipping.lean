import GettextTemplate.Proofs.Literals

/-!
Values that nobody asked for. Every value is passed over to its end, whatever its shape and however it
is written (`run_skipValue`). A number has no end of its own, so what stands after it must not go on
with it.
-/

namespace GettextTemplate.Json

/-- What may stand after a number: nothing that could belong to it. -/
def EndsNumeral (rest : Bytes) : Prop :=
  ∀ b ∈ rest.head?, isDigit b = false ∧ b ∉ ['.', 'e', 'E'].map ascii

theorem endsNumeral_mark (blank : Blank) {mark : Char} (h : mark ∈ [',', ']', '}']) (rest : Bytes) :
    EndsNumeral (blank.bytes ++ ascii mark :: rest) := by
  have hends : ∀ c ∈ [' ', '\t', '\n', '\r', ',', ']', '}'],
      isDigit (ascii c) = false ∧ ascii c ∉ ['.', 'e', 'E'].map ascii := by
    simp only [List.forall_mem_cons, List.not_mem_nil, false_implies, implies_true]
    decide
  intro b hb
  obtain ⟨chars, honly⟩ := blank
  cases chars with
  | nil =>
    obtain rfl : ascii mark = b := Option.some.inj hb
    exact hends mark (List.mem_append_right [' ', '\t', '\n', '\r'] h)
  | cons c chars =>
    obtain rfl : ascii c = b := Option.some.inj hb
    exact hends c (List.mem_append_left [',', ']', '}'] (honly c List.mem_cons_self))

theorem isDigit_digitByte : ∀ digit : Fin 10, isDigit (digitByte digit) = true := by decide

theorem Digits.bytes_append (digits : Digits) (rest : Bytes) :
    digits.bytes ++ rest = digitByte digits.first :: (digits.others.map digitByte ++ rest) := rfl

theorem run_skipDigits (digits : Digits) {rest : Bytes} (h : ∀ b ∈ rest.head?, isDigit b = false) :
    Reader.run skipDigits (digits.bytes ++ rest) = .ok ((), rest) := by
  have hothers : ∀ b ∈ digits.others.map digitByte, isDigit b = true := by
    intro b hb
    obtain ⟨digit, -, rfl⟩ := List.mem_map.mp hb
    exact isDigit_digitByte digit
  have hrest : rest.dropWhile isDigit = rest := by
    cases rest with
    | nil => rfl
    | cons b rest => rw [List.dropWhile_cons, h b rfl, if_neg Bool.false_ne_true]
  rw [digits.bytes_append, Reader.run, skipDigits, if_pos (isDigit_digitByte _)]
  simp only [Except.map, List.dropWhile_append_of_pos hothers, hrest]

theorem run_skipInteger (numeral : Numeral) {rest : Bytes}
    (h : ∀ b ∈ rest.head?, isDigit b = false) :
    Reader.run skipInteger (numeral.integer.bytes ++ rest) = .ok ((), rest) := by
  have hzero : ∀ digit, digitByte digit = ascii '0' → digit = 0 := by decide
  by_cases hfirst : digitByte numeral.integer.first = ascii '0'
  · have hothers := numeral.isShort (hzero _ hfirst)
    have hnext : (rest.head?.map isDigit).getD false = false := by
      cases rest with
      | nil => rfl
      | cons b rest => exact h b rfl
    rw [Digits.bytes_append, hothers, List.map_nil, List.nil_append, Reader.run, skipInteger,
      if_pos hfirst, hnext]
    rfl
  · rw [← run_skipDigits numeral.integer h, Digits.bytes_append, Reader.run, skipInteger,
      if_neg hfirst, Reader.run]

theorem run_skipExponent (exponent : Exponent) {rest : Bytes}
    (h : ∀ b ∈ rest.head?, isDigit b = false) :
    Reader.run skipExponent ((exponent.sign.map ascii).toList ++ (exponent.digits.bytes ++ rest)) =
      .ok ((), rest) := by
  have hdigits := run_skipDigits exponent.digits h
  have hsigns : ∀ c ∈ ['+', '-'], (ascii c = ascii '+' || ascii c = ascii '-') = true := by simp
  have hdigit : ∀ digit, (digitByte digit = ascii '+' || digitByte digit = ascii '-') = false := by
    decide
  cases hsign : exponent.sign with
  | none =>
    rw [← hdigits, Option.map_none, Option.toList_none, List.nil_append, Digits.bytes_append,
      Reader.run, skipExponent, hdigit, if_neg Bool.false_ne_true, Reader.run]
  | some c =>
    obtain ⟨fewer, htaken⟩ := exists_taken hdigits
    rw [Option.map_some, Option.toList_some, List.singleton_append, Reader.run, skipExponent,
      hsigns c (exponent.isSign c hsign), if_pos rfl, htaken]
    rfl

/-- How a number is read on after its digits: an exponent may follow. -/
def exponentAfter : Bytes → Except Error (Unit × Bytes)
  | [] => .ok ((), [])
  | e :: rest =>
    if e = ascii 'e' || e = ascii 'E' then Reader.run skipExponent rest else .ok ((), e :: rest)

theorem run_skipExponentAfter {bytes : Bytes} (taken : Taken Unit bytes) :
    (skipExponentAfter taken).map (fun t => (t.value, t.rest)) = exponentAfter taken.rest := by
  obtain ⟨value, rest, fewer⟩ := taken
  cases rest with
  | nil => rfl
  | cons e rest =>
    simp only [skipExponentAfter, exponentAfter]
    split
    · rw [Reader.run]
      cases skipExponent rest <;> rfl
    · rfl

theorem run_skipNumber (bytes : Bytes) :
    Reader.run skipNumber bytes = (do
      let integer ← Reader.run skipInteger bytes
      match integer.2 with
      | [] => .ok ((), [])
      | point :: rest =>
        if point = ascii '.' then
          let fraction ← Reader.run skipDigits rest
          exponentAfter fraction.2
        else exponentAfter integer.2) := by
  rw [Reader.run, skipNumber, Reader.run]
  rcases skipInteger bytes with e | ⟨value, _ | ⟨point, rest⟩, fewer⟩
  · rfl
  · rfl
  · simp only [bind, Except.bind, Except.map]
    by_cases hpoint : point = ascii '.'
    · rw [if_pos hpoint, if_pos hpoint, Reader.run]
      rcases skipDigits rest with e | fraction
      · rfl
      · exact run_skipExponentAfter _
    · rw [if_neg hpoint, if_neg hpoint]
      exact run_skipExponentAfter _

theorem exponentAfter_exponentBytes (numeral : Numeral) {rest : Bytes} (h : EndsNumeral rest) :
    exponentAfter (numeral.exponentBytes ++ rest) = .ok ((), rest) := by
  have hletters : ∀ c ∈ ['e', 'E'], (ascii c = ascii 'e' || ascii c = ascii 'E') = true := by simp
  rw [Numeral.exponentBytes]
  cases numeral.exponent with
  | none =>
    rw [Option.map_none, Option.getD_none, List.nil_append]
    cases rest with
    | nil => rfl
    | cons b rest =>
      obtain ⟨-, hletter⟩ := h b rfl
      simp only [List.map_cons, List.mem_cons, not_or] at hletter
      simp [exponentAfter, hletter]
  | some exponent =>
    rw [Option.map_some, Option.getD_some, Exponent.bytes, List.cons_append, List.cons_append,
      exponentAfter, hletters _ exponent.isLetter, if_pos rfl, List.append_assoc]
    exact run_skipExponent exponent fun b hb => (h b hb).1

/-- An exponent, or what stands after a number, is neither digits nor a fraction. -/
theorem endsDigits_exponentBytes (numeral : Numeral) {rest : Bytes} (h : EndsNumeral rest) :
    ∀ b ∈ (numeral.exponentBytes ++ rest).head?, isDigit b = false ∧ b ≠ ascii '.' := by
  have hletters : ∀ c ∈ ['e', 'E'], isDigit (ascii c) = false ∧ ascii c ≠ ascii '.' := by
    rw [List.forall_mem_cons, List.forall_mem_singleton]
    decide
  intro b hb
  rw [Numeral.exponentBytes] at hb
  cases hexponent : numeral.exponent with
  | none =>
    rw [hexponent] at hb
    obtain ⟨hdigit, hpoint⟩ := h b hb
    simp only [List.map_cons, List.mem_cons, not_or] at hpoint
    exact ⟨hdigit, hpoint.1⟩
  | some exponent =>
    rw [hexponent] at hb
    obtain rfl : ascii exponent.letter = b := Option.some.inj hb
    exact hletters _ exponent.isLetter

theorem run_skipNumber_magnitude (numeral : Numeral) {rest : Bytes} (h : EndsNumeral rest) :
    Reader.run skipNumber (numeral.magnitude ++ rest) = .ok ((), rest) := by
  have hends := endsDigits_exponentBytes numeral h
  have hexponent := exponentAfter_exponentBytes numeral h
  rw [Numeral.magnitude, List.append_assoc, List.append_assoc, run_skipNumber,
    Numeral.fractionBytes]
  generalize numeral.exponentBytes ++ rest = tail at hends hexponent
  cases numeral.fraction with
  | none =>
    rw [Option.map_none, Option.getD_none, List.nil_append,
      run_skipInteger numeral fun b hb => (hends b hb).1]
    cases tail with
    | nil => exact hexponent
    | cons point tail =>
      simp only [bind, Except.bind, if_neg (hends point rfl).2, hexponent]
  | some digits =>
    have hpoint : ∀ b ∈ (ascii '.' :: (digits.bytes ++ tail)).head?, isDigit b = false := by
      intro b hb
      obtain rfl : ascii '.' = b := Option.some.inj hb
      rfl
    rw [Option.map_some, Option.getD_some, List.cons_append, run_skipInteger numeral hpoint]
    simp only [bind, Except.bind, if_true, run_skipDigits digits fun b hb => (hends b hb).1,
      hexponent]

/-- A word is read to its last letter. -/
theorem map_word {α : Type} {first : UInt8} (letters : List Char) (rest : Bytes) (value : α) :
    (word first letters (letters.map ascii ++ rest)).map (fun last => (value, last.rest)) =
      .ok (value, rest) := by
  induction letters generalizing first with
  | nil => rfl
  | cons c letters ih =>
    rw [← @ih (ascii c), List.map_cons, List.cons_append, word, if_pos rfl]
    cases word (ascii c) letters (letters.map ascii ++ rest) <;> rfl

theorem run_skipScalar (bytes : Bytes) :
    Reader.run skipScalar bytes =
      match first? bytes with
      | none => .error .endInValue
      | some (b, rest) =>
        if b = ascii 'n' then
          (word b ['u', 'l', 'l'] rest).map fun t => (t.value, t.rest)
        else if b = ascii 't' then
          (word b ['r', 'u', 'e'] rest).map fun t => (t.value, t.rest)
        else if b = ascii 'f' then
          (word b ['a', 'l', 's', 'e'] rest).map fun t => (t.value, t.rest)
        else if b = ascii '"' then Reader.run skipText rest
        else if b = ascii '-' then Reader.run skipNumber rest
        else if isDigit b then Reader.run skipNumber (b :: rest)
        else .error .expectedValue := by
  rw [Reader.run, skipScalar, first?]
  cases token? bytes with
  | none => rfl
  | some t =>
    obtain ⟨b, rest, fewer⟩ := t
    simp only [Option.map_some]
    split
    · cases word b ['u', 'l', 'l'] rest <;> rfl
    split
    · cases word b ['r', 'u', 'e'] rest <;> rfl
    split
    · cases word b ['a', 'l', 's', 'e'] rest <;> rfl
    split
    · rw [Reader.run]
      cases skipText rest <;> rfl
    split
    · rw [Reader.run]
      cases skipNumber rest <;> rfl
    split
    · rw [Reader.run]
      cases skipNumber (b :: rest) <;> rfl
    · rfl

/-- What is still due is passed over. -/
def goOn {bytes : Bytes} (due : Except Error (Due bytes)) : Except Error (Unit × Bytes) := do
  let due ← due
  match due.stillOpen with
  | none => .ok ((), due.rest)
  | some brackets => Reader.run (skipWithin brackets) due.rest

/-- How a value inside open brackets is passed over depends on what its first token opens. -/
theorem run_skipWithin (stillOpen : List Bracket) (bytes : Bytes) :
    Reader.run (skipWithin stillOpen) bytes =
      match (first? bytes).bind fun (b, rest) => (opening? b).map fun bracket => (bracket, rest) with
      | some (bracket, rest) => goOn (afterOpening bracket stillOpen rest)
      | none => (do
        let scalar ← Reader.run skipScalar bytes
        goOn (afterValue stillOpen scalar.2)) := by
  have hlast : Reader.run (skipWithin stillOpen) bytes = (do
      let step ← skipStep stillOpen bytes
      match step.value with
      | none => .ok ((), step.rest)
      | some brackets => Reader.run (skipWithin brackets) step.rest) := by
    rw [Reader.run, skipWithin]
    rcases skipStep stillOpen bytes with e | ⟨_ | brackets, rest, fewer⟩
    · rfl
    · rfl
    · simp only [bind, Except.bind]
      rw [Reader.run]
      cases skipWithin brackets rest <;> rfl
  have hscalar : (do
      let t ← skipScalar bytes
      let due ← afterValue stillOpen t.rest
      match due.stillOpen with
      | none => .ok ((), due.rest)
      | some brackets => Reader.run (skipWithin brackets) due.rest : Except Error (Unit × Bytes)) = (do
      let scalar ← Reader.run skipScalar bytes
      goOn (afterValue stillOpen scalar.2)) := by
    rw [Reader.run]
    cases skipScalar bytes <;> rfl
  rw [hlast, skipStep, first?]
  cases htoken : token? bytes with
  | none =>
    simp only [Option.map_none, Option.bind_none, bind_assoc]
    exact hscalar
  | some t =>
    cases hopening : opening? t.value with
    | none =>
      simp only [Option.map_some, Option.bind_some, hopening, Option.map_none, bind_assoc]
      exact hscalar
    | some bracket =>
      simp only [Option.map_some, Option.bind_some, hopening, bind_assoc]
      rfl

/-- How an object is passed over where a key is due. -/
def afterComma (outer : List Bracket) (bytes : Bytes) : Except Error (Unit × Bytes) := do
  let key ← Reader.run skipKey bytes
  Reader.run (skipWithin (.object :: outer)) key.2

theorem goOn_afterValue (bracket : Bracket) (outer : List Bracket) (bytes : Bytes) :
    goOn (afterValue (bracket :: outer) bytes) =
      match first? bytes with
      | none => .error bracket.endInside
      | some (b, rest) =>
        if b = ascii ',' then
          match bracket with
          | .list => Reader.run (skipWithin (.list :: outer)) rest
          | .object => afterComma outer rest
        else if b = bracket.closing then goOn (afterValue outer rest)
        else .error bracket.expectedComma := by
  rw [afterValue, first?]
  cases token? bytes with
  | none => rfl
  | some t =>
    simp only [Option.map_some]
    split
    · cases bracket with
      | list => rfl
      | object =>
        dsimp only
        rw [afterComma, Reader.run]
        cases skipKey t.rest <;> rfl
    split
    · cases afterValue outer t.rest <;> rfl
    · rfl

theorem goOn_afterOpening (bracket : Bracket) (outer : List Bracket) (bytes : Bytes) :
    goOn (afterOpening bracket outer bytes) =
      match first? bytes with
      | none => .error bracket.endInside
      | some (b, rest) =>
        if b = bracket.closing then goOn (afterValue outer rest)
        else
          match bracket with
          | .list => Reader.run (skipWithin (.list :: outer)) bytes
          | .object => afterComma outer bytes := by
  rw [afterOpening.eq_def, first?]
  cases token? bytes with
  | none => rfl
  | some t =>
    simp only [Option.map_some]
    split
    · cases afterValue outer t.rest <;> rfl
    · cases bracket with
      | list => rfl
      | object =>
        dsimp only
        rw [afterComma, Reader.run]
        cases skipKey bytes <;> rfl

theorem run_skipKey (bytes : Bytes) :
    Reader.run skipKey bytes =
      match first? bytes with
      | none => .error .endInObject
      | some (b, rest) =>
        if b = ascii '"' then (do
          let text ← Reader.run skipText rest
          Reader.run colon text.2)
        else .error .keyNotString := by
  rw [Reader.run, skipKey, first?]
  cases token? bytes with
  | none => rfl
  | some t =>
    simp only [Option.map_some]
    split
    · rw [Reader.run]
      rcases skipText t.rest with e | text
      · rfl
      simp only [bind, Except.bind, Except.map]
      rw [Reader.run]
      cases colon text.rest <;> rfl
    · rfl

theorem first?_token (gap : Blank) {b : UInt8} (h : isSpace b = false) (rest : Bytes) :
    first? (gap.bytes ++ b :: rest) = some (b, rest) := by
  rw [first?_blank, first?_cons h]

/-- A value is passed over wherever it stands, and all brackets around it stay as they are. -/
def Value.IsSkipped (value : Value) : Prop :=
  ∀ (stillOpen : List Bracket) (gap : Blank) (rest : Bytes), EndsNumeral rest →
    Reader.run (skipWithin stillOpen) (gap.bytes ++ (value.bytes ++ rest)) =
      goOn (afterValue stillOpen rest)

/-- A scalar is told by its first byte, which opens no bracket. -/
theorem isSkipped_of_scalar {value : Value} {b : UInt8} {more : Bytes}
    (hbytes : value.bytes = b :: more) (hspace : isSpace b = false) (hopening : opening? b = none)
    (h : ∀ (gap : Blank) (rest : Bytes), EndsNumeral rest →
      Reader.run skipScalar (gap.bytes ++ b :: (more ++ rest)) = .ok ((), rest)) :
    value.IsSkipped := by
  intro stillOpen gap rest hrest
  rw [hbytes, List.cons_append, run_skipWithin, first?_token gap hspace, h gap rest hrest]
  simp only [Option.bind_some, hopening, Option.map_none, bind, Except.bind]

theorem isSkipped_null : Value.IsSkipped .null := by
  apply isSkipped_of_scalar (b := ascii 'n') rfl rfl rfl
  intro gap rest _
  rw [run_skipScalar, first?_token gap rfl]
  exact map_word ['u', 'l', 'l'] rest ()

theorem isSkipped_boolean (value : Bool) : Value.IsSkipped (.boolean value) := by
  cases value with
  | true =>
    apply isSkipped_of_scalar (b := ascii 't') rfl rfl rfl
    intro gap rest _
    rw [run_skipScalar, first?_token gap rfl]
    exact map_word ['r', 'u', 'e'] rest ()
  | false =>
    apply isSkipped_of_scalar (b := ascii 'f') rfl rfl rfl
    intro gap rest _
    rw [run_skipScalar, first?_token gap rfl]
    exact map_word ['a', 'l', 's', 'e'] rest ()

theorem isSkipped_string (literal : Literal) : Value.IsSkipped (.string literal) := by
  apply isSkipped_of_scalar (b := ascii '"') rfl rfl rfl
  intro gap rest _
  rw [run_skipScalar, first?_token gap rfl]
  exact run_skipText literal rest

theorem isSkipped_number (numeral : Numeral) : Value.IsSkipped (.number numeral) := by
  cases hnegative : numeral.isNegative with
  | true =>
    have hbytes : (Value.number numeral).bytes = ascii '-' :: numeral.magnitude :=
      Numeral.bytes_of_isNegative hnegative
    apply isSkipped_of_scalar hbytes rfl rfl
    intro gap rest hrest
    rw [run_skipScalar, first?_token gap rfl]
    exact run_skipNumber_magnitude numeral hrest
  | false =>
    have hdigits : ∀ digit, isSpace (digitByte digit) = false ∧ opening? (digitByte digit) = none ∧
        digitByte digit ∉ ['n', 't', 'f', '"', '-'].map ascii := by decide
    obtain ⟨hspace, hopening, hother⟩ := hdigits numeral.integer.first
    simp only [List.map_cons, List.map_nil, List.mem_cons, List.not_mem_nil, or_false, not_or]
      at hother
    obtain ⟨hn, ht, hf, hquote, hminus⟩ := hother
    have hbytes : (Value.number numeral).bytes = numeral.magnitude :=
      Numeral.bytes_of_not_isNegative hnegative
    apply isSkipped_of_scalar hbytes hspace hopening
    intro gap rest hrest
    rw [run_skipScalar, first?_token gap hspace]
    simp only [if_neg hn, if_neg ht, if_neg hf, if_neg hquote, if_neg hminus, isDigit_digitByte,
      if_true]
    exact run_skipNumber_magnitude numeral hrest

theorem Value.exists_bytes_eq (value : Value) :
    ∃ b more, value.bytes = b :: more ∧ isSpace b = false ∧ b ≠ ascii ']' := by
  cases value with
  | null => exact ⟨_, _, rfl, rfl, by decide⟩
  | boolean value => cases value <;> exact ⟨_, _, rfl, rfl, by decide⟩
  | string literal => exact ⟨_, _, rfl, rfl, by decide⟩
  | list inside items => exact ⟨_, _, rfl, rfl, by decide⟩
  | object inside entries => exact ⟨_, _, rfl, rfl, by decide⟩
  | number numeral =>
    cases hnegative : numeral.isNegative with
    | true => exact ⟨_, _, Numeral.bytes_of_isNegative hnegative, rfl, by decide⟩
    | false =>
      have hdigits : ∀ digit, isSpace (digitByte digit) = false ∧ digitByte digit ≠ ascii ']' := by
        decide
      exact ⟨_, _, Numeral.bytes_of_not_isNegative hnegative, hdigits _⟩

/-- A list is not closed where a value begins. -/
theorem Value.exists_first?_eq (value : Value) (gap : Blank) (rest : Bytes) :
    ∃ b after, first? (gap.bytes ++ (value.bytes ++ rest)) = some (b, after) ∧ b ≠ ascii ']' := by
  obtain ⟨b, more, hbytes, hspace, hclosing⟩ := value.exists_bytes_eq
  refine ⟨b, more ++ rest, ?_, hclosing⟩
  rw [hbytes, List.cons_append, first?_token gap hspace]

/-- After an item comes a comma or a closing bracket, so a number ends there. -/
theorem endsNumeral_listed (after : Blank) (texts : List Bytes) (mark : Char)
    (h : mark ∈ [',', ']', '\x7d']) (rest : Bytes) :
    EndsNumeral (after.bytes ++ (listed false texts ++ ascii mark :: rest)) := by
  cases texts with
  | nil => exact endsNumeral_mark after h rest
  | cons text texts => exact endsNumeral_mark after List.mem_cons_self _

section

variable {items : List (Spaced Value)} {entries : List (Entry Value)}

/-- The items of a list that come after others are passed over up to the closing bracket. -/
theorem goOn_items (h : ∀ item ∈ items, item.inside.IsSkipped) (outer : List Bracket) (gap : Blank)
    (rest : Bytes) :
    goOn (afterValue (.list :: outer)
        (gap.bytes ++ (listed false (items.map (Spaced.bytes Value.bytes)) ++ ascii ']' :: rest))) =
      goOn (afterValue outer rest) := by
  induction items generalizing gap with
  | nil =>
    rw [goOn_afterValue, List.map_nil, listed, List.nil_append, first?_token gap rfl]
    rfl
  | cons item items ih =>
    rw [List.forall_mem_cons] at h
    rw [goOn_afterValue, List.map_cons, listed, placed, if_neg Bool.false_ne_true, List.cons_append,
      List.cons_append, first?_token gap rfl]
    simp only [if_true]
    rw [List.append_assoc, Spaced.bytes_append,
      h.1 _ _ _ (endsNumeral_listed item.after _ ']' (by decide) rest)]
    exact ih h.2 item.after

theorem isSkipped_list (h : ∀ item ∈ items, item.inside.IsSkipped) (inside : Blank) :
    Value.IsSkipped (.list inside items) := by
  intro stillOpen gap rest _
  have hopening : opening? (ascii '[') = some .list := rfl
  rw [Value.bytes_list_append, run_skipWithin, first?_token gap rfl]
  simp only [Option.bind_some, hopening, Option.map_some]
  rw [goOn_afterOpening]
  cases items with
  | nil =>
    rw [List.map_nil, listed, List.nil_append, first?_token inside rfl]
    rfl
  | cons item items =>
    rw [List.forall_mem_cons] at h
    let tail := item.after.bytes ++
      (listed false (items.map (Spaced.bytes Value.bytes)) ++ ascii ']' :: rest)
    have htail : EndsNumeral tail := endsNumeral_listed item.after _ ']' (by decide) rest
    have htext : inside.bytes ++ (listed true ((item :: items).map (Spaced.bytes Value.bytes)) ++
        ascii ']' :: rest) = (inside.append item.before).bytes ++ (item.inside.bytes ++ tail) := by
      rw [List.map_cons, listed, placed, if_pos rfl, List.append_assoc, Spaced.bytes_append,
        Blank.bytes_append, List.append_assoc]
    obtain ⟨b, after, hfirst, hclosing⟩ :=
      item.inside.exists_first?_eq (inside.append item.before) tail
    have hother : b ≠ Bracket.list.closing := hclosing
    rw [htext, hfirst]
    simp only [if_neg hother]
    rw [h.1 _ _ _ htail]
    exact goOn_items h.2 stillOpen item.after rest

/-- The first member of an object is passed over, and how it goes on after it. -/
theorem afterComma_entry {entry : Entry Value} (h : entry.value.inside.IsSkipped)
    (outer : List Bracket) (gap : Blank) {rest : Bytes}
    (hrest : EndsNumeral (entry.value.after.bytes ++ rest)) :
    afterComma outer (gap.bytes ++ (entry.bytes Value.bytes ++ rest)) =
      goOn (afterValue (.object :: outer) (entry.value.after.bytes ++ rest)) := by
  rw [Entry.bytes_append, afterComma, run_skipKey, first?_token _ rfl]
  simp only [if_true, run_skipText, bind, Except.bind]
  rw [run_colon, first?_token _ rfl]
  simp only [if_true]
  exact h _ _ _ hrest

/-- The members of an object that come after others are passed over up to the closing bracket. -/
theorem goOn_entries (h : ∀ entry ∈ entries, entry.value.inside.IsSkipped) (outer : List Bracket)
    (gap : Blank) (rest : Bytes) :
    goOn (afterValue (.object :: outer)
        (gap.bytes ++ (listed false (entries.map (Entry.bytes Value.bytes)) ++
          ascii '\x7d' :: rest))) =
      goOn (afterValue outer rest) := by
  induction entries generalizing gap with
  | nil =>
    rw [goOn_afterValue, List.map_nil, listed, List.nil_append, first?_token gap rfl]
    rfl
  | cons entry entries ih =>
    rw [List.forall_mem_cons] at h
    rw [goOn_afterValue, List.map_cons, listed, placed, if_neg Bool.false_ne_true, List.cons_append,
      List.cons_append, first?_token gap rfl]
    simp only [if_true, List.append_assoc]
    have hends := endsNumeral_listed entry.value.after
      (entries.map (Entry.bytes Value.bytes)) '\x7d' (by decide) rest
    exact (afterComma_entry h.1 outer .empty hends).trans (ih h.2 entry.value.after)

theorem isSkipped_object (h : ∀ entry ∈ entries, entry.value.inside.IsSkipped) (inside : Blank) :
    Value.IsSkipped (.object inside entries) := by
  intro stillOpen gap rest _
  have hopening : opening? (ascii '\x7b') = some .object := rfl
  rw [Value.bytes_object_append, run_skipWithin, first?_token gap rfl]
  simp only [Option.bind_some, hopening, Option.map_some]
  rw [goOn_afterOpening]
  cases entries with
  | nil =>
    rw [List.map_nil, listed, List.nil_append, first?_token inside rfl]
    rfl
  | cons entry entries =>
    rw [List.forall_mem_cons] at h
    have hends := endsNumeral_listed entry.value.after
      (entries.map (Entry.bytes Value.bytes)) '\x7d' (by decide) rest
    have hother : ascii '"' ≠ Bracket.object.closing := by decide
    rw [List.map_cons, listed, placed, if_pos rfl, List.append_assoc, Entry.bytes_append,
      first?_token _ rfl]
    simp only [if_neg hother]
    rw [← Entry.bytes_append, afterComma_entry h.1 stillOpen inside hends]
    exact goOn_entries h.2 stillOpen entry.value.after rest

end

mutual

/-- Every value is passed over. -/
theorem Value.isSkipped : ∀ value : Value, value.IsSkipped
  | .null => isSkipped_null
  | .boolean value => isSkipped_boolean value
  | .number numeral => isSkipped_number numeral
  | .string literal => isSkipped_string literal
  | .list inside items => isSkipped_list (forall_items_isSkipped items) inside
  | .object inside entries => isSkipped_object (forall_entries_isSkipped entries) inside

theorem forall_items_isSkipped : ∀ items : List (Spaced Value), ∀ item ∈ items, item.inside.IsSkipped
  | [], _, h => absurd h List.not_mem_nil
  | ⟨_, value, _⟩ :: items, item, h => by
    rcases List.mem_cons.mp h with rfl | h
    · exact value.isSkipped
    · exact forall_items_isSkipped items item h

theorem forall_entries_isSkipped :
    ∀ entries : List (Entry Value), ∀ entry ∈ entries, entry.value.inside.IsSkipped
  | [], _, h => absurd h List.not_mem_nil
  | ⟨_, ⟨_, value, _⟩⟩ :: entries, entry, h => by
    rcases List.mem_cons.mp h with rfl | h
    · exact value.isSkipped
    · exact forall_entries_isSkipped entries entry h

end

theorem run_skipValue (value : Value) (gap : Blank) {rest : Bytes} (h : EndsNumeral rest) :
    Reader.run skipValue (gap.bytes ++ (value.bytes ++ rest)) = .ok ((), rest) :=
  value.isSkipped [] gap rest h

end GettextTemplate.Json
