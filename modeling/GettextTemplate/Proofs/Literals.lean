import GettextTemplate.Proofs.Grammar

/-!
Strings as they may be written. A string is read as the text that its pieces stand for, whether its
characters are escaped or not (`run_readText`), and passed over whatever its pieces are, also when
they make no text (`run_skipText`).
-/

namespace GettextTemplate.Json

theorem exists_taken {α : Type} {reader : Reader α} {bytes rest : Bytes} {value : α}
    (h : reader.run bytes = .ok (value, rest)) : ∃ fewer, reader bytes = .ok ⟨value, rest, fewer⟩ := by
  rw [Reader.run] at h
  cases htaken : reader bytes with
  | error e =>
    rw [htaken] at h
    cases h
  | ok t =>
    rw [htaken] at h
    cases h
    exact ⟨t.fewer, rfl⟩

theorem hexDigit?_byte : ∀ digit : HexDigit, hexDigit? digit.byte = some digit.value.val
  | ⟨value, isUpper⟩ => by
    revert value isUpper
    decide

theorem run_codeUnit (unit : CodeUnit) (rest : Bytes) :
    Reader.run codeUnit (unit.bytes ++ rest) = .ok (unit.value, rest) := by
  simp only [Reader.run, CodeUnit.bytes, List.cons_append, List.nil_append, codeUnit, hexDigit?_byte]
  rfl

theorem run_trailingUnit (bytes : Bytes) :
    Reader.run trailingUnit (ascii '\\' :: ascii 'u' :: bytes) = Reader.run codeUnit bytes := by
  simp only [Reader.run, trailingUnit, ne_eq, not_true_eq_false, if_false]
  cases codeUnit bytes <;> rfl

/-- A code unit that is no half of a pair is a character. -/
theorem run_codePoint_unit {unit : CodeUnit} (hleading : unit.isLeading = false)
    (htrailing : unit.isTrailing = false) (rest : Bytes) :
    Reader.run codePoint (unit.bytes ++ rest) = .ok (Char.ofNat unit.value, rest) := by
  obtain ⟨fewer, hunit⟩ := exists_taken (run_codeUnit unit rest)
  rw [CodeUnit.isLeading] at hleading
  rw [CodeUnit.isTrailing] at htrailing
  simp only [Reader.run, codePoint, hunit, bind, Except.bind, hleading, htrailing]
  rfl

theorem run_codePoint_pair {leading trailing : CodeUnit} (hleading : leading.isLeading = true)
    (htrailing : trailing.isTrailing = true) (rest : Bytes) :
    Reader.run codePoint (leading.bytes ++ ((Piece.coded trailing).bytes ++ rest)) =
      .ok (leading.pair trailing, rest) := by
  have hother : leading.isTrailing = false := by
    rw [CodeUnit.isLeading, Bool.and_eq_true, decide_eq_true_eq, decide_eq_true_eq] at hleading
    rw [CodeUnit.isTrailing, Bool.and_eq_false_iff, decide_eq_false_iff_not]
    omega
  obtain ⟨fewer, hunit⟩ :=
    exists_taken (run_codeUnit leading ((Piece.coded trailing).bytes ++ rest))
  obtain ⟨fewer', hunit'⟩ :=
    exists_taken ((run_trailingUnit (trailing.bytes ++ rest)).trans (run_codeUnit trailing rest))
  rw [CodeUnit.isLeading] at hleading
  rw [CodeUnit.isTrailing] at htrailing hother
  simp only [Reader.run, codePoint, hunit, bind, Except.bind, hleading, hother]
  simp only [Piece.bytes, List.cons_append, hunit', htrailing, Bool.false_eq_true, if_true, if_false]
  simp only [Except.map, pure, Except.pure, Taken.andThen, Taken.map, CodeUnit.pair]

theorem simpleEscape?_of_mem {letter c : Char} (h : (letter, c) ∈ escapes) :
    simpleEscape? (ascii letter) = some c := by
  have hall : ∀ pair ∈ escapes, simpleEscape? (ascii pair.1) = some pair.2 := by decide
  exact hall _ h

theorem run_escapedChar_letter {letter c : Char} (h : (letter, c) ∈ escapes) (rest : Bytes) :
    Reader.run escapedChar (ascii letter :: rest) = .ok (c, rest) := by
  rw [Reader.run, escapedChar, simpleEscape?_of_mem h]
  rfl

theorem run_escapedChar_unit (bytes : Bytes) :
    Reader.run escapedChar (ascii 'u' :: bytes) = Reader.run codePoint bytes := by
  have hletter : simpleEscape? (ascii 'u') = none := rfl
  rw [Reader.run, escapedChar, hletter, Reader.run]
  cases codePoint bytes <;> rfl

theorem run_contentFrom_quote (done rest : Bytes) :
    Reader.run (contentFrom done) (ascii '"' :: rest) = .ok (done.reverse, rest) := by
  rw [Reader.run, contentFrom]
  rfl

/-- The content of a string is read as the characters of its pieces. -/
theorem run_contentFrom_pieces {pieces : List Piece} {chars : List Char}
    (h : Piece.decode pieces = some chars) (done rest : Bytes) :
    Reader.run (contentFrom done) (pieces.flatMap Piece.bytes ++ ascii '"' :: rest) =
      .ok (done.reverse ++ chars.flatMap String.utf8EncodeChar, rest) := by
  fun_induction Piece.decode pieces generalizing chars done with
  | case1 =>
    cases h
    rw [List.flatMap_nil, List.nil_append, run_contentFrom_quote, List.flatMap_nil, List.append_nil]
  | case2 c hplain pieces ih =>
    obtain ⟨chars, hchars, rfl⟩ := Option.map_eq_some_iff.mp h
    rw [List.flatMap_cons, List.append_assoc, Piece.bytes, run_contentFrom_plains fun b =>
      isPlain_of_mem_utf8EncodeChar hplain.1 hplain.2.1 hplain.2.2, ih hchars]
    simp
  | case3 letter c hescape pieces ih =>
    obtain ⟨chars, hchars, rfl⟩ := Option.map_eq_some_iff.mp h
    rw [List.flatMap_cons, List.append_assoc, Piece.bytes, List.cons_append, List.cons_append,
      run_contentFrom_escaped (run_escapedChar_letter hescape _), List.nil_append, ih hchars]
    simp
  | case4 unit hleading trailing pieces htrailing ih =>
    obtain ⟨chars, hchars, rfl⟩ := Option.map_eq_some_iff.mp h
    rw [List.flatMap_cons, List.flatMap_cons, List.append_assoc, List.append_assoc, Piece.bytes,
      List.cons_append, List.cons_append, run_contentFrom_escaped
        ((run_escapedChar_unit _).trans (run_codePoint_pair hleading htrailing _)), ih hchars]
    simp
  | case5 => cases h
  | case6 => cases h
  | case7 => cases h
  | case8 unit pieces hleading htrailing ih =>
    obtain ⟨chars, hchars, rfl⟩ := Option.map_eq_some_iff.mp h
    rw [Bool.not_eq_true] at hleading htrailing
    rw [List.flatMap_cons, List.append_assoc, Piece.bytes, List.cons_append, List.cons_append,
      run_contentFrom_escaped
        ((run_escapedChar_unit _).trans (run_codePoint_unit hleading htrailing _)), ih hchars]
    simp

theorem run_readText {literal : Literal} {text : String} (h : literal.text? = some text)
    (rest : Bytes) : Reader.run readText (literal.rest ++ rest) = .ok (text, rest) := by
  obtain ⟨chars, hchars, rfl⟩ := Option.map_eq_some_iff.mp h
  have hutf8 : chars.flatMap String.utf8EncodeChar = utf8 (String.ofList chars) := by
    rw [utf8_eq_flatMap, String.toList_ofList]
  obtain ⟨fewer, hcontent⟩ := exists_taken (run_contentFrom_pieces hchars [] rest)
  rw [List.reverse_nil, List.nil_append, hutf8] at hcontent
  rw [Literal.rest, List.append_assoc, List.singleton_append, Reader.run, readText, hcontent]
  simp only [bind, Except.bind, fromUTF8?_utf8]
  rfl

theorem run_skipText_quote (rest : Bytes) :
    Reader.run skipText (ascii '"' :: rest) = .ok ((), rest) := by
  rw [Reader.run, skipText.eq_def]
  rfl

theorem run_skipText_plains {text : Bytes} (h : ∀ b ∈ text, IsPlain b) (rest : Bytes) :
    Reader.run skipText (text ++ rest) = Reader.run skipText rest := by
  induction text with
  | nil => rfl
  | cons b text ih =>
    rw [List.forall_mem_cons] at h
    obtain ⟨⟨hquote, hslash, hcontrol⟩, hlater⟩ := h
    rw [← ih hlater, List.cons_append, Reader.run, skipText.eq_def]
    simp only [if_neg hquote, if_neg hslash, if_neg hcontrol]
    rw [Reader.run]
    cases skipText (text ++ rest) <;> rfl

theorem run_skipText_letter {letter c : Char} (h : (letter, c) ∈ escapes) (rest : Bytes) :
    Reader.run skipText (ascii '\\' :: ascii letter :: rest) = Reader.run skipText rest := by
  have hquote : ascii '\\' ≠ ascii '"' := by decide
  rw [Reader.run, skipText.eq_def]
  simp only [if_neg hquote, if_true, simpleEscape?_of_mem h, Option.isSome_some]
  rw [Reader.run]
  cases skipText rest <;> rfl

theorem run_skipText_unit (unit : CodeUnit) (rest : Bytes) :
    Reader.run skipText (ascii '\\' :: ascii 'u' :: (unit.bytes ++ rest)) =
      Reader.run skipText rest := by
  have hquote : ascii '\\' ≠ ascii '"' := by decide
  have hletter : (simpleEscape? (ascii 'u')).isSome = false := rfl
  obtain ⟨fewer, hunit⟩ := exists_taken (run_codeUnit unit rest)
  rw [Reader.run, skipText.eq_def]
  simp only [if_neg hquote, if_true, hletter, Bool.false_eq_true, if_false, hunit, bind, Except.bind]
  rw [Reader.run]
  cases skipText rest <;> rfl

theorem run_skipText_piece (piece : Piece) (rest : Bytes) :
    Reader.run skipText (piece.bytes ++ rest) = Reader.run skipText rest := by
  cases piece with
  | plain c hplain =>
    exact run_skipText_plains
      (fun b => isPlain_of_mem_utf8EncodeChar hplain.1 hplain.2.1 hplain.2.2) rest
  | escape letter c hescape => exact run_skipText_letter hescape rest
  | coded unit => exact run_skipText_unit unit rest

theorem run_skipText (literal : Literal) (rest : Bytes) :
    Reader.run skipText (literal.rest ++ rest) = .ok ((), rest) := by
  rw [Literal.rest, List.append_assoc]
  induction literal.pieces with
  | nil => exact run_skipText_quote rest
  | cons piece pieces ih => rw [List.flatMap_cons, List.append_assoc, run_skipText_piece, ih]

end GettextTemplate.Json
