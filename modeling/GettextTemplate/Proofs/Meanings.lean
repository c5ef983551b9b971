import GettextTemplate.Proofs.Escapes
import GettextTemplate.Proofs.Reading

/-!
Whether a text keeps its meaning when it is written. A line break is written as an escape, and if the
text has a backslash right in front of it, that backslash makes a pair with the backslash of the
escape, so a reader finds a backslash and a letter (`meaning_joinedText`). Everywhere else the line
breaks come back, so `pairedBreaks` tells which texts keep their meaning.
-/

namespace GettextTemplate

namespace Literal

/-- The number of backslashes that make a pair with a carriage return or a line feed. -/
def pairedBreaks : List Char → Nat
  | [] => 0
  | ['\\'] => 0
  | '\\' :: c :: rest => (if c = '\n' ∨ c = '\r' then 1 else 0) + pairedBreaks rest
  | _ :: rest => pairedBreaks rest

theorem pairedBreaks_pair (c : Char) (rest : List Char) :
    pairedBreaks ('\\' :: c :: rest) =
      (if c = '\n' ∨ c = '\r' then 1 else 0) + pairedBreaks rest := rfl

theorem pairedBreaks_plain {c : Char} {rest : List Char} (hplain : c ≠ '\\') :
    pairedBreaks (c :: rest) = pairedBreaks rest := by
  simp [pairedBreaks, hplain]

theorem pairedBreaks_escapeUnpaired (text : List Char) :
    pairedBreaks (escapeUnpaired text) = pairedBreaks text := by
  induction text using scan_induction with
  | nil => rfl
  | lone => rfl
  | pair c rest ih => exact congrArg ((if c = '\n' ∨ c = '\r' then 1 else 0) + ·) ih
  | plain c rest hplain ih =>
    rw [escapeUnpaired_plain hplain, pairedBreaks_plain hplain, ← ih]
    by_cases hquote : c = '"'
    · rw [if_pos hquote]
      exact Nat.zero_add _
    · rw [if_neg hquote, pairedBreaks_plain hplain]

/-- What a reader finds in the place of a pair of the text after the escapes for line breaks were put
in. -/
def writtenPair (c : Char) : List Char :=
  if c = '\n' then ['\\', 'n'] else if c = '\r' then ['\\', 'r'] else [paired c]

theorem writtenPair_of_not_break {c : Char} (hbreak : ¬(c = '\n' ∨ c = '\r')) :
    writtenPair c = [paired c] := by
  rw [not_or] at hbreak
  rw [writtenPair, if_neg hbreak.1, if_neg hbreak.2]

theorem length_writtenPair (c : Char) :
    (writtenPair c).length = 1 + if c = '\n' ∨ c = '\r' then 1 else 0 := by
  by_cases hbreak : c = '\n' ∨ c = '\r'
  · rw [if_pos hbreak]
    rcases hbreak with rfl | rfl <;> rfl
  · rw [if_neg hbreak, writtenPair_of_not_break hbreak]
    rfl

theorem length_readPairs_writtenPair (text : List Char) :
    (readPairs writtenPair text).length = (meaning text).length + pairedBreaks text := by
  induction text using scan_induction with
  | nil => rfl
  | lone => rfl
  | pair c rest ih =>
    simp only [readPairs, meaning, pairedBreaks_pair, List.length_append, List.length_cons,
      length_writtenPair, ih]
    omega
  | plain c rest hplain ih =>
    simp only [readPairs_plain hplain, meaning_plain hplain, pairedBreaks_plain hplain,
      List.length_cons, ih]
    omega

theorem readPairs_writtenPair_of_none {text : List Char} (hnone : pairedBreaks text = 0) :
    readPairs writtenPair text = meaning text := by
  induction text using scan_induction with
  | nil => rfl
  | lone => rfl
  | pair c rest ih =>
    rw [pairedBreaks_pair, Nat.add_eq_zero_iff] at hnone
    have hbreak : ¬(c = '\n' ∨ c = '\r') := fun hbreak => by simp [hbreak] at hnone
    rw [readPairs, writtenPair_of_not_break hbreak, ih hnone.2]
    rfl
  | plain c rest hplain ih =>
    rw [pairedBreaks_plain hplain] at hnone
    rw [readPairs_plain hplain, meaning_plain hplain, ih hnone]

/-- Each backslash that makes a pair with a break costs one character more, so one of them is
enough to tell the two texts apart. -/
theorem readPairs_writtenPair_eq_iff (text : List Char) :
    readPairs writtenPair text = meaning text ↔ pairedBreaks text = 0 := by
  refine ⟨fun hsame => ?_, readPairs_writtenPair_of_none⟩
  have hlength := length_readPairs_writtenPair text
  rw [hsame] at hlength
  omega

end Literal

namespace Template

open Literal

theorem pairedBreaks_joinReturns (text : List Char) :
    pairedBreaks (joinReturns text) = pairedBreaks text := by
  induction text using scan_induction with
  | nil => rfl
  | lone => rfl
  | pair c rest ih =>
    rw [joinReturns_cons, if_neg (fun h => absurd h.1 (by decide)), joinReturns_cons,
      pairedBreaks_pair]
    by_cases hbreak : c = '\r' ∧ rest.head? = some '\n'
    · -- The pair of backslash and carriage return becomes one of backslash and line feed.
      obtain ⟨tail, rfl⟩ := List.head?_eq_some_iff.mp hbreak.2
      rw [if_pos hbreak]
      rw [joinReturns_cons, if_neg (fun h => absurd h.1 (by decide))] at ih ⊢
      rw [pairedBreaks_plain (by decide)] at ih
      rw [pairedBreaks_pair, ih, pairedBreaks_plain (by decide), if_pos (.inl rfl),
        if_pos (.inr hbreak.1)]
    · rw [if_neg hbreak, pairedBreaks_pair, ih]
  | plain c rest hplain ih =>
    rw [joinReturns_cons, pairedBreaks_plain hplain, ← ih]
    by_cases hbreak : c = '\r' ∧ rest.head? = some '\n'
    · rw [if_pos hbreak]
    · rw [if_neg hbreak, pairedBreaks_plain hplain]

theorem meaning_flatMap_rewriteBreak (text : List Char) :
    meaning (text.flatMap (rewriteBreak ['\\', 'n'] ['\\', 'r'])) = readPairs writtenPair text := by
  induction text using scan_induction with
  | nil => rfl
  | lone => rfl
  | pair c rest ih =>
    rw [readPairs, ← ih]
    by_cases hfeed : c = '\n'
    · subst hfeed
      rfl
    by_cases hreturn : c = '\r'
    · subst hreturn
      rfl
    have hbreak : ¬(c = '\n' ∨ c = '\r') := not_or.mpr ⟨hfeed, hreturn⟩
    have hsame : rewriteBreak ['\\', 'n'] ['\\', 'r'] c = [c] := by
      rw [rewriteBreak, if_neg hfeed, if_neg hreturn]
    rw [List.flatMap_cons, List.flatMap_cons, hsame, writtenPair_of_not_break hbreak]
    rfl
  | plain c rest hplain ih =>
    rw [readPairs_plain hplain, ← ih, List.flatMap_cons]
    by_cases hfeed : c = '\n'
    · subst hfeed
      rfl
    by_cases hreturn : c = '\r'
    · subst hreturn
      rfl
    rw [rewriteBreak, if_neg hfeed, if_neg hreturn, List.singleton_append, meaning_plain hplain]

/-- The meaning of a written text: its line breaks come back, except that a backslash in front of one
stays, and a letter takes the place of the break. -/
theorem meaning_joinedText (text : List Char) :
    meaning (joinedText text) = readPairs writtenPair (joinReturns text) := by
  rw [joinedText, rewriteBreaks_eq_flatMap, meaning_flatMap_rewriteBreak]

theorem mapM_literal?_textLines {text : List Char} (htext : isBody text = true) :
    ∃ segments, (textLines text).mapM Line.literal? = some segments ∧
      segments.flatten = joinedText text := by
  obtain ⟨first, later, hliterals, hjoined, hbodies⟩ := exists_literals_eq text
  refine ⟨first :: later, ?_, hjoined⟩
  have hread : ∀ body, isBody body = true → Line.literal? (quoted body) = some body :=
    fun body hbody => by rw [literal?_quoted, if_pos hbody]
  rw [textLines_eq, hliterals, mapM_quoted hread (hbodies.mpr htext), List.map_id']

/-- The literals that an escaped text is written in can be read and joined. Their meaning is that of
the text, with the kinds of line breaks made one, exactly if no backslash of the value makes a pair
with a break. -/
theorem meaning_kept_iff (value : List Char) :
    ∃ segments, (textLines (escapeUnpaired value)).mapM Line.literal? = some segments ∧
      meaning segments.flatten = readPairs writtenPair (joinReturns (escapeUnpaired value)) ∧
      (meaning segments.flatten = meaning (joinReturns (escapeUnpaired value)) ↔
        pairedBreaks value = 0) := by
  obtain ⟨segments, hread, hjoined⟩ := mapM_literal?_textLines (isBody_escapeUnpaired value)
  refine ⟨segments, hread, ?_, ?_⟩
  · rw [hjoined, meaning_joinedText]
  · rw [hjoined, meaning_joinedText, readPairs_writtenPair_eq_iff, pairedBreaks_joinReturns,
      pairedBreaks_escapeUnpaired]

/-- A line feed right after a backslash is read back as a letter. -/
theorem meaning_of_continued_line :
    ∃ segments,
      (textLines (escapeUnpaired ['a', '\\', '\n', 'b'])).mapM Line.literal? = some segments ∧
      meaning segments.flatten = ['a', '\\', 'n', 'b'] ∧
      meaning (joinReturns (escapeUnpaired ['a', '\\', '\n', 'b'])) = ['a', '\n', 'b'] :=
  ⟨[['a', '\\', '\\', 'n'], ['b']], by decide, by decide, by decide⟩

end Template

end GettextTemplate
