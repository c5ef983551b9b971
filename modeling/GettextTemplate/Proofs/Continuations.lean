import GettextTemplate.Proofs.LineBreaks
import Mathlib.Data.List.Basic

/-!
Where a written text is continued on another line. Its line feeds are those of the continuations, one
for each line break of the text and in the same places: what stands before such a line feed and after
it is what is written for the text before the line break and after it (`literalText_eq_append_iff`).
-/

namespace GettextTemplate.Template

/-- The number of line breaks in a text. A carriage return and a line feed that stand together are one,
and a carriage return that stands elsewhere is none. -/
def lineBreaks : List Char → Nat
  | [] => 0
  | '\r' :: '\n' :: rest => 1 + lineBreaks rest
  | c :: rest => (if c = '\n' then 1 else 0) + lineBreaks rest

/-- Induction along a text in which a carriage return takes the line feed after it with it. -/
@[elab_as_elim]
theorem break_induction {motive : List Char → Prop} (nil : motive [])
    (pair : ∀ rest, motive rest → motive ('\r' :: '\n' :: rest))
    (plain : ∀ c rest, (c = '\r' → rest.head? ≠ some '\n') → motive rest → motive (c :: rest))
    (text : List Char) : motive text := by
  induction text using lineBreaks.induct with
  | case1 => exact nil
  | case2 rest ih => exact pair rest ih
  | case3 c rest hpair ih =>
    apply plain c rest _ ih
    rintro rfl hhead
    obtain ⟨tail, rfl⟩ := List.head?_eq_some_iff.mp hhead
    exact hpair tail rfl rfl

theorem lineBreaks_plain {c : Char} {rest : List Char} (hc : c = '\r' → rest.head? ≠ some '\n') :
    lineBreaks (c :: rest) = (if c = '\n' then 1 else 0) + lineBreaks rest := by
  apply lineBreaks.eq_3
  rintro tail rfl rfl
  exact hc rfl rfl

theorem lineBreaks_eq_count (text : List Char) : lineBreaks text = text.count '\n' := by
  induction text using break_induction with
  | nil => rfl
  | pair rest ih => simp [lineBreaks, ih, Nat.add_comm]
  | plain c rest hc ih =>
    rw [lineBreaks_plain hc, List.count_cons, ih, Nat.add_comm]
    simp

/-- Whether a text falls into two at one of its line breaks. -/
def BreaksInto (text front back : List Char) : Prop :=
  text = front ++ '\r' :: '\n' :: back ∨
    text = front ++ '\n' :: back ∧ front.getLast? ≠ some '\r'

theorem BreaksInto.cons {c : Char} {rest front back : List Char} (h : BreaksInto rest front back)
    (hc : front = [] → c = '\r' → rest.head? ≠ some '\n') :
    BreaksInto (c :: rest) (c :: front) back := by
  rcases h with rfl | ⟨rfl, hlast⟩
  · exact .inl rfl
  · refine .inr ⟨rfl, ?_⟩
    cases front with
    | nil =>
      intro hreturn
      exact hc rfl (Option.some.inj hreturn) rfl
    | cons d front =>
      rw [List.getLast?_cons_cons]
      exact hlast

/-- A piece before a line break begins as the text does. -/
theorem BreaksInto.head?_eq {text front back : List Char} {c : Char} (h : BreaksInto text front back)
    (hfront : front.head? = some c) : text.head? = some c := by
  obtain ⟨tail, rfl⟩ := List.head?_eq_some_iff.mp hfront
  rcases h with rfl | ⟨rfl, _⟩
  · rfl
  · rfl

/-- What is written for a character that does not begin a pair of carriage return and line feed. -/
def writtenChar (c : Char) : List Char := rewriteBreak ['\\', 'n', '"', '\n', '"'] ['\\', 'r'] c

theorem feed_not_mem_writtenChar {c : Char} (hfeed : c ≠ '\n') : '\n' ∉ writtenChar c := by
  rw [writtenChar, rewriteBreak, if_neg hfeed]
  split
  · decide
  · simpa using hfeed.symm

theorem count_feed_writtenChar (c : Char) :
    (writtenChar c).count '\n' = if c = '\n' then 1 else 0 := by
  by_cases hfeed : c = '\n'
  · rw [hfeed]
    rfl
  · rw [if_neg hfeed]
    exact List.count_eq_zero.mpr (feed_not_mem_writtenChar hfeed)

theorem literalText_pair (rest : List Char) :
    literalText ('\r' :: '\n' :: rest) = writtenChar '\n' ++ literalText rest := by
  simp only [literalText_eq]
  rfl

theorem literalText_plain {c : Char} {rest : List Char} (hc : c = '\r' → rest.head? ≠ some '\n') :
    literalText (c :: rest) = writtenChar c ++ literalText rest := by
  simp only [literalText_eq, rewriteBreaks_eq_flatMap]
  rw [joinReturns_cons, if_neg (not_and.mpr hc), List.flatMap_cons]
  rfl

theorem count_feed_literalText (text : List Char) :
    (literalText text).count '\n' = lineBreaks text := by
  induction text using break_induction with
  | nil => rfl
  | pair rest ih =>
    rw [literalText_pair, List.count_append, ih]
    rfl
  | plain c rest hc ih =>
    rw [literalText_plain hc, lineBreaks_plain hc, List.count_append, count_feed_writtenChar, ih]

/-- A text can be written in two pieces if the cut is not within a line break. -/
theorem literalText_append {front rest : List Char}
    (hcut : front.getLast? = some '\r' → rest.head? ≠ some '\n') :
    literalText (front ++ rest) = literalText front ++ literalText rest := by
  induction front using break_induction with
  | nil => rfl
  | pair front ih =>
    have hlater : front.getLast? = some '\r' → rest.head? ≠ some '\n' := by
      intro hlast
      apply hcut
      exact List.mem_getLast?_cons (List.mem_getLast?_cons hlast)
    rw [List.cons_append, List.cons_append, literalText_pair, literalText_pair, ih hlater,
      List.append_assoc]
  | plain c front hc ih =>
    have hlater : front.getLast? = some '\r' → rest.head? ≠ some '\n' := by
      intro hlast
      apply hcut
      exact List.mem_getLast?_cons hlast
    have hjoined : c = '\r' → (front ++ rest).head? ≠ some '\n' := by
      rintro rfl
      cases front with
      | nil => exact hcut rfl
      | cons d front => exact hc rfl
    rw [List.cons_append, literalText_plain hjoined, literalText_plain hc, ih hlater,
      List.append_assoc]

theorem literalText_of_breaksInto {text front back : List Char} (h : BreaksInto text front back) :
    literalText text = literalText front ++ ['\\', 'n', '"'] ++ '\n' :: '"' :: literalText back := by
  have hfeed : literalText ('\n' :: back) = writtenChar '\n' ++ literalText back :=
    literalText_plain (fun hreturn => absurd hreturn (by decide))
  rcases h with rfl | ⟨rfl, hlast⟩
  · rw [literalText_append (fun _ => by simp), literalText_pair, List.append_assoc]
    rfl
  · rw [literalText_append (fun hreturn => absurd hreturn hlast), hfeed, List.append_assoc]
    rfl

/-- A line feed behind some characters without one is not among them. -/
theorem exists_of_append_eq_append {front rest before after : List Char} (hfront : '\n' ∉ front)
    (h : front ++ rest = before ++ '\n' :: after) :
    ∃ more, before = front ++ more ∧ rest = more ++ '\n' :: after := by
  rcases List.append_eq_append_iff.mp h with ⟨more, hbefore, hrest⟩ | ⟨more, hmore, hafter⟩
  · exact ⟨more, hbefore, hrest⟩
  · cases more with
    | nil => exact ⟨[], by simpa using hmore.symm, hafter.symm⟩
    | cons c more =>
      obtain ⟨rfl, _⟩ := List.cons.inj hafter
      exact absurd (hmore ▸ List.mem_append_right before List.mem_cons_self) hfront

/-- A line feed at or behind what is written for a character is that of a continuation or stands behind
it. -/
theorem eq_or_exists_of_writtenChar {c : Char} {rest before after : List Char}
    (h : writtenChar c ++ rest = before ++ '\n' :: after) :
    c = '\n' ∧ before = ['\\', 'n', '"'] ∨
      ∃ more, before = writtenChar c ++ more ∧ rest = more ++ '\n' :: after := by
  by_cases hfeed : c = '\n'
  · subst hfeed
    have hescape : '\n' ∉ ['\\', 'n', '"'] := by decide
    have hquote : '\n' ∉ ['"'] := by decide
    -- Two pieces of the continuation hold no line feed, and between them stands the one that it has.
    have hpieces : ['\\', 'n', '"'] ++ '\n' :: '"' :: rest = before ++ '\n' :: after := h
    obtain ⟨more, rfl, hmore⟩ := exists_of_append_eq_append hescape hpieces
    cases more with
    | nil => exact .inl ⟨rfl, rfl⟩
    | cons d more =>
      obtain ⟨rfl, hlater⟩ := List.cons.inj hmore
      have hbehind : ['"'] ++ rest = more ++ '\n' :: after := hlater
      obtain ⟨later, rfl, hrest⟩ := exists_of_append_eq_append hquote hbehind
      exact .inr ⟨later, rfl, hrest⟩
  · exact .inr (exists_of_append_eq_append (feed_not_mem_writtenChar hfeed) h)

/-- Each line feed of a written text is that of a continuation, which stands for a line break. -/
theorem exists_breaksInto {text before after : List Char}
    (h : literalText text = before ++ '\n' :: after) :
    ∃ front back, BreaksInto text front back ∧ before = literalText front ++ ['\\', 'n', '"'] := by
  induction text using break_induction generalizing before with
  | nil => simp [literalText_eq, rewriteBreaks] at h
  | pair rest ih =>
    rw [literalText_pair] at h
    rcases eq_or_exists_of_writtenChar h with ⟨_, rfl⟩ | ⟨more, rfl, hmore⟩
    · exact ⟨[], rest, .inl rfl, rfl⟩
    · obtain ⟨front, back, hbreaks, rfl⟩ := ih hmore
      have hfeed : BreaksInto ('\n' :: rest) ('\n' :: front) back := by
        apply hbreaks.cons
        intro _ hreturn
        cases hreturn
      refine ⟨'\r' :: '\n' :: front, back, hfeed.cons ?_, ?_⟩
      · intro hnil
        cases hnil
      · rw [literalText_pair, List.append_assoc]
  | plain c rest hc ih =>
    rw [literalText_plain hc] at h
    rcases eq_or_exists_of_writtenChar h with ⟨rfl, rfl⟩ | ⟨more, rfl, hmore⟩
    · have halone : BreaksInto ('\n' :: rest) [] rest := .inr ⟨rfl, by simp⟩
      exact ⟨[], rest, halone, rfl⟩
    · obtain ⟨front, back, hbreaks, rfl⟩ := ih hmore
      -- A longer piece begins as the text does, so the character does not begin a pair there either.
      have hfront : c = '\r' → front.head? ≠ some '\n' := by
        intro hreturn hhead
        exact hc hreturn (hbreaks.head?_eq hhead)
      refine ⟨c :: front, back, hbreaks.cons fun _ => hc, ?_⟩
      rw [literalText_plain hfront, List.append_assoc]

theorem literalText_eq_append_iff {text before after : List Char} :
    literalText text = before ++ '\n' :: after ↔
      ∃ front back, BreaksInto text front back ∧
        before = literalText front ++ ['\\', 'n', '"'] ∧ after = '"' :: literalText back := by
  constructor
  · intro h
    obtain ⟨front, back, hbreaks, rfl⟩ := exists_breaksInto h
    rw [literalText_of_breaksInto hbreaks] at h
    exact ⟨front, back, hbreaks, rfl, (List.cons.inj (List.append_cancel_left h)).2.symm⟩
  · rintro ⟨front, back, hbreaks, rfl, rfl⟩
    exact literalText_of_breaksInto hbreaks

/-- The three replacements of a written text are one scan. What it writes holds no carriage return, and
its line feeds are in the middle of continuations: one for each line break, behind what is written for
the text before it, and before what is written for the text after it. Two texts are written in the
same way exactly if they are the same when their line breaks are of one kind and their stray carriage
returns are escaped. -/
theorem literalText_is_one_scan (text : List Char) :
    literalText text = rewriteBreaks ['\\', 'n', '"', '\n', '"'] ['\\', 'r'] text ∧
    '\r' ∉ literalText text ∧
    (∀ before after, literalText text = before ++ '\n' :: after ↔
      ∃ front back, BreaksInto text front back ∧
        before = literalText front ++ ['\\', 'n', '"'] ∧ after = '"' :: literalText back) ∧
    (literalText text).count '\n' = lineBreaks text ∧ lineBreaks text = text.count '\n' ∧
    ∀ other, literalText text = literalText other ↔
      escapeReturns (joinReturns text) = escapeReturns (joinReturns other) := by
  refine ⟨literalText_eq text, return_not_mem_literalText text, fun before after =>
    literalText_eq_append_iff, count_feed_literalText text, lineBreaks_eq_count text,
    fun other => ?_⟩
  rw [escapeReturns_joinReturns, escapeReturns_joinReturns]
  exact literalText_eq_iff text other

end GettextTemplate.Template
