import GettextTemplate.Proofs.Bodies

/-!
What becomes of line breaks. A text is written by three replacements, one after the other;
`rewriteBreaks` tells them as one scan, and what is known of written texts follows from it: they
hold no carriage return, their literals join to `joinedText`, and two of them are the same only if
their texts have the same breaks.
-/

namespace GettextTemplate.Template

/-- What is put for a character that does not begin a pair of carriage return and line feed. -/
def rewriteBreak (lineBreak stray : List Char) (c : Char) : List Char :=
  if c = '\n' then lineBreak else if c = '\r' then stray else [c]

/-- Puts one text for each line break, which is a line feed alone or after a carriage return, and
another for each carriage return that stands elsewhere. -/
def rewriteBreaks (lineBreak stray : List Char) : List Char → List Char
  | [] => []
  | '\r' :: '\n' :: rest => lineBreak ++ rewriteBreaks lineBreak stray rest
  | c :: rest => rewriteBreak lineBreak stray c ++ rewriteBreaks lineBreak stray rest

/-- The text of a message as a reader joins it from its literals. -/
def joinedText (text : List Char) : List Char := rewriteBreaks ['\\', 'n'] ['\\', 'r'] text

theorem rewriteBreaks_eq_flatMap (lineBreak stray text : List Char) :
    rewriteBreaks lineBreak stray text =
      (joinReturns text).flatMap (rewriteBreak lineBreak stray) := by
  fun_induction rewriteBreaks lineBreak stray text with
  | case1 => rfl
  | case2 rest ih => simp [joinReturns, rewriteBreak, ih]
  | case3 c rest hpair ih =>
    have hbreak : ¬(c = '\r' ∧ rest.head? = some '\n') := by
      rintro ⟨rfl, hhead⟩
      obtain ⟨tail, rfl⟩ := List.head?_eq_some_iff.mp hhead
      exact hpair tail rfl rfl
    rw [joinReturns_cons, if_neg hbreak, List.flatMap_cons, ih]

theorem escapeReturns_joinReturns (text : List Char) :
    escapeReturns (joinReturns text) = rewriteBreaks ['\n'] ['\\', 'r'] text := by
  have hsame : (fun c => if c = '\r' then ['\\', 'r'] else [c]) = rewriteBreak ['\n'] ['\\', 'r'] := by
    funext c
    by_cases hfeed : c = '\n' <;> simp [rewriteBreak, hfeed]
  rw [rewriteBreaks_eq_flatMap, escapeReturns, hsame]

/-- A further replacement that leaves all else alone can be made in what is put for the breaks. -/
theorem flatMap_rewriteBreaks {f : Char → List Char} (lineBreak stray text : List Char)
    (hf : ∀ c, c ≠ '\n' → c ≠ '\r' → f c = [c]) :
    (rewriteBreaks lineBreak stray text).flatMap f =
      rewriteBreaks (lineBreak.flatMap f) (stray.flatMap f) text := by
  rw [rewriteBreaks_eq_flatMap, rewriteBreaks_eq_flatMap, List.flatMap_assoc]
  congr 1
  funext c
  by_cases hfeed : c = '\n'
  · simp [rewriteBreak, hfeed]
  · by_cases hreturn : c = '\r'
    · simp [rewriteBreak, hreturn]
    · simp [rewriteBreak, hfeed, hreturn, hf c hfeed hreturn]

/-- The three replacements of a written text are one scan. -/
theorem literalText_eq (text : List Char) :
    literalText text = rewriteBreaks ['\\', 'n', '"', '\n', '"'] ['\\', 'r'] text := by
  rw [literalText, escapeReturns_joinReturns, continueLines]
  apply flatMap_rewriteBreaks
  intro c hfeed _
  exact if_neg hfeed

theorem joinedText_eq_flatMap (text : List Char) :
    joinedText text =
      (escapeReturns (joinReturns text)).flatMap fun c =>
        if c = '\n' then ['\\', 'n'] else [c] := by
  rw [escapeReturns_joinReturns, joinedText]
  symm
  apply flatMap_rewriteBreaks
  intro c hfeed _
  exact if_neg hfeed

theorem return_not_mem_literalText (text : List Char) : '\r' ∉ literalText text := by
  rw [literalText_eq, rewriteBreaks_eq_flatMap, List.mem_flatMap]
  rintro ⟨c, _, hc⟩
  unfold rewriteBreak at hc
  split at hc
  · simp at hc
  split at hc
  · simp at hc
  · next hreturn => exact hreturn (List.mem_singleton.mp hc).symm

/-- A character of a continued text that no continuation begins with is a character of the text. -/
theorem continueLines_eq_cons {text rest : List Char} {c : Char} (hc : c ≠ '\\')
    (h : continueLines text = c :: rest) :
    c ≠ '\n' ∧ ∃ later, text = c :: later ∧ continueLines later = rest := by
  cases text with
  | nil => cases h
  | cons d later =>
    rw [continueLines_cons] at h
    by_cases hfeed : d = '\n'
    · rw [if_pos hfeed] at h
      exact absurd (List.cons.inj h).1.symm hc
    · rw [if_neg hfeed] at h
      obtain ⟨rfl, hlater⟩ := List.cons.inj h
      exact ⟨hfeed, later, rfl, hlater⟩

/-- What stands after the backslash of a continuation cannot be the beginning of a continued text:
its line feed would be a character of the text. -/
theorem continueLines_ne_continuation (text rest : List Char) :
    continueLines text ≠ 'n' :: '"' :: '\n' :: rest := by
  intro h
  obtain ⟨_, afterLetter, rfl, hletter⟩ := continueLines_eq_cons (by decide) h
  obtain ⟨_, afterQuote, rfl, hquote⟩ := continueLines_eq_cons (by decide) hletter
  exact (continueLines_eq_cons (by decide) hquote).1 rfl

theorem continueLines_inj {a b : List Char} (h : continueLines a = continueLines b) : a = b := by
  induction a generalizing b with
  | nil =>
    cases b with
    | nil => rfl
    | cons d b =>
      rw [continueLines_cons] at h
      by_cases hfeed : d = '\n' <;> simp [hfeed, continueLines] at h
  | cons c a ih =>
    cases b with
    | nil =>
      rw [continueLines_cons] at h
      by_cases hfeed : c = '\n' <;> simp [hfeed, continueLines] at h
    | cons d b =>
      rw [continueLines_cons, continueLines_cons] at h
      by_cases hc : c = '\n' <;> by_cases hd : d = '\n'
      · rw [if_pos hc, if_pos hd] at h
        rw [hc, hd, ih (List.append_cancel_left h)]
      · rw [if_pos hc, if_neg hd] at h
        exact absurd (List.cons.inj h).2.symm (continueLines_ne_continuation b _)
      · rw [if_neg hc, if_pos hd] at h
        exact absurd (List.cons.inj h).2 (continueLines_ne_continuation a _)
      · rw [if_neg hc, if_neg hd] at h
        obtain ⟨rfl, hrest⟩ := List.cons.inj h
        rw [ih hrest]

/-- Texts are written in the same way exactly if they have the same line breaks, of either kind, and
the same text otherwise, in which the escape stands for a stray carriage return. -/
theorem literalText_eq_iff (a b : List Char) :
    literalText a = literalText b ↔
      rewriteBreaks ['\n'] ['\\', 'r'] a = rewriteBreaks ['\n'] ['\\', 'r'] b := by
  rw [literalText, literalText, escapeReturns_joinReturns, escapeReturns_joinReturns]
  exact ⟨continueLines_inj, congrArg continueLines⟩

end GettextTemplate.Template
