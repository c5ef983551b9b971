import GettextTemplate.Template.Reader

/-!
Which texts make valid literals. A text that is written into a template is split into one literal
for each line, and these are all closed exactly when the text was a body to begin with. The escape
of every quote makes a body of some texts only, and `hasSoundPairs` tells which.
-/

namespace GettextTemplate

namespace Literal

/-- Whether no backslash makes a pair with a quote or ends the text without a pair. -/
def hasSoundPairs : List Char → Bool
  | [] => true
  | ['\\'] => false
  | '\\' :: c :: rest => c ≠ '"' && hasSoundPairs rest
  | _ :: rest => hasSoundPairs rest

theorem hasSoundPairs_pair (c : Char) (rest : List Char) :
    hasSoundPairs ('\\' :: c :: rest) = (c ≠ '"' && hasSoundPairs rest) := rfl

theorem hasSoundPairs_plain {c : Char} {rest : List Char} (hplain : c ≠ '\\') :
    hasSoundPairs (c :: rest) = hasSoundPairs rest := by
  simp [hasSoundPairs, hplain]

theorem escapeEveryQuote_cons (c : Char) (rest : List Char) :
    escapeEveryQuote (c :: rest) =
      (if c = '"' then ['\\', '"'] else [c]) ++ escapeEveryQuote rest := rfl

/-- The escape of every quote fails where a backslash takes the one that a quote was to get, and
where a backslash is left alone at the end. -/
theorem isBody_escapeEveryQuote (text : List Char) :
    isBody (escapeEveryQuote text) = hasSoundPairs text := by
  induction text using scan_induction with
  | nil => rfl
  | lone => rfl
  | pair c rest ih =>
    rw [hasSoundPairs_pair, ← ih, escapeEveryQuote_cons, escapeEveryQuote_cons, if_neg (by decide)]
    by_cases hquote : c = '"'
    · rw [if_pos hquote, hquote]
      rfl
    · rw [if_neg hquote, decide_eq_true hquote, Bool.true_and]
      exact isBody_pair c _
  | plain c rest hplain ih =>
    rw [hasSoundPairs_plain hplain, ← ih, escapeEveryQuote_cons]
    by_cases hquote : c = '"'
    · rw [if_pos hquote]
      exact isBody_pair '"' _
    · rw [if_neg hquote, List.singleton_append, isBody_plain hplain, decide_eq_true hquote,
        Bool.true_and]

/-- At a line feed a body falls into two, the first of which ends with an escape for it. A backslash
before the line feed makes a pair with the escape instead. -/
theorem isBody_lineFeed (before after : List Char) :
    isBody (before ++ '\n' :: after) = (isBody (before ++ ['\\', 'n']) && isBody after) := by
  induction before using scan_induction with
  | nil => rfl
  | lone => rfl
  | pair c rest ih => exact ih
  | plain c rest hplain ih =>
    rw [List.cons_append, List.cons_append, isBody_plain hplain, isBody_plain hplain, ih,
      Bool.and_assoc]

end Literal

namespace Template

open Literal

theorem joinReturns_cons (c : Char) (rest : List Char) :
    joinReturns (c :: rest) =
      if c = '\r' ∧ rest.head? = some '\n' then joinReturns rest else c :: joinReturns rest := by
  cases rest with
  | nil => simp [joinReturns]
  | cons d rest =>
    by_cases hbreak : c = '\r' ∧ d = '\n'
    · obtain ⟨rfl, rfl⟩ := hbreak
      simp [joinReturns]
    · rw [if_neg (by simpa using hbreak)]
      exact joinReturns.eq_3 c (d :: rest) fun tail hc hd => hbreak ⟨hc, (List.cons.inj hd).1⟩

theorem isBody_joinReturns (text : List Char) : isBody (joinReturns text) = isBody text := by
  induction text using scan_induction with
  | nil => rfl
  | lone => rfl
  | pair c rest ih =>
    rw [joinReturns_cons, if_neg (fun h => absurd h.1 (by decide)), joinReturns_cons, isBody_pair]
    by_cases hbreak : c = '\r' ∧ rest.head? = some '\n'
    · -- The backslash takes the carriage return before the line feed is put in its place.
      obtain ⟨tail, rfl⟩ := List.head?_eq_some_iff.mp hbreak.2
      rw [if_pos hbreak]
      rw [joinReturns_cons, if_neg (fun h => absurd h.1 (by decide))] at ih ⊢
      exact ih
    · rw [if_neg hbreak, isBody_pair, ih]
  | plain c rest hplain ih =>
    rw [joinReturns_cons, isBody_plain hplain, ← ih]
    by_cases hbreak : c = '\r' ∧ rest.head? = some '\n'
    · rw [if_pos hbreak, hbreak.1]
      rfl
    · rw [if_neg hbreak, isBody_plain hplain]

theorem escapeReturns_cons (c : Char) (rest : List Char) :
    escapeReturns (c :: rest) = (if c = '\r' then ['\\', 'r'] else [c]) ++ escapeReturns rest := rfl

theorem isBody_escapeReturns (text : List Char) : isBody (escapeReturns text) = isBody text := by
  induction text using scan_induction with
  | nil => rfl
  | lone => rfl
  | pair c rest ih =>
    rw [escapeReturns_cons, if_neg (by decide), escapeReturns_cons, isBody_pair, ← ih]
    by_cases hreturn : c = '\r'
    · rw [if_pos hreturn]
      rfl
    · rw [if_neg hreturn]
      rfl
  | plain c rest hplain ih =>
    rw [escapeReturns_cons, isBody_plain hplain, ← ih]
    by_cases hreturn : c = '\r'
    · rw [if_pos hreturn, hreturn]
      rfl
    · rw [if_neg hreturn, List.singleton_append, isBody_plain hplain]

/-- The lines on which a text is written, from its first quote to its last. -/
def textLines (text : List Char) : List (List Char) :=
  ('"' :: literalText text ++ ['"']).splitOn '\n'

theorem continueLines_cons (c : Char) (rest : List Char) :
    continueLines (c :: rest) =
      (if c = '\n' then ['\\', 'n', '"', '\n', '"'] else [c]) ++ continueLines rest := rfl

/-- The literal of a body. -/
def quoted (body : List Char) : List Char := '"' :: body ++ ['"']

/-- The bodies of the literals that a text is written in, one for each line, when the first of them was
begun before. All but the last end with an escape for the line feed. -/
def literals (before : List Char) : List Char → List (List Char)
  | [] => [before]
  | c :: rest =>
    if c = '\n' then (before ++ ['\\', 'n']) :: literals [] rest else literals (before ++ [c]) rest

theorem feed_not_mem_quoted {body : List Char} (hbody : '\n' ∉ body) : '\n' ∉ quoted body := by
  simp [quoted, hbody]

/-- A line between two quotes is one closed literal if what it holds is a body. -/
theorem isSome_literal? (body : List Char) :
    (Line.literal? (quoted body)).isSome = isBody body := by
  cases hbody : isBody body <;> simp [quoted, Line.literal?, hbody]

theorem splitOn_continueLines (before rest : List Char) (hbefore : '\n' ∉ before) :
    (quoted (before ++ continueLines rest)).splitOn '\n' = (literals before rest).map quoted := by
  induction rest generalizing before with
  | nil =>
    have hline : '\n' ∉ before ++ continueLines [] := by simp [continueLines, hbefore]
    rw [List.splitOn_eq_singleton (feed_not_mem_quoted hline)]
    simp [literals, continueLines]
  | cons c rest ih =>
    rw [continueLines_cons, literals]
    by_cases hbreak : c = '\n'
    · have hline : '\n' ∉ before ++ ['\\', 'n'] := by simp [hbefore]
      have hsplit : quoted (before ++ (['\\', 'n', '"', '\n', '"'] ++ continueLines rest)) =
          quoted (before ++ ['\\', 'n']) ++ '\n' :: quoted ([] ++ continueLines rest) := by
        simp [quoted]
      rw [if_pos hbreak, if_pos hbreak, hsplit,
        List.splitOn_append_cons_self_of_not_mem (feed_not_mem_quoted hline),
        ih [] List.not_mem_nil, List.map_cons]
    · have hlonger : '\n' ∉ before ++ [c] := by simp [hbefore, Ne.symm hbreak]
      rw [if_neg hbreak, if_neg hbreak, ← ih (before ++ [c]) hlonger, List.append_assoc]

theorem all_isBody_literals (before rest : List Char) :
    (literals before rest).all isBody = isBody (before ++ rest) := by
  induction rest generalizing before with
  | nil => simp [literals]
  | cons c rest ih =>
    rw [literals]
    by_cases hbreak : c = '\n'
    · rw [if_pos hbreak, hbreak, List.all_cons, ih, isBody_lineFeed, List.nil_append]
    · rw [if_neg hbreak, ih, List.append_assoc, List.singleton_append]

theorem textLines_eq (text : List Char) :
    textLines text = (literals [] (escapeReturns (joinReturns text))).map quoted :=
  splitOn_continueLines [] _ List.not_mem_nil

/-- A text is written in closed literals exactly when it is a body. -/
theorem forall_mem_textLines (text : List Char) :
    (∀ line ∈ textLines text, (Line.literal? line).isSome = true) ↔ isBody text = true := by
  have hall : (literals [] (escapeReturns (joinReturns text))).all isBody = isBody text := by
    rw [all_isBody_literals, List.nil_append, isBody_escapeReturns, isBody_joinReturns]
  rw [textLines_eq, ← hall, List.all_eq_true]
  simp only [List.forall_mem_map, isSome_literal?]

theorem block_eq_textLines (m : Message) :
    block m = "msgctxt \"" ++ m.scope ++ "\"\nmsgid " ++
      String.ofList (['\n'].intercalate (textLines m.text.toList)) ++ "\nmsgstr \"\"\n" := by
  rw [textLines, List.intercalate_splitOn]
  apply String.toList_inj.mp
  simp [block]

theorem block_ne_empty (m : Message) : block m ≠ "" := by
  simp [block]

theorem header_ne_empty (created : String) : header created ≠ "" := by
  intro hempty
  have hlast := (String.append_eq_empty_iff.mp hempty).2
  exact absurd hlast (by decide)

theorem foldl_appendBlock (ms : List Message) {text : String} (htext : text ≠ "") :
    ms.foldl appendBlock text = "\n".intercalate (text :: ms.map block) := by
  induction ms generalizing text with
  | nil => simp
  | cons m ms ih =>
    have hstep : appendBlock text m = text ++ "\n" ++ block m := by simp [appendBlock, htext]
    have hlonger : text ++ "\n" ++ block m ≠ "" := by simp [block_ne_empty]
    rw [List.foldl_cons, hstep, ih hlonger, List.map_cons, String.intercalate_cons_cons,
      String.intercalate_cons_append]

/-- A template is its header and its blocks with a line feed between neighbours. -/
theorem compose_eq_intercalate (format : Format) (catalog : Catalog) (created : Int) :
    compose format catalog created =
      "\n".intercalate
        ((if format.hasHeader then [header (Minute.ofUnixSeconds created).stamp] else []) ++
          catalog.messages.map block) := by
  unfold compose
  cases hheader : format.hasHeader with
  | true =>
    simp only [if_true, List.singleton_append]
    exact foldl_appendBlock _ (header_ne_empty _)
  | false =>
    cases hmessages : catalog.messages with
    | nil => simp
    | cons m ms =>
      have hfirst : appendBlock "" m = block m := by simp [appendBlock]
      simp only [Bool.false_eq_true, if_false, List.foldl_cons, List.nil_append, List.map_cons,
        hfirst]
      exact foldl_appendBlock ms (block_ne_empty m)

theorem exists_intercalate_eq (separator : String) {part : String} {parts : List String}
    (hpart : part ∈ parts) :
    ∃ before after, separator.intercalate parts = before ++ part ++ after := by
  induction parts with
  | nil => cases hpart
  | cons first rest ih =>
    cases rest with
    | nil =>
      obtain rfl := List.mem_singleton.mp hpart
      exact ⟨"", "", by simp⟩
    | cons second rest =>
      rw [String.intercalate_cons_cons]
      rcases List.mem_cons.mp hpart with rfl | hlater
      · exact ⟨"", separator ++ separator.intercalate (second :: rest), by
          simp [String.append_assoc]⟩
      · obtain ⟨before, after, heq⟩ := ih hlater
        exact ⟨first ++ separator ++ before, after, by rw [heq]; simp only [String.append_assoc]⟩

/-- Every message of a catalog has its text in the template, in the lines that it is written on. -/
theorem exists_compose_eq (format : Format) (created : Int) {catalog : Catalog} {m : Message}
    (hm : m ∈ catalog.messages) :
    ∃ before after, compose format catalog created =
      before ++ "\nmsgid " ++ String.ofList (['\n'].intercalate (textLines m.text.toList)) ++
        "\nmsgstr \"\"\n" ++ after := by
  have hblock : block m ∈
      (if format.hasHeader then [header (Minute.ofUnixSeconds created).stamp] else []) ++
        catalog.messages.map block :=
    List.mem_append_right _ (List.mem_map_of_mem hm)
  obtain ⟨before, after, hcompose⟩ := exists_intercalate_eq "\n" hblock
  refine ⟨before ++ "msgctxt \"" ++ m.scope ++ "\"", after, ?_⟩
  rw [compose_eq_intercalate, hcompose, block_eq_textLines]
  apply String.toList_inj.mp
  simp

end Template

end GettextTemplate
