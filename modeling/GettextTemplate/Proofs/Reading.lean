import GettextTemplate.Proofs.LineBreaks
import Mathlib.Data.List.Forall2

/-!
How a template is read. The reader respects the line feed between two parts of a template
(`read?_append`), so a template is read part by part, and a block is the message it was written for
(`read?_block`).
-/

namespace GettextTemplate

/-- A message that can be written between quotes as it is. The scope is written on one line. -/
structure Message.IsWritable (m : Message) : Prop where
  scopeBody : Literal.isBody m.scope.toList = true
  scopeLine : ∀ c ∈ m.scope.toList, c ≠ '\n' ∧ c ≠ '\r'
  textBody : Literal.isBody m.text.toList = true

instance (m : Message) : Decidable m.IsWritable :=
  decidable_of_iff (Literal.isBody m.scope.toList = true ∧
    (m.scope.toList.all fun c => c ≠ '\n' ∧ c ≠ '\r') = true ∧ Literal.isBody m.text.toList = true)
    ⟨fun ⟨scopeBody, scopeLine, textBody⟩ => ⟨scopeBody, by simpa using scopeLine, textBody⟩,
      fun h => ⟨h.scopeBody, by simpa using h.scopeLine, h.textBody⟩⟩

namespace Template

open Literal

/-- What a reader finds for a message. -/
def Block.ofMessage (m : Message) : Block := ⟨some m.scope.toList, joinedText m.text.toList, []⟩

theorem literal?_quoted (body : List Char) :
    Line.literal? (quoted body) = if isBody body then some body else none := by
  simp [quoted, Line.literal?]

theorem ofChars?_quoted {body : List Char} (hbody : isBody body = true) :
    Line.ofChars? (quoted body) = some (.continuation body) := by
  change (Line.literal? (quoted body)).map Line.continuation = _
  rw [literal?_quoted, if_pos hbody]
  rfl

theorem Keyword.word_eq (keyword : Keyword) :
    keyword.word = match keyword with
      | .context => ['m', 's', 'g', 'c', 't', 'x', 't']
      | .text => ['m', 's', 'g', 'i', 'd']
      | .localized => ['m', 's', 'g', 's', 't', 'r'] := by
  cases keyword <;> exact String.toList_ofList

theorem after?_word (keyword other : Keyword) (rest : List Char) :
    Line.after? other (keyword.word ++ ' ' :: rest) = if other = keyword then some rest else none := by
  cases keyword <;> cases other <;> simp only [Line.after?, Keyword.word_eq] <;> rfl

/-- A line that begins with a keyword is a statement, if a literal follows. -/
theorem ofChars?_keyword (keyword : Keyword) (rest : List Char) :
    Line.ofChars? (keyword.word ++ ' ' :: rest) =
      (Line.literal? rest).map (.statement keyword) := by
  have hbegin : ∃ later, keyword.word ++ ' ' :: rest = 'm' :: later := by
    cases keyword <;> exact ⟨_, by rw [Keyword.word_eq]; rfl⟩
  have hkeywords : Line.ofChars? (keyword.word ++ ' ' :: rest) =
      [Keyword.context, .text, .localized].findSome? fun other =>
        (Line.after? other (keyword.word ++ ' ' :: rest)).bind fun rest =>
          (Line.literal? rest).map (.statement other) := by
    obtain ⟨later, hlater⟩ := hbegin
    rw [hlater]
    rfl
  rw [hkeywords]
  simp only [after?_word]
  cases keyword <;> cases hliteral : Line.literal? rest <;> simp [hliteral]

theorem ofChars?_statement (keyword : Keyword) {body : List Char} (hbody : isBody body = true) :
    Line.ofChars? (keyword.word ++ ' ' :: quoted body) = some (.statement keyword body) := by
  rw [ofChars?_keyword, literal?_quoted, if_pos hbody]
  rfl

/-- Literals that stand alone go on with the statement before them. -/
theorem joinLiterals_continuations (keyword : Keyword) (body : List Char) (more : List (List Char))
    (rest : List Line) :
    joinLiterals (some (keyword, body)) (more.map .continuation ++ rest) =
      joinLiterals (some (keyword, body ++ more.flatten)) rest := by
  induction more generalizing body with
  | nil => simp
  | cons first more ih =>
    rw [List.map_cons, List.cons_append, joinLiterals, ih, List.flatten_cons, List.append_assoc]

/-- What can be joined on its own begins with a statement, so a statement before it is complete. -/
theorem joinLiterals_of_none {lines : List Line} {statements : List (Keyword × List Char)}
    (current : Option (Keyword × List Char)) (h : joinLiterals none lines = some statements) :
    joinLiterals current lines = some (current.toList ++ statements) := by
  induction lines with
  | nil =>
    obtain rfl : [] = statements := Option.some.inj h
    rw [joinLiterals, List.append_nil]
  | cons line rest ih =>
    cases line with
    | empty => exact ih h
    | statement keyword body =>
      rw [joinLiterals] at h ⊢
      obtain ⟨later, hlater, rfl⟩ := Option.map_eq_some_iff.mp h
      rw [hlater]
      rfl
    | continuation more => cases h

theorem joinLiterals_append {current : Option (Keyword × List Char)} {a b : List Line}
    {s t : List (Keyword × List Char)} (ha : joinLiterals current a = some s)
    (hb : joinLiterals none b = some t) : joinLiterals current (a ++ b) = some (s ++ t) := by
  induction a generalizing current s with
  | nil =>
    obtain rfl : current.toList = s := Option.some.inj ha
    exact joinLiterals_of_none current hb
  | cons line rest ih =>
    cases line with
    | empty => exact ih ha
    | statement keyword body =>
      rw [joinLiterals] at ha
      obtain ⟨later, hlater, rfl⟩ := Option.map_eq_some_iff.mp ha
      rw [List.cons_append, joinLiterals, ih hlater, Option.map_some, List.append_assoc]
    | continuation more =>
      cases current with
      | none => cases ha
      | some statement => exact ih ha

theorem blocks_append {s : List (Keyword × List Char)} {x : List Block} (hs : blocks s = some x)
    (t : List (Keyword × List Char)) : blocks (s ++ t) = (blocks t).map (x ++ ·) := by
  fun_induction blocks s generalizing x with
  | case1 =>
    obtain rfl : [] = x := Option.some.inj hs
    exact Option.map_id'.symm
  | case2 context text localized rest ih =>
    obtain ⟨later, hlater, rfl⟩ := Option.map_eq_some_iff.mp hs
    change (blocks (rest ++ t)).map _ = _
    rw [ih hlater, Option.map_map]
    rfl
  | case3 text localized rest ih =>
    obtain ⟨later, hlater, rfl⟩ := Option.map_eq_some_iff.mp hs
    change (blocks (rest ++ t)).map _ = _
    rw [ih hlater, Option.map_map]
    rfl
  | case4 => cases hs

/-- The statements on some lines of a template, with the literals of each joined. -/
def statements? (chars : List Char) : Option (List (Keyword × List Char)) :=
  ((chars.splitOn '\n').mapM Line.ofChars?).bind (joinLiterals none)

theorem read?_eq (template : String) :
    read? template = (statements? template.toList).bind blocks := by
  rw [statements?, Option.bind_assoc]
  rfl

theorem statements?_append {a b : List Char} {s t : List (Keyword × List Char)}
    (ha : statements? a = some s) (hb : statements? b = some t) :
    statements? (a ++ '\n' :: b) = some (s ++ t) := by
  obtain ⟨aLines, haLines, haStatements⟩ := Option.bind_eq_some_iff.mp ha
  obtain ⟨bLines, hbLines, hbStatements⟩ := Option.bind_eq_some_iff.mp hb
  rw [statements?, List.splitOn_append_cons_self, List.mapM_append, haLines, hbLines]
  exact joinLiterals_append haStatements hbStatements

/-- Parts of a template that can be read can be read together, with a line feed between them. -/
theorem read?_append {a b : String} {x y : List Block} (ha : read? a = some x)
    (hb : read? b = some y) : read? (a ++ "\n" ++ b) = some (x ++ y) := by
  rw [read?_eq] at ha hb ⊢
  obtain ⟨s, hs, hx⟩ := Option.bind_eq_some_iff.mp ha
  obtain ⟨t, ht, hy⟩ := Option.bind_eq_some_iff.mp hb
  have hchars : (a ++ "\n" ++ b).toList = a.toList ++ '\n' :: b.toList := by simp
  rw [hchars, statements?_append hs ht, Option.bind_some, blocks_append hx, hy]
  rfl

/-- Any number of parts, each of which can be read by itself. -/
theorem read?_intercalate {texts : List String} {parts : List (List Block)}
    (h : List.Forall₂ (fun text part => read? text = some part) texts parts) :
    read? ("\n".intercalate texts) = some parts.flatten := by
  induction h with
  | nil => rfl
  | cons hfirst hrest ih =>
    cases hrest with
    | nil => simpa using hfirst
    | cons =>
      rw [String.intercalate_cons_cons, List.flatten_cons]
      exact read?_append hfirst ih

/-- A text in front of the first line that holds no line feed stays on that line. -/
theorem splitOn_append_of_not_mem {front : List Char} (hfront : '\n' ∉ front) (rest : List Char) :
    (front ++ rest).splitOn '\n' = (rest.splitOn '\n').modifyHead (front ++ ·) := by
  induction front with
  | nil =>
    change rest.splitOn '\n' = (rest.splitOn '\n').modifyHead id
    rw [List.modifyHead_id, id]
  | cons c front ih =>
    have hc : ¬(c == '\n') = true := by
      intro heq
      exact hfront (eq_of_beq heq ▸ List.mem_cons_self)
    have hlater : '\n' ∉ front := fun hmem => hfront (List.mem_cons_of_mem c hmem)
    rw [List.cons_append, List.splitOn_cons_eq_if_modifyHead, if_neg hc, ih hlater,
      List.modifyHead_modifyHead]
    rfl

theorem toList_block (m : Message) :
    (block m).toList =
      (Keyword.context.word ++ ' ' :: quoted m.scope.toList) ++ '\n' ::
        ((Keyword.text.word ++ ' ' :: quoted (literalText m.text.toList)) ++ '\n' ::
          ((Keyword.localized.word ++ ' ' :: quoted []) ++ '\n' :: [])) := by
  have hcontext : "msgctxt \"".toList = Keyword.context.word ++ [' ', '"'] := by
    rw [Keyword.word_eq, String.toList_ofList]
    rfl
  have htext : "\"\nmsgid \"".toList = ['"', '\n'] ++ Keyword.text.word ++ [' ', '"'] := by
    rw [Keyword.word_eq, String.toList_ofList]
    rfl
  have hlocalized : "\"\nmsgstr \"\"\n".toList =
      ['"', '\n'] ++ Keyword.localized.word ++ [' ', '"', '"', '\n'] := by
    rw [Keyword.word_eq, String.toList_ofList]
    rfl
  simp only [block, String.toList_append, String.toList_ofList, hcontext, htext, hlocalized, quoted,
    List.append_assoc, List.cons_append, List.nil_append]

theorem feed_not_mem_statement (keyword : Keyword) {body : List Char} (hbody : '\n' ∉ body) :
    '\n' ∉ keyword.word ++ ' ' :: quoted body := by
  cases keyword <;> simp [Keyword.word_eq, feed_not_mem_quoted hbody]

/-- What stands in a block below the line of its context. -/
def belowContext (text : List Char) : List Char :=
  (Keyword.text.word ++ ' ' :: quoted (literalText text)) ++ '\n' ::
    ((Keyword.localized.word ++ ' ' :: quoted []) ++ '\n' :: [])

theorem toList_block_eq_belowContext (m : Message) :
    (block m).toList =
      (Keyword.context.word ++ ' ' :: quoted m.scope.toList) ++ '\n' ::
        belowContext m.text.toList := toList_block m

theorem splitOn_belowContext {text first : List Char} {later : List (List Char)}
    (hliterals : literals [] (escapeReturns (joinReturns text)) = first :: later) :
    (belowContext text).splitOn '\n' =
      (Keyword.text.word ++ ' ' :: quoted first) :: later.map quoted ++
        [Keyword.localized.word ++ ' ' :: quoted [], []] := by
  have htext : (Keyword.text.word ++ ' ' :: quoted (literalText text)).splitOn '\n' =
      (Keyword.text.word ++ ' ' :: quoted first) :: later.map quoted := by
    have hword : '\n' ∉ Keyword.text.word ++ [' '] := by simp [Keyword.word_eq]
    have hlines := textLines_eq text
    rw [hliterals] at hlines
    rw [← List.singleton_append, ← List.append_assoc, splitOn_append_of_not_mem hword]
    change (textLines text).modifyHead _ = _
    rw [hlines, List.map_cons, List.modifyHead_cons, List.append_assoc, List.singleton_append]
  have hlocalized := feed_not_mem_statement .localized (List.not_mem_nil (a := '\n'))
  rw [belowContext, List.splitOn_append_cons_self, htext,
    List.splitOn_append_cons_self_of_not_mem hlocalized, List.splitOn_nil]

theorem mapM_quoted {β : Type} {read : List Char → Option β} {found : List Char → β}
    (hread : ∀ body, isBody body = true → read (quoted body) = some (found body))
    {bodies : List (List Char)} (hbodies : ∀ body ∈ bodies, isBody body = true) :
    (bodies.map quoted).mapM read = some (bodies.map found) := by
  induction bodies with
  | nil => rfl
  | cons body rest ih =>
    have hbody := hread body (hbodies body List.mem_cons_self)
    have hrest := ih fun later hlater => hbodies later (List.mem_cons_of_mem body hlater)
    rw [List.map_cons, List.mapM_cons, hbody, hrest]
    rfl

theorem literals_ne_nil (before rest : List Char) : literals before rest ≠ [] := by
  fun_induction literals before rest <;> simp_all

theorem flatten_literals (before rest : List Char) :
    (literals before rest).flatten =
      before ++ rest.flatMap fun c => if c = '\n' then ['\\', 'n'] else [c] := by
  fun_induction literals before rest <;> simp_all

/-- The literals of a text, apart and joined. -/
theorem exists_literals_eq (text : List Char) :
    ∃ first later, literals [] (escapeReturns (joinReturns text)) = first :: later ∧
      (first :: later).flatten = joinedText text ∧
      ((∀ body ∈ first :: later, isBody body = true) ↔ isBody text = true) := by
  obtain ⟨first, later, heq⟩ :=
    List.exists_cons_of_ne_nil (literals_ne_nil [] (escapeReturns (joinReturns text)))
  refine ⟨first, later, heq, ?_, ?_⟩
  · rw [← heq, flatten_literals, List.nil_append, joinedText_eq_flatMap]
  · rw [← heq, ← List.all_eq_true, all_isBody_literals, List.nil_append, isBody_escapeReturns,
      isBody_joinReturns]

theorem statements?_context {scope : List Char} (hfeed : '\n' ∉ scope)
    (hscope : isBody scope = true) :
    statements? (Keyword.context.word ++ ' ' :: quoted scope) = some [(.context, scope)] := by
  rw [statements?, List.splitOn_eq_singleton (feed_not_mem_statement .context hfeed),
    List.mapM_cons, ofChars?_statement _ hscope]
  rfl

theorem statements?_belowContext {text : List Char} (htext : isBody text = true) :
    statements? (belowContext text) = some [(.text, joinedText text), (.localized, [])] := by
  obtain ⟨first, later, hliterals, hjoined, hbodies⟩ := exists_literals_eq text
  have hfirst := hbodies.mpr htext first List.mem_cons_self
  have hlater := mapM_quoted (fun _ => ofChars?_quoted) fun body hbody =>
    hbodies.mpr htext body (List.mem_cons_of_mem first hbody)
  have hread : ((belowContext text).splitOn '\n').mapM Line.ofChars? =
      some (.statement .text first ::
        (later.map .continuation ++ [.statement .localized [], .empty])) := by
    have hnothing : isBody [] = true := rfl
    simp only [splitOn_belowContext hliterals, List.cons_append, List.mapM_cons, List.mapM_append,
      List.mapM_nil, ofChars?_statement _ hfirst, ofChars?_statement _ hnothing, hlater]
    rfl
  rw [statements?, hread, Option.bind_some, joinLiterals, joinLiterals_continuations,
    ← List.flatten_cons, hjoined]
  rfl

theorem read?_block {m : Message} (hm : m.IsWritable) :
    read? (block m) = some [Block.ofMessage m] := by
  have hfeed : '\n' ∉ m.scope.toList := fun hmem => (hm.scopeLine _ hmem).1 rfl
  rw [read?_eq, toList_block_eq_belowContext,
    statements?_append (statements?_context hfeed hm.scopeBody) (statements?_belowContext hm.textBody)]
  rfl

end Template

end GettextTemplate
