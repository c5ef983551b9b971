/-!
Bodies of quoted text literals: the characters between the two delimiting quotes of a string.
Inside a body a backslash makes a pair with the character after it, and a quote outside such a
pair would end the literal. The main statement says that `escapeUnpaired` always makes a body.
-/

namespace GettextTemplate.Literal

/-- What stands between the delimiting quotes of a literal. A value that is not delimited at both
ends is a body already, and a quote that stands alone counts as both delimiters. -/
def content : List Char → List Char
  | ['"'] => []
  | '"' :: rest => if rest.getLast? = some '"' then rest.dropLast else '"' :: rest
  | text => text

/-- Escapes what would break a literal open: a quote outside a pair gets a backslash, and a
backslash that ends the text is doubled, so that it cannot swallow the closing quote. Pairs that
stand in the text are kept. -/
def escapeUnpaired : List Char → List Char
  | [] => []
  | ['\\'] => ['\\', '\\']
  | '\\' :: c :: rest => '\\' :: c :: escapeUnpaired rest
  | c :: rest => if c = '"' then '\\' :: '"' :: escapeUnpaired rest else c :: escapeUnpaired rest

/-- Puts a backslash before every quote, whatever stands before it. -/
def escapeEveryQuote (text : List Char) : List Char :=
  text.flatMap fun c => if c = '"' then ['\\', '"'] else [c]

/-- Whether a text can stand between two quotes: no quote is outside a pair, and the last
backslash has a character to make a pair with. -/
def isBody : List Char → Bool
  | [] => true
  | ['\\'] => false
  | '\\' :: _ :: rest => isBody rest
  | c :: rest => c ≠ '"' && isBody rest

/-- The character that a backslash and a letter stand for. -/
def paired (letter : Char) : Char :=
  if letter = 'n' then '\n'
  else if letter = 'r' then '\r'
  else if letter = 't' then '\t'
  else letter

/-- The text that a body stands for. Where a text is no body, a quote outside a pair and a backslash
at the end stand for themselves. -/
def meaning : List Char → List Char
  | [] => []
  | ['\\'] => ['\\']
  | '\\' :: c :: rest => paired c :: meaning rest
  | c :: rest => c :: meaning rest

/-- Induction along the scan of a text, in which a backslash takes the next character with it. -/
@[elab_as_elim]
theorem scan_induction {motive : List Char → Prop} (nil : motive []) (lone : motive ['\\'])
    (pair : ∀ c rest, motive rest → motive ('\\' :: c :: rest))
    (plain : ∀ c rest, c ≠ '\\' → motive rest → motive (c :: rest)) (text : List Char) :
    motive text := by
  induction text using isBody.induct with
  | case1 => exact nil
  | case2 => exact lone
  | case3 c rest ih => exact pair c rest ih
  | case4 c rest hlone hpair ih =>
    apply plain c rest _ ih
    rintro rfl
    cases rest with
    | nil => exact hlone rfl rfl
    | cons d rest => exact hpair d rest rfl rfl

theorem isBody_pair (c : Char) (rest : List Char) : isBody ('\\' :: c :: rest) = isBody rest := rfl

theorem isBody_plain {c : Char} {rest : List Char} (hplain : c ≠ '\\') :
    isBody (c :: rest) = (c ≠ '"' && isBody rest) := by
  simp [isBody, hplain]

theorem escapeUnpaired_plain {c : Char} {rest : List Char} (hplain : c ≠ '\\') :
    escapeUnpaired (c :: rest) =
      if c = '"' then '\\' :: '"' :: escapeUnpaired rest else c :: escapeUnpaired rest := by
  simp [escapeUnpaired, hplain]

theorem meaning_plain {c : Char} {rest : List Char} (hplain : c ≠ '\\') :
    meaning (c :: rest) = c :: meaning rest := by
  simp [meaning, hplain]

theorem isBody_escapeUnpaired (text : List Char) : isBody (escapeUnpaired text) = true := by
  induction text using scan_induction with
  | nil => rfl
  | lone => rfl
  | pair c rest ih => exact ih
  | plain c rest hplain ih =>
    rw [escapeUnpaired_plain hplain]
    by_cases hquote : c = '"'
    · rw [if_pos hquote]
      exact ih
    · rw [if_neg hquote, isBody_plain hplain, decide_eq_true hquote, ih, Bool.and_true]

end GettextTemplate.Literal
