import GettextTemplate.Literal

/-!
The escape of what would break a literal open. It makes a body of every text and leaves bodies alone
(`escapeUnpaired_of_isBody`), so it does its work once. A reader finds the same text before and
after, whatever it puts for a pair, as long as an escaped quote is a quote and an escaped backslash
is a backslash (`readPairs_escapeUnpaired`).
-/

namespace GettextTemplate.Literal

/-- The text that a reader finds in a literal, if it puts a text for each pair. A quote outside a pair
and a backslash at the end stand for themselves. -/
def readPairs (value : Char → List Char) : List Char → List Char
  | [] => []
  | ['\\'] => ['\\']
  | '\\' :: c :: rest => value c ++ readPairs value rest
  | c :: rest => c :: readPairs value rest

theorem readPairs_plain {value : Char → List Char} {c : Char} {rest : List Char}
    (hplain : c ≠ '\\') : readPairs value (c :: rest) = c :: readPairs value rest := by
  simp [readPairs, hplain]

theorem meaning_eq_readPairs (text : List Char) :
    meaning text = readPairs (fun c => [paired c]) text := by
  induction text using scan_induction with
  | nil => rfl
  | lone => rfl
  | pair c rest ih => exact congrArg (paired c :: ·) ih
  | plain c rest hplain ih => rw [meaning_plain hplain, readPairs_plain hplain, ih]

theorem escapeUnpaired_of_isBody {text : List Char} (hbody : isBody text = true) :
    escapeUnpaired text = text := by
  induction text using scan_induction with
  | nil => rfl
  | lone => cases hbody
  | pair c rest ih => exact congrArg ('\\' :: c :: ·) (ih hbody)
  | plain c rest hplain ih =>
    rw [isBody_plain hplain, Bool.and_eq_true, decide_eq_true_iff] at hbody
    rw [escapeUnpaired_plain hplain, if_neg hbody.1, ih hbody.2]

theorem readPairs_escapeUnpaired {value : Char → List Char} (hquote : value '"' = ['"'])
    (hbackslash : value '\\' = ['\\']) (text : List Char) :
    readPairs value (escapeUnpaired text) = readPairs value text := by
  induction text using scan_induction with
  | nil => rfl
  | lone => exact congrArg (· ++ []) hbackslash
  | pair c rest ih => exact congrArg (value c ++ ·) ih
  | plain c rest hplain ih =>
    rw [escapeUnpaired_plain hplain, readPairs_plain hplain, ← ih]
    by_cases hc : c = '"'
    · rw [if_pos hc, hc]
      exact congrArg (· ++ _) hquote
    · rw [if_neg hc, readPairs_plain hplain]

/-- The escape is a closure: its results are bodies, the texts that it leaves alone are the bodies, and
it changes the meaning of no text. -/
theorem escapeUnpaired_closes (text : List Char) :
    isBody (escapeUnpaired text) = true ∧
    (escapeUnpaired text = text ↔ isBody text = true) ∧
    escapeUnpaired (escapeUnpaired text) = escapeUnpaired text ∧
    meaning (escapeUnpaired text) = meaning text ∧
    ∀ value : Char → List Char, value '"' = ['"'] → value '\\' = ['\\'] →
      readPairs value (escapeUnpaired text) = readPairs value text := by
  have hbody := isBody_escapeUnpaired text
  refine ⟨hbody, ⟨fun hsame => hsame ▸ hbody, escapeUnpaired_of_isBody⟩,
    escapeUnpaired_of_isBody hbody, ?_, fun value hquote hbackslash =>
      readPairs_escapeUnpaired hquote hbackslash text⟩
  rw [meaning_eq_readPairs, meaning_eq_readPairs]
  exact readPairs_escapeUnpaired rfl rfl text

/-- A reader that knows the letters for breaks, on a text with a pair, a quote outside a pair and a
backslash at the end. -/
theorem escapeUnpaired_closes_brokenText :
    escapeUnpaired ['\\', 'n', '"', '\\'] = ['\\', 'n', '\\', '"', '\\', '\\'] ∧
    [paired '"'] = ['"'] ∧ [paired '\\'] = ['\\'] ∧
    readPairs (fun c => [paired c]) (escapeUnpaired ['\\', 'n', '"', '\\']) = ['\n', '"', '\\'] :=
  ⟨rfl, rfl, rfl,
    (escapeUnpaired_closes ['\\', 'n', '"', '\\']).2.2.2.2 (fun c => [paired c]) rfl rfl⟩

end GettextTemplate.Literal
