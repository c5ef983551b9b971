import GettextTemplate.Files
import GettextTemplate.Proofs.Readers

/-!
Strings of a JSON text, read back. Every character is read as the one that was written, whether it was
escaped or not (`run_contentFrom_escape`), and so is every quoted text, whatever follows it
(`exists_utf8_quoted`).
-/

namespace GettextTemplate

theorem utf8_eq_flatMap (text : String) : utf8 text = text.toList.flatMap String.utf8EncodeChar := by
  rw [utf8, String.toUTF8, ← String.utf8Encode_toList, List.utf8Encode, List.data_toByteArray]

theorem utf8_append (a b : String) : utf8 (a ++ b) = utf8 a ++ utf8 b := by
  rw [utf8_eq_flatMap, utf8_eq_flatMap, utf8_eq_flatMap, String.toList_append, List.flatMap_append]

theorem fromUTF8?_utf8 (text : String) :
    String.fromUTF8? (utf8 text).toByteArray = some text := by
  have hbytes : (utf8 text).toByteArray = text.toByteArray := by
    rw [utf8_eq_flatMap, ← String.utf8Encode_toList]
    rfl
  rw [hbytes, String.fromUTF8?, dif_pos text.isValidUTF8]
  rfl

namespace Json

/-- Whether a byte stands for itself inside a string. -/
def IsPlain (b : UInt8) : Prop := b ≠ ascii '"' ∧ b ≠ ascii '\\' ∧ ¬ b < 0x20

theorem isPlain_ofNat {n : Nat} (hlarge : 0x20 ≤ n) (hbyte : n < 256) (hquote : n ≠ '"'.toNat)
    (hslash : n ≠ '\\'.toNat) : IsPlain (UInt8.ofNat n) := by
  have htoNat : (UInt8.ofNat n).toNat = n := UInt8.toNat_ofNat_of_lt' hbyte
  refine ⟨fun heq => hquote ?_, fun heq => hslash ?_, fun hless => ?_⟩
  · rw [← htoNat, heq]; rfl
  · rw [← htoNat, heq]; rfl
  · rw [UInt8.lt_iff_toNat_lt, htoNat] at hless
    exact Nat.lt_irrefl _ (Nat.lt_of_lt_of_le hless hlarge)

/-- A character that is not escaped is written in bytes that stand for themselves. -/
theorem isPlain_of_mem_utf8EncodeChar {c : Char} (hquote : c ≠ '"') (hslash : c ≠ '\\')
    (hcontrol : ¬ c.toNat < 0x20) {b : UInt8} (hb : b ∈ String.utf8EncodeChar c) : IsPlain b := by
  have hvalue (d : Char) (hne : c ≠ d) : c.val.toNat ≠ d.toNat := fun heq =>
    hne (Char.toNat_inj.mp heq)
  -- All bytes of a character that is not ASCII have their highest bit set.
  have hhigh (n : Nat) (hset : 0x80 ≤ n) (hbyte : n < 256) : IsPlain (UInt8.ofNat n) :=
    isPlain_ofNat (by omega) hbyte (by simp; omega) (by simp; omega)
  have hchar := c.val.toNat_lt
  unfold String.utf8EncodeChar at hb
  dsimp only at hb
  split at hb
  · rw [List.mem_singleton] at hb
    subst hb
    exact isPlain_ofNat (by simpa using hcontrol) (by omega) (hvalue _ hquote) (hvalue _ hslash)
  split at hb
  · simp only [List.mem_cons, List.not_mem_nil, or_false] at hb
    rcases hb with rfl | rfl <;> exact hhigh _ (by omega) (by omega)
  split at hb
  · simp only [List.mem_cons, List.not_mem_nil, or_false] at hb
    rcases hb with rfl | rfl | rfl <;> exact hhigh _ (by omega) (by omega)
  · simp only [List.mem_cons, List.not_mem_nil, or_false] at hb
    rcases hb with rfl | rfl | rfl | rfl <;> exact hhigh _ (by omega) (by omega)

theorem run_contentFrom_plain {b : UInt8} (h : IsPlain b) (done rest : Bytes) :
    Reader.run (contentFrom done) (b :: rest) = Reader.run (contentFrom (b :: done)) rest := by
  obtain ⟨hquote, hslash, hcontrol⟩ := h
  rw [Reader.run, contentFrom, if_neg hquote, if_neg hslash, if_neg hcontrol, Reader.run]
  cases contentFrom (b :: done) rest <;> rfl

theorem run_contentFrom_plains {text : Bytes} (h : ∀ b ∈ text, IsPlain b) (done rest : Bytes) :
    Reader.run (contentFrom done) (text ++ rest) =
      Reader.run (contentFrom (text.reverse ++ done)) rest := by
  induction text generalizing done with
  | nil => rfl
  | cons b text ih =>
    rw [List.cons_append, run_contentFrom_plain (h b List.mem_cons_self),
      ih fun b' hb' => h b' (List.mem_cons_of_mem _ hb')]
    simp

theorem run_contentFrom_escaped {letters rest : Bytes} {c : Char}
    (h : Reader.run escapedChar letters = .ok (c, rest)) (done : Bytes) :
    Reader.run (contentFrom done) (ascii '\\' :: letters) =
      Reader.run (contentFrom ((String.utf8EncodeChar c).reverse ++ done)) rest := by
  rw [Reader.run] at h
  rw [Reader.run, contentFrom, if_neg (by decide), if_pos rfl]
  cases hescaped : escapedChar letters with
  | error e =>
    rw [hescaped] at h
    cases h
  | ok escaped =>
    rw [hescaped] at h
    cases h
    change Except.map _ (contentFrom ((String.utf8EncodeChar escaped.value).reverse ++ done)
      escaped.rest >>= _) = _
    rw [Reader.run]
    cases contentFrom ((String.utf8EncodeChar escaped.value).reverse ++ done) escaped.rest <;> rfl

theorem hexDigit?_digitChar : ∀ n : Fin 16, hexDigit? (ascii (Nat.digitChar n)) = some n.val := by
  decide

theorem utf8EncodeChar_digitChar :
    ∀ n : Fin 16, String.utf8EncodeChar (Nat.digitChar n) = [ascii (Nat.digitChar n)] := by
  decide

/-- A control character is read from its code point. -/
theorem run_escapedChar_control {c : Char} (h : c.toNat < 0x20) (rest : Bytes) :
    Reader.run escapedChar (ascii 'u' :: ascii '0' :: ascii '0' ::
      ascii (Nat.digitChar (c.toNat / 16)) :: ascii (Nat.digitChar (c.toNat % 16)) :: rest) =
        .ok (c, rest) := by
  have hhigh : hexDigit? (ascii (Nat.digitChar (c.toNat / 16))) = some (c.toNat / 16) :=
    hexDigit?_digitChar ⟨c.toNat / 16, by omega⟩
  have hlow : hexDigit? (ascii (Nat.digitChar (c.toNat % 16))) = some (c.toNat % 16) :=
    hexDigit?_digitChar ⟨c.toNat % 16, by omega⟩
  have hzero : hexDigit? (ascii '0') = some 0 := rfl
  have hvalue : 4096 * 0 + 256 * 0 + 16 * (c.toNat / 16) + c.toNat % 16 = c.toNat := by omega
  have hunit : Reader.run codeUnit (ascii '0' :: ascii '0' ::
      ascii (Nat.digitChar (c.toNat / 16)) :: ascii (Nat.digitChar (c.toNat % 16)) :: rest) =
        .ok (c.toNat, rest) := by
    rw [Reader.run, codeUnit, hzero, hhigh, hlow]
    simp only [hvalue, Except.map]
  rw [Reader.run] at hunit
  rw [Reader.run, escapedChar]
  change Except.map _ (codePoint _ >>= _) = _
  rw [codePoint]
  generalize codeUnit _ = unit at hunit
  cases unit with
  | error e => cases hunit
  | ok unit =>
    obtain ⟨hunitValue, hrest⟩ := Prod.mk.inj (Except.ok.inj hunit)
    simp only [bind, Except.bind, hunitValue]
    rw [if_neg (by simp; omega), if_neg (by simp; omega)]
    simp only [Except.map, pure, Except.pure, Taken.behind, Taken.within, Taken.map, hunitValue,
      hrest, Char.ofNat_toNat]

theorem run_contentFrom_escape (c : Char) (done rest : Bytes) :
    Reader.run (contentFrom done) ((escape c).flatMap String.utf8EncodeChar ++ rest) =
      Reader.run (contentFrom ((String.utf8EncodeChar c).reverse ++ done)) rest := by
  unfold escape
  split
  · subst c
    exact run_contentFrom_escaped rfl done
  split
  · subst c
    exact run_contentFrom_escaped rfl done
  split
  · subst c
    exact run_contentFrom_escaped rfl done
  split
  · subst c
    exact run_contentFrom_escaped rfl done
  split
  · subst c
    exact run_contentFrom_escaped rfl done
  split
  · subst c
    exact run_contentFrom_escaped rfl done
  split
  · subst c
    exact run_contentFrom_escaped rfl done
  split
  · have hcontrol : c.toNat < 0x20 := ‹_›
    have hletters : (['\\', 'u', '0', '0', Nat.digitChar (c.toNat / 16),
        Nat.digitChar (c.toNat % 16)]).flatMap String.utf8EncodeChar =
        [ascii '\\', ascii 'u', ascii '0', ascii '0', ascii (Nat.digitChar (c.toNat / 16)),
          ascii (Nat.digitChar (c.toNat % 16))] := by
      have hhigh := utf8EncodeChar_digitChar ⟨c.toNat / 16, by omega⟩
      have hlow := utf8EncodeChar_digitChar ⟨c.toNat % 16, by omega⟩
      simp only [List.flatMap_cons, List.flatMap_nil, hhigh, hlow]
      rfl
    rw [hletters]
    exact run_contentFrom_escaped (run_escapedChar_control hcontrol rest) done
  · rw [List.flatMap_singleton]
    exact run_contentFrom_plains (fun b => isPlain_of_mem_utf8EncodeChar ‹_› ‹_› ‹_›) done rest

theorem run_contentFrom_escapes (text : List Char) (done rest : Bytes) :
    Reader.run (contentFrom done)
        ((text.flatMap escape).flatMap String.utf8EncodeChar ++ ascii '"' :: rest) =
      .ok (done.reverse ++ text.flatMap String.utf8EncodeChar, rest) := by
  induction text generalizing done with
  | nil =>
    simp only [List.flatMap_nil, List.nil_append, List.append_nil]
    rw [Reader.run, contentFrom]
    rfl
  | cons c text ih =>
    rw [List.flatMap_cons, List.flatMap_append, List.append_assoc, run_contentFrom_escape, ih]
    simp

/-- A text in quotes is read back, whatever follows. -/
theorem run_readText_escapes (text : String) (rest : Bytes) :
    Reader.run readText ((text.toList.flatMap escape).flatMap String.utf8EncodeChar ++
      ascii '"' :: rest) = .ok (text, rest) := by
  have hcontent := run_contentFrom_escapes text.toList [] rest
  rw [List.reverse_nil, List.nil_append, ← utf8_eq_flatMap, Reader.run] at hcontent
  rw [Reader.run, readText]
  generalize contentFrom [] _ = content at hcontent
  cases content with
  | error e => cases hcontent
  | ok content =>
    obtain ⟨hvalue, hrest⟩ := Prod.mk.inj (Except.ok.inj hcontent)
    simp only [bind, Except.bind, hvalue, fromUTF8?_utf8]
    simp only [Except.map, pure, Except.pure, Taken.map, hrest]

/-- A quoted text is an opening quote and what is read as the text. -/
theorem exists_utf8_quoted (text : String) :
    ∃ inside, utf8 (quoted text) = ascii '"' :: inside ∧
      ∀ rest, Reader.run readText (inside ++ rest) = .ok (text, rest) := by
  refine ⟨(text.toList.flatMap escape).flatMap String.utf8EncodeChar ++ [ascii '"'], ?_,
    fun rest => ?_⟩
  · rw [utf8_eq_flatMap, quoted, String.toList_ofList, List.cons_append, List.flatMap_cons,
      List.flatMap_append]
    rfl
  · rw [List.append_assoc]
    exact run_readText_escapes text rest

end Json

end GettextTemplate
