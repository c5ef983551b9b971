import GettextTemplate.Proofs.Dates
import GettextTemplate.Proofs.Layout
import GettextTemplate.Proofs.RoundTrip

/-!
Creation dates, read back. A year may be of any width and have a sign, but it ends at the first
character that is no digit, and all other fields have two digits, so a stamp gives its minute back
(`ofStamp?_stamp`). With the count of dates this makes the header exact to the minute
(`creation_date_is_exact`).
-/

namespace GettextTemplate

namespace Minute

def number? (digits : List Char) : Option Nat :=
  if digits ≠ [] ∧ digits.all Char.isDigit then some (Nat.ofDigitChars 10 digits 0) else none

def unsigned : List Char → List Char
  | '-' :: rest => rest
  | '+' :: rest => rest
  | chars => chars

/-- Reads a stamp. The year may have a sign, and each other field has two digits. -/
def ofStamp? (stamp : List Char) : Option Minute :=
  match (unsigned stamp).dropWhile Char.isDigit with
  | ['-', a, b, '-', c, d, ' ', e, f, ':', g, h, '+', '0', '0', '0', '0'] => do
    let year ← number? ((unsigned stamp).takeWhile Char.isDigit)
    let month ← number? [a, b]
    let day ← number? [c, d]
    let hour ← number? [e, f]
    let minute ← number? [g, h]
    return ⟨if stamp.head? = some '-' then -year else year, month, day, hour, minute⟩
  | _ => none

theorem ofDigitChars_replicate_zero (count : Nat) (digits : List Char) :
    Nat.ofDigitChars 10 (List.replicate count '0' ++ digits) 0 = Nat.ofDigitChars 10 digits 0 := by
  induction count with
  | zero => rfl
  | succ count ih => exact ih

theorem isDigit_of_mem_padded {width n : Nat} {c : Char} (h : c ∈ (padded width n).toList) :
    c.isDigit = true := by
  simp only [padded, String.toList_ofList, List.mem_append] at h
  rcases h with hzero | hdigit
  · rw [List.eq_of_mem_replicate hzero]
    rfl
  · exact Nat.isDigit_of_mem_toDigits (by decide) (by decide) hdigit

theorem padded_ne_nil (width n : Nat) : (padded width n).toList ≠ [] := by
  have hdigits : Nat.toDigits 10 n ≠ [] := Nat.toDigits_ne_nil
  simp [padded, hdigits]

theorem number?_padded (width n : Nat) : number? (padded width n).toList = some n := by
  have hall : (padded width n).toList.all Char.isDigit = true :=
    List.all_eq_true.mpr fun c => isDigit_of_mem_padded
  rw [number?, if_pos ⟨padded_ne_nil width n, hall⟩, padded, String.toList_ofList,
    ofDigitChars_replicate_zero, Nat.ofDigitChars_toDigits (by decide) (by decide)]

theorem exists_two_digits {n : Nat} (h : n < 100) :
    ∃ a b, (padded 2 n).toList = [a, b] ∧ number? [a, b] = some n := by
  have hlength : (Nat.toDigits 10 n).length ≤ 2 :=
    (Nat.length_toDigits_le_iff (by decide) (by decide)).mpr h
  have htwo : (padded 2 n).toList.length = 2 := by
    simp only [padded, String.toList_ofList, List.length_append, List.length_replicate]
    omega
  obtain ⟨a, b, hdigits⟩ := List.length_eq_two.mp htwo
  exact ⟨a, b, hdigits, hdigits ▸ number?_padded 2 n⟩

/-- What a year is without its sign, and what the sign tells. -/
theorem unsigned_yearText (year : Int) (rest : List Char) :
    unsigned ((yearText year).toList ++ rest) = (padded 4 year.natAbs).toList ++ rest ∧
      (((yearText year).toList ++ rest).head? = some '-' ↔ year < 0) := by
  have hfirst : ∃ c more, (padded 4 year.natAbs).toList = c :: more ∧ c.isDigit = true := by
    obtain ⟨c, more, hdigits⟩ := List.exists_cons_of_ne_nil (padded_ne_nil 4 year.natAbs)
    have hmem : c ∈ (padded 4 year.natAbs).toList := hdigits ▸ List.mem_cons_self
    exact ⟨c, more, hdigits, isDigit_of_mem_padded hmem⟩
  obtain ⟨c, more, hdigits, hc⟩ := hfirst
  unfold yearText
  split
  · rename_i hneg
    simp [unsigned, hneg, hdigits]
  split
  · rename_i hneg hlarge
    simp [unsigned, hneg, hdigits]
  · rename_i hneg hlarge
    have hminus : c ≠ '-' := by rintro rfl; cases hc
    have hplus : c ≠ '+' := by rintro rfl; cases hc
    simp [unsigned, hneg, hdigits, hminus, hplus]

/-- A stamp tells its minute, whatever the year. -/
theorem ofStamp?_stamp {m : Minute} (hmonth : m.month < 100) (hday : m.day < 100)
    (hhour : m.hour < 100) (hminute : m.minute < 100) : ofStamp? m.stamp.toList = some m := by
  obtain ⟨year, month, day, hour, minute⟩ := m
  obtain ⟨a, b, hmonth, hmonth'⟩ := exists_two_digits hmonth
  obtain ⟨c, d, hday, hday'⟩ := exists_two_digits hday
  obtain ⟨e, f, hhour, hhour'⟩ := exists_two_digits hhour
  obtain ⟨g, h, hminute, hminute'⟩ := exists_two_digits hminute
  obtain ⟨hunsigned, hsign⟩ := unsigned_yearText year
    ['-', a, b, '-', c, d, ' ', e, f, ':', g, h, '+', '0', '0', '0', '0']
  have hdigits : ∀ c ∈ (padded 4 year.natAbs).toList, c.isDigit = true := fun _ =>
    isDigit_of_mem_padded
  have hdash : Char.isDigit '-' = false := rfl
  have hyear : (if year < 0 then -(year.natAbs : Int) else year.natAbs) = year := by
    split <;> omega
  simp only [toList_stamp, hmonth, hday, hhour, hminute, List.cons_append, List.nil_append]
  rw [ofStamp?, hunsigned, List.dropWhile_append_of_pos hdigits,
    List.takeWhile_append_of_pos hdigits]
  simp only [List.dropWhile_cons, List.takeWhile_cons, hdash, Bool.false_eq_true, if_false,
    List.append_nil, number?_padded, hmonth', hday', hhour', hminute', hsign]
  simp only [Option.bind_eq_bind, Option.bind_some, Option.pure_def, hyear]

theorem ofStamp?_stamp_of_isCivil {m : Minute} (h : m.IsCivil) :
    ofStamp? m.stamp.toList = some m := by
  obtain ⟨⟨⟨-, hmonth⟩, -, hday⟩, hhour, hminute⟩ := h
  have hlength : daysInMonth m.year m.month ≤ 31 := by
    unfold daysInMonth
    split
    · split <;> decide
    · split <;> decide
  exact ofStamp?_stamp (by omega) (by omega) (by omega) (by omega)

end Minute

namespace Template

/-- What a header says before its creation date. -/
def beforeDate : List Char := headerTop ++ '\n' :: '"' :: "POT-Creation-Date: ".toList

/-- What a header says after its creation date. -/
def afterDate : List Char := '\\' :: 'n' :: '"' :: '\n' :: headerBottom

theorem toList_header_eq (created : String) :
    (header created).toList = beforeDate ++ created.toList ++ afterDate := by
  simp [toList_header, beforeDate, afterDate, quoted, -String.reduceToList]

theorem brace_not_mem_beforeDate : '\x7b' ∉ beforeDate := by
  unfold beforeDate headerTop
  repeat rw [String.toList_ofList]
  decide +kernel

theorem brace_not_mem_afterDate : '\x7b' ∉ afterDate := by
  unfold afterDate headerBottom
  repeat rw [String.toList_ofList]
  decide +kernel

theorem header_eq (created : String) :
    header created = String.ofList beforeDate ++ created ++ String.ofList afterDate := by
  apply String.toList_inj.mp
  simp only [toList_header_eq, String.toList_append, String.toList_ofList]

theorem header_inj {created created' : String} :
    header created = header created' ↔ created = created' := by
  rw [← String.toList_inj, toList_header_eq, toList_header_eq, List.append_left_inj,
    List.append_right_inj, String.toList_inj]

/-- There is one place in the header for the date. -/
theorem eq_of_header_datePlaceholder {before after : String}
    (h : header datePlaceholder = before ++ datePlaceholder ++ after) :
    before = String.ofList beforeDate ∧ after = String.ofList afterDate := by
  have hname : datePlaceholder.toList = '\x7b' :: "creation_date\x7d".toList := by
    rw [datePlaceholder, String.toList_ofList, String.toList_ofList]
  have hbrace : '\x7b' ∉ "creation_date\x7d".toList ++ afterDate := by
    rw [List.mem_append, String.toList_ofList]
    exact not_or.mpr ⟨by decide, brace_not_mem_afterDate⟩
  have hchars := congrArg String.toList h
  rw [toList_header_eq, String.toList_append, String.toList_append, hname, List.append_assoc,
    List.append_assoc, List.cons_append, List.cons_append,
    List.append_cons_inj_of_notMem brace_not_mem_beforeDate hbrace,
    List.append_right_inj] at hchars
  obtain ⟨hbefore, -, hafter⟩ := hchars
  rw [hbefore, hafter, String.ofList_toList, String.ofList_toList]
  exact ⟨rfl, rfl⟩

theorem header_eq_iff (seconds other : Int) :
    header (Minute.ofUnixSeconds seconds).stamp = header (Minute.ofUnixSeconds other).stamp ↔
      seconds / 60 = other / 60 := by
  have hread (created : Int) :=
    Minute.ofStamp?_stamp_of_isCivil (Minute.isCivil_ofUnixSeconds created)
  rw [header_inj]
  constructor
  · intro h
    have hminute := hread seconds
    rw [h, hread other, Option.some_inj] at hminute
    rw [← Minute.number_ofUnixSeconds, ← Minute.number_ofUnixSeconds, hminute]
  · intro h
    unfold Minute.ofUnixSeconds
    rw [h]

/-- Only the header of a template depends on the creation time. -/
theorem compose_headed_eq (catalog : Catalog) (created : Int) :
    compose {} catalog created =
      header (Minute.ofUnixSeconds created).stamp ++
        (if catalog.messages = [] then ""
          else "\n" ++ compose { hasHeader := false } catalog 0) := by
  split
  · rename_i hempty
    rw [compose_headed, hempty, List.map_nil, String.intercalate_singleton, String.append_empty]
  · rename_i hsome
    rw [compose_headed_of_ne_nil hsome, String.append_assoc, compose_bare, compose_bare]

/-- A header is the one with a placeholder for its date, which stands in a single place, and a stamp
in that place. The stamp tells the minute in which the template was created, and that minute is the
only one with its number. So two headers are the same only if they were created in the same minute,
and nothing else in a template depends on the creation time. -/
theorem creation_date_is_exact :
    ∃ before after : String,
      header datePlaceholder = before ++ datePlaceholder ++ after ∧
        (∀ before' after', header datePlaceholder = before' ++ datePlaceholder ++ after' →
          before' = before ∧ after' = after) ∧
        ∀ (catalog : Catalog) (seconds : Int),
          (∃ (stamp : String) (m : Minute),
            header (Minute.ofUnixSeconds seconds).stamp = before ++ stamp ++ after ∧
              Minute.ofStamp? stamp.toList = some m ∧ m.IsCivil ∧
              (60 * m.number ≤ seconds ∧ seconds < 60 * (m.number + 1)) ∧
              ∀ m' : Minute, m'.IsCivil → m'.number = m.number → m' = m) ∧
          compose {} catalog seconds =
            header (Minute.ofUnixSeconds seconds).stamp ++
              (if catalog.messages = [] then ""
                else "\n" ++ compose { hasHeader := false } catalog 0) ∧
          ∀ other : Int,
            (header (Minute.ofUnixSeconds seconds).stamp =
                header (Minute.ofUnixSeconds other).stamp ↔ seconds / 60 = other / 60) ∧
              (compose {} catalog seconds = compose {} catalog other ↔
                seconds / 60 = other / 60) := by
  refine ⟨String.ofList beforeDate, String.ofList afterDate, header_eq _,
    fun before' after' => eq_of_header_datePlaceholder, ?_⟩
  intro catalog seconds
  have hcivil := Minute.isCivil_ofUnixSeconds seconds
  refine ⟨⟨(Minute.ofUnixSeconds seconds).stamp, Minute.ofUnixSeconds seconds, header_eq _,
    Minute.ofStamp?_stamp_of_isCivil hcivil, hcivil, ?_, ?_⟩, compose_headed_eq catalog seconds, ?_⟩
  · rw [Minute.number_ofUnixSeconds]
    omega
  · intro m' hm' hnumber
    exact Minute.eq_of_number_eq hm' hcivil hnumber
  · intro other
    refine ⟨header_eq_iff seconds other, ?_⟩
    rw [compose_headed_eq, compose_headed_eq catalog other, String.append_left_inj, header_eq_iff]

/-- The last second before 1970 belongs to the minute that it ends, which has the number -1. -/
theorem creation_date_of_last_second :
    (⟨1969, 12, 31, 23, 59⟩ : Minute).IsCivil ∧ (⟨1969, 12, 31, 23, 59⟩ : Minute).number = -1 ∧
      ∃ stamp : String,
        header (Minute.ofUnixSeconds (-1)).stamp =
          String.ofList beforeDate ++ stamp ++ String.ofList afterDate ∧
          Minute.ofStamp? stamp.toList = some ⟨1969, 12, 31, 23, 59⟩ := by
  have hcivil : (⟨1969, 12, 31, 23, 59⟩ : Minute).IsCivil :=
    ⟨⟨by decide, by decide, by decide⟩, by decide, by decide⟩
  have hnumber : (⟨1969, 12, 31, 23, 59⟩ : Minute).number = -1 := by decide
  obtain ⟨before, after, -, hunique, h⟩ := creation_date_is_exact
  obtain ⟨rfl, rfl⟩ := hunique _ _ (header_eq datePlaceholder)
  obtain ⟨⟨stamp, m, hheader, hread, -, hbounds, honly⟩, -⟩ := h (Catalog.ofList []) (-1)
  have hsame := honly _ hcivil (by rw [hnumber]; omega)
  exact ⟨hcivil, hnumber, stamp, hheader, hsame ▸ hread⟩

end Template

end GettextTemplate
