import GettextTemplate.Calendar

/-!
The characters of creation stamps. A stamp is made of digits and a few marks, so it can stand in a
quoted line of a template as it is.
-/

namespace GettextTemplate.Minute

/-- The characters that stamps are made of. -/
def isStampChar (c : Char) : Bool := c.isDigit || c = '-' || c = '+' || c = ' ' || c = ':'

theorem toList_stamp (m : Minute) :
    m.stamp.toList =
      (yearText m.year).toList ++ '-' :: ((padded 2 m.month).toList ++ '-' ::
        ((padded 2 m.day).toList ++ ' ' :: ((padded 2 m.hour).toList ++ ':' ::
          ((padded 2 m.minute).toList ++ ['+', '0', '0', '0', '0'])))) := by
  have hlayout : stampLayout.toList =
      ['%', 'Y', '-', '%', 'm', '-', '%', 'd', ' ', '%', 'H', ':', '%', 'M',
        '+', '0', '0', '0', '0'] := String.toList_ofList
  rw [stamp, hlayout]
  simp [format]

theorem all_isStampChar_padded (width n : Nat) : (padded width n).toList.all isStampChar = true := by
  rw [List.all_eq_true]
  intro c hc
  simp only [padded, String.toList_ofList, List.mem_append] at hc
  rcases hc with hzero | hdigit
  · rw [List.eq_of_mem_replicate hzero]
    rfl
  · have hc : c.isDigit = true := Nat.isDigit_of_mem_toDigits (by decide) (by decide) hdigit
    simp [isStampChar, hc]

theorem all_isStampChar_yearText (year : Int) : (yearText year).toList.all isStampChar = true := by
  have hdigits := all_isStampChar_padded 4 year.natAbs
  unfold yearText
  split
  · rw [String.toList_append, List.all_append, hdigits]
    rfl
  split
  · rw [String.toList_append, List.all_append, hdigits]
    rfl
  · exact hdigits

theorem all_isStampChar_stamp (m : Minute) : m.stamp.toList.all isStampChar = true := by
  simp only [toList_stamp, List.all_append, List.all_cons, all_isStampChar_yearText,
    all_isStampChar_padded]
  rfl

end GettextTemplate.Minute
