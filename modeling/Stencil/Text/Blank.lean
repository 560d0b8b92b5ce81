/-!
# Blank characters

Text is a list of characters. A character is blank when it has the Unicode
property White_Space, and trimming removes the blank characters at an end of a
text. The no-break space and the ideographic space are blank; the zero-width
space and the byte order mark are not.
-/
namespace Stencil

/-- Text as the list of its characters. -/
abbrev Text := List Char

namespace Text

/-- The characters with the Unicode property White_Space. -/
def isBlank (c : Char) : Bool :=
  let n := c.toNat
  (9 ≤ n && n ≤ 13) || n == 32 || n == 0x85 || n == 0xA0 || n == 0x1680 ||
    (0x2000 ≤ n && n ≤ 0x200A) || n == 0x2028 || n == 0x2029 || n == 0x202F ||
    n == 0x205F || n == 0x3000

def trimStart (t : Text) : Text := t.dropWhile isBlank

def trimEnd (t : Text) : Text := (t.reverse.dropWhile isBlank).reverse

def trim (t : Text) : Text := trimEnd (trimStart t)

/-- A text of blanks only, the empty one among them. -/
def isBlankText (t : Text) : Bool := (trim t).isEmpty

theorem dropWhile_isBlank_eq_nil {t : Text} : t.dropWhile isBlank = [] ↔ t.all isBlank = true := by
  induction t with
  | nil => simp
  | cons c t ih => by_cases h : isBlank c = true <;> simp_all

theorem all_dropWhile_isBlank {t : Text} : (t.dropWhile isBlank).all isBlank = t.all isBlank := by
  induction t with
  | nil => rfl
  | cons c t ih => by_cases h : isBlank c = true <;> simp_all

/-- Trimming leaves nothing of the blank texts, and something of all others. -/
theorem trim_eq_nil_iff {t : Text} : trim t = [] ↔ t.all isBlank = true := by
  unfold trim trimEnd trimStart
  rw [List.reverse_eq_nil_iff, dropWhile_isBlank_eq_nil, List.all_reverse, all_dropWhile_isBlank]

theorem isBlankText_iff {t : Text} : isBlankText t = true ↔ t.all isBlank = true := by
  rw [isBlankText, List.isEmpty_iff, trim_eq_nil_iff]

end Text
end Stencil
