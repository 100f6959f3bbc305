import TexSymbols.Text

/-!
# Blanks

The Unicode property White_Space and the trimming built on it, and the smaller set of ASCII blanks that
separates the parts of a definition line.

* `isBlank` — White_Space: 25 code points.  U+200B, U+FEFF and the separators U+001C to U+001F are not in it.
* `isAsciiBlank` — tab, line feed, vertical tab, form feed, carriage return, space.
* `Text.trim` — a text without the blanks at both ends; `trim_trim` says that once is enough.
-/

namespace TexSymbols

/-- White_Space. -/
def isBlank (c : Char) : Bool :=
  let n := c.toNat
  (0x09 ≤ n && n ≤ 0x0D) || n == 0x20 || n == 0x85 || n == 0xA0 || n == 0x1680 ||
    (0x2000 ≤ n && n ≤ 0x200A) || n == 0x2028 || n == 0x2029 || n == 0x202F || n == 0x205F || n == 0x3000

/-- The blanks among the ASCII characters. -/
def isAsciiBlank (c : Char) : Bool := isBlank c && c.toNat < 0x80

namespace Text

def trimStart (t : Text) : Text := t.dropWhile isBlank

def trimEnd (t : Text) : Text := (t.reverse.dropWhile isBlank).reverse

def trim (t : Text) : Text := trimEnd (trimStart t)

theorem trimStart_eq_self {t : Text} (h : ∀ c r, t = c :: r → isBlank c = false) : trimStart t = t := by
  cases t with
  | nil => rfl
  | cons c r => simp [trimStart, h c r rfl]

theorem trimStart_trimStart (t : Text) : trimStart (trimStart t) = trimStart t :=
  trimStart_eq_self fun c r h => by
    have hd := List.head?_dropWhile_not isBlank t
    rw [trimStart] at h
    rw [h] at hd
    simpa using hd

theorem trimEnd_trimEnd (t : Text) : trimEnd (trimEnd t) = trimEnd t := by
  have h := trimStart_trimStart t.reverse
  unfold trimStart at h
  simp [trimEnd, h]

/-- Cutting blanks at the end leaves the first character where it is, as long as it is no blank. -/
theorem trimStart_trimEnd {t : Text} (h : trimStart t = t) : trimStart (trimEnd t) = trimEnd t := by
  refine trimStart_eq_self fun c r hc => ?_
  have hp : trimEnd t <+: t := by
    have hs := List.dropWhile_suffix isBlank (l := t.reverse)
    have := List.reverse_prefix.2 hs
    simpa [trimEnd] using this
  obtain ⟨s, hs⟩ := hp
  rw [hc] at hs
  have hd := List.head?_dropWhile_not isBlank t
  rw [trimStart] at h
  rw [h, ← hs] at hd
  simpa using hd

/-- Trimming twice is trimming once. -/
theorem trim_trim (t : Text) : trim (trim t) = trim t := by
  have h : trimStart (trim t) = trim t := trimStart_trimEnd (trimStart_trimStart t)
  unfold trim at h ⊢
  rw [h, trimEnd_trimEnd]

end Text

end TexSymbols
