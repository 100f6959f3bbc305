import Mathlib.Data.Char
import Mathlib.Data.List.Lex
import Mathlib.Order.Lattice
import TexSymbols.Proofs.Text.Utf8

/-!
# The order of texts

* `Text.le_iff` — texts are compared at the first character that differs; a beginning comes before
  the whole.
* `encodeChar_append_lt` — where characters differ, so do the first bytes that differ, whatever
  follows them.
* `encode_lt_encode_iff` — the order of texts is the order of their bytes.
-/

namespace TexSymbols

theorem cons_le_cons_iff {α : Type} [LinearOrder α] {a b : α} {as bs : List α} :
    a :: as ≤ b :: bs ↔ a < b ∨ a = b ∧ as ≤ bs := by
  rw [le_iff_lt_or_eq, List.cons_lt_cons_iff, le_iff_lt_or_eq, List.cons.injEq, or_assoc,
    ← and_or_left]

theorem nil_le {α : Type} [LinearOrder α] (as : List α) : [] ≤ as := by
  cases as with
  | nil => exact le_rfl
  | cons a as => exact le_of_lt (List.nil_lt_cons a as)

theorem Text.le_iff (s t : Text) : Text.le s t = true ↔ s ≤ t := by
  induction s generalizing t with
  | nil => simp [Text.le, nil_le]
  | cons a s ih =>
    cases t with
    | nil => simp [Text.le]
    | cons b t =>
      rw [cons_le_cons_iff, ← ih]
      simp [Text.le, Char.lt_def, UInt32.lt_iff_toNat_lt]

namespace Utf8

variable {s t : Text}

theorem ofNat_cons_lt_iff {m n : Nat} (hm : m < 256) (hn : n < 256) (r r' : Bytes) :
    UInt8.ofNat m :: r < UInt8.ofNat n :: r' ↔ m < n ∨ m = n ∧ r < r' := by
  rw [List.cons_lt_cons_iff, UInt8.lt_iff_toNat_lt, ← UInt8.toNat_inj, toNat_ofNat hm,
    toNat_ofNat hn]

/-- **The bytes of a smaller character come first**, whatever follows them. -/
theorem encodeChar_append_lt {a b : Char} (h : a < b) (r r' : Bytes) :
    encodeChar a ++ r < encodeChar b ++ r' := by
  have hlt : a.toNat < b.toNat := h
  have hb : b.toNat < 0x110000 := by
    have hvalid : b.toNat < 0xD800 ∨ 0xDFFF < b.toNat ∧ b.toNat < 0x110000 := b.valid
    omega
  have hdigit₀ : ∀ n, n / Nat.pow 64 0 = n := Nat.div_one
  have hdigit₁ : ∀ n, n / Nat.pow 64 1 = n / 64 := fun _ => rfl
  have hdigit₂ : ∀ n, n / Nat.pow 64 2 = n / 64 / 64 :=
    fun n => (Nat.div_div_eq_div_mul n 64 64).symm
  have hdigit₃ : ∀ n, n / Nat.pow 64 3 = n / 64 / 64 / 64 := by
    intro n
    rw [Nat.div_div_eq_div_mul, Nat.div_div_eq_div_mul]
  simp only [encodeChar, hdigit₀, hdigit₁, hdigit₂, hdigit₃]
  generalize a.toNat = m at hlt
  generalize b.toNat = n at hlt hb
  generalize hrest : (r < r') = rest
  -- the first byte grows with the number of bytes; of as many, the digits to base 64 are compared
  split_ifs <;>
    simp (disch := omega) only [List.cons_append, List.nil_append, ofNat_cons_lt_iff, hrest] <;>
      omega

theorem encode_cons (c : Char) (t : Text) : encode (c :: t) = encodeChar c ++ encode t := rfl

theorem encode_lt_encode (h : s < t) : encode s < encode t := by
  induction s generalizing t with
  | nil =>
    cases t with
    | nil => exact absurd h (List.lt_irrefl _)
    | cons b t =>
      have hlength := length_le_encode (b :: t)
      cases hbytes : encode (b :: t) with
      | nil => simp [hbytes] at hlength
      | cons byte bytes => exact List.nil_lt_cons byte bytes
  | cons a s ih =>
    cases t with
    | nil => exact absurd h (by simp)
    | cons b t =>
      rw [encode_cons, encode_cons]
      rcases List.cons_lt_cons_iff.1 h with hab | ⟨rfl, hst⟩
      · exact encodeChar_append_lt hab _ _
      · exact List.Lex.append_left _ (ih hst) _

/-- **The order of texts is the order of their bytes.** -/
theorem encode_lt_encode_iff : encode s < encode t ↔ s < t := by
  refine ⟨fun h => ?_, encode_lt_encode⟩
  rcases lt_trichotomy s t with hlt | rfl | hgt
  · exact hlt
  · exact absurd h (List.lt_irrefl _)
  · exact absurd h (List.lt_asymm (encode_lt_encode hgt))

end Utf8

end TexSymbols
