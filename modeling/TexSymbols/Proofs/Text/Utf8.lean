import Mathlib.Data.List.Basic
import TexSymbols.Text.Utf8

/-!
# Encoding and decoding

* `unitsFrom_ascii`, `unitsFrom_lead`, `unitsFrom_more`, `unitsFrom_last` — what one byte does.
* `unitsFrom_encodeChar` — the bytes of a character are one unit.
* `decode?_encode` — a text that is encoded is decoded.
-/

namespace TexSymbols.Utf8

variable {b n : Nat} {r : Bytes} {p : Partial}

theorem toNat_ofNat (h : b < 256) : (UInt8.ofNat b).toNat = b := by
  simp [Nat.mod_eq_of_lt h]

/-! ## Single bytes -/

theorem unitsFrom_ascii (h : b < 0x80) :
    unitsFrom none (UInt8.ofNat b :: r) = some (Char.ofNat b) :: unitsFrom none r := by
  have hb : (UInt8.ofNat b).toNat = b := toNat_ofNat (by omega)
  rw [unitsFrom, hb]
  simp [h]

theorem unitsFrom_lead (h₁ : 0x80 ≤ b) (h₂ : b < 256) (hp : lead? b = some p) :
    unitsFrom none (UInt8.ofNat b :: r) = unitsFrom (some p) r := by
  have hb : (UInt8.ofNat b).toNat = b := toNat_ofNat h₂
  rw [unitsFrom, hb]
  simp [hp, Nat.not_lt.2 h₁]

theorem unitsFrom_more {value low high more : Nat} (h₁ : low ≤ b) (h₂ : b ≤ high) (h₃ : b < 256) :
    unitsFrom (some ⟨value, low, high, more + 1⟩) (UInt8.ofNat b :: r) =
      unitsFrom (some ⟨value * 64 + (b - 0x80), 0x80, 0xBF, more⟩) r := by
  have hb : (UInt8.ofNat b).toNat = b := toNat_ofNat h₃
  rw [unitsFrom, hb]
  simp [h₁, h₂]

theorem unitsFrom_last {value low high : Nat} (h₁ : low ≤ b) (h₂ : b ≤ high) (h₃ : b < 256) :
    unitsFrom (some ⟨value, low, high, 0⟩) (UInt8.ofNat b :: r) =
      some (Char.ofNat (value * 64 + (b - 0x80))) :: unitsFrom none r := by
  have hb : (UInt8.ofNat b).toNat = b := toNat_ofNat h₃
  rw [unitsFrom, hb]
  simp [h₁, h₂]

/-! ## Leading bytes -/

theorem lead?_two (h₁ : 0xC2 ≤ b) (h₂ : b ≤ 0xDF) : lead? b = some ⟨b - 0xC0, 0x80, 0xBF, 0⟩ := by
  simp [lead?, h₁, h₂]

/-- The range of the second byte of three leaves out what has a shorter encoding or is no
character. -/
theorem lead?_three (h₁ : 0xE0 ≤ b) (h₂ : b ≤ 0xEF) :
    lead? b = some ⟨b - 0xE0, if b = 0xE0 then 0xA0 else 0x80, if b = 0xED then 0x9F else 0xBF, 1⟩ := by
  have hnot : ¬ b ≤ 0xDF := by omega
  unfold lead?
  by_cases he0 : b = 0xE0
  · subst he0
    rfl
  by_cases hed : b = 0xED
  · subst hed
    rfl
  have hlow : 0xE1 ≤ b := by omega
  simp [hnot, he0, hed, hlow, h₂]

/-- The same for the second byte of four. -/
theorem lead?_four (h₁ : 0xF0 ≤ b) (h₂ : b ≤ 0xF4) :
    lead? b = some ⟨b - 0xF0, if b = 0xF0 then 0x90 else 0x80, if b = 0xF4 then 0x8F else 0xBF, 2⟩ := by
  obtain rfl | rfl | rfl | rfl | rfl :
      b = 0xF0 ∨ b = 0xF1 ∨ b = 0xF2 ∨ b = 0xF3 ∨ b = 0xF4 := by omega
  all_goals rfl

/-! ## Characters -/

/-- **The bytes of a character are one unit**, whatever follows them. -/
theorem unitsFrom_encodeChar (c : Char) (r : Bytes) :
    unitsFrom none (encodeChar c ++ r) = some c :: unitsFrom none r := by
  have hvalid : c.toNat < 0xD800 ∨ 0xDFFF < c.toNat ∧ c.toNat < 0x110000 := c.valid
  have hchar : ∀ n, n = c.toNat → Char.ofNat n = c := by
    rintro n rfl
    exact Char.ofNat_toNat c
  have hpow₁ : Nat.pow 64 1 = 64 := rfl
  have hpow₂ : Nat.pow 64 2 = 4096 := rfl
  have hpow₃ : Nat.pow 64 3 = 262144 := rfl
  have hpow₀ : Nat.pow 64 0 = 1 := rfl
  simp only [encodeChar, hpow₀, hpow₁, hpow₂, hpow₃, Nat.div_one]
  generalize c.toNat = n at hvalid hchar ⊢
  split
  · rename_i h
    rw [List.singleton_append, unitsFrom_ascii h, hchar n rfl]
  split
  · have hlead : lead? (0xC0 + n / 64 % 64) = some ⟨0xC0 + n / 64 % 64 - 0xC0, 0x80, 0xBF, 0⟩ :=
      lead?_two (by omega) (by omega)
    rw [List.cons_append, List.singleton_append, unitsFrom_lead (by omega) (by omega) hlead,
      unitsFrom_last (by omega) (by omega) (by omega), hchar _ (by omega)]
  split
  · have hlead := lead?_three (b := 0xE0 + n / 4096 % 64) (by omega) (by omega)
    rw [List.cons_append, List.cons_append, List.singleton_append,
      unitsFrom_lead (by omega) (by omega) hlead,
      unitsFrom_more (by split <;> omega) (by split <;> omega) (by omega),
      unitsFrom_last (by omega) (by omega) (by omega), hchar _ (by omega)]
  · have hlead := lead?_four (b := 0xF0 + n / 262144 % 64) (by omega) (by omega)
    rw [List.cons_append, List.cons_append, List.cons_append, List.singleton_append,
      unitsFrom_lead (by omega) (by omega) hlead,
      unitsFrom_more (by split <;> omega) (by split <;> omega) (by omega),
      unitsFrom_more (by omega) (by omega) (by omega),
      unitsFrom_last (by omega) (by omega) (by omega), hchar _ (by omega)]

theorem units_encode (t : Text) : units (encode t) = t.map some := by
  induction t with
  | nil => rfl
  | cons c t ih =>
    have hcons : encode (c :: t) = encodeChar c ++ encode t := rfl
    rw [units, hcons, unitsFrom_encodeChar, ← units, ih, List.map_cons]

/-- **A text that is encoded is decoded.** -/
theorem decode?_encode (t : Text) : decode? (encode t) = some t := by
  have hpure : t.mapM (fun c => (pure c : Option Char)) = pure (t.map fun c => c) := List.mapM_pure
  rw [List.map_id'] at hpure
  rw [decode?, units_encode, List.mapM_map]
  exact hpure

theorem length_le_encode (t : Text) : t.length ≤ (encode t).length := by
  induction t with
  | nil => exact Nat.le_refl _
  | cons c t ih =>
    have hcons : encode (c :: t) = encodeChar c ++ encode t := rfl
    have hchar : 1 ≤ (encodeChar c).length := by
      unfold encodeChar
      dsimp only
      repeat' split
      all_goals simp
    rw [hcons, List.length_append, List.length_cons]
    omega

end TexSymbols.Utf8
