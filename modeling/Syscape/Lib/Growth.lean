import Syscape.Lib.Calls
import Mathlib.Algebra.Order.Ring.Nat

/-!
# Buffers that grow

A call that gets a buffer fails, or is interrupted, or says that the buffer is too small. The
loop around it repeats the call with a larger buffer, up to a largest one. Such a loop ends,
since every round makes the buffer larger or uses up an interruption.
-/
namespace Growth
open Calls

/-- Twice the size, but not more than the largest one. -/
def grown (max size : ℕ) : ℕ := if size ≤ max / 2 then size * 2 else max

theorem lt_grown {max size : ℕ} (hpos : 0 < size) (h : size < max) : size < grown max size := by
  unfold grown
  split_ifs
  · omega
  · exact h

/-- The sizes that doubling passes. -/
def PowerUpTo (n size : ℕ) : Prop := ∃ k ≤ n, size = 2 ^ k

theorem PowerUpTo.double {n size : ℕ} (h : PowerUpTo n size) (hlt : size < 2 ^ n) :
    PowerUpTo n (size * 2) := by
  obtain ⟨k, hk, rfl⟩ := h
  have hkn : k < n := (Nat.pow_lt_pow_iff_right (by decide)).mp hlt
  exact ⟨k + 1, hkn, (Nat.pow_succ 2 k).symm⟩

theorem PowerUpTo.le {n size : ℕ} (h : PowerUpTo n size) : size ≤ 2 ^ n := by
  obtain ⟨k, hk, rfl⟩ := h
  exact Nat.pow_le_pow_right (by decide) hk

theorem PowerUpTo.pos {n size : ℕ} (h : PowerUpTo n size) : 0 < size := by
  obtain ⟨k, -, rfl⟩ := h
  exact Nat.two_pow_pos k

/-- Only the largest size is more than half of it. -/
theorem PowerUpTo.eq_of_half_lt {n size : ℕ} (h : PowerUpTo n size) (hlt : 2 ^ n / 2 < size) :
    size = 2 ^ n := by
  obtain ⟨k, hk, rfl⟩ := h
  rcases hk.lt_or_eq with hless | rfl
  · have hle : 2 ^ k ≤ 2 ^ (n - 1) := Nat.pow_le_pow_right (by decide) (by omega)
    have hhalf : 2 ^ (n - 1) * 2 = 2 ^ n := by
      rw [← Nat.pow_succ, Nat.succ_eq_add_one, Nat.sub_add_cancel (by omega)]
    omega
  · rfl

theorem PowerUpTo.grown {n size : ℕ} (h : PowerUpTo n size) (hlt : size < 2 ^ n) :
    PowerUpTo n (grown (2 ^ n) size) := by
  unfold Growth.grown
  split_ifs
  · exact h.double hlt
  · exact ⟨n, le_rfl, rfl⟩

section Loop
variable {Call : Type} {Answer : Call → Type} {World β : Type} {sys : System Call Answer World}
  {inv : World → Prop} {signals : World → ℕ} {post : β → World → Prop} {good : ℕ → Prop} {max : ℕ}

/-- The end of a round: a result, or a larger buffer, or the same one after a signal. -/
def RoundPost (good : ℕ → Prop) (inv : World → Prop) (signals : World → ℕ)
    (post : β → World → Prop) (size bound : ℕ) : ℕ ⊕ β → World → Prop
  | .inr b, w => post b w
  | .inl size', w => inv w ∧ good size' ∧
      (size < size' ∧ signals w ≤ bound ∨ size' = size ∧ signals w < bound)

/-- The rule of growing buffers. -/
theorem ensures_growth {body : ℕ → Prog Call Answer (ℕ ⊕ β)} {size : ℕ} {w : World}
    (hmax : ∀ size, good size → size ≤ max)
    (hstable : ∀ w w', inv w → sys.interferes w w' → inv w' ∧ signals w' ≤ signals w)
    (hpost : ∀ b w w', post b w → sys.interferes w w' → post b w')
    (hbody : ∀ size w, good size → inv w →
      Ensures sys (body size) (RoundPost good inv signals post size (signals w)) w)
    (hsize : good size) (hw : inv w) :
    Ensures sys (iterate body size) post w := by
  apply ensures_iterate (fun size w => good size ∧ inv w)
    (fun size w => signals w + (max - size)) ⟨hsize, hw⟩
  · intro size w w' ⟨hgood, hinv⟩ hacts
    obtain ⟨hinv', hsignals⟩ := hstable w w' hinv hacts
    exact ⟨⟨hgood, hinv'⟩, Nat.add_le_add_right hsignals _⟩
  · intro size w ⟨hgood, hinv⟩
    apply (hbody size w hgood hinv).mono
    intro r w' hr
    cases r with
    | inr b => exact hr
    | inl size' =>
      obtain ⟨hinv', hgood', hless⟩ := hr
      refine ⟨⟨hgood', hinv'⟩, ?_⟩
      have hle := hmax size' hgood'
      show signals w' + (max - size') < signals w + (max - size)
      omega
  · exact hpost

end Loop

end Growth
