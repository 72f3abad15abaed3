import Mathlib.Data.List.Basic
import Mathlib.Data.List.Forall2
import Mathlib.Tactic.Common
import Mathlib.Tactic.ByContra

/-!
# Checked computations over a buffer

A computation either returns, fails with an error of the program's own, or takes
a step that the source language leaves undefined: an access outside the buffer,
a signed overflow or a division by zero. Every access goes through `read` or `slice`, so a
theorem that a run is `Defined` says that no access left the buffer.
-/
namespace Checked

/-- What ends a computation early. -/
inductive Fault (ε : Type*) where
  | fail (e : ε)
  | outOfBounds
  | signedOverflow
  | divideByZero
  deriving DecidableEq, Repr

/-- The run met no undefined step: it returned, or failed as the program says. -/
def Defined {ε α : Type*} (r : Except (Fault ε) α) : Prop :=
  ∀ f, r = .error f → ∃ e, f = .fail e

universe u

section Bind
variable {ε : Type*} {α β : Type u}

@[simp] theorem pure_eq_ok (a : α) : (pure a : Except ε α) = .ok a := rfl

@[simp] theorem ok_bind (a : α) (f : α → Except ε β) : (Except.ok a >>= f) = f a := rfl

@[simp] theorem error_bind (e : ε) (f : α → Except ε β) :
    ((Except.error e : Except ε α) >>= f) = .error e := rfl

theorem bind_eq_ok {x : Except ε α} {f : α → Except ε β} {b : β} :
    (x >>= f) = .ok b ↔ ∃ a, x = .ok a ∧ f a = .ok b := by
  cases x <;> simp

theorem map_eq_ok {f : α → β} {x : Except ε α} {b : β} :
    x.map f = .ok b ↔ ∃ a, x = .ok a ∧ f a = b := by
  cases x <;> simp [Except.map]

/-- A loop in which every round returns. -/
theorem mapM_eq_ok {f : α → Except ε β} {g : α → β} {l : List α} (h : ∀ a ∈ l, f a = .ok (g a)) :
    l.mapM f = .ok (l.map g) := by
  induction l with
  | nil => rfl
  | cons a l ih =>
    rw [List.forall_mem_cons] at h
    rw [List.mapM_cons, h.1, ok_bind, ih h.2, ok_bind, List.map_cons, pure_eq_ok]

/-- What a loop returns, round by round. -/
theorem mapM_eq_ok_iff {f : α → Except ε β} {l : List α} {out : List β} :
    l.mapM f = .ok out ↔ List.Forall₂ (fun a b => f a = .ok b) l out := by
  induction l generalizing out with
  | nil => simp [eq_comm]
  | cons a l ih =>
    rw [List.mapM_cons, bind_eq_ok, List.forall₂_cons_left_iff]
    simp only [bind_eq_ok, ih, pure_eq_ok, Except.ok.injEq]
    constructor
    · rintro ⟨b, hb, bs, hbs, rfl⟩
      exact ⟨b, bs, hb, hbs, rfl⟩
    · rintro ⟨b, bs, hb, hbs, rfl⟩
      exact ⟨b, hb, bs, hbs, rfl⟩

/-- Every value that a loop returns is that of a round. -/
theorem exists_of_mem_mapM {f : α → Except ε β} {l : List α} {out : List β} {b : β}
    (h : l.mapM f = .ok out) (hb : b ∈ out) : ∃ a ∈ l, f a = .ok b := by
  rw [mapM_eq_ok_iff] at h
  induction h with
  | nil => cases hb
  | cons hab _ ih =>
    rcases List.mem_cons.mp hb with rfl | hb
    · exact ⟨_, List.mem_cons_self, hab⟩
    · obtain ⟨a, ha, hab⟩ := ih hb
      exact ⟨a, List.mem_cons_of_mem _ ha, hab⟩

/-- A loop that only checks returns if every round does. -/
theorem forM_eq_ok {f : α → Except ε PUnit} {l : List α} :
    l.forM f = .ok ⟨⟩ ↔ ∀ a ∈ l, f a = .ok ⟨⟩ := by
  induction l with
  | nil => simp
  | cons a l ih =>
    rw [List.forall_mem_cons, ← ih]
    show (f a >>= fun _ => l.forM f) = .ok ⟨⟩ ↔ _
    rw [bind_eq_ok]
    constructor
    · rintro ⟨⟨⟩, ha, hl⟩
      exact ⟨ha, hl⟩
    · rintro ⟨ha, hl⟩
      exact ⟨⟨⟩, ha, hl⟩

/-- A loop whose rounds all add something to a list. -/
theorem foldlM_flatMap {γ : Type u} {f : List γ → α → Except ε (List γ)} {g : α → List γ}
    {l : List α} (h : ∀ done, ∀ a ∈ l, f done a = .ok (done ++ g a)) (done : List γ) :
    l.foldlM f done = .ok (done ++ l.flatMap g) := by
  induction l generalizing done with
  | nil => simp
  | cons a l ih =>
    have hmore : ∀ done, ∀ b ∈ l, f done b = .ok (done ++ g b) :=
      fun done b hb => h done b (List.mem_cons_of_mem _ hb)
    rw [List.foldlM_cons, h done a List.mem_cons_self, ok_bind, ih hmore, List.append_assoc,
      List.flatMap_cons]

/-- A loop whose rounds are refused or not whatever the state is. -/
theorem foldlM_eq_ok {σ : Type u} {f : σ → α → Except ε σ} {p : α → Prop} {g : σ → α → σ}
    (h : ∀ s a s', f s a = .ok s' ↔ p a ∧ s' = g s a) {l : List α} {s out : σ} :
    l.foldlM f s = .ok out ↔ (∀ a ∈ l, p a) ∧ out = l.foldl g s := by
  induction l generalizing s with
  | nil => simp [eq_comm]
  | cons a l ih =>
    rw [List.foldlM_cons, bind_eq_ok, List.forall_mem_cons, List.foldl_cons]
    simp only [h, ih]
    constructor
    · rintro ⟨_, ⟨ha, rfl⟩, hl, rfl⟩
      exact ⟨⟨ha, hl⟩, rfl⟩
    · rintro ⟨⟨ha, hl⟩, rfl⟩
      exact ⟨_, ⟨ha, rfl⟩, hl, rfl⟩

/-- A loop that adds what each round gives, and ends at the first that is refused. -/
theorem foldlM_guard {σ γ : Type u} {f : σ → α → Except ε σ} {state : List γ → σ} {p : α → Prop}
    [DecidablePred p] {g : α → γ} {e : ε}
    (h : ∀ done a, f (state done) a = if p a then .ok (state (done ++ [g a])) else .error e)
    (l : List α) (done : List γ) :
    l.foldlM f (state done) =
      if ∀ a ∈ l, p a then .ok (state (done ++ l.map g)) else .error e := by
  induction l generalizing done with
  | nil => simp
  | cons a l ih =>
    rw [List.foldlM_cons, h]
    by_cases ha : p a
    · rw [if_pos ha, ok_bind, ih, List.map_cons, List.append_assoc]
      by_cases hl : ∀ a ∈ l, p a
      · rw [if_pos hl, if_pos (List.forall_mem_cons.mpr ⟨ha, hl⟩)]
        rfl
      · rw [if_neg hl, if_neg fun hall => hl (List.forall_mem_cons.mp hall).2]
    · rw [if_neg ha, if_neg fun hall => ha (List.forall_mem_cons.mp hall).1, error_bind]

@[simp] theorem defined_ok (a : α) : Defined (.ok a : Except (Fault ε) α) := by
  intro f hf
  cases hf

@[simp] theorem defined_fail (e : ε) : Defined (.error (.fail e) : Except (Fault ε) α) := by
  intro f hf
  cases hf
  exact ⟨e, rfl⟩

@[simp] theorem not_defined_outOfBounds :
    ¬ Defined (.error .outOfBounds : Except (Fault ε) α) := by
  intro h
  obtain ⟨e, he⟩ := h _ rfl
  cases he

@[simp] theorem not_defined_signedOverflow :
    ¬ Defined (.error .signedOverflow : Except (Fault ε) α) := by
  intro h
  obtain ⟨e, he⟩ := h _ rfl
  cases he

/-- Sequencing: the continuation has to be defined only on values the first
computation really returns. -/
theorem Defined.bind {x : Except (Fault ε) α} {f : α → Except (Fault ε) β}
    (hx : Defined x) (hf : ∀ a, x = .ok a → Defined (f a)) : Defined (x >>= f) := by
  cases x with
  | ok a => exact hf a rfl
  | error e =>
    obtain ⟨e', rfl⟩ := hx e rfl
    exact defined_fail e'

@[simp] theorem not_defined_divideByZero :
    ¬ Defined (.error .divideByZero : Except (Fault ε) α) := by
  intro h
  obtain ⟨e, he⟩ := h _ rfl
  cases he

theorem Defined.of_error {x : Except (Fault ε) α} {f : Fault ε} (hx : Defined x)
    (h : x = .error f) : Defined (.error f : Except (Fault ε) β) := by
  obtain ⟨e, rfl⟩ := hx f h
  exact defined_fail e

theorem Defined.ite {c : Prop} [Decidable c] {x y : Except (Fault ε) α} (hx : c → Defined x)
    (hy : ¬ c → Defined y) : Defined (if c then x else y) := by
  split_ifs with h
  · exact hx h
  · exact hy h

theorem Defined.dite {c : Prop} [Decidable c] {x : c → Except (Fault ε) α}
    {y : ¬ c → Except (Fault ε) α} (hx : ∀ h, Defined (x h)) (hy : ∀ h, Defined (y h)) :
    Defined (if h : c then x h else y h) := by
  split_ifs with h
  · exact hx h
  · exact hy h

/-- The run does not end in this fault. -/
def Avoids (fault : Fault ε) (r : Except (Fault ε) α) : Prop := r ≠ .error fault

@[simp] theorem avoids_ok (fault : Fault ε) (a : α) : Avoids fault (.ok a) := by
  simp [Avoids]

theorem Defined.avoids {x : Except (Fault ε) α} (hx : Defined x) {fault : Fault ε}
    (h : ∀ e, fault ≠ .fail e) : Avoids fault x := by
  intro hfault
  obtain ⟨e, he⟩ := hx _ hfault
  exact h e he

theorem Avoids.bind {fault : Fault ε} {x : Except (Fault ε) α} {f : α → Except (Fault ε) β}
    (hx : Avoids fault x) (hf : ∀ a, x = .ok a → Avoids fault (f a)) : Avoids fault (x >>= f) := by
  cases x with
  | ok a => exact hf a rfl
  | error e =>
    intro h
    exact hx (by simpa using h)

theorem Avoids.foldlM {fault : Fault ε} {γ : Type*} {f : α → γ → Except (Fault ε) α}
    (l : List γ) (a : α) (hf : ∀ a, ∀ c ∈ l, Avoids fault (f a c)) :
    Avoids fault (l.foldlM f a) := by
  induction l generalizing a with
  | nil => exact avoids_ok fault a
  | cons c l ih =>
    rw [List.foldlM_cons]
    apply Avoids.bind (hf a c (by simp))
    intro a' _
    exact ih a' fun b d hd => hf b d (by simp [hd])

theorem Defined.foldlM {γ : Type*} {f : α → γ → Except (Fault ε) α} (l : List γ) (a : α)
    (hf : ∀ a, ∀ c ∈ l, Defined (f a c)) : Defined (l.foldlM f a) := by
  induction l generalizing a with
  | nil => exact defined_ok a
  | cons c l ih =>
    rw [List.foldlM_cons]
    apply Defined.bind (hf a c (by simp))
    intro a' _
    exact ih a' fun b d hd => hf b d (by simp [hd])

end Bind

section Buffer
variable {ε β : Type*}

/-- One element of the buffer. -/
def read (data : List β) (i : ℕ) : Except (Fault ε) β :=
  match data[i]? with
  | some b => .ok b
  | none => .error .outOfBounds

/-- The `length` elements of the buffer from `start` on. -/
def slice (data : List β) (start length : ℕ) : Except (Fault ε) (List β) :=
  if start + length ≤ data.length then .ok ((data.drop start).take length)
  else .error .outOfBounds

/-- A cursor inside a buffer splits it in two. -/
theorem exists_split {data : List β} {i : ℕ} (h : i ≤ data.length) :
    ∃ pre post, data = pre ++ post ∧ pre.length = i :=
  ⟨data.take i, data.drop i, (List.take_append_drop i data).symm, List.length_take_of_le h⟩

theorem read_of_lt {data : List β} {i : ℕ} (h : i < data.length) :
    (read data i : Except (Fault ε) β) = .ok data[i] := by
  simp [read, h]

theorem defined_read {data : List β} {i : ℕ} (h : i < data.length) :
    Defined (read data i : Except (Fault ε) β) := by
  rw [read_of_lt h]
  exact defined_ok _

@[simp] theorem read_cons_zero (b : β) (data : List β) :
    (read (b :: data) 0 : Except (Fault ε) β) = .ok b := rfl

@[simp] theorem read_cons_succ (b : β) (data : List β) (i : ℕ) :
    (read (b :: data) (i + 1) : Except (Fault ε) β) = read data i := by
  simp [read]

/-- Reading past a known prefix is reading what follows it. -/
theorem read_append_right (pre data : List β) (i : ℕ) :
    (read (pre ++ data) (pre.length + i) : Except (Fault ε) β) = read data i := by
  simp [read, List.getElem?_append_right]

theorem read_append_length (pre data : List β) :
    (read (pre ++ data) pre.length : Except (Fault ε) β) = read data 0 :=
  read_append_right pre data 0

theorem read_append_left {data rest : List β} {i : ℕ} (h : i < data.length) :
    (read (data ++ rest) i : Except (Fault ε) β) = read data i := by
  simp [read, List.getElem?_append_left h]

/-- One byte of the buffer, as the number that the source computes with. -/
def readByte (data : List UInt8) (i : ℕ) : Except (Fault ε) ℕ := do
  let b ← read data i
  return b.toNat

theorem defined_readByte {data : List UInt8} {i : ℕ} (h : i < data.length) :
    Defined (readByte data i : Except (Fault ε) ℕ) :=
  (defined_read h).bind fun _ _ => defined_ok _

theorem readByte_of_lt {data : List UInt8} {i : ℕ} (h : i < data.length) :
    (readByte data i : Except (Fault ε) ℕ) = .ok data[i].toNat := by
  simp [readByte, read_of_lt h]

@[simp] theorem readByte_cons_zero (b : UInt8) (data : List UInt8) :
    (readByte (b :: data) 0 : Except (Fault ε) ℕ) = .ok b.toNat := rfl

@[simp] theorem readByte_cons_succ (b : UInt8) (data : List UInt8) (i : ℕ) :
    (readByte (b :: data) (i + 1) : Except (Fault ε) ℕ) = readByte data i := by
  simp [readByte]

theorem readByte_append_right (pre data : List UInt8) (i : ℕ) :
    (readByte (pre ++ data) (pre.length + i) : Except (Fault ε) ℕ) = readByte data i := by
  simp only [readByte, read_append_right]

theorem readByte_append_length (pre data : List UInt8) :
    (readByte (pre ++ data) pre.length : Except (Fault ε) ℕ) = readByte data 0 :=
  readByte_append_right pre data 0

theorem slice_of_le {data : List β} {start length : ℕ} (h : start + length ≤ data.length) :
    (slice data start length : Except (Fault ε) (List β)) =
      .ok ((data.drop start).take length) := if_pos h

theorem defined_slice {data : List β} {start length : ℕ}
    (h : start + length ≤ data.length) :
    Defined (slice data start length : Except (Fault ε) (List β)) := by
  rw [slice_of_le h]
  exact defined_ok _

theorem slice_eq_ok {data out : List β} {start length : ℕ} :
    (slice data start length : Except (Fault ε) (List β)) = .ok out ↔
      start + length ≤ data.length ∧ (data.drop start).take length = out := by
  unfold slice
  split_ifs with h <;> simp [h]

/-- The slice that lies between a known prefix and a known rest. -/
theorem slice_append (pre mid rest : List β) :
    (slice (pre ++ mid ++ rest) pre.length mid.length : Except (Fault ε) (List β)) =
      .ok mid := by
  rw [slice_of_le (by simp)]
  simp

end Buffer

end Checked
