import Syscape.Lib.Growth

/-!
# Queries about facts that change

A call is answered from what holds at its moment, or it is interrupted. Between two calls
anything may change. A query is a snapshot if its result is what the facts of one moment of the
run stand for.
-/
namespace Moments
open Calls Growth

section Worlds
variable {Facts : Type} {Call : Type} {Answer : Call → Type}

/-- What holds now, what has held since the beginning, the signals that may still arrive, and how
often something may still change. -/
structure World (Facts : Type) where
  facts : Facts
  past : List Facts
  interrupts : ℕ
  changes : ℕ

/-- Anything may change. -/
inductive Changes : World Facts → World Facts → Prop
  | changes (w : World Facts) (facts : Facts) {changes : ℕ} (h : w.changes = changes + 1) :
      Changes w { w with facts, past := facts :: w.past, changes }

/-- A call is answered from the facts, or interrupted. -/
inductive Answers (reply : Facts → (c : Call) → Answer c) (interruption : (c : Call) → Option (Answer c)) :
    World Facts → (c : Call) → Answer c → World Facts → Prop
  | answered (w : World Facts) (c : Call) : Answers reply interruption w c (reply w.facts c) w
  | interrupted (w : World Facts) {c : Call} {r : Answer c} {n : ℕ}
      (hr : interruption c = some r) (hn : w.interrupts = n + 1) :
      Answers reply interruption w c r { w with interrupts := n }

/-- The calls and what may change. -/
def system (reply : Facts → (c : Call) → Answer c) (interruption : (c : Call) → Option (Answer c)) :
    System Call Answer (World Facts) := ⟨Changes, Answers reply interruption⟩

/-- The beginning of a run. -/
def initial (facts : Facts) (interrupts changes : ℕ) : World Facts :=
  { facts, past := [facts], interrupts, changes }

end Worlds

section Histories
variable {Facts : Type} {Call : Type} {Answer : Call → Type} {α : Type}
  {reply : Facts → (c : Call) → Answer c} {interruption : (c : Call) → Option (Answer c)}
  {w w' : World Facts}

/-- What holds now is part of the past. -/
def Recorded (w : World Facts) : Prop := w.facts ∈ w.past

/-- A result was right at some time. -/
def Seen (p : Facts → α → Prop) (a : α) (w : World Facts) : Prop := ∃ m ∈ w.past, p m a

theorem Recorded.changes (hchanges : Changes w w') : Recorded w' := by
  cases hchanges with
  | changes facts hn => exact List.mem_cons_self

theorem past_of_changes (hchanges : Changes w w') :
    (∀ m ∈ w.past, m ∈ w'.past) ∧ w'.interrupts = w.interrupts := by
  cases hchanges with
  | changes facts hn => exact ⟨fun m hm => List.mem_cons_of_mem _ hm, rfl⟩

theorem past_of_interference (h : Interference (system reply interruption) w w') :
    (∀ m ∈ w.past, m ∈ w'.past) ∧ w'.interrupts = w.interrupts := by
  induction h with
  | refl => exact ⟨fun _ hm => hm, rfl⟩
  | tail _ hstep ih =>
    obtain ⟨hmore, hsame⟩ := past_of_changes hstep
    exact ⟨fun m hm => hmore m (ih.1 m hm), hsame.trans ih.2⟩

theorem Recorded.interference (h : Recorded w) (hw : Interference (system reply interruption) w w') :
    Recorded w' := by
  cases hw with
  | refl => exact h
  | tail _ hstep => exact .changes hstep

theorem Seen.interference {p : Facts → α → Prop} {a : α} (h : Seen p a w)
    (hw : Interference (system reply interruption) w w') : Seen p a w' := by
  obtain ⟨m, hm, hp⟩ := h
  exact ⟨m, (past_of_interference hw).1 m hm, hp⟩

theorem wellFounded_changes :
    WellFounded fun w' w => (system reply interruption).interferes w w' := by
  apply Subrelation.wf _ (measure World.changes).wf
  intro w' w h
  cases h with
  | changes facts hn =>
    show _ < w.changes
    rw [hn]
    exact Nat.lt_succ_self _

/-- The rule of calls: the call is answered at some moment, or a signal is used up. -/
theorem ensures_ask {c : Call} {β : Type} {f : Answer c → Prog Call Answer β}
    {post : β → World Facts → Prop}
    (hreply : ∀ w₁, Interference (system reply interruption) w w₁ →
      Ensures (system reply interruption) (f (reply w₁.facts c)) post w₁)
    (hinterruption : ∀ w₁ r n, Interference (system reply interruption) w w₁ →
      interruption c = some r → w₁.interrupts = n + 1 →
      Ensures (system reply interruption) (f r) post { w₁ with interrupts := n }) :
    Ensures (system reply interruption) (invoke c >>= f) post w := by
  apply ensures_invoke
  intro w₁ hw₁
  refine ⟨⟨_, _, .answered w₁ c⟩, fun r w₂ hr => ?_⟩
  cases hr with
  | answered => exact hreply w₁ hw₁
  | interrupted hr hn => exact hinterruption w₁ r _ hw₁ hr hn

/-- What was once true stays part of the past. -/
theorem ensures_past {query : Prog Call Answer α} {post : α → World Facts → Prop} {m : Facts}
    (hq : Ensures (system reply interruption) query post w) (hm : m ∈ w.past) :
    Ensures (system reply interruption) query (fun a w => post a w ∧ m ∈ w.past) w := by
  apply hq.keep _ _ hm
  · intro w w' hw hchanges
    exact (past_of_changes hchanges).1 m hw
  · intro w c r w' hw hanswer
    cases hanswer with
    | answered => exact hw
    | interrupted _ _ => exact hw

/-- What is made of the result does not matter for what was seen. -/
theorem Seen.imp {β : Type} {p : Facts → α → Prop} {q : Facts → β → Prop} {f : α → β}
    (h : ∀ m a, p m a → q m (f a)) {query : Prog Call Answer α}
    (hq : Ensures (system reply interruption) query (Seen p) w) :
    Ensures (system reply interruption) (query >>= fun a => pure (f a)) (Seen q) w := by
  apply ensures_bind
  apply hq.mono
  rintro a w₁ ⟨m, hm, hp⟩
  exact ensures_pure fun w₂ hw₂ => ⟨m, (past_of_interference hw₂).1 m hm, h m a hp⟩

/-- Every run of the query is finite, and its result is right for one moment of the run. -/
def Snapshot (reply : Facts → (c : Call) → Answer c) (interruption : (c : Call) → Option (Answer c))
    (query : Prog Call Answer α) (p : Facts → α → Prop) : Prop :=
  ∀ (facts : Facts) (interrupts changes : ℕ),
    Terminates (system reply interruption) (initial facts interrupts changes, query) ∧
      ∀ y, Runs (system reply interruption) (initial facts interrupts changes, query) y →
        (∃ a, y.2 = .done a ∧ Seen p a y.1) ∨ ∃ z, Advance (system reply interruption) y z

theorem snapshot_of_ensures {query : Prog Call Answer α} {p : Facts → α → Prop}
    (h : ∀ w, Recorded w → Ensures (system reply interruption) query (Seen p) w) :
    Snapshot reply interruption query p := by
  intro facts interrupts changes
  have hrecorded : Recorded (initial facts interrupts changes) := List.mem_cons_self
  exact ensures_sound wellFounded_changes (h _ hrecorded)

end Histories

section Buffers
variable {Facts : Type} {Call : Type} {Answer : Call → Type} {α : Type}
  {reply : Facts → (c : Call) → Answer c} {interruption : (c : Call) → Option (Answer c)}
  {w : World Facts}

/-- A loop around a call with a buffer. -/
def repeated (c : ℕ → Call) (after : (size : ℕ) → Answer (c size) → ℕ ⊕ α) (size : ℕ) :
    Prog Call Answer α :=
  iterate (fun size => do
    let r ← invoke (c size)
    return after size r) size

/-- The end of a round: the result is right for the facts, or the buffer becomes larger. -/
def RoundAt (good : ℕ → Prop) (p : Facts → α → Prop) (size : ℕ) (m : Facts) : ℕ ⊕ α → Prop
  | .inr a => p m a
  | .inl size' => good size' ∧ size < size'

/-- A loop whose rounds are as they should be is a snapshot. -/
theorem ensures_repeated {c : ℕ → Call} {after : (size : ℕ) → Answer (c size) → ℕ ⊕ α} {n : ℕ}
    {p : Facts → α → Prop} {size : ℕ}
    (hround : ∀ size m, PowerUpTo n size →
      RoundAt (PowerUpTo n) p size m (after size (reply m (c size))))
    (hsignal : ∀ size r, interruption (c size) = some r → after size r = .inl size)
    (hsize : PowerUpTo n size) (hw : Recorded w) :
    Ensures (system reply interruption) (repeated c after size) (Seen p) w := by
  refine @ensures_growth _ _ _ _ (system reply interruption) Recorded World.interrupts (Seen p)
    (PowerUpTo n) (2 ^ n) _ _ _ (fun _ h => h.le) ?_ ?_ ?_ hsize hw
  · intro w w' _ hchanges
    exact ⟨.changes hchanges, (past_of_changes hchanges).2.le⟩
  · exact fun a w w' ha hchanges => ha.interference (.single hchanges)
  · intro size w hsize hrecorded
    apply ensures_ask
    · refine fun w₁ hw₁ => ensures_pure fun w₂ hw₂ => ?_
      have hrecorded₁ := hrecorded.interference hw₁
      have hat := hround size w₁.facts hsize
      cases hafter : after size (reply w₁.facts (c size)) with
      | inr a =>
        rw [hafter] at hat
        exact Seen.interference ⟨w₁.facts, hrecorded₁, hat⟩ hw₂
      | inl size' =>
        rw [hafter] at hat
        have hsignals := (past_of_interference (hw₁.trans hw₂)).2
        exact ⟨hrecorded₁.interference hw₂, hat.1, .inl ⟨hat.2, hsignals.le⟩⟩
    · intro w₁ r k hw₁ hr hk
      refine ensures_pure fun w₂ hw₂ => ?_
      have hrecorded₁ : Recorded w₁ := hrecorded.interference hw₁
      have hrecorded₂ : Recorded { w₁ with interrupts := k } := hrecorded₁
      have hsignals₁ := (past_of_interference hw₁).2
      have hsignals₂ := (past_of_interference hw₂).2
      rw [hsignal size r hr]
      refine ⟨hrecorded₂.interference hw₂, hsize, .inr ⟨rfl, ?_⟩⟩
      show w₂.interrupts < w.interrupts
      rw [hsignals₂, ← hsignals₁, hk]
      exact Nat.lt_succ_self k

end Buffers

end Moments
