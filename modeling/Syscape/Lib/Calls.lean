import Mathlib.Logic.Relation
import Mathlib.Order.WellFounded
import Mathlib.Tactic.Common

/-!
# Programs that make calls while the world changes

A program is a tree of calls and loops. Between two calls the world may change by itself, and
a call may have more than one answer. `Ensures` is the weakest precondition for total
correctness: a loop comes with an invariant and a measure. A program that ensures something
has only finite runs, and each of them can go on until it returns.
-/
namespace Calls

/-- A program returns, or makes a call and goes on with the answer, or repeats a body until
that leaves the loop with a value. -/
inductive Prog (Call : Type) (Answer : Call → Type) : Type → Type 1 where
  | done {α : Type} (a : α) : Prog Call Answer α
  | call {α : Type} (c : Call) (next : Answer c → Prog Call Answer α) : Prog Call Answer α
  | loop {σ β α : Type} (body : σ → Prog Call Answer (σ ⊕ β)) (s : σ)
      (next : β → Prog Call Answer α) : Prog Call Answer α

variable {Call : Type} {Answer : Call → Type}

section Sequencing
variable {α β : Type}

/-- The second program goes on with what the first one returns. -/
def Prog.bind {α β : Type} : Prog Call Answer α → (α → Prog Call Answer β) → Prog Call Answer β
  | .done a, f => f a
  | .call c next, f => .call c fun r => (next r).bind f
  | .loop body s next, f => .loop body s fun b => (next b).bind f

instance : Monad (Prog Call Answer) where
  pure := .done
  bind := .bind

/-- The call as a program. -/
def invoke (c : Call) : Prog Call Answer (Answer c) := .call c .done

/-- The loop as a program. -/
def iterate {σ : Type} (body : σ → Prog Call Answer (σ ⊕ β)) (s : σ) : Prog Call Answer β :=
  .loop body s .done

theorem bind_done (p : Prog Call Answer α) : p.bind .done = p := by
  induction p with
  | done a => rfl
  | call c next ih => simp only [Prog.bind, ih]
  | loop body s next _ ih => simp only [Prog.bind, ih]

end Sequencing

/-- How the world may change by itself, and which answer to a call leads to which world. -/
structure System (Call : Type) (Answer : Call → Type) (World : Type) where
  interferes : World → World → Prop
  answers : World → (c : Call) → Answer c → World → Prop

variable {World : Type} (sys : System Call Answer World)

/-- Any number of changes. -/
abbrev Interference : World → World → Prop := Relation.ReflTransGen sys.interferes

/-- What a loop does with the value of its body. -/
def afterBody {σ β α : Type} (body : σ → Prog Call Answer (σ ⊕ β))
    (next : β → Prog Call Answer α) : σ ⊕ β → Prog Call Answer α
  | .inl s => .loop body s next
  | .inr b => next b

/-- One step of the program. -/
inductive Advance {α : Type} : World × Prog Call Answer α → World × Prog Call Answer α → Prop where
  | call {w w' : World} {c : Call} {r : Answer c} (next : Answer c → Prog Call Answer α)
      (h : sys.answers w c r w') : Advance (w, .call c next) (w', next r)
  | loop {σ β : Type} (w : World) (body : σ → Prog Call Answer (σ ⊕ β)) (s : σ)
      (next : β → Prog Call Answer α) :
      Advance (w, .loop body s next) (w, (body s).bind (afterBody body next))

/-- One step of the world or of the program. -/
inductive Step {α : Type} : World × Prog Call Answer α → World × Prog Call Answer α → Prop where
  | interferes {w w' : World} (p : Prog Call Answer α) (h : sys.interferes w w') :
      Step (w, p) (w', p)
  | advance {x y : World × Prog Call Answer α} (h : Advance sys x y) : Step x y

/-- The states that a run passes. -/
abbrev Runs {α : Type} : World × Prog Call Answer α → World × Prog Call Answer α → Prop :=
  Relation.ReflTransGen (Step sys)

/-- The value and the world of each end of a loop's body: either the invariant holds again
and the measure has become less, or the loop is left. -/
def BodyPost {σ β : Type} (inv : σ → World → Prop) (measure : σ → World → ℕ) (bound : ℕ)
    (leave : β → World → Prop) : σ ⊕ β → World → Prop
  | .inl s, w => inv s w ∧ measure s w < bound
  | .inr b, w => leave b w

/-- Started in this world, the program ends, is never stuck, and what it returns has the
property. -/
def Ensures : {α : Type} → Prog Call Answer α → (α → World → Prop) → World → Prop
  | _, .done a, post, w => ∀ w', Interference sys w w' → post a w'
  | _, .call c next, post, w => ∀ w', Interference sys w w' →
      (∃ r w'', sys.answers w' c r w'') ∧
        ∀ r w'', sys.answers w' c r w'' → Ensures (next r) post w''
  | _, .loop (σ := σ) body s next, post, w =>
      ∃ (inv : σ → World → Prop) (measure : σ → World → ℕ), inv s w ∧
        (∀ s w w', inv s w → sys.interferes w w' → inv s w' ∧ measure s w' ≤ measure s w) ∧
        ∀ s w, inv s w →
          Ensures (body s) (BodyPost inv measure (measure s w) fun b => Ensures (next b) post) w

section Sequences
variable {sys} {α β : Type} {w w' : World}

theorem bind_bind {γ : Type} (p : Prog Call Answer α) (f : α → Prog Call Answer β)
    (g : β → Prog Call Answer γ) : (p.bind f).bind g = p.bind fun a => (f a).bind g := by
  induction p with
  | done a => rfl
  | call c next ih => simp only [Prog.bind, ih]
  | loop body s next _ ih => simp only [Prog.bind, ih]

/-- A run of the first program is one of the sequence. -/
theorem Runs.bind {p p' : Prog Call Answer α} (h : Runs sys (w, p) (w', p'))
    (f : α → Prog Call Answer β) : Runs sys (w, p.bind f) (w', p'.bind f) := by
  have hstep : ∀ x y : World × Prog Call Answer α, Step sys x y →
      Step sys (x.1, x.2.bind f) (y.1, y.2.bind f) := by
    intro x y hstep
    cases hstep with
    | interferes p hw => exact .interferes _ hw
    | advance hstep =>
      cases hstep with
      | call next hr => exact .advance (.call _ hr)
      | loop w body s next =>
        rw [bind_bind]
        have hafter : (fun x => (afterBody body next x).bind f) =
            afterBody body fun b => (next b).bind f := by
          funext x
          cases x <;> rfl
        rw [hafter]
        exact .advance (.loop w body s _)
  exact h.lift (fun x => (x.1, x.2.bind f)) hstep

/-- The first program returns, and the second one runs. -/
theorem Runs.seq {p : Prog Call Answer α} {a : α} (h : Runs sys (w, p) (w', .done a))
    {f : α → Prog Call Answer β} {y : World × Prog Call Answer β} (hf : Runs sys (w', f a) y) :
    Runs sys (w, p >>= f) y := (h.bind f).trans hf

/-- A call is answered. -/
theorem Runs.invoke {c : Call} {r : Answer c} (h : sys.answers w c r w')
    {f : Answer c → Prog Call Answer β} {y : World × Prog Call Answer β}
    (hf : Runs sys (w', f r) y) : Runs sys (w, invoke c >>= f) y := .head (.advance (.call f h)) hf

/-- A loop is left at the end of its body. -/
theorem Runs.leave {σ : Type} {body : σ → Prog Call Answer (σ ⊕ β)} {s : σ} {b : β}
    (h : Runs sys (w, body s) (w', .done (.inr b))) :
    Runs sys (w, iterate body s) (w', .done b) :=
  .head (.advance (.loop w body s .done)) (h.bind (afterBody body .done))

end Sequences

section Systems
variable {sys sys' : System Call Answer World} {α : Type} {x y : World × Prog Call Answer α}
  (hinterferes : ∀ w w', sys.interferes w w' → sys'.interferes w w')
  (hanswers : ∀ w c r w', sys.answers w c r w' → sys'.answers w c r w')

include hanswers in
theorem Advance.imp (h : Advance sys x y) : Advance sys' x y := by
  cases h with
  | call next hr => exact .call next (hanswers _ _ _ _ hr)
  | loop w body s next => exact .loop w body s next

include hinterferes hanswers

theorem Step.imp (h : Step sys x y) : Step sys' x y := by
  cases h with
  | interferes p hw => exact .interferes p (hinterferes _ _ hw)
  | advance hadvance => exact .advance (hadvance.imp hanswers)

/-- A system that does less has fewer runs. -/
theorem Runs.imp (h : Runs sys x y) : Runs sys' x y :=
  h.lift id fun _ _ hstep => hstep.imp hinterferes hanswers

end Systems

section Rules
variable {sys} {α β : Type} {post post' : α → World → Prop} {w w' : World}

theorem BodyPost.imp {σ β : Type} {inv : σ → World → Prop} {measure : σ → World → ℕ} {bound : ℕ}
    {leave leave' : β → World → Prop} (h : ∀ b w, leave b w → leave' b w) (x : σ ⊕ β) (w : World)
    (hx : BodyPost inv measure bound leave x w) : BodyPost inv measure bound leave' x w := by
  cases x with
  | inl s => exact hx
  | inr b => exact h b w hx

theorem Ensures.mono {p : Prog Call Answer α} (hp : Ensures sys p post w)
    (h : ∀ a w, post a w → post' a w) : Ensures sys p post' w := by
  induction p generalizing w with
  | done a => exact fun w' hw' => h a w' (hp w' hw')
  | call c next ih =>
    intro w' hw'
    obtain ⟨hanswer, hnext⟩ := hp w' hw'
    exact ⟨hanswer, fun r w'' hr => ih r (hnext r w'' hr) h⟩
  | loop body s next ihBody ihNext =>
    obtain ⟨inv, measure, hinv, hstable, hbody⟩ := hp
    refine ⟨inv, measure, hinv, hstable, fun s w hs => ihBody s (hbody s w hs) ?_⟩
    exact BodyPost.imp fun b w hb => ihNext b hb h

/-- What nothing destroys still holds when a program ends. -/
theorem Ensures.keep {kept : World → Prop}
    (hinterferes : ∀ w w', kept w → sys.interferes w w' → kept w')
    (hanswers : ∀ w c r w', kept w → sys.answers w c r w' → kept w')
    {p : Prog Call Answer α} (hp : Ensures sys p post w) (h : kept w) :
    Ensures sys p (fun a w => post a w ∧ kept w) w := by
  have hinterference : ∀ w w', kept w → Interference sys w w' → kept w' := by
    intro w w' hw hw'
    induction hw' with
    | refl => exact hw
    | tail _ hstep ih => exact hinterferes _ _ ih hstep
  induction p generalizing w with
  | done a => exact fun w' hw' => ⟨hp w' hw', hinterference w w' h hw'⟩
  | call c next ih =>
    intro w' hw'
    obtain ⟨hanswer, hnext⟩ := hp w' hw'
    have hkept := hinterference w w' h hw'
    exact ⟨hanswer, fun r w'' hr => ih r (hnext r w'' hr) (hanswers _ _ _ _ hkept hr)⟩
  | loop body s next ihBody ihNext =>
    obtain ⟨inv, measure, hinv, hstable, hbody⟩ := hp
    refine ⟨fun s w => inv s w ∧ kept w, measure, ⟨hinv, h⟩, ?_, ?_⟩
    · rintro s w w' ⟨hs, hkept⟩ hw
      obtain ⟨hs', hle⟩ := hstable s w w' hs hw
      exact ⟨⟨hs', hinterferes w w' hkept hw⟩, hle⟩
    · rintro s w ⟨hs, hkept⟩
      apply (ihBody s (hbody s w hs) hkept).mono
      rintro x w' ⟨hx, hkept'⟩
      cases x with
      | inl s' => exact ⟨⟨hx.1, hkept'⟩, hx.2⟩
      | inr b => exact ihNext b hx hkept'

/-- What a program ensures is not lost when the world changes. -/
theorem Ensures.interference {p : Prog Call Answer α} (hp : Ensures sys p post w)
    (h : Interference sys w w') : Ensures sys p post w' := by
  cases p with
  | done a => exact fun w'' hw'' => hp w'' (h.trans hw'')
  | call c next => exact fun w'' hw'' => hp w'' (h.trans hw'')
  | loop body s next =>
    obtain ⟨inv, measure, hinv, hstable, hbody⟩ := hp
    refine ⟨inv, measure, ?_, hstable, hbody⟩
    induction h with
    | refl => exact hinv
    | tail _ hstep ih => exact (hstable _ _ _ ih hstep).1

/-- The rule of returning. -/
theorem ensures_pure {a : α} (h : ∀ w', Interference sys w w' → post a w') :
    Ensures sys (pure a) post w := h

/-- The rule of sequencing. -/
theorem Ensures.bind {p : Prog Call Answer α} {f : α → Prog Call Answer β}
    {post : β → World → Prop} (hp : Ensures sys p (fun a w => Ensures sys (f a) post w) w) :
    Ensures sys (p.bind f) post w := by
  induction p generalizing w with
  | done a => exact hp w .refl
  | call c next ih =>
    intro w' hw'
    obtain ⟨hanswer, hnext⟩ := hp w' hw'
    exact ⟨hanswer, fun r w'' hr => ih r (hnext r w'' hr)⟩
  | loop body s next _ ihNext =>
    obtain ⟨inv, measure, hinv, hstable, hbody⟩ := hp
    refine ⟨inv, measure, hinv, hstable, fun s w hs => (hbody s w hs).mono ?_⟩
    exact BodyPost.imp fun b w hb => ihNext b hb

theorem ensures_bind {p : Prog Call Answer α} {f : α → Prog Call Answer β}
    {post : β → World → Prop} (hp : Ensures sys p (fun a w => Ensures sys (f a) post w) w) :
    Ensures sys (p >>= f) post w := hp.bind

/-- The rule of calls: whatever the world is when the call is made, there is an answer, and
every answer is met. -/
theorem ensures_invoke {c : Call} {f : Answer c → Prog Call Answer β} {post : β → World → Prop}
    (h : ∀ w', Interference sys w w' → (∃ r w'', sys.answers w' c r w'') ∧
      ∀ r w'', sys.answers w' c r w'' → Ensures sys (f r) post w'') :
    Ensures sys (invoke c >>= f) post w := h

/-- The rule of loops. -/
theorem ensures_iterate {σ : Type} {body : σ → Prog Call Answer (σ ⊕ β)} {s : σ}
    {post : β → World → Prop} (inv : σ → World → Prop) (measure : σ → World → ℕ)
    (hinv : inv s w)
    (hstable : ∀ s w w', inv s w → sys.interferes w w' → inv s w' ∧ measure s w' ≤ measure s w)
    (hbody : ∀ s w, inv s w → Ensures sys (body s) (BodyPost inv measure (measure s w) post) w)
    (hpost : ∀ b w w', post b w → sys.interferes w w' → post b w') :
    Ensures sys (iterate body s) post w := by
  refine ⟨inv, measure, hinv, hstable, fun s w hs => (hbody s w hs).mono ?_⟩
  apply BodyPost.imp
  intro b w hb w' hw'
  induction hw' with
  | refl => exact hb
  | tail _ hstep ih => exact hpost b _ _ ih hstep

end Rules

section Soundness
variable {sys} {α β : Type} {post : α → World → Prop} {w w' : World}

/-- A step keeps what the program ensures. -/
theorem ensures_step {p p' : Prog Call Answer α} (h : Ensures sys p post w)
    (hstep : Step sys (w, p) (w', p')) : Ensures sys p' post w' := by
  cases hstep with
  | interferes _ hw => exact h.interference (.single hw)
  | advance hstep =>
    cases hstep with
    | call next hr => exact (h w .refl).2 _ _ hr
    | loop _ body s next =>
      obtain ⟨inv, measure, hinv, hstable, hbody⟩ := h
      apply Ensures.bind
      apply (hbody s w hinv).mono
      intro x w' hx
      cases x with
      | inl s' => exact ⟨inv, measure, hx.1, hstable, hbody⟩
      | inr b => exact hx

/-- A run keeps it. -/
theorem ensures_runs {p : Prog Call Answer α} (h : Ensures sys p post w)
    {y : World × Prog Call Answer α} (hruns : Runs sys (w, p) y) : Ensures sys y.2 post y.1 := by
  induction hruns with
  | refl => exact h
  | tail _ hstep ih => exact ensures_step ih hstep

/-- The program is never stuck. -/
theorem ensures_progress {p : Prog Call Answer α} (h : Ensures sys p post w) :
    (∃ a, p = .done a ∧ post a w) ∨ ∃ y, Advance sys (w, p) y := by
  cases p with
  | done a => exact .inl ⟨a, rfl, h w .refl⟩
  | call c next =>
    obtain ⟨r, w', hr⟩ := (h w .refl).1
    exact .inr ⟨_, .call next hr⟩
  | loop body s next => exact .inr ⟨_, .loop w body s next⟩

/-- There is no infinite run from here. -/
def Terminates {α : Type} (sys : System Call Answer World) (y : World × Prog Call Answer α) :
    Prop :=
  Acc (fun next y => Step sys y next) y

/-- A system that does less terminates where the other one does. -/
theorem Terminates.imp {sys' : System Call Answer World}
    (hinterferes : ∀ w w', sys.interferes w w' → sys'.interferes w w')
    (hanswers : ∀ w c r w', sys.answers w c r w' → sys'.answers w c r w')
    {y : World × Prog Call Answer α} (h : Terminates sys' y) : Terminates sys y :=
  Subrelation.accessible (fun hstep => hstep.imp hinterferes hanswers) h

variable (hwf : WellFounded fun w' w => sys.interferes w w')
include hwf

theorem terminates_done (w : World) (a : α) : Terminates sys (w, .done a) := by
  induction w using hwf.induction with
  | _ w ih =>
    constructor
    intro y hstep
    cases hstep with
    | interferes _ hw => exact ih _ hw
    | advance hstep => cases hstep

/-- A loop terminates if its body does and what follows it does. -/
theorem terminates_loop {σ γ : Type} {body : σ → Prog Call Answer (σ ⊕ γ)}
    {next : γ → Prog Call Answer α} {inv : σ → World → Prop} {measure : σ → World → ℕ}
    (hstable : ∀ s w w', inv s w → sys.interferes w w' → inv s w' ∧ measure s w' ≤ measure s w)
    (hbody : ∀ s w, inv s w →
      (∀ s' w', inv s' w' → measure s' w' < measure s w →
        Terminates sys (w', .loop body s' next)) →
      Terminates sys (w, (body s).bind (afterBody body next)))
    (s : σ) (w : World) (h : inv s w) : Terminates sys (w, .loop body s next) := by
  induction hn : measure s w using Nat.strongRecOn generalizing s w with
  | ind n ih =>
    subst hn
    induction w using hwf.induction with
    | _ w ihw =>
      constructor
      intro y hstep
      cases hstep with
      | interferes _ hw =>
        obtain ⟨hinv, hle⟩ := hstable _ _ _ h hw
        rcases hle.lt_or_eq with hlt | heq
        · exact ih _ hlt s _ hinv rfl
        · exact ihw _ hw hinv (heq ▸ ih)
      | advance hstep =>
        cases hstep with
        | loop =>
          apply hbody s w h
          intro s' w' hinv hlt
          exact ih _ hlt s' w' hinv rfl

theorem terminates_bind {p : Prog Call Answer α} {f : α → Prog Call Answer β}
    (h : Ensures sys p post w) (hf : ∀ a w, post a w → Terminates sys (w, f a)) :
    Terminates sys (w, p.bind f) := by
  induction p generalizing w with
  | done a => exact hf a w (h w .refl)
  | call c next ih =>
    induction w using hwf.induction with
    | _ w ihw =>
      constructor
      intro y hstep
      cases hstep with
      | interferes _ hw => exact ihw _ hw (h.interference (.single hw))
      | advance hstep =>
        cases hstep with
        | call _ hr => exact ih _ ((h w .refl).2 _ _ hr) hf
  | loop body s next ihBody ihNext =>
    obtain ⟨inv, measure, hinv, hstable, hbody⟩ := h
    apply terminates_loop hwf hstable _ s w hinv
    intro s w hs hless
    apply ihBody s (hbody s w hs)
    intro x w' hx
    cases x with
    | inl s' => exact hless s' w' hx.1 hx.2
    | inr b => exact ihNext b hx hf

/-- Every run of a program that ensures something is finite, and wherever it is, the program
has returned a value with the property or can go on. -/
theorem ensures_sound {p : Prog Call Answer α} (h : Ensures sys p post w) :
    Terminates sys (w, p) ∧ ∀ y, Runs sys (w, p) y →
      (∃ a, y.2 = .done a ∧ post a y.1) ∨ ∃ z, Advance sys y z := by
  constructor
  · rw [← bind_done p]
    exact terminates_bind hwf h fun a w _ => terminates_done hwf w a
  · intro y hy
    exact ensures_progress (ensures_runs h hy)

/-- It can always go on to an end with the property. -/
theorem ensures_end {p : Prog Call Answer α} (h : Ensures sys p post w) :
    ∃ a w', Runs sys (w, p) (w', .done a) ∧ post a w' := by
  have hacc := (ensures_sound hwf h).1
  unfold Terminates at hacc
  generalize hx : (w, p) = x at hacc
  induction hacc generalizing w p with
  | intro x _ ih =>
    subst hx
    rcases ensures_progress h with ⟨a, rfl, ha⟩ | ⟨⟨w₁, p₁⟩, hadvance⟩
    · exact ⟨a, w, .refl, ha⟩
    · have hstep : Step sys (w, p) (w₁, p₁) := .advance hadvance
      obtain ⟨a, w', hruns, ha⟩ := ih (w₁, p₁) hstep (ensures_step h hstep) rfl
      exact ⟨a, w', .head hstep hruns, ha⟩

end Soundness

end Calls
