import Mathlib.Data.List.Basic

/-!
# Runs of a partial step function

A machine is a function that takes a state and an action to the next state, or to `none` where the
action is not enabled. A run takes a list of actions in turn. Everything a development wants to
know about the runs of such a machine is an induction on that list, and the inductions are made
here once: an invariant of the steps holds along the run, and a property of single steps that
follows from an invariant holds of every step of the run.
-/

namespace StepRun

variable {State Action : Type*} (step : State → Action → Option State)

/-- The state the actions lead to, `none` when one of them is not enabled where it comes. -/
def run (s : State) : List Action → Option State
  | [] => some s
  | a :: as => (step s a).bind fun s' => run s' as

@[simp] theorem run_nil (s : State) : run step s [] = some s := rfl

theorem run_cons_eq_some {s t : State} {a : Action} {as : List Action} :
    run step s (a :: as) = some t ↔ ∃ s', step s a = some s' ∧ run step s' as = some t := by
  simp only [run, Option.bind_eq_some_iff]

theorem run_append {s t : State} {as bs : List Action} :
    run step s (as ++ bs) = some t ↔ ∃ s', run step s as = some s' ∧ run step s' bs = some t := by
  induction as generalizing s with
  | nil => simp only [List.nil_append, run_nil, Option.some.injEq, exists_eq_left']
  | cons a as ih =>
      simp only [List.cons_append, run_cons_eq_some, ih]
      constructor
      · rintro ⟨s₁, hs₁, s₂, hs₂, ht⟩
        exact ⟨s₂, ⟨s₁, hs₁, hs₂⟩, ht⟩
      · rintro ⟨s₂, ⟨s₁, hs₁, hs₂⟩, ht⟩
        exact ⟨s₁, hs₁, s₂, hs₂, ht⟩

theorem invariant_of_run {I : State → Prop}
    (hstep : ∀ s a s', I s → step s a = some s' → I s')
    {s t : State} {as : List Action} (hs : I s) (hrun : run step s as = some t) : I t := by
  induction as generalizing s with
  | nil =>
      rw [run_nil, Option.some.injEq] at hrun
      exact hrun ▸ hs
  | cons a as ih =>
      obtain ⟨s', hs', ht⟩ := (run_cons_eq_some step).mp hrun
      exact ih (hstep s a s' hs hs') ht

theorem invariant_of_run_of_mem {I : State → Prop} {as : List Action}
    (hstep : ∀ s, ∀ a ∈ as, ∀ s', I s → step s a = some s' → I s')
    {s t : State} (hs : I s) (hrun : run step s as = some t) : I t := by
  induction as generalizing s with
  | nil =>
      rw [run_nil, Option.some.injEq] at hrun
      exact hrun ▸ hs
  | cons a as ih =>
      obtain ⟨s', hs', ht⟩ := (run_cons_eq_some step).mp hrun
      exact ih (fun s b hb => hstep s b (List.mem_cons_of_mem a hb))
        (hstep s a List.mem_cons_self s' hs hs') ht

/-- Every step of the run from `s` along the actions satisfies `P`. -/
def Along (P : State → Action → State → Prop) (s : State) : List Action → Prop
  | [] => True
  | a :: as => ∀ s', step s a = some s' → P s a s' ∧ Along P s' as

@[simp] theorem along_nil {P : State → Action → State → Prop} {s : State} :
    Along step P s [] := trivial

theorem along_cons {P : State → Action → State → Prop} {s : State} {a : Action}
    {as : List Action} :
    Along step P s (a :: as) ↔ ∀ s', step s a = some s' → P s a s' ∧ Along step P s' as := Iff.rfl

theorem along_of_invariant {I : State → Prop} {P : State → Action → State → Prop}
    (hstep : ∀ s a s', I s → step s a = some s' → I s')
    (hP : ∀ s a s', I s → step s a = some s' → P s a s')
    {s : State} (hs : I s) (as : List Action) : Along step P s as := by
  induction as generalizing s with
  | nil => exact along_nil step
  | cons a as ih =>
      intro s' hs'
      exact ⟨hP s a s' hs hs', ih (hstep s a s' hs hs')⟩

theorem along_congr_of_invariant {I : State → Prop} {P Q : State → Action → State → Prop}
    (hstep : ∀ s a s', I s → step s a = some s' → I s')
    (hiff : ∀ s a s', I s → step s a = some s' → (P s a s' ↔ Q s a s'))
    {s : State} (hs : I s) (as : List Action) : Along step P s as ↔ Along step Q s as := by
  induction as generalizing s with
  | nil => exact Iff.rfl
  | cons a as ih =>
      rw [along_cons, along_cons]
      exact forall₂_congr fun s' hs' =>
        and_congr (hiff s a s' hs hs') (ih (hstep s a s' hs hs'))

/-- Where every action of a first kind lowers the rank of the state, but for what actions of two
other kinds may add to it, a run has no more of the first kind than these allow. -/
theorem countP_le_of_rank (rank : State → Nat) (counted p q : Action → Bool) (m n : Nat)
    {I : State → Prop} (hstep : ∀ s a s', I s → step s a = some s' → I s')
    (hrank : ∀ s a s', I s → step s a = some s' →
      rank s' + (if counted a then 1 else 0) ≤
        rank s + ((if p a then m else 0) + (if q a then n else 0)))
    {s t : State} {as : List Action} (hs : I s) (hrun : run step s as = some t) :
    as.countP counted ≤ rank s + (m * as.countP p + n * as.countP q) := by
  induction as generalizing s with
  | nil => exact Nat.zero_le _
  | cons a as ih =>
      obtain ⟨s', hs', ht⟩ := (run_cons_eq_some step).mp hrun
      have hfirst := hrank s a s' hs hs'
      have hrest := ih (hstep s a s' hs hs') ht
      simp only [List.countP_cons, Nat.mul_add]
      cases hp : p a <;> cases hq : q a <;>
        simp only [hp, hq, if_true, Bool.false_eq_true, if_false] at hfirst ⊢ <;> omega

end StepRun
