import Mathlib.Data.List.Basic

/-!
# Refinement of machines that answer

A machine takes a state and an operation to the next state and an answer. It refines another machine
with the same operations if some relation between the states is kept by every operation and the
answers correspond. What one operation does is then enough to know what any run of them does.

A machine that several parties work on has a component for each party if the part of the state that
the party sees changes with its own operations only, as in a machine that it has to itself.
-/

namespace Refinement

variable {State Op Answer : Type*}

def final (step : State → Op → State × Answer) (s : State) (ops : List Op) : State :=
  ops.foldl (fun s op => (step s op).1) s

def answers (step : State → Op → State × Answer) (s : State) : List Op → List Answer
  | [] => []
  | op :: ops => (step s op).2 :: answers step (step s op).1 ops

theorem final_cons (step : State → Op → State × Answer) (s : State) (op : Op) (ops : List Op) :
    final step s (op :: ops) = final step (step s op).1 ops := rfl

theorem invariant_final {step : State → Op → State × Answer} {I : State → Prop}
    (hstep : ∀ s op, I s → I (step s op).1) {s : State} (hs : I s) (ops : List Op) :
    I (final step s ops) := by
  induction ops generalizing s with
  | nil => exact hs
  | cons op ops ih => exact ih (hstep s op hs)

variable {Concrete Abstract ConcreteAnswer AbstractAnswer : Type*}

/-- The concrete machine does and answers what the abstract one does, seen through `view`. -/
def Simulates (related : Concrete → Abstract → Prop) (view : AbstractAnswer → ConcreteAnswer)
    (concrete : Concrete → Op → Concrete × ConcreteAnswer)
    (abstract : Abstract → Op → Abstract × AbstractAnswer) : Prop :=
  ∀ s a op, related s a →
    related (concrete s op).1 (abstract a op).1 ∧ (concrete s op).2 = view (abstract a op).2

variable {related : Concrete → Abstract → Prop} {view : AbstractAnswer → ConcreteAnswer}
  {concrete : Concrete → Op → Concrete × ConcreteAnswer}
  {abstract : Abstract → Op → Abstract × AbstractAnswer}

theorem Simulates.final (h : Simulates related view concrete abstract) {s : Concrete} {a : Abstract}
    (hrelated : related s a) (ops : List Op) :
    related (final concrete s ops) (final abstract a ops) := by
  induction ops generalizing s a with
  | nil => exact hrelated
  | cons op ops ih => exact ih (h s a op hrelated).1

theorem Simulates.answers (h : Simulates related view concrete abstract) {s : Concrete}
    {a : Abstract} (hrelated : related s a) (ops : List Op) :
    answers concrete s ops = (answers abstract a ops).map view := by
  induction ops generalizing s a with
  | nil => rfl
  | cons op ops ih =>
      obtain ⟨hnext, hanswer⟩ := h s a op hrelated
      rw [Refinement.answers, Refinement.answers, List.map_cons, hanswer, ih hnext]

/-! ### Components -/

variable {Local LocalOp LocalAnswer : Type*}

/-- The answers to the operations of one party. -/
def ownAnswers (step : State → Op → State × Answer) (own : Op → Option LocalOp) (s : State) :
    List Op → List Answer
  | [] => []
  | op :: ops =>
      match own op with
      | some _ => (step s op).2 :: ownAnswers step own (step s op).1 ops
      | none => ownAnswers step own (step s op).1 ops

/-- Wherever the invariant holds, what the party sees is moved by its own operations as the machine
`alone` would move it, and by no other operation. -/
structure Component (invariant : State → Prop) (part : State → Local) (own : Op → Option LocalOp)
    (embed : LocalAnswer → Answer) (step : State → Op → State × Answer)
    (alone : Local → LocalOp → Local × LocalAnswer) : Prop where
  kept : ∀ s op, invariant s → invariant (step s op).1
  own_part : ∀ s op o, invariant s → own op = some o →
    part (step s op).1 = (alone (part s) o).1
  own_answer : ∀ s op o, invariant s → own op = some o →
    (step s op).2 = embed (alone (part s) o).2
  other_part : ∀ s op, invariant s → own op = none → part (step s op).1 = part s

variable {invariant : State → Prop} {part : State → Local} {own : Op → Option LocalOp}
  {embed : LocalAnswer → Answer} {step : State → Op → State × Answer}
  {alone : Local → LocalOp → Local × LocalAnswer}

theorem Component.final (h : Component invariant part own embed step alone) {s : State}
    (hs : invariant s) (ops : List Op) :
    part (final step s ops) = final alone (part s) (ops.filterMap own) := by
  induction ops generalizing s with
  | nil => rfl
  | cons op ops ih =>
      rw [final_cons, ih (h.kept s op hs)]
      cases hown : own op with
      | none => rw [List.filterMap_cons_none hown, h.other_part s op hs hown]
      | some o => rw [List.filterMap_cons_some hown, final_cons, h.own_part s op o hs hown]

theorem Component.answers (h : Component invariant part own embed step alone) {s : State}
    (hs : invariant s) (ops : List Op) :
    ownAnswers step own s ops = (answers alone (part s) (ops.filterMap own)).map embed := by
  induction ops generalizing s with
  | nil => rfl
  | cons op ops ih =>
      have hnext := ih (h.kept s op hs)
      cases hown : own op with
      | none =>
          rw [List.filterMap_cons_none hown, ← h.other_part s op hs hown, ← hnext]
          simp only [ownAnswers, hown]
      | some o =>
          rw [List.filterMap_cons_some hown, Refinement.answers, List.map_cons,
            ← h.own_part s op o hs hown, ← hnext, ← h.own_answer s op o hs hown]
          simp only [ownAnswers, hown]

end Refinement
