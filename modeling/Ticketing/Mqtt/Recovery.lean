import Ticketing.Mqtt.Resubscription

/-!
# An outage that has been noticed

While the flag is up, every iteration that finds the connection up makes a pass over all topics,
until one of them succeeds. As long as the connection stays up this takes no more than one round of
the loop and one more for each subscription that fails, and nothing undoes it. The first round after
the start is a case of this.
-/

namespace Ticketing.Mqtt

open StepRun

variable {topics : List String} {s s' : Client}

def Event.isFailure : Event → Bool
  | .subscribe false => true
  | _ => false

/-- What is known of the client while its connection stays up after an outage that has been noticed:
the flag comes down with all topics subscribed only. -/
structure Repairing (topics : List String) (s : Client) : Prop where
  connected : s.connected = true
  inv : Inv topics ⟨s, false, false⟩

theorem repairing_of_flag (hconnected : s.connected = true) (hflag : s.wasDisconnected = true)
    (hphase : ∀ rest, s.phase ≠ .subscribing rest) : Repairing topics s where
  connected := hconnected
  inv :=
    { subscribed := fun _ _ hdown => by
        have hdown' : s.wasDisconnected = false := hdown
        rw [hflag] at hdown'
        cases hdown'
      pass := fun rest hrest => absurd hrest (hphase rest)
      missing := nofun
      flag := nofun
      settled := nofun }

theorem connected_step (hconnected : s.connected = true) {e : Event} (hup : e ≠ .lost)
    (hstep : step topics s e = some s') : s'.connected = true := by
  cases e with
  | lost => exact absurd rfl hup
  | reconnected =>
      obtain ⟨hdown, -⟩ := step_reconnected hstep
      rw [hconnected] at hdown
      cases hdown
  | openingCheck =>
      obtain ⟨-, ⟨-, -, rfl⟩ | ⟨-, rfl⟩⟩ := step_openingCheck hstep <;> exact hconnected
  | subscribe succeeds =>
      obtain ⟨topic, rest, -, ⟨-, -, rfl⟩ | ⟨-, rfl⟩⟩ := step_subscribe hstep <;> exact hconnected
  | passEnds =>
      obtain ⟨-, rfl⟩ := step_passEnds hstep
      exact hconnected
  | consume message =>
      obtain ⟨-, phase, -, rfl⟩ := step_consume hstep
      exact hconnected
  | callbackReturns =>
      obtain ⟨-, rfl⟩ := step_callbackReturns hstep
      exact hconnected
  | closingCheck =>
      obtain ⟨-, rfl⟩ := step_closingCheck hstep
      exact hconnected

theorem Repairing.next (hnodup : topics.Nodup) (h : Repairing topics s) {e : Event}
    (hup : e ≠ .lost) (hstep : step topics s e = some s') : Repairing topics s' := by
  have hconnected := connected_step h.connected hup hstep
  have htrack : track topics ⟨s, false, false⟩ e =
      some (remember topics ⟨s, false, false⟩ s' e) := by
    rw [track, hstep]
    rfl
  have hinv := h.inv.step hnodup htrack
  obtain ⟨settled, hremember⟩ : ∃ settled,
      remember topics ⟨s, false, false⟩ s' e = ⟨s', settled, false⟩ := by
    cases e with
    | reconnected =>
        obtain ⟨hdown, -⟩ := step_reconnected hstep
        rw [h.connected] at hdown
        cases hdown
    | subscribe succeeds => cases succeeds <;> exact ⟨_, rfl⟩
    | _ => exact ⟨_, rfl⟩
  rw [hremember] at hinv
  exact ⟨hconnected, { hinv with settled := fun hsettled => by cases hsettled }⟩

theorem flag_step (hconnected : s.connected = true) (hflag : s.wasDisconnected = false) {e : Event}
    (hstep : step topics s e = some s') : s'.wasDisconnected = false := by
  cases e with
  | lost =>
      obtain ⟨-, rfl⟩ := step_lost hstep
      exact hflag
  | reconnected =>
      obtain ⟨-, rfl⟩ := step_reconnected hstep
      exact hflag
  | openingCheck =>
      obtain ⟨-, ⟨-, -, rfl⟩ | ⟨-, rfl⟩⟩ := step_openingCheck hstep <;> exact hflag
  | subscribe succeeds =>
      obtain ⟨topic, rest, -, ⟨-, -, rfl⟩ | ⟨-, rfl⟩⟩ := step_subscribe hstep <;> exact hflag
  | passEnds =>
      obtain ⟨-, rfl⟩ := step_passEnds hstep
      rfl
  | consume message =>
      obtain ⟨-, phase, -, rfl⟩ := step_consume hstep
      exact hflag
  | callbackReturns =>
      obtain ⟨-, rfl⟩ := step_callbackReturns hstep
      exact hflag
  | closingCheck =>
      obtain ⟨-, rfl⟩ := step_closingCheck hstep
      rw [hconnected, hflag]
      rfl

/-! ### Steps to go -/

/-- The steps until the flag comes down, if no subscription fails. -/
def stepsToGo (topics : List String) (s : Client) : Nat :=
  match s.phase with
  | .waiting => topics.length + 5
  | .callback => topics.length + 4
  | .closing => topics.length + 3
  | .opening => topics.length + 2
  | .subscribing rest => rest.length + 1

theorem stepsToGo_step (hconnected : s.connected = true) (hflag : s.wasDisconnected = true)
    (hflag' : s'.wasDisconnected = true) {e : Event} (hup : e ≠ .lost)
    (hstep : step topics s e = some s') :
    stepsToGo topics s' + 1 ≤
      stepsToGo topics s + (if e.isFailure then topics.length + 4 else 0) := by
  cases e with
  | lost => exact absurd rfl hup
  | reconnected =>
      obtain ⟨hdown, -⟩ := step_reconnected hstep
      rw [hconnected] at hdown
      cases hdown
  | openingCheck =>
      obtain ⟨hphase, ⟨-, -, rfl⟩ | ⟨hdown, -⟩⟩ := step_openingCheck hstep
      · simp only [stepsToGo, hphase]
        omega
      · rw [hdown hconnected] at hflag
        cases hflag
  | subscribe succeeds =>
      obtain ⟨topic, rest, hphase, ⟨rfl, -, rfl⟩ | ⟨rfl, rfl⟩⟩ := step_subscribe hstep
      · simp only [stepsToGo, hphase, List.length_cons]
        omega
      · simp only [stepsToGo, hphase, List.length_cons, Event.isFailure, if_true]
        omega
  | passEnds =>
      obtain ⟨-, rfl⟩ := step_passEnds hstep
      cases hflag'
  | consume message =>
      obtain ⟨hphase, phase, rfl | rfl, rfl⟩ := step_consume hstep
      · simp only [stepsToGo, hphase]
        omega
      · simp only [stepsToGo, hphase]
        omega
  | callbackReturns =>
      obtain ⟨hphase, rfl⟩ := step_callbackReturns hstep
      simp only [stepsToGo, hphase]
      omega
  | closingCheck =>
      obtain ⟨hphase, rfl⟩ := step_closingCheck hstep
      simp only [stepsToGo, hphase]
      omega

theorem length_le_of_flag (hconnected : s.connected = true) {events : List Event}
    (hup : .lost ∉ events) (hrun : run (step topics) s events = some s')
    (hflag' : s'.wasDisconnected = true) :
    events.length ≤
      stepsToGo topics s + (topics.length + 4) * events.countP Event.isFailure := by
  induction events generalizing s with
  | nil => exact Nat.zero_le _
  | cons e events ih =>
      rw [List.mem_cons, not_or] at hup
      obtain ⟨s₁, hstep, hrest⟩ := (run_cons_eq_some _).mp hrun
      have hconnected₁ := connected_step hconnected (Ne.symm hup.1) hstep
      -- the flag cannot have come up again
      have hflag₁ : s₁.wasDisconnected = true := by
        by_contra hdown
        rw [Bool.not_eq_true] at hdown
        have hend := invariant_of_run_of_mem (step topics)
          (I := fun s => s.connected = true ∧ s.wasDisconnected = false)
          (fun u e' he' u' hu hu' => ⟨connected_step hu.1 (fun heq => hup.2 (heq ▸ he')) hu',
            flag_step hu.1 hu.2 hu'⟩) ⟨hconnected₁, hdown⟩ hrest
        rw [hflag'] at hend
        cases hend.2
      have hflag : s.wasDisconnected = true := by
        by_contra hdown
        rw [Bool.not_eq_true] at hdown
        rw [flag_step hconnected hdown hstep] at hflag₁
        cases hflag₁
      have hfirst := stepsToGo_step hconnected hflag hflag₁ (Ne.symm hup.1) hstep
      have hrest' := ih hconnected₁ hup.2 hrest
      rw [List.length_cons, List.countP_cons, Nat.mul_add]
      cases hfailure : e.isFailure <;>
        simp only [hfailure, if_true, Bool.false_eq_true, if_false] at hfirst ⊢ <;> omega

/-- Let the connection be up and stay up after an outage that a closing check has seen, or after the
start. If the flag is down later, then all topics are subscribed, and it is down after at most
five steps and one for each topic, and as many again less one for each subscription that fails. -/
theorem noticed_outage_repaired (hnodup : topics.Nodup) (hconnected : s.connected = true)
    (hflag : s.wasDisconnected = true) (hphase : ∀ rest, s.phase ≠ .subscribing rest)
    {events : List Event} (hup : .lost ∉ events) (hrun : run (step topics) s events = some s') :
    (s'.wasDisconnected = false → ∀ topic ∈ topics, topic ∈ s'.subscribed) ∧
      (s'.wasDisconnected = true → events.length ≤
        topics.length + 5 + (topics.length + 4) * events.countP Event.isFailure) := by
  have hrepairing := invariant_of_run_of_mem (step topics) (I := Repairing topics)
    (fun u e he u' hu hu' => hu.next hnodup (fun heq => hup (heq ▸ he)) hu')
    (repairing_of_flag hconnected hflag hphase) hrun
  refine ⟨hrepairing.inv.subscribed rfl hrepairing.connected, fun hflag' => ?_⟩
  have hlength := length_le_of_flag hconnected hup hrun hflag'
  have hstart : stepsToGo topics s ≤ topics.length + 5 := by
    rw [stepsToGo]
    split
    · omega
    · omega
    · omega
    · omega
    · rename_i rest hrest
      exact absurd hrest (hphase rest)
  omega

theorem noticed_outage_repaired_one_failure : ∃ s : Client,
    run (step ["event/create", "event/validate"]) (start true [])
      [.openingCheck, .subscribe true, .subscribe false, .consume none, .closingCheck,
        .openingCheck, .subscribe true, .subscribe true, .passEnds] = some s ∧
      s.wasDisconnected = false ∧ "event/validate" ∈ s.subscribed := by
  obtain ⟨s, hs⟩ : ∃ s, run (step ["event/create", "event/validate"]) (start true [])
      [.openingCheck, .subscribe true, .subscribe false, .consume none, .closingCheck,
        .openingCheck, .subscribe true, .subscribe true, .passEnds] = some s := ⟨_, rfl⟩
  have hdown : s.wasDisconnected = false := by
    rw [← Option.some.inj hs]
  exact ⟨s, hs, hdown, (noticed_outage_repaired (by decide) rfl rfl (by simp [start])
    (by decide) hs).1 hdown "event/validate" (by decide)⟩

end Ticketing.Mqtt
