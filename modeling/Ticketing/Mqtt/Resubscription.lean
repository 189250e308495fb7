import Ticketing.Mqtt.PahoMqttClient

/-!
# Subscriptions after a reconnect

After a reconnect all topics should be subscribed again, or the flag should still say that they are
to be. The flag is set by the closing check where it finds the connection down. A connection that is
lost and restored between two looks at it replaces the subscribed one without setting the flag, and
from then on the loop waits for messages that nobody sends. Beside the client a run is told whether
the present connection came about in such a way; apart from these connections all is as it should.
-/

namespace Ticketing.Mqtt

open StepRun

/-- No pass over all topics will follow of itself if a new connection comes about now: the flag is
down, or the present pass has topics behind it. -/
def PassedOver (topics : List String) (s : Client) : Prop :=
  topics ≠ [] ∧
    (s.wasDisconnected = false ∨ ∃ rest, s.phase = .subscribing rest ∧ rest ≠ topics)

instance decidablePassedOver (topics : List String) (s : Client) :
    Decidable (PassedOver topics s) :=
  match hphase : s.phase with
  | .subscribing rest =>
      decidable_of_iff (topics ≠ [] ∧ (s.wasDisconnected = false ∨ rest ≠ topics)) (by
        simp [PassedOver, hphase])
  | .opening | .waiting | .callback | .closing =>
      decidable_of_iff (topics ≠ [] ∧ s.wasDisconnected = false) (by simp [PassedOver, hphase])

/-- The client and what is to be known of its present connection. -/
structure Tracked where
  client : Client
  /-- it was up at the last closing check and has been since -/
  settled : Bool
  /-- it came about where no pass over all topics followed, and none has been due since -/
  unnoticed : Bool

def remember (topics : List String) (s : Tracked) (client : Client) : Event → Tracked
  | .reconnected => ⟨client, false, decide (PassedOver topics s.client)⟩
  -- a pass that has failed is made again from the beginning
  | .subscribe false => ⟨client, s.settled, false⟩
  | .closingCheck => ⟨client, s.client.connected, s.unnoticed && s.client.connected⟩
  | _ => ⟨client, s.settled, s.unnoticed⟩

def track (topics : List String) (s : Tracked) (e : Event) : Option Tracked :=
  (step topics s.client e).map fun client => remember topics s client e

def Tracked.start (connected : Bool) (subscribed : List String) : Tracked :=
  ⟨Mqtt.start connected subscribed, false, false⟩

/-! ### What holds along every run -/

structure Inv (topics : List String) (s : Tracked) : Prop where
  /-- on a connection that was noticed, all topics are subscribed when the flag is down -/
  subscribed : s.unnoticed = false → s.client.connected = true →
    s.client.wasDisconnected = false → ∀ topic ∈ topics, topic ∈ s.client.subscribed
  /-- and in a pass those are that it has behind it -/
  pass : ∀ rest, s.client.phase = .subscribing rest → s.client.wasDisconnected = true ∧
    ∃ done, topics = done ++ rest ∧ (s.unnoticed = false → s.client.connected = true →
      ∀ topic ∈ done, topic ∈ s.client.subscribed)
  /-- on one that was not, a topic is missing and will not come in this pass -/
  missing : s.unnoticed = true → s.client.connected = true →
    ∃ topic ∈ topics, topic ∉ s.client.subscribed ∧
      ∀ rest, s.client.phase = .subscribing rest → topic ∉ rest
  flag : s.unnoticed = true → s.client.wasDisconnected = true →
    ∃ rest, s.client.phase = .subscribing rest
  settled : s.settled = true → s.unnoticed = true → s.client.wasDisconnected = false

variable {topics : List String} {s s' : Tracked}

theorem start_inv (topics : List String) (connected : Bool) (subscribed : List String) :
    Inv topics (.start connected subscribed) where
  subscribed _ _ hflag := nomatch hflag
  pass _ hrest := nomatch hrest
  missing hunnoticed := nomatch hunnoticed
  flag hunnoticed := nomatch hunnoticed
  settled hsettled := nomatch hsettled

theorem Inv.setPhase (h : Inv topics s) (hphase : ∀ rest, s.client.phase ≠ .subscribing rest)
    {phase : Phase} (hphase' : ∀ rest, phase ≠ .subscribing rest) :
    Inv topics { s with client := { s.client with phase := phase } } where
  subscribed := h.subscribed
  pass rest hrest := absurd hrest (hphase' rest)
  missing hunnoticed hconnected := by
    obtain ⟨topic, hmem, hnot, -⟩ := h.missing hunnoticed hconnected
    exact ⟨topic, hmem, hnot, fun rest hrest => absurd hrest (hphase' rest)⟩
  flag hunnoticed hflag := by
    obtain ⟨rest, hrest⟩ := h.flag hunnoticed hflag
    exact absurd hrest (hphase rest)
  settled := h.settled

theorem Inv.lost (h : Inv topics s) :
    Inv topics { s with client := { s.client with connected := false } } where
  subscribed _ hconnected := nomatch hconnected
  pass rest hrest := by
    obtain ⟨hflag, done, htopics, -⟩ := h.pass rest hrest
    exact ⟨hflag, done, htopics, fun _ hconnected => nomatch hconnected⟩
  missing _ hconnected := nomatch hconnected
  flag := h.flag
  settled := h.settled

theorem Inv.reconnected (hnodup : topics.Nodup) (h : Inv topics s) :
    Inv topics ⟨{ s.client with connected := true, subscribed := [] }, false,
      decide (PassedOver topics s.client)⟩ where
  subscribed hnoticed _ hflag topic hmem := by
    rw [decide_eq_false_iff_not] at hnoticed
    exact absurd ⟨List.ne_nil_of_mem hmem, Or.inl hflag⟩ hnoticed
  pass rest hrest := by
    obtain ⟨hflag, done, htopics, -⟩ := h.pass rest hrest
    refine ⟨hflag, done, htopics, fun hnoticed _ topic hmem => ?_⟩
    rw [decide_eq_false_iff_not] at hnoticed
    have hne : rest ≠ topics := by
      rintro rfl
      exact List.ne_nil_of_mem hmem (List.self_eq_append_left.mp htopics)
    refine absurd ⟨?_, Or.inr ⟨rest, hrest, hne⟩⟩ hnoticed
    rw [htopics]
    exact List.ne_nil_of_mem (List.mem_append_left rest hmem)
  missing hunnoticed _ := by
    obtain ⟨hne, hover⟩ := of_decide_eq_true hunnoticed
    rcases hover with hflag | ⟨rest, hrest, hrestNe⟩
    · obtain ⟨topic, hmem⟩ := List.exists_mem_of_ne_nil topics hne
      refine ⟨topic, hmem, List.not_mem_nil, fun rest hrest => ?_⟩
      rw [(h.pass rest hrest).1] at hflag
      cases hflag
    · obtain ⟨-, done, htopics, -⟩ := h.pass rest hrest
      have hdone : done ≠ [] := by
        rintro rfl
        exact hrestNe htopics.symm
      obtain ⟨topic, hmem⟩ := List.exists_mem_of_ne_nil done hdone
      rw [htopics] at hnodup
      refine ⟨topic, htopics ▸ List.mem_append_left rest hmem, List.not_mem_nil, ?_⟩
      intro rest' hrest'
      rw [hrest, Phase.subscribing.injEq] at hrest'
      exact hrest' ▸ fun hin => (List.nodup_append.mp hnodup).2.2 topic hmem topic hin rfl
  flag hunnoticed hflag := by
    obtain ⟨-, hdown | ⟨rest, hrest, -⟩⟩ := of_decide_eq_true hunnoticed
    · rw [hdown] at hflag
      cases hflag
    · exact ⟨rest, hrest⟩
  settled hsettled := nomatch hsettled

theorem Inv.passBegins (h : Inv topics s) (hphase : s.client.phase = .opening)
    (hflag : s.client.wasDisconnected = true) :
    Inv topics { s with client := { s.client with phase := .subscribing topics } } where
  subscribed := h.subscribed
  pass rest hrest := by
    cases hrest
    exact ⟨hflag, [], rfl, fun _ _ _ hmem => absurd hmem List.not_mem_nil⟩
  missing hunnoticed := by
    obtain ⟨rest, hrest⟩ := h.flag hunnoticed hflag
    rw [hphase] at hrest
    cases hrest
  flag _ _ := ⟨topics, rfl⟩
  settled := h.settled

theorem Inv.subscribeSucceeds (h : Inv topics s) {topic : String} {rest : List String}
    (hphase : s.client.phase = .subscribing (topic :: rest)) :
    Inv topics { s with client :=
      { s.client with subscribed := topic :: s.client.subscribed, phase := .subscribing rest } }
    where
  subscribed hnoticed hconnected hflag := by
    rw [(h.pass _ hphase).1] at hflag
    cases hflag
  pass rest' hrest := by
    cases hrest
    obtain ⟨hflag, done, htopics, hdone⟩ := h.pass _ hphase
    refine ⟨hflag, done ++ [topic], ?_, fun hnoticed hconnected t hmem => ?_⟩
    · rw [htopics, List.append_assoc, List.singleton_append]
    · rcases List.mem_append.mp hmem with hmem | hmem
      · exact List.mem_cons_of_mem topic (hdone hnoticed hconnected t hmem)
      · rw [List.mem_singleton.mp hmem]
        exact List.mem_cons_self
  missing hunnoticed hconnected := by
    obtain ⟨t, hmem, hnot, hrest⟩ := h.missing hunnoticed hconnected
    have hnotRest := hrest _ hphase
    rw [List.mem_cons, not_or] at hnotRest
    refine ⟨t, hmem, ?_, fun rest' hrest' => ?_⟩
    · exact fun hin => (List.mem_cons.mp hin).elim hnotRest.1 hnot
    · cases hrest'
      exact hnotRest.2
  flag _ _ := ⟨rest, rfl⟩
  settled := h.settled

theorem Inv.subscribeFails (h : Inv topics s) {rest : List String}
    (hphase : s.client.phase = .subscribing rest) :
    Inv topics ⟨{ s.client with phase := .waiting }, s.settled, false⟩ where
  subscribed _ _ hflag := by
    rw [(h.pass _ hphase).1] at hflag
    cases hflag
  pass _ hrest := nomatch hrest
  missing hunnoticed := nomatch hunnoticed
  flag hunnoticed := nomatch hunnoticed
  settled _ hunnoticed := nomatch hunnoticed

theorem Inv.passEnds (h : Inv topics s) (hphase : s.client.phase = .subscribing []) :
    Inv topics { s with client := { s.client with wasDisconnected := false, phase := .waiting } }
    where
  subscribed hnoticed hconnected _ := by
    obtain ⟨-, done, htopics, hdone⟩ := h.pass _ hphase
    rw [htopics, List.append_nil]
    exact hdone hnoticed hconnected
  pass _ hrest := nomatch hrest
  missing hunnoticed hconnected := by
    obtain ⟨topic, hmem, hnot, -⟩ := h.missing hunnoticed hconnected
    exact ⟨topic, hmem, hnot, fun _ hrest => nomatch hrest⟩
  flag _ hflag := nomatch hflag
  settled _ _ := rfl

theorem Inv.closingCheckUp (h : Inv topics s) (hphase : s.client.phase = .closing) :
    Inv topics ⟨{ s.client with phase := .opening }, true, s.unnoticed⟩ where
  subscribed := h.subscribed
  pass _ hrest := nomatch hrest
  missing hunnoticed hconnected := by
    obtain ⟨topic, hmem, hnot, -⟩ := h.missing hunnoticed hconnected
    exact ⟨topic, hmem, hnot, fun _ hrest => nomatch hrest⟩
  flag hunnoticed hflag := by
    obtain ⟨rest, hrest⟩ := h.flag hunnoticed hflag
    rw [hphase] at hrest
    cases hrest
  settled _ hunnoticed := by
    by_contra hflag
    obtain ⟨rest, hrest⟩ := h.flag hunnoticed ((Bool.not_eq_false _).mp hflag)
    rw [hphase] at hrest
    cases hrest

theorem inv_closingCheckDown (topics : List String) (client : Client) :
    Inv topics ⟨{ client with wasDisconnected := true, phase := .opening }, false, false⟩ where
  subscribed _ _ hflag := nomatch hflag
  pass _ hrest := nomatch hrest
  missing hunnoticed := nomatch hunnoticed
  flag hunnoticed := nomatch hunnoticed
  settled hsettled := nomatch hsettled

theorem Inv.step (hnodup : topics.Nodup) (h : Inv topics s) {e : Event}
    (hstep : track topics s e = some s') : Inv topics s' := by
  rw [track, Option.map_eq_some_iff] at hstep
  obtain ⟨client, hclient, rfl⟩ := hstep
  cases e with
  | lost =>
      obtain ⟨-, rfl⟩ := step_lost hclient
      exact h.lost
  | reconnected =>
      obtain ⟨-, rfl⟩ := step_reconnected hclient
      exact h.reconnected hnodup
  | openingCheck =>
      obtain ⟨hphase, ⟨hflag, -, rfl⟩ | ⟨-, rfl⟩⟩ := step_openingCheck hclient
      · exact h.passBegins hphase hflag
      · exact h.setPhase (by simp [hphase]) (by simp)
  | subscribe succeeds =>
      obtain ⟨topic, rest, hphase, ⟨rfl, -, rfl⟩ | ⟨rfl, rfl⟩⟩ := step_subscribe hclient
      · exact h.subscribeSucceeds hphase
      · exact h.subscribeFails hphase
  | passEnds =>
      obtain ⟨hphase, rfl⟩ := step_passEnds hclient
      exact h.passEnds hphase
  | consume message =>
      obtain ⟨hphase, phase, hphase', rfl⟩ := step_consume hclient
      apply h.setPhase (by simp [hphase])
      rcases hphase' with rfl | rfl <;> simp
  | callbackReturns =>
      obtain ⟨hphase, rfl⟩ := step_callbackReturns hclient
      exact h.setPhase (by simp [hphase]) (by simp)
  | closingCheck =>
      obtain ⟨hphase, rfl⟩ := step_closingCheck hclient
      rw [remember]
      cases hconnected : s.client.connected with
      | true =>
          rw [Bool.not_true, Bool.or_false, Bool.and_true, ← hconnected]
          have hup := h.closingCheckUp hphase
          rwa [← hconnected] at hup
      | false =>
          rw [Bool.not_false, Bool.or_true, Bool.and_false, ← hconnected]
          have hdown := inv_closingCheckDown topics s.client
          rwa [hconnected] at hdown ⊢

/-! ### When the loop starts to wait -/

/-- If the step is one to `try_consume_message_for`, on a connection that was up at the last closing
check and has been since, then all topics are subscribed on it or the flag is up. -/
def Resubscribed (topics : List String) (s : Tracked) (_ : Event) (s' : Tracked) : Prop :=
  s.client.phase ≠ .waiting → s'.client.phase = .waiting →
    s'.client.connected = true → s'.settled = true →
      (∀ topic ∈ topics, topic ∈ s'.client.subscribed) ∨ s'.client.wasDisconnected = true

/-- No iteration opens on a connection that the last closing check took for the old one. -/
def Noticed (s : Tracked) (e : Event) (_ : Tracked) : Prop :=
  e = .openingCheck → ¬ (s.client.connected = true ∧ s.settled = true ∧ s.unnoticed = true)

/-- At the opening check the one depends on the other; every other step to the wait is a right one,
and no step but the opening check can fail to notice. -/
theorem Inv.resubscribed_iff (h : Inv topics s) {e : Event} (hstep : track topics s e = some s') :
    Resubscribed topics s e s' ↔ Noticed s e s' := by
  rw [track, Option.map_eq_some_iff] at hstep
  obtain ⟨client, hclient, rfl⟩ := hstep
  cases e with
  | openingCheck =>
      obtain ⟨hphase, ⟨hflag, -, rfl⟩ | ⟨hdown, rfl⟩⟩ := step_openingCheck hclient
      · apply iff_of_true (fun _ hwaiting => nomatch hwaiting)
        rintro - ⟨-, hsettled, hunnoticed⟩
        have hflag' := h.settled hsettled hunnoticed
        rw [hflag] at hflag'
        cases hflag'
      · constructor
        · rintro hresubscribed - ⟨hconnected, hsettled, hunnoticed⟩
          obtain ⟨topic, hmem, hnot, -⟩ := h.missing hunnoticed hconnected
          rcases hresubscribed (by simp [hphase]) rfl hconnected hsettled with hall | hflag
          · exact hnot (hall topic hmem)
          · have hflag' : s.client.wasDisconnected = true := hflag
            rw [hdown hconnected] at hflag'
            cases hflag'
        · intro hnoticed _ _ hconnected hsettled
          have hunnoticed : s.unnoticed = false := by
            rw [← Bool.not_eq_true]
            exact fun hunnoticed => hnoticed rfl ⟨hconnected, hsettled, hunnoticed⟩
          exact Or.inl (h.subscribed hunnoticed hconnected (hdown hconnected))
  | passEnds =>
      obtain ⟨hphase, rfl⟩ := step_passEnds hclient
      refine iff_of_true (fun _ _ hconnected hsettled => Or.inl ?_) fun he => nomatch he
      obtain ⟨hflag, done, htopics, hdone⟩ := h.pass _ hphase
      have hunnoticed : s.unnoticed = false := by
        rw [← Bool.not_eq_true]
        intro hunnoticed
        rw [h.settled hsettled hunnoticed] at hflag
        cases hflag
      rw [htopics, List.append_nil]
      exact hdone hunnoticed hconnected
  | subscribe succeeds =>
      refine iff_of_true (fun _ hwaiting _ _ => Or.inr ?_) fun he => nomatch he
      obtain ⟨topic, rest, hphase, ⟨rfl, -, rfl⟩ | ⟨rfl, rfl⟩⟩ := step_subscribe hclient
      · cases hwaiting
      · exact (h.pass _ hphase).1
  | lost =>
      obtain ⟨-, rfl⟩ := step_lost hclient
      exact iff_of_true (fun hnot hwaiting => absurd hwaiting hnot) fun he => nomatch he
  | reconnected =>
      obtain ⟨-, rfl⟩ := step_reconnected hclient
      exact iff_of_true (fun hnot hwaiting => absurd hwaiting hnot) fun he => nomatch he
  | consume message =>
      obtain ⟨hphase, -⟩ := step_consume hclient
      exact iff_of_true (fun hnot _ => absurd hphase hnot) fun he => nomatch he
  | callbackReturns =>
      obtain ⟨-, rfl⟩ := step_callbackReturns hclient
      exact iff_of_true (fun _ hwaiting => nomatch hwaiting) fun he => nomatch he
  | closingCheck =>
      obtain ⟨-, rfl⟩ := step_closingCheck hclient
      exact iff_of_true (fun _ hwaiting => nomatch hwaiting) fun he => nomatch he

/-- However connections are lost and restored and whichever subscriptions fail, the loop starts to
wait as it should in all iterations of a run exactly if none of them opens on a connection that
replaced the subscribed one behind its back. -/
theorem along_resubscribed_iff (hnodup : topics.Nodup) (connected : Bool)
    (subscribed : List String) (events : List Event) :
    Along (track topics) (Resubscribed topics) (.start connected subscribed) events ↔
      Along (track topics) Noticed (.start connected subscribed) events :=
  along_congr_of_invariant (track topics) (fun _ _ _ h hstep => h.step hnodup hstep)
    (fun _ _ _ h hstep => h.resubscribed_iff hstep) (start_inv topics connected subscribed) events

/-- The closing check sees that the connection is lost. It is restored before the next pass, which
subscribes again. -/
theorem along_resubscribed_iff_noticed_loss :
    Along (track ["event/create"]) (Resubscribed ["event/create"]) (.start true [])
      [.openingCheck, .subscribe true, .passEnds, .consume none, .lost, .closingCheck,
        .reconnected, .openingCheck, .subscribe true, .passEnds, .consume none, .closingCheck,
        .openingCheck] := by
  apply (along_resubscribed_iff (by decide) true [] _).mpr
  rintro _ ⟨⟩
  refine ⟨fun _ hopens => absurd hopens.2.1 (by decide), ?_⟩
  iterate 6
    rintro _ ⟨⟩
    refine ⟨nofun, ?_⟩
  rintro _ ⟨⟩
  refine ⟨fun _ hopens => absurd hopens.2.1 (by decide), ?_⟩
  iterate 4
    rintro _ ⟨⟩
    refine ⟨nofun, ?_⟩
  rintro _ ⟨⟩
  exact ⟨fun _ hopens => absurd hopens.2.2 (by decide), trivial⟩

/-- The connection is lost and restored while a callback runs. The closing check finds it up, and
the next iteration waits for messages on a topic that is not subscribed. -/
theorem deaf_after_reconnect :
    ¬ ∀ (topics : List String) (connected : Bool) (subscribed : List String) (events : List Event),
      topics.Nodup →
      Along (track topics) (Resubscribed topics) (.start connected subscribed) events := by
  intro hall
  have halong := hall ["event/create"] true [] [.openingCheck, .subscribe true, .passEnds,
    .consume (some "event/create"), .lost, .reconnected, .callbackReturns, .closingCheck,
    .openingCheck] (by decide)
  obtain ⟨-, halong⟩ := halong _ rfl
  obtain ⟨-, halong⟩ := halong _ rfl
  obtain ⟨-, halong⟩ := halong _ rfl
  obtain ⟨-, halong⟩ := halong _ rfl
  obtain ⟨-, halong⟩ := halong _ rfl
  obtain ⟨-, halong⟩ := halong _ rfl
  obtain ⟨-, halong⟩ := halong _ rfl
  obtain ⟨-, halong⟩ := halong _ rfl
  obtain ⟨hresubscribed, -⟩ := halong _ rfl
  exact absurd (hresubscribed (by decide) rfl rfl rfl) (by decide)

end Ticketing.Mqtt
