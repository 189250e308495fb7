import Ticketing.Library.StepRun

/-!
# The MQTT client's loop

`PahoMqttClient::run`, which the gate and the vending machine have in common. The loop looks at the
connection twice in an iteration, while the Paho library loses and restores it whenever it likes.
The steps are what the loop does between two points where the connection may change: the opening
check, each `subscribe` of a pass, the end of the pass, the receipt of a message, the return of its
callback and the closing check. Losses and reconnections come in between in any number.
-/

namespace Ticketing.Mqtt

/-- Where the thread in `run` is. -/
inductive Phase where
  /-- at the head of the loop -/
  | opening
  /-- in the `for` over `m_topic_map`, with these topics to come -/
  | subscribing (rest : List String)
  /-- in `try_consume_message_for` -/
  | waiting
  | callback
  /-- at the health check -/
  | closing
  deriving DecidableEq

/-- The local variable of `run`, with the connection as it really is. A connection begins without
subscriptions, since a broker that was restarted may have dropped the earlier ones. -/
structure Client where
  connected : Bool
  /-- the topics subscribed successfully on the present connection -/
  subscribed : List String
  wasDisconnected : Bool
  phase : Phase
  deriving DecidableEq

inductive Event where
  | lost
  /-- Paho's automatic reconnect -/
  | reconnected
  | openingCheck
  /-- `m_client->subscribe(topic, 1)`, which throws where it does not succeed -/
  | subscribe (succeeds : Bool)
  | passEnds
  /-- the topic of a message, `none` after a second without one -/
  | consume (message : Option String)
  | callbackReturns
  | closingCheck
  deriving DecidableEq

/-- One step of the client whose `m_topic_map` has these topics. The map does not change while the
loop runs. -/
def step (topics : List String) (s : Client) : Event → Option Client
  | .lost => if s.connected then some { s with connected := false } else none
  | .reconnected =>
      if s.connected then none else some { s with connected := true, subscribed := [] }
  | .openingCheck =>
      match s.phase with
      | .opening =>
          if s.wasDisconnected && s.connected then some { s with phase := .subscribing topics }
          else some { s with phase := .waiting }
      | _ => none
  | .subscribe succeeds =>
      match s.phase with
      | .subscribing (topic :: rest) =>
          if succeeds then
            if s.connected then
              some { s with subscribed := topic :: s.subscribed, phase := .subscribing rest }
            else none
          else
            -- the exception ends the pass, and the flag stays as it is
            some { s with phase := .waiting }
      | _ => none
  | .passEnds =>
      match s.phase with
      | .subscribing [] => some { s with wasDisconnected := false, phase := .waiting }
      | _ => none
  | .consume message =>
      match s.phase with
      | .waiting =>
          some { s with phase := if ∃ topic ∈ message, topic ∈ topics then .callback else .closing }
      | _ => none
  | .callbackReturns =>
      match s.phase with
      | .callback => some { s with phase := .closing }
      | _ => none
  | .closingCheck =>
      match s.phase with
      | .closing =>
          some { s with wasDisconnected := s.wasDisconnected || !s.connected, phase := .opening }
      | _ => none

/-- Before the first iteration. What `subscribe_to_topic` has subscribed is subscribed. -/
def start (connected : Bool) (subscribed : List String) : Client where
  connected := connected
  subscribed := subscribed
  wasDisconnected := true
  phase := .opening

/-! ### What a step does -/

variable {topics : List String} {s s' : Client}

theorem step_lost (h : step topics s .lost = some s') :
    s.connected = true ∧ s' = { s with connected := false } := by
  rw [step] at h
  split at h
  · rename_i hconnected
    exact ⟨hconnected, (Option.some.inj h).symm⟩
  · cases h

theorem step_reconnected (h : step topics s .reconnected = some s') :
    s.connected = false ∧ s' = { s with connected := true, subscribed := [] } := by
  rw [step] at h
  split at h
  · cases h
  · rename_i hconnected
    exact ⟨Bool.eq_false_iff.mpr hconnected, (Option.some.inj h).symm⟩

theorem step_openingCheck (h : step topics s .openingCheck = some s') :
    s.phase = .opening ∧
      ((s.wasDisconnected = true ∧ s.connected = true ∧
          s' = { s with phase := .subscribing topics }) ∨
        ((s.connected = true → s.wasDisconnected = false) ∧
          s' = { s with phase := .waiting })) := by
  rw [step] at h
  split at h
  · rename_i hphase
    refine ⟨hphase, ?_⟩
    split at h
    · rename_i hboth
      rw [Bool.and_eq_true] at hboth
      exact Or.inl ⟨hboth.1, hboth.2, (Option.some.inj h).symm⟩
    · rename_i hnot
      refine Or.inr ⟨fun hconnected => ?_, (Option.some.inj h).symm⟩
      rw [hconnected, Bool.and_true] at hnot
      exact Bool.eq_false_iff.mpr hnot
  · cases h

theorem step_subscribe {succeeds : Bool} (h : step topics s (.subscribe succeeds) = some s') :
    ∃ topic rest, s.phase = .subscribing (topic :: rest) ∧
      ((succeeds = true ∧ s.connected = true ∧
          s' = { s with subscribed := topic :: s.subscribed, phase := .subscribing rest }) ∨
        (succeeds = false ∧ s' = { s with phase := .waiting })) := by
  rw [step] at h
  split at h
  · rename_i topic rest hphase
    refine ⟨topic, rest, hphase, ?_⟩
    cases succeeds with
    | true =>
        rw [if_pos rfl] at h
        split at h
        · rename_i hconnected
          exact Or.inl ⟨rfl, hconnected, (Option.some.inj h).symm⟩
        · cases h
    | false => exact Or.inr ⟨rfl, (Option.some.inj h).symm⟩
  · cases h

theorem step_passEnds (h : step topics s .passEnds = some s') :
    s.phase = .subscribing [] ∧ s' = { s with wasDisconnected := false, phase := .waiting } := by
  rw [step] at h
  split at h
  · rename_i hphase
    exact ⟨hphase, (Option.some.inj h).symm⟩
  · cases h

theorem step_consume {message : Option String} (h : step topics s (.consume message) = some s') :
    s.phase = .waiting ∧ ∃ phase, (phase = .callback ∨ phase = .closing) ∧
      s' = { s with phase := phase } := by
  rw [step] at h
  split at h
  · rename_i hphase
    refine ⟨hphase, _, ?_, (Option.some.inj h).symm⟩
    split
    · exact Or.inl rfl
    · exact Or.inr rfl
  · cases h

theorem step_callbackReturns (h : step topics s .callbackReturns = some s') :
    s.phase = .callback ∧ s' = { s with phase := .closing } := by
  rw [step] at h
  split at h
  · rename_i hphase
    exact ⟨hphase, (Option.some.inj h).symm⟩
  · cases h

theorem step_closingCheck (h : step topics s .closingCheck = some s') :
    s.phase = .closing ∧
      s' = { s with wasDisconnected := s.wasDisconnected || !s.connected, phase := .opening } := by
  rw [step] at h
  split at h
  · rename_i hphase
    exact ⟨hphase, (Option.some.inj h).symm⟩
  · cases h

end Ticketing.Mqtt
