import RemoteControl.Server.Frame

/-!
The idle sleep of the select loop against the silence of the peer.
-/

namespace RemoteControl.Server.Watchdog

open RemoteControl.Foundations.Interference
open RemoteControl.Foundations.Interference.Task
open RemoteControl.Foundations.Transition
open RemoteControl.Wire.Protocol
open RemoteControl.Server.Stores
open RemoteControl.Server.Connection
open RemoteControl.Server.Loop
open RemoteControl.Server.Frame

/-- The pending sleep fires within the idle timeout of the last inbound message. -/
def Watched (s : Session) : Prop :=
  s.deadline ≤ s.lastInbound + idleTimeout

/-- The iteration re-enters the select at the clock reading of the last inbound message: it
handled that message, or nothing else later than it, and took no clock time. An iteration in
which the sleep fires does not re-enter the select. -/
def Punctual (s : Session) : Label → Session → Prop
  | .others, _ => True
  | .taken .idle _ _, _ => True
  | .taken event _ _, s' =>
      s.arrival event = s.st.world.now ∧ s'.st.world.now = s.st.world.now

theorem arrival_le_now {s : Session} (h : s.lastInbound ≤ s.st.world.now) (event : Event) :
    s.arrival event ≤ s.st.world.now := by
  unfold Session.arrival
  split
  · exact le_refl _
  · exact h

theorem lastInbound_le_arrival {s : Session} (h : s.lastInbound ≤ s.st.world.now)
    (event : Event) : s.lastInbound ≤ s.arrival event := by
  unfold Session.arrival
  split
  · exact h
  · exact le_refl _

theorem step_lastInbound_le_now {crates : Crates} {cfg : Config} {s s' : Session}
    {label : Label} (hstep : Step crates cfg s label s')
    (h : s.lastInbound ≤ s.st.world.now) : s'.lastInbound ≤ s'.st.world.now := by
  have hnow := (step_extends hstep).now
  cases hstep with
  | others => exact h.trans hnow
  | again => exact (arrival_le_now h _).trans hnow
  | finish => exact (arrival_le_now h _).trans hnow

theorem lastInbound_le_now {crates : Crates} {cfg : Config} {s : Session}
    (hreach : (connection crates cfg).Reachable s) : s.lastInbound ≤ s.st.world.now := by
  refine hreach.invariant (I := fun s => s.lastInbound ≤ s.st.world.now) ?_ ?_
  · rintro s ⟨connId, peerLabel, world, rfl⟩
    exact le_refl _
  · intro s label t _ h hstep
    exact step_lastInbound_le_now hstep h

theorem iteration_idle {crates : Crates} {cfg : Config} {os : Answers} {s s' : St}
    {trace : List (St × St)} {cont : Bool}
    (h : Exec Others (iteration crates cfg os .idle) s trace cont s') : cont = false := by
  obtain ⟨_, flow, _, _, hidle, hafter, -⟩ := exec_bind_iff.mp h
  obtain ⟨-, rfl, -⟩ := exec_pure_iff.mp hidle
  exact (exec_pure_iff.mp hafter).2.1

theorem step_watched_iff {crates : Crates} {cfg : Config} {s s' : Session} {event : Event}
    {os : Answers} {trace : List (St × St)}
    (hstep : Step crates cfg s (.taken event os trace) s') (hrunning : s'.running = true)
    (hinbound : s.lastInbound ≤ s.st.world.now) :
    Watched s' ↔ Punctual s (.taken event os trace) s' := by
  have hnow := (step_extends hstep).now
  cases hstep with
  | finish => cases hrunning
  | @again _ _ _ st _ _ hiter =>
      have harrival := arrival_le_now hinbound event
      have hidle : event ≠ .idle := by
        rintro rfl
        have hcont := iteration_idle hiter
        contradiction
      have hpunctual : Punctual s (.taken event os trace)
            { st, running := true, deadline := st.world.now + idleTimeout
              lastInbound := s.arrival event } ↔
          s.arrival event = s.st.world.now ∧ st.world.now = s.st.world.now := by
        rcases event with _ | _ | _ | _
        · contradiction
        all_goals rfl
      rw [hpunctual]
      simp only [Watched] at hnow ⊢
      omega

theorem step_watched {crates : Crates} {cfg : Config} {s s' : Session} {label : Label}
    (hstep : Step crates cfg s label s') (hpunctual : Punctual s label s')
    (hinbound : s.lastInbound ≤ s.st.world.now) (hwatched : Watched s) : Watched s' := by
  cases hrunning : s'.running with
  | true =>
      rcases label with _ | ⟨event, os, trace⟩
      · cases hstep
        exact hwatched
      · exact (step_watched_iff hstep hrunning hinbound).mpr hpunctual
  | false =>
      cases hstep with
      | others => exact hwatched
      | again => cases hrunning
      | finish =>
          have hlater := lastInbound_le_arrival hinbound
          exact hwatched.trans (Nat.add_le_add_right (hlater _) _)

/-- The watchdog measures the silence of the peer as long as every iteration is punctual, and
an iteration that is not breaks it: the deadline is then later than 45 s after the last
inbound message. -/
theorem watched_iff_punctual (crates : Crates) (cfg : Config) :
    (∀ s, ((connection crates cfg).restrict Punctual).Reachable s → Watched s) ∧
      ∀ s event os trace s', (connection crates cfg).Reachable s →
        (connection crates cfg).step s (.taken event os trace) s' → s'.running = true →
        (Watched s' ↔ Punctual s (.taken event os trace) s') := by
  constructor
  · intro s hs
    refine hs.invariant ?_ fun s label t hreach hwatched hstep => ?_
    · rintro s ⟨connId, peerLabel, world, rfl⟩
      exact le_refl _
    · exact step_watched hstep.1 hstep.2 (lastInbound_le_now hreach.of_restrict) hwatched
  · intro s event os trace s' hreach hstep hrunning
    exact step_watched_iff hstep hrunning (lastInbound_le_now hreach)

/-! ### A dead phone with a running stream -/

def helloText : String :=
  "\x7b\"type\":\"hello\",\"v\":6,\"c\":\"123456\",\"nonce\":\"\"\x7d"

def streamRequestText : String :=
  "\x7b\"type\":\"stream_request\",\"codec\":\"h264\"\x7d"

/-- Crates that read the two texts of a phone that pairs and starts a stream. -/
def streamingCrates : Crates where
  parseClientMsg text :=
    if text = helloText then some (.hello 6 "123456" "" {})
    else if text = streamRequestText then some (.streamRequest "h264" none none none)
    else none
  base64UrlEncode _ := ""
  base64UrlDecode _ := some []
  hmacSha256 _ _ := []
  sha256 _ := []

/-- A stream runs, the phone is silent for 60 s, and two packets pass meanwhile. -/
def silentStream : Session :=
  let taken := fun event => undisturbed streamingCrates bareConfig event smoothAnswers
  let packet := taken (.packet (some []) .ok)
  let start : Session := .start 0 "10.0.0.2:5000" bareWorld
  start |> taken (.inbox (some (.text helloText)))
    |> taken (.inbox (some (.text streamRequestText)))
    |> waited (30 * nanosPerSec) |> packet |> waited (30 * nanosPerSec) |> packet

theorem silentStream_reachable :
    (connection streamingCrates bareConfig).Reachable silentStream := by
  have htaken {s : Session} (event : Event)
      (hs : (connection streamingCrates bareConfig).Reachable s) (hrunning : s.running = true)
      (hready : Ready s event)
      (hcont : ((iteration streamingCrates bareConfig smoothAnswers event).run s.st).1 = true) :
      (connection streamingCrates bareConfig).Reachable
        (undisturbed streamingCrates bareConfig event smoothAnswers s) := by
    obtain ⟨trace, hstep⟩ := exists_undisturbed hrunning hready hcont
    exact .step hs hstep
  have hwaited {s : Session} (elapsed : Nat)
      (hs : (connection streamingCrates bareConfig).Reachable s) :
      (connection streamingCrates bareConfig).Reachable (waited elapsed s) :=
    .step hs (waited_step _ _ elapsed s)
  refine htaken _ (hwaited _ (htaken _ (hwaited _ (htaken _ (htaken _ (.init ?_) ?_ ?_ ?_)
    ?_ ?_ ?_)) ?_ ?_ ?_)) ?_ ?_ ?_
  · exact ⟨_, _, _, rfl⟩
  all_goals first | rfl | trivial

/-- The pending sleep of that session is due 105 s after the last inbound message. -/
theorem silentStream_unwatched :
    ¬∀ (crates : Crates) (cfg : Config) (s : Session),
      (connection crates cfg).Reachable s → Watched s := by
  intro hclaim
  have hwatched := hclaim _ _ _ silentStream_reachable
  revert hwatched
  change ¬(60 * nanosPerSec + idleTimeout ≤ 0 + idleTimeout)
  decide

end RemoteControl.Server.Watchdog
