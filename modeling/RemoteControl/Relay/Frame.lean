import RemoteControl.Relay.Loops

/-!
What each task of the relay leaves alone.
-/

namespace RemoteControl.Relay.Frame

open RemoteControl.Foundations.ByteStrings
open RemoteControl.Foundations.Fifo
open RemoteControl.Wire.Protocol
open RemoteControl.Wire.Tunnel
open RemoteControl.Server.PhoneSessions
open RemoteControl.Relay.Loops

/-! ### Updates of the state -/

section Updates

variable (s : RelayState) (i : Nat) (c : String) (h : HostLoop) (l : ClientLoop)
  (p : RelayClient)

@[simp] theorem setHost_host : (s.setHost i h).host = Function.update s.host i h := rfl
@[simp] theorem setHost_client : (s.setHost i h).client = s.client := rfl
@[simp] theorem setHost_pc : (s.setHost i h).pc = s.pc := rfl
@[simp] theorem setHost_online : (s.setHost i h).online = s.online := rfl
@[simp] theorem setHost_started : (s.setHost i h).started = s.started := rfl
@[simp] theorem setHost_nextInstance : (s.setHost i h).nextInstance = s.nextInstance := rfl

@[simp] theorem setClient_host : (s.setClient c l).host = s.host := rfl
@[simp] theorem setClient_client :
    (s.setClient c l).client = Function.update s.client c l := rfl
@[simp] theorem setClient_pc : (s.setClient c l).pc = s.pc := rfl
@[simp] theorem setClient_online : (s.setClient c l).online = s.online := rfl
@[simp] theorem setClient_started : (s.setClient c l).started = s.started := rfl
@[simp] theorem setClient_nextInstance :
    (s.setClient c l).nextInstance = s.nextInstance := rfl

@[simp] theorem setPc_host : (s.setPc i p).host = s.host := rfl
@[simp] theorem setPc_client : (s.setPc i p).client = s.client := rfl
@[simp] theorem setPc_pc : (s.setPc i p).pc = Function.update s.pc i p := rfl
@[simp] theorem setPc_online : (s.setPc i p).online = s.online := rfl
@[simp] theorem setPc_started : (s.setPc i p).started = s.started := rfl
@[simp] theorem setPc_nextInstance : (s.setPc i p).nextInstance = s.nextInstance := rfl

end Updates

/-! ### The PC and the writer tasks -/

theorem pcAct_eq {i : Nat} {a : PcAction} {s t : RelayState} (h : pcAct i a s = some t) :
    ∃ p, (s.pc i).act a = some p ∧ t = s.setPc i p := by
  rw [pcAct] at h
  split at h
  · contradiction
  · obtain ⟨p, hact, rfl⟩ := Option.map_eq_some_iff.mp h
    exact ⟨p, hact, rfl⟩

theorem phoneAct_eq {c : String} {a : PhoneAction} {s t : RelayState}
    (h : phoneAct c a s = some t) :
    ∃ hasSender l, (s.client c).writerAct hasSender a = some l ∧ t = s.setClient c l := by
  obtain ⟨l, hact, rfl⟩ := Option.map_eq_some_iff.mp h
  exact ⟨_, l, hact, rfl⟩

/-- A phone's writer takes from the queues and leaves the rest of the loop alone. -/
structure WriterFrame (l l' : ClientLoop) : Prop where
  hostId : l'.hostId = l.hostId
  host : l'.host = l.host
  phase : l'.phase = l.phase
  fromPhone : l'.fromPhone = l.fromPhone
  fast : l'.fast.sent = l.fast.sent
  bulk : l'.bulk.sent = l.bulk.sent

theorem writerAct_frame {l l' : ClientLoop} {hasSender : Bool} {a : PhoneAction}
    (h : l.writerAct hasSender a = some l') : WriterFrame l l' := by
  unfold ClientLoop.writerAct at h
  split at h
  · split at h
    · cases h
      exact ⟨rfl, rfl, rfl, rfl, rfl, rfl⟩
    · split at h <;> cases h <;> exact ⟨rfl, rfl, rfl, rfl, rfl, rfl⟩
  · split at h
    · rename_i hpop
      cases h
      exact ⟨rfl, rfl, rfl, rfl, Queue.pop?_sent hpop, rfl⟩
    · split at h <;> cases h <;> exact ⟨rfl, rfl, rfl, rfl, rfl, rfl⟩
  · split at h
    · rename_i hpop
      cases h
      exact ⟨rfl, rfl, rfl, rfl, rfl, Queue.pop?_sent hpop⟩
    · split at h <;> cases h <;> exact ⟨rfl, rfl, rfl, rfl, rfl, rfl⟩
  all_goals first
    | contradiction
    | (cases h; exact ⟨rfl, rfl, rfl, rfl, rfl, rfl⟩)

theorem hostWriterAct_frame {i : Nat} {a : WriterAction} {s t : RelayState}
    (h : hostWriterAct i a s = some t) :
    ∃ toHost writer up,
      t = (s.setPc i { s.pc i with up }).setHost i { s.host i with toHost, writer } ∧
        toHost.sent = (s.host i).toHost.sent ∧ up.taken = (s.pc i).up.taken ∧
          (s.host i).writer ≠ .unspawned := by
  have hkeep : s.setPc i { s.pc i with up := (s.pc i).up } = s := by
    simp [RelayState.setPc]
  dsimp only [hostWriterAct] at h
  split at h
  · rename_i hwriter
    split at h
    · rename_i frame toHost hpop
      cases h
      exact ⟨toHost, _, (s.pc i).up, by rw [hkeep], Queue.pop?_sent hpop, rfl, by simp [hwriter]⟩
    · split at h
      · contradiction
      · cases h
        exact ⟨(s.host i).toHost, _, (s.pc i).up, by rw [hkeep], rfl, rfl, by simp [hwriter]⟩
  · rename_i hwriter
    cases h
    exact ⟨_, _, _, rfl, rfl, rfl, by simp [hwriter]⟩
  · rename_i hwriter
    cases h
    exact ⟨_, _, _, rfl, rfl, by split <;> rfl, by simp [hwriter]⟩
  · rename_i hwriter
    cases h
    exact ⟨_, _, _, rfl, rfl, rfl, by simp [hwriter]⟩
  · contradiction

/-! ### What a step of a `host_loop` requires and leaves -/

/-- The step, with the displaced loop changed before the loop itself. -/
inductive HostSteps (i : Nat) (s : RelayState) : HostAction → RelayState → Prop
  | displaces {old : Nat} {u : RelayState} : (s.host i).phase = .starting →
      s.online (s.host i).hostId = some old →
      u = RelayState.setHost
        { s with online := Function.update s.online (s.host i).hostId (some i) } old
        { s.host old with displaced := true } →
      HostSteps i s .swapIn (u.setHost i { u.host i with phase := .displacing old })
  | claims : (s.host i).phase = .starting → s.online (s.host i).hostId = none →
      HostSteps i s .swapIn
        (RelayState.setHost
          { s with online := Function.update s.online (s.host i).hostId (some i) } i
          { s.host i with phase := .reading, writer := .receiving })
  | notifyOld {old : Nat} {u : RelayState} : (s.host i).phase = .displacing old →
      u = s.setHost old { s.host old with cancel := true } →
      HostSteps i s .notifyOld (u.setHost i { u.host i with phase := .clearing old })
  | clearOld {old : Nat} {u : RelayState} : (s.host i).phase = .clearing old →
      u = s.setHost old { s.host old with clients := ∅, cleared := true } →
      HostSteps i s .clearOld (u.setHost i { u.host i with phase := .releasing old })
  | dropOld {old : Nat} : (s.host i).phase = .releasing old →
      HostSteps i s .dropOld
        (s.setHost i { s.host i with phase := .reading, writer := .receiving })
  | cancelled : (s.host i).phase = .reading → (s.host i).cancel = true →
      HostSteps i s .cancelled
        (s.setHost i { s.host i with phase := .leaving, cancel := false })
  | routes {bytes payload : Bytes} {down : Queue Message} {c : String} {text : Bool} :
      (s.host i).phase = .reading → (s.pc i).down.pop? = some (.binary bytes, down) →
      decode bytes = some (.data c text payload) →
      HostSteps i s .read
        (routeData i c
          { bytes := payload
            text
            index := (payloadsFor c (tunnelFrames (s.pc i).down.taken)).length }
          (s.setPc i { s.pc i with down }))
  | skips {m : Message} {down : Queue Message} : (s.host i).phase = .reading →
      (s.pc i).down.pop? = some (m, down) → (∀ c, payloadsFor c (tunnelFrames [m]) = []) →
      HostSteps i s .read (s.setPc i { s.pc i with down })
  | closes {down : Queue Message} : (s.host i).phase = .reading →
      (s.pc i).down.pop? = some (.close, down) →
      HostSteps i s .read
        ((s.setPc i { s.pc i with down }).setHost i { s.host i with phase := .leaving })
  | streamEnds : (s.host i).phase = .reading →
      HostSteps i s .streamEnds (s.setHost i { s.host i with phase := .leaving })
  | pushes {c : String} {out : PhoneOut} : (s.host i).phase = .routing c out →
      (s.client c).writer ≠ .finished → (s.client c).bulk.waiting.length < perClientBulkCap →
      HostSteps i s .push
        ((s.setHost i { s.host i with phase := .reading }).setClient c
          { s.client c with bulk := (s.client c).bulk.push out })
  | pushFails {c : String} {out : PhoneOut} : (s.host i).phase = .routing c out →
      (s.client c).writer = .finished →
      HostSteps i s .push (s.setHost i { s.host i with phase := .reading })
  | deregisters : (s.host i).phase = .leaving → s.online (s.host i).hostId = some i →
      HostSteps i s .deregister
        (RelayState.setHost
          { s with online := Function.update s.online (s.host i).hostId none } i
          { s.host i with phase := .deregistered })
  | displaced : (s.host i).phase = .leaving → s.online (s.host i).hostId ≠ some i →
      HostSteps i s .deregister (s.setHost i { s.host i with phase := .deregistered })
  | dropToHost : (s.host i).phase = .deregistered →
      HostSteps i s .dropToHost (s.setHost i { s.host i with phase := .awaiting })
  | writerEnded : (s.host i).phase = .awaiting → (s.host i).writer = .finished →
      HostSteps i s .writerEnded (s.setHost i { s.host i with phase := .draining })
  | clear : (s.host i).phase = .draining →
      HostSteps i s .clear
        (s.setHost i { s.host i with phase := .finished, clients := ∅, cleared := true })

theorem payloadsFor_of_no_data {m : Message}
    (h : ∀ bytes c text payload, m = .binary bytes → decode bytes ≠ some (.data c text payload))
    (c : String) : payloadsFor c (tunnelFrames [m]) = [] := by
  cases m with
  | binary bytes =>
      rcases hframe : decode bytes with _ | ⟨c' | c' | ⟨c', text, payload⟩⟩
      · simp [tunnelFrames, payloadsFor, hframe]
      · simp [tunnelFrames, payloadsFor, hframe]
      · simp [tunnelFrames, payloadsFor, hframe]
      · exact absurd hframe (h bytes c' text payload rfl)
  | _ => rfl

theorem steps_of_hostAct {i : Nat} {a : HostAction} {s t : RelayState}
    (h : hostAct i a s = some t) : HostSteps i s a t := by
  cases a <;> dsimp only [hostAct] at h
  case swapIn =>
      split at h
      · rename_i hphase
        split at h
        · rename_i old honline
          cases h
          exact .displaces hphase honline rfl
        · rename_i honline
          cases h
          exact .claims hphase honline
      · contradiction
  case notifyOld =>
      split at h
      · rename_i old hphase
        cases h
        exact .notifyOld hphase rfl
      · contradiction
  case clearOld =>
      split at h
      · rename_i old hphase
        cases h
        exact .clearOld hphase rfl
      · contradiction
  case dropOld =>
      split at h
      · rename_i hphase
        cases h
        exact .dropOld hphase
      · contradiction
  case cancelled =>
      split at h
      · rename_i hphase
        cases h
        exact .cancelled hphase.1 hphase.2
      · contradiction
  case read =>
      split at h
      · rename_i hphase
        split at h
        · contradiction
        · rename_i m down hpop
          split at h
          · split at h
            · rename_i hdecode
              cases h
              exact .routes hphase hpop hdecode
            · rename_i hdecode
              cases h
              refine .skips hphase hpop (payloadsFor_of_no_data ?_)
              rintro bytes c text payload ⟨⟩
              exact hdecode c text payload
          · cases h
            exact .closes hphase hpop
          · rename_i hbinary _
            cases h
            refine .skips hphase hpop (payloadsFor_of_no_data ?_)
            rintro bytes c text payload rfl
            exact absurd rfl (hbinary bytes)
      · contradiction
  case streamEnds =>
      split at h
      · rename_i hphase
        cases h
        exact .streamEnds hphase
      · contradiction
  case push =>
      split at h
      · rename_i hphase
        split at h
        · rename_i hfinished
          cases h
          exact .pushFails hphase hfinished
        · rename_i hlive
          split at h
          · rename_i hroom
            cases h
            exact .pushes hphase hlive hroom
          · contradiction
      · contradiction
  case deregister =>
      split at h
      · rename_i hphase
        cases h
        split
        · rename_i honline
          exact .deregisters hphase honline
        · rename_i honline
          exact .displaced hphase honline
      · contradiction
  case dropToHost =>
      split at h
      · rename_i hphase
        cases h
        exact .dropToHost hphase
      · contradiction
  case writerEnded =>
      split at h
      · rename_i hphase
        cases h
        exact .writerEnded hphase.1 hphase.2
      · contradiction
  case clear =>
      split at h
      · rename_i hphase
        cases h
        exact .clear hphase
      · contradiction

/-! ### `host_loop` -/

/-- A `host_loop` does not send to any `to_host` queue; in a `client_loop` it only reaches the
fast and bulk queues, of a PC's WebSocket it only reads, and another `host_loop` stays where
it is. -/
structure HostFrame (i : Nat) (s t : RelayState) : Prop where
  started : t.started = s.started
  nextInstance : t.nextInstance = s.nextInstance
  toHost : ∀ j, (t.host j).toHost = (s.host j).toHost
  hostId : ∀ j, (t.host j).hostId = (s.host j).hostId
  otherHost : ∀ j ≠ i, (t.host j).phase = (s.host j).phase ∧ (t.host j).writer = (s.host j).writer
  client : ∀ c, ∃ fast bulk, t.client c = { s.client c with fast, bulk } ∧
    fast.taken = (s.client c).fast.taken ∧ bulk.taken = (s.client c).bulk.taken
  pc : ∀ j, ∃ down, t.pc j = { s.pc j with down } ∧ down.sent = (s.pc j).down.sent

namespace HostFrame

variable {i : Nat} {s t u : RelayState}

theorem refl (i : Nat) (s : RelayState) : HostFrame i s s :=
  ⟨rfl, rfl, fun _ => rfl, fun _ => rfl, fun _ _ => ⟨rfl, rfl⟩, fun _ => ⟨_, _, rfl, rfl, rfl⟩,
    fun _ => ⟨_, rfl, rfl⟩⟩

theorem trans (hst : HostFrame i s t) (htu : HostFrame i t u) : HostFrame i s u := by
  refine
    ⟨htu.started.trans hst.started, htu.nextInstance.trans hst.nextInstance,
      fun j => (htu.toHost j).trans (hst.toHost j), fun j => (htu.hostId j).trans (hst.hostId j),
      fun j hj => ⟨(htu.otherHost j hj).1.trans (hst.otherHost j hj).1,
        (htu.otherHost j hj).2.trans (hst.otherHost j hj).2⟩, fun c => ?_, fun j => ?_⟩
  · obtain ⟨fast, bulk, ht, hfast, hbulk⟩ := hst.client c
    obtain ⟨fast', bulk', hu, hfast', hbulk'⟩ := htu.client c
    refine ⟨fast', bulk', by rw [hu, ht], ?_, ?_⟩
    · rw [hfast', ht, hfast]
    · rw [hbulk', ht, hbulk]
  · obtain ⟨down, ht, hsent⟩ := hst.pc j
    obtain ⟨down', hu, hsent'⟩ := htu.pc j
    exact ⟨down', by rw [hu, ht], by rw [hsent', ht, hsent]⟩

theorem setHost {j : Nat} {h : HostLoop} (htoHost : h.toHost = (s.host j).toHost)
    (hhostId : h.hostId = (s.host j).hostId)
    (hother : j = i ∨ h.phase = (s.host j).phase ∧ h.writer = (s.host j).writer) :
    HostFrame i s (s.setHost j h) := by
  refine ⟨rfl, rfl, fun k => ?_, fun k => ?_, fun k hk => ?_, fun _ => ⟨_, _, rfl, rfl, rfl⟩,
    fun _ => ⟨_, rfl, rfl⟩⟩
  · rcases eq_or_ne k j with rfl | hne
    · simpa using htoHost
    · simp [hne]
  · rcases eq_or_ne k j with rfl | hne
    · simpa using hhostId
    · simp [hne]
  · rcases eq_or_ne k j with rfl | hne
    · simpa using hother.resolve_left hk
    · simp [hne]

theorem own {h : HostLoop} (htoHost : h.toHost = (s.host i).toHost)
    (hhostId : h.hostId = (s.host i).hostId) : HostFrame i s (s.setHost i h) :=
  setHost htoHost hhostId (.inl rfl)

theorem setClient {c : String} {fast bulk : Queue PhoneOut}
    (hfast : fast.taken = (s.client c).fast.taken)
    (hbulk : bulk.taken = (s.client c).bulk.taken) :
    HostFrame i s (s.setClient c { s.client c with fast, bulk }) := by
  refine ⟨rfl, rfl, fun _ => rfl, fun _ => rfl, fun _ _ => ⟨rfl, rfl⟩, fun c' => ?_,
    fun _ => ⟨_, rfl, rfl⟩⟩
  rcases eq_or_ne c' c with rfl | hne
  · exact ⟨fast, bulk, by simp, hfast, hbulk⟩
  · exact ⟨(s.client c').fast, (s.client c').bulk, by simp [hne], rfl, rfl⟩

theorem setPc {j : Nat} {down : Queue Message} (hdown : down.sent = (s.pc j).down.sent) :
    HostFrame i s (s.setPc j { s.pc j with down }) := by
  refine ⟨rfl, rfl, fun _ => rfl, fun _ => rfl, fun _ _ => ⟨rfl, rfl⟩,
    fun _ => ⟨_, _, rfl, rfl, rfl⟩, fun k => ?_⟩
  rcases eq_or_ne k j with rfl | hne
  · exact ⟨down, by simp, hdown⟩
  · exact ⟨(s.pc k).down, by simp [hne], rfl⟩

theorem online (online : String → Option Nat) : HostFrame i s { s with online } :=
  ⟨rfl, rfl, fun _ => rfl, fun _ => rfl, fun _ _ => ⟨rfl, rfl⟩, fun _ => ⟨_, _, rfl, rfl, rfl⟩,
    fun _ => ⟨_, rfl, rfl⟩⟩

end HostFrame

theorem routeData_frame (i : Nat) (c : String) (out : PhoneOut) (s : RelayState) :
    HostFrame i s (routeData i c out s) := by
  unfold routeData
  dsimp only
  split
  · split
    · exact .own rfl rfl
    · split
      · exact .setClient rfl rfl
      · exact .refl i s
  · exact .refl i s

theorem hostAct_frame {i : Nat} {a : HostAction} {s t : RelayState}
    (h : hostAct i a s = some t) : HostFrame i s t := by
  have hread {m : Message} {down : Queue Message} (hpop : (s.pc i).down.pop? = some (m, down)) :
      HostFrame i s (s.setPc i { s.pc i with down }) :=
    .setPc (Queue.pop?_sent hpop)
  cases steps_of_hostAct h with
  | displaces _ _ hu =>
      subst hu
      refine (HostFrame.online _).trans
        (.trans (.setHost ?_ ?_ (.inr ⟨?_, ?_⟩)) (.own ?_ ?_)) <;> rfl
  | notifyOld _ hu | clearOld _ hu =>
      subst hu
      refine .trans (.setHost ?_ ?_ (.inr ⟨?_, ?_⟩)) (.own ?_ ?_) <;> rfl
  | claims | deregisters => refine (HostFrame.online _).trans (.own ?_ ?_) <;> rfl
  | routes _ hpop => exact (hread hpop).trans (routeData_frame ..)
  | skips _ hpop => exact hread hpop
  | closes _ hpop => exact (hread hpop).trans (.own rfl rfl)
  | pushes => refine .trans (.own ?_ ?_) (.setClient ?_ ?_) <;> rfl
  | _ => exact .own rfl rfl

/-- The phases of a `host_loop` before it spawns its writer. -/
def isSwapIn : HostPhase → Bool
  | .idle | .starting | .displacing _ | .clearing _ | .releasing _ => true
  | _ => false

/-- Where a step of a `host_loop` leaves the loop itself: it has been allocated, does not
return to its swap-in, and spawns its writer only at the end of that. -/
structure HostProgress (h h' : HostLoop) : Prop where
  allocated : h.phase ≠ .idle
  swapIn : isSwapIn h'.phase = true → isSwapIn h.phase = true ∧ h'.writer = h.writer
  writer : h'.writer = h.writer ∨ isSwapIn h.phase = true ∧ h'.writer = .receiving
  phase : h'.phase ≠ .idle

theorem setHost_host_self (s : RelayState) (i : Nat) (h : HostLoop) :
    (s.setHost i h).host i = h := by
  simp

theorem routeData_progress {i : Nat} {c : String} {out : PhoneOut} {s : RelayState}
    (hphase : (s.host i).phase = .reading) :
    HostProgress (s.host i) ((routeData i c out s).host i) := by
  have hsame : HostProgress (s.host i) (s.host i) := by
    refine ⟨?_, ?_, .inl rfl, ?_⟩ <;> simp [hphase, isSwapIn]
  unfold routeData
  dsimp only
  split
  · split
    · rw [setHost_host_self]
      refine ⟨?_, ?_, .inl rfl, ?_⟩ <;> simp [hphase, isSwapIn]
    · split
      · exact hsame
      · exact hsame
  · exact hsame

theorem hostAct_progress {i : Nat} {a : HostAction} {s t : RelayState}
    (h : hostAct i a s = some t) : HostProgress (s.host i) (t.host i) := by
  have hwriter {j : Nat} {h' : HostLoop} (hw : h'.writer = (s.host j).writer) :
      ((s.setHost j h').host i).writer = (s.host i).writer := by
    rcases eq_or_ne i j with rfl | hne
    · simpa using hw
    · simp [hne]
  have hsame (hphase : (s.host i).phase = .reading) : HostProgress (s.host i) (s.host i) := by
    refine ⟨?_, ?_, .inl rfl, ?_⟩ <;> simp [hphase, isSwapIn]
  cases steps_of_hostAct h with
  | displaces hphase _ hu | notifyOld hphase hu | clearOld hphase hu =>
      subst hu
      rw [setHost_host_self]
      refine ⟨?_, fun _ => ⟨?_, hwriter rfl⟩, .inl (hwriter rfl), ?_⟩ <;>
        simp [hphase, isSwapIn]
  | claims hphase | dropOld hphase =>
      rw [setHost_host_self]
      refine ⟨?_, ?_, .inr ?_, ?_⟩ <;> simp [hphase, isSwapIn]
  | @routes _ _ down _ _ hphase =>
      exact routeData_progress (s := s.setPc i { s.pc i with down }) hphase
  | skips hphase => exact hsame hphase
  | pushes hphase =>
      rw [setClient_host, setHost_host_self]
      refine ⟨?_, ?_, .inl rfl, ?_⟩ <;> simp [hphase, isSwapIn]
  | cancelled hphase | closes hphase | streamEnds hphase | pushFails hphase
  | deregisters hphase | displaced hphase | dropToHost hphase | writerEnded hphase
  | clear hphase =>
      rw [setHost_host_self]
      refine ⟨?_, ?_, .inl rfl, ?_⟩ <;> simp [hphase, isSwapIn]

/-- Instances are allocated in order, and a loop in its swap-in has no writer yet. -/
structure Allocated (s : RelayState) : Prop where
  fresh : ∀ i, s.nextInstance ≤ i → (s.host i).phase = .idle
  unspawned : ∀ i, isSwapIn (s.host i).phase = true → (s.host i).writer = .unspawned

/-! ### `client_loop` -/

/-- The phases of a `client_loop` before it spawns its writer. -/
def beforeWriter : ClientPhase → Bool
  | .idle | .connecting | .snapped | .inserted => true
  | _ => false

/-- What a `client_loop` does not change of itself: its outbound queues, and its writer once
that is spawned. -/
structure LoopFrame (l l' : ClientLoop) : Prop where
  fast : l'.fast = l.fast
  bulk : l'.bulk = l.bulk
  toPhone : l'.toPhone = l.toPhone
  writer : l'.writer = l.writer ∨
    beforeWriter l.phase = true ∧ l'.writer = .polling .pong
  spawned : beforeWriter l'.phase = true →
    beforeWriter l.phase = true ∧ l'.writer = l.writer

/-- A `client_loop` changes itself, though not its outbound queues, and of the instance it is
attached to the `to_host` queue and its own entry in the map. -/
structure ClientFrame (c : String) (s t : RelayState) : Prop where
  online : t.online = s.online
  started : t.started = s.started
  nextInstance : t.nextInstance = s.nextInstance
  pc : t.pc = s.pc
  client : ∀ c' ≠ c, t.client c' = s.client c'
  loop : LoopFrame (s.client c) (t.client c)
  host : ∀ j, ∃ toHost clients, t.host j = { s.host j with toHost, clients }
  otherHost : ∀ j, (s.client c).host ≠ some j → t.host j = s.host j
  clients : ∀ j, ∀ c' ≠ c, c' ∈ (t.host j).clients ↔ c' ∈ (s.host j).clients
  toHost : ∀ j, ∃ frames, (t.host j).toHost.sent = (s.host j).toHost.sent ++ frames ∧
    ∀ frame ∈ frames, frame.clientId = c
  taken : ∀ j, (t.host j).toHost.taken = (s.host j).toHost.taken

namespace ClientFrame

variable {c : String} {s : RelayState} {l : ClientLoop}

theorem setClient (hl : LoopFrame (s.client c) l) : ClientFrame c s (s.setClient c l) where
  online := rfl
  started := rfl
  nextInstance := rfl
  pc := rfl
  client := fun c' hne => by simp [hne]
  loop := by simpa using hl
  host := fun j => ⟨_, _, rfl⟩
  otherHost := fun _ _ => rfl
  clients := fun _ _ _ => Iff.rfl
  toHost := fun _ => ⟨[], by simp, by simp⟩
  taken := fun _ => rfl

theorem setHost {i : Nat} {toHost : Queue TunnelFrame} {clients : Finset String}
    {frames : List TunnelFrame}
    (hattached : (s.client c).host = some i) (hl : LoopFrame (s.client c) l)
    (hclients : ∀ c' ≠ c, c' ∈ clients ↔ c' ∈ (s.host i).clients)
    (htoHost : toHost.sent = (s.host i).toHost.sent ++ frames)
    (hframes : ∀ frame ∈ frames, frame.clientId = c)
    (htaken : toHost.taken = (s.host i).toHost.taken) :
    ClientFrame c s
      ((s.setHost i { s.host i with toHost, clients }).setClient c l) where
  online := rfl
  started := rfl
  nextInstance := rfl
  pc := rfl
  client := fun c' hne => by simp [hne]
  loop := by simpa using hl
  host := by
    intro j
    rcases eq_or_ne j i with rfl | hne
    · exact ⟨toHost, clients, by simp⟩
    · exact ⟨(s.host j).toHost, (s.host j).clients, by simp [hne]⟩
  otherHost := by
    intro j hj
    have hne : j ≠ i := by
      rintro rfl
      exact hj hattached
    simp [hne]
  clients := by
    intro j c' hc'
    rcases eq_or_ne j i with rfl | hne
    · simpa using hclients c' hc'
    · simp [hne]
  toHost := by
    intro j
    rcases eq_or_ne j i with rfl | hne
    · exact ⟨frames, by simpa using htoHost, hframes⟩
    · exact ⟨[], by simp [hne], by simp⟩
  taken := by
    intro j
    rcases eq_or_ne j i with rfl | hne
    · simpa using htaken
    · simp [hne]

end ClientFrame

/-! ### What a step of a `client_loop` requires and leaves -/

/-- The step, with a send to the host split by its outcome. -/
inductive ClientSteps (c : String) (s : RelayState) : ClientAction → RelayState → Prop
  | phoneSends {m : Message} : (s.client c).phase ≠ .idle →
      ClientSteps c s (.phoneSends m)
        (s.setClient c { s.client c with fromPhone := (s.client c).fromPhone.push m })
  | snapshot {i : Nat} : (s.client c).phase = .connecting →
      s.online (s.client c).hostId = some i →
      ClientSteps c s .snapshot
        (s.setClient c { s.client c with phase := .snapped, host := some i })
  | offline : (s.client c).phase = .connecting → s.online (s.client c).hostId = none →
      ClientSteps c s .snapshot (s.setClient c { s.client c with phase := .returned })
  | insert {i : Nat} : (s.client c).phase = .snapped → (s.client c).host = some i →
      ClientSteps c s .insert
        ((s.setHost i { s.host i with clients := insert c (s.host i).clients }).setClient c
          { s.client c with phase := .inserted })
  | opens {i : Nat} : (s.client c).phase = .inserted → (s.client c).host = some i →
      (s.host i).writer ≠ .finished → (s.host i).toHost.waiting.length < toHostQueueCap →
      ClientSteps c s .sendOpen
        ((s.setHost i { s.host i with toHost := (s.host i).toHost.push (.clientOpen c) }).setClient
          c { s.client c with phase := .reading, writer := .polling .pong })
  | openFails {i : Nat} : (s.client c).phase = .inserted → (s.client c).host = some i →
      (s.host i).writer = .finished →
      ClientSteps c s .sendOpen (s.setClient c { s.client c with phase := .openFailed })
  | unregister {i : Nat} : (s.client c).phase = .openFailed → (s.client c).host = some i →
      ClientSteps c s .unregister
        ((s.setHost i { s.host i with clients := (s.host i).clients.erase c }).setClient c
          { s.client c with phase := .refused })
  | refuse : (s.client c).phase = .refused →
      ClientSteps c s .refuse (s.setClient c { s.client c with phase := .returned })
  | readText {text : String} {fromPhone : Queue Message} : (s.client c).phase = .reading →
      (s.client c).fromPhone.pop? = some (.text text, fromPhone) →
      ClientSteps c s .read
        (s.setClient c { s.client c with fromPhone, phase := .forwarding true (utf8 text) })
  | readBinary {bytes : Bytes} {fromPhone : Queue Message} : (s.client c).phase = .reading →
      (s.client c).fromPhone.pop? = some (.binary bytes, fromPhone) →
      ClientSteps c s .read
        (s.setClient c { s.client c with fromPhone, phase := .forwarding false bytes })
  | readPing {payload : Bytes} {fromPhone : Queue Message} : (s.client c).phase = .reading →
      (s.client c).fromPhone.pop? = some (.ping payload, fromPhone) →
      ClientSteps c s .read
        (s.setClient c
          { s.client c with fromPhone, pongs := (s.client c).pongs.push payload })
  | readPong {payload : Bytes} {fromPhone : Queue Message} : (s.client c).phase = .reading →
      (s.client c).fromPhone.pop? = some (.pong payload, fromPhone) →
      ClientSteps c s .read (s.setClient c { s.client c with fromPhone })
  | readClose {fromPhone : Queue Message} : (s.client c).phase = .reading →
      (s.client c).fromPhone.pop? = some (.close, fromPhone) →
      ClientSteps c s .read (s.setClient c { s.client c with fromPhone, phase := .leaving })
  | streamEnds : (s.client c).phase = .reading →
      ClientSteps c s .streamEnds (s.setClient c { s.client c with phase := .leaving })
  | forwards {i : Nat} {text : Bool} {payload : Bytes} :
      (s.client c).phase = .forwarding text payload → (s.client c).host = some i →
      (s.host i).writer ≠ .finished → (s.host i).toHost.waiting.length < toHostQueueCap →
      ClientSteps c s .forward
        ((s.setHost i
          { s.host i with toHost := (s.host i).toHost.push (.data c text payload) }).setClient c
            { s.client c with phase := .reading })
  | forwardFails {i : Nat} {text : Bool} {payload : Bytes} :
      (s.client c).phase = .forwarding text payload → (s.client c).host = some i →
      (s.host i).writer = .finished →
      ClientSteps c s .forward (s.setClient c { s.client c with phase := .leaving })
  | closes {i : Nat} : (s.client c).phase = .leaving → (s.client c).host = some i →
      (s.host i).writer ≠ .finished → (s.host i).toHost.waiting.length < toHostQueueCap →
      ClientSteps c s .sendClose
        ((s.setHost i { s.host i with toHost := (s.host i).toHost.push (.clientClose c) }).setClient
          c { s.client c with phase := .closed })
  | closeFails {i : Nat} : (s.client c).phase = .leaving → (s.client c).host = some i →
      (s.host i).writer = .finished →
      ClientSteps c s .sendClose (s.setClient c { s.client c with phase := .closed })
  | remove {i : Nat} : (s.client c).phase = .closed → (s.client c).host = some i →
      ClientSteps c s .remove
        ((s.setHost i { s.host i with clients := (s.host i).clients.erase c }).setClient c
          { s.client c with phase := .removed })
  | dropSenders : (s.client c).phase = .removed →
      ClientSteps c s .dropSenders (s.setClient c { s.client c with phase := .dropped })
  | writerEnded : (s.client c).phase = .dropped → (s.client c).writer = .finished →
      ClientSteps c s .writerEnded (s.setClient c { s.client c with phase := .returned })

theorem sendToHost_cases {i : Nat} {frame : TunnelFrame} {s t : RelayState} {ok : Bool}
    (h : sendToHost i frame s = some (ok, t)) :
    ok = false ∧ (s.host i).writer = .finished ∧ t = s ∨
      ok = true ∧ (s.host i).writer ≠ .finished ∧
        (s.host i).toHost.waiting.length < toHostQueueCap ∧
          t = s.setHost i { s.host i with toHost := (s.host i).toHost.push frame } := by
  dsimp only [sendToHost] at h
  split at h
  · rename_i hfinished
    cases h
    exact .inl ⟨rfl, hfinished, rfl⟩
  · rename_i hlive
    split at h
    · rename_i hroom
      cases h
      exact .inr ⟨rfl, hlive, hroom, rfl⟩
    · contradiction

theorem steps_of_clientAct {c : String} {a : ClientAction} {s t : RelayState}
    (h : clientAct c a s = some t) : ClientSteps c s a t := by
  cases a <;> dsimp only [clientAct] at h
  case phoneSends =>
      split at h
      · contradiction
      · rename_i hstarted
        cases h
        exact .phoneSends hstarted
  case snapshot =>
      split at h
      · rename_i hphase
        split at h
        · rename_i honline
          cases h
          exact .snapshot hphase honline
        · rename_i honline
          cases h
          exact .offline hphase honline
      · contradiction
  case insert =>
      split at h
      · rename_i hphase hhost
        cases h
        exact .insert hphase hhost
      · contradiction
  case sendOpen =>
      split at h
      · rename_i hphase hhost
        split at h
        · rename_i hsend
          cases h
          obtain ⟨hfalse, -⟩ | ⟨-, hlive, hroom, rfl⟩ := sendToHost_cases hsend
          · contradiction
          · exact .opens hphase hhost hlive hroom
        · rename_i hsend
          cases h
          obtain ⟨-, hfinished, rfl⟩ | ⟨htrue, -⟩ := sendToHost_cases hsend
          · exact .openFails hphase hhost hfinished
          · contradiction
        · contradiction
      · contradiction
  case unregister =>
      split at h
      · rename_i hphase hhost
        cases h
        exact .unregister hphase hhost
      · contradiction
  case refuse =>
      split at h
      · rename_i hphase
        cases h
        exact .refuse hphase
      · contradiction
  case read =>
      split at h
      · rename_i hphase
        split at h
        · contradiction
        · rename_i m fromPhone hpop
          split at h <;> cases h
          · exact .readText hphase hpop
          · exact .readBinary hphase hpop
          · exact .readPing hphase hpop
          · exact .readPong hphase hpop
          · exact .readClose hphase hpop
      · contradiction
  case streamEnds =>
      split at h
      · rename_i hphase
        cases h
        exact .streamEnds hphase
      · contradiction
  case forward =>
      split at h
      · rename_i hphase hhost
        split at h
        · rename_i hsend
          cases h
          obtain ⟨hfalse, -⟩ | ⟨-, hlive, hroom, rfl⟩ := sendToHost_cases hsend
          · contradiction
          · exact .forwards hphase hhost hlive hroom
        · rename_i hsend
          cases h
          obtain ⟨-, hfinished, rfl⟩ | ⟨htrue, -⟩ := sendToHost_cases hsend
          · exact .forwardFails hphase hhost hfinished
          · contradiction
        · contradiction
      · contradiction
  case sendClose =>
      split at h
      · rename_i hphase hhost
        split at h
        · rename_i hsend
          cases h
          obtain ⟨-, hfinished, rfl⟩ | ⟨-, hlive, hroom, rfl⟩ := sendToHost_cases hsend
          · exact .closeFails hphase hhost hfinished
          · exact .closes hphase hhost hlive hroom
        · contradiction
      · contradiction
  case remove =>
      split at h
      · rename_i hphase hhost
        cases h
        exact .remove hphase hhost
      · contradiction
  case dropSenders =>
      split at h
      · rename_i hphase
        cases h
        exact .dropSenders hphase
      · contradiction
  case writerEnded =>
      split at h
      · rename_i hphase
        cases h
        exact .writerEnded hphase.1 hphase.2
      · contradiction

theorem clientAct_frame {c : String} {a : ClientAction} {s t : RelayState}
    (h : clientAct c a s = some t) : ClientFrame c s t := by
  cases steps_of_clientAct h with
  | phoneSends =>
      exact .setClient ⟨rfl, rfl, rfl, .inl rfl, fun hbefore => ⟨hbefore, rfl⟩⟩
  | insert hphase hhost | unregister hphase hhost | remove hphase hhost =>
      refine .setHost hhost ⟨rfl, rfl, rfl, .inl rfl, ?_⟩ (fun c' hne => by simp [hne])
        (List.append_nil _).symm (by simp) rfl
      simp [beforeWriter, hphase]
  | opens hphase hhost | forwards hphase hhost | closes hphase hhost =>
      refine .setHost hhost ⟨rfl, rfl, rfl, ?_, ?_⟩ (fun _ _ => Iff.rfl) (Queue.push_sent ..)
        (by simp [TunnelFrame.clientId]) rfl <;> simp [beforeWriter, hphase]
  | snapshot hphase | offline hphase | openFails hphase | refuse hphase | readText hphase
  | readBinary hphase | readPing hphase | readPong hphase | readClose hphase | streamEnds hphase
  | forwardFails hphase | closeFails hphase | dropSenders hphase | writerEnded hphase =>
      refine .setClient ⟨rfl, rfl, rfl, .inl rfl, ?_⟩
      simp [beforeWriter, hphase]

theorem clientAct_own {c : String} {a : ClientAction} {s t : RelayState}
    (h : clientAct c a s = some t) :
    (a ≠ .insert → ∀ j, c ∈ (t.host j).clients → c ∈ (s.host j).clients) ∧
      (a ≠ .snapshot → (t.client c).host = (s.client c).host) := by
  have hclients {i : Nat} {host : HostLoop} {l : ClientLoop}
      (hsub : c ∈ host.clients → c ∈ (s.host i).clients) (j : Nat) :
      c ∈ (((s.setHost i host).setClient c l).host j).clients → c ∈ (s.host j).clients := by
    rcases eq_or_ne j i with rfl | hne
    · simpa using hsub
    · simp [hne]
  cases steps_of_clientAct h with
  | insert => exact ⟨fun hne => absurd rfl hne, fun _ => by simp⟩
  | snapshot | offline => exact ⟨fun _ _ => id, fun hne => absurd rfl hne⟩
  | unregister | remove => exact ⟨fun _ => hclients (by simp), fun _ => by simp⟩
  | opens | forwards | closes => exact ⟨fun _ => hclients id, fun _ => by simp⟩
  | _ => exact ⟨fun _ _ => id, fun _ => by simp⟩

/-! ### Instances -/

theorem allocated_step {a : Action} {s t : RelayState} (hs : Allocated s)
    (h : act a s = some t) : Allocated t := by
  have hkeep (hnext : t.nextInstance = s.nextInstance)
      (hhost : ∀ j, (t.host j).phase = (s.host j).phase ∧ (t.host j).writer = (s.host j).writer) :
      Allocated t := by
    refine ⟨fun j hj => ?_, fun j hj => ?_⟩
    · rw [(hhost j).1]
      exact hs.fresh j (hnext ▸ hj)
    · rw [(hhost j).1] at hj
      rw [(hhost j).2]
      exact hs.unspawned j hj
  rcases a with hostId | ⟨c, hostId⟩ | ⟨i, a⟩ | ⟨i, a⟩ | ⟨c, a⟩ | ⟨c, a⟩ | ⟨i, a⟩
  case hostConnects =>
      cases h
      have hidle := hs.fresh s.nextInstance le_rfl
      refine ⟨fun j hj => ?_, fun j hj => ?_⟩
      · have hne : j ≠ s.nextInstance := by
          rintro rfl
          exact absurd hj (by simp)
        simp only [setHost_host, Function.update_of_ne hne]
        exact hs.fresh j (Nat.le_of_succ_le hj)
      · rcases eq_or_ne j s.nextInstance with rfl | hne
        · simpa using hs.unspawned _ (by simp [hidle, isSwapIn])
        · simp only [setHost_host, Function.update_of_ne hne] at hj ⊢
          exact hs.unspawned j hj
  case clientConnects =>
      dsimp only [act] at h
      split at h
      · cases h
        exact hkeep rfl fun _ => ⟨rfl, rfl⟩
      · contradiction
  case host =>
      have hframe := hostAct_frame h
      have hprogress := hostAct_progress h
      refine ⟨fun j hj => ?_, fun j hj => ?_⟩
      · rw [hframe.nextInstance] at hj
        rcases eq_or_ne j i with rfl | hne
        · exact absurd (hs.fresh j hj) hprogress.allocated
        · rw [(hframe.otherHost j hne).1]
          exact hs.fresh j hj
      · rcases eq_or_ne j i with rfl | hne
        · obtain ⟨hswap, hwriter⟩ := hprogress.swapIn hj
          rw [hwriter]
          exact hs.unspawned j hswap
        · rw [(hframe.otherHost j hne).1] at hj
          rw [(hframe.otherHost j hne).2]
          exact hs.unspawned j hj
  case hostWriter =>
      obtain ⟨toHost, writer, up, rfl, -, -, hspawned⟩ := hostWriterAct_frame h
      refine ⟨fun j hj => ?_, fun j hj => ?_⟩
      · rcases eq_or_ne j i with rfl | hne
        · simpa using hs.fresh j hj
        · simpa [hne] using hs.fresh j hj
      · rcases eq_or_ne j i with rfl | hne
        · exact absurd (hs.unspawned j (by simpa using hj)) hspawned
        · simpa [hne] using hs.unspawned j (by simpa [hne] using hj)
  case client =>
      have hframe := clientAct_frame h
      refine hkeep hframe.nextInstance fun j => ?_
      obtain ⟨toHost, clients, hhost⟩ := hframe.host j
      rw [hhost]
      exact ⟨rfl, rfl⟩
  case phone =>
      obtain ⟨hasSender, l, -, rfl⟩ := phoneAct_eq h
      exact hkeep rfl fun _ => ⟨rfl, rfl⟩
  case pc =>
      obtain ⟨p, -, rfl⟩ := pcAct_eq h
      exact hkeep rfl fun _ => ⟨rfl, rfl⟩

theorem reachable_allocated {s : RelayState} (hs : relay.Reachable s) : Allocated s := by
  induction hs with
  | init hinit =>
      cases hinit
      exact ⟨fun _ _ => rfl, fun _ _ => rfl⟩
  | step _ hstep ih => exact allocated_step ih hstep

/-! ### A PC from step to step -/

/-- What happens to a PC in one step of the system: its own tasks act, or the relay puts
frames on its WebSocket or reads from it. -/
inductive PcChange (p : RelayClient) : RelayClient → Prop
  | same : PcChange p p
  | filled (up : Queue Message) : up.taken = p.up.taken → PcChange p { p with up }
  | drained (down : Queue Message) : down.sent = p.down.sent → PcChange p { p with down }
  | acted (a : PcAction) (p' : RelayClient) : p.act a = some p' → PcChange p p'

theorem pcChange_of_act {a : Action} {s t : RelayState} (h : act a s = some t) (i : Nat) :
    PcChange (s.pc i) (t.pc i) := by
  rcases a with hostId | ⟨c, hostId⟩ | ⟨j, a⟩ | ⟨j, a⟩ | ⟨c, a⟩ | ⟨c, a⟩ | ⟨j, a⟩
  case hostConnects =>
      cases h
      exact .same
  case clientConnects =>
      dsimp only [act] at h
      split at h
      · cases h
        exact .same
      · contradiction
  case host =>
      obtain ⟨down, hpc, hdown⟩ := (hostAct_frame h).pc i
      rw [hpc]
      exact .drained down hdown
  case hostWriter =>
      obtain ⟨toHost, writer, up, rfl, -, hup, -⟩ := hostWriterAct_frame h
      rcases eq_or_ne i j with rfl | hne
      · simpa using PcChange.filled up hup
      · simpa [hne] using PcChange.same
  case client =>
      rw [(clientAct_frame h).pc]
      exact .same
  case phone =>
      obtain ⟨hasSender, l, -, rfl⟩ := phoneAct_eq h
      exact .same
  case pc =>
      obtain ⟨p, hact, rfl⟩ := pcAct_eq h
      rcases eq_or_ne i j with rfl | hne
      · simpa using PcChange.acted a p hact
      · simpa [hne] using PcChange.same

/-! ### A `client_loop` from step to step -/

/-- What happens to a `client_loop` in one step of the system: a `host_loop` fills its queues,
its reader moves on, or its writer acts. -/
inductive ClientChange (l : ClientLoop) : ClientLoop → Prop
  | same : ClientChange l l
  | filled (fast bulk : Queue PhoneOut) : fast.taken = l.fast.taken →
      bulk.taken = l.bulk.taken → ClientChange l { l with fast, bulk }
  | looped (l' : ClientLoop) : LoopFrame l l' → ClientChange l l'
  | wrote (hasSender : Bool) (a : PhoneAction) (l' : ClientLoop) :
      l.writerAct hasSender a = some l' → ClientChange l l'

theorem clientChange_of_act {a : Action} {s t : RelayState} (h : act a s = some t) {c : String}
    (hidle : c ∉ s.started → (s.client c).phase = .idle) :
    ClientChange (s.client c) (t.client c) := by
  rcases a with hostId | ⟨c', hostId⟩ | ⟨j, a⟩ | ⟨j, a⟩ | ⟨c', a⟩ | ⟨c', a⟩ | ⟨j, a⟩
  case hostConnects =>
      cases h
      exact .same
  case clientConnects =>
      dsimp only [act] at h
      split at h
      · rename_i hfresh
        cases h
        rcases eq_or_ne c c' with rfl | hne
        · refine .looped _ ⟨?_, ?_, ?_, .inl ?_, ?_⟩ <;>
            simp [beforeWriter, hidle hfresh.1]
        · simpa [hne] using ClientChange.same
      · contradiction
  case host =>
      obtain ⟨fast, bulk, hclient, hfast, hbulk⟩ := (hostAct_frame h).client c
      rw [hclient]
      exact .filled fast bulk hfast hbulk
  case hostWriter =>
      obtain ⟨toHost, writer, up, rfl, -⟩ := hostWriterAct_frame h
      exact .same
  case client =>
      have hframe := clientAct_frame h
      rcases eq_or_ne c c' with rfl | hne
      · exact .looped _ hframe.loop
      · rw [hframe.client c hne]
        exact .same
  case phone =>
      obtain ⟨hasSender, l, hl, rfl⟩ := phoneAct_eq h
      rcases eq_or_ne c c' with rfl | hne
      · simpa using ClientChange.wrote hasSender a l hl
      · simpa [hne] using ClientChange.same
  case pc =>
      obtain ⟨p, -, rfl⟩ := pcAct_eq h
      exact .same

theorem writerAct_finished {l : ClientLoop} {hasSender : Bool} {a : PhoneAction}
    (h : l.writer = .finished) : l.writerAct hasSender a = none := by
  rcases a <;> simp [ClientLoop.writerAct, h]

theorem writerAct_unspawned {l : ClientLoop} {hasSender : Bool} {a : PhoneAction}
    (h : l.writer = .unspawned) : l.writerAct hasSender a = none := by
  rcases a <;> simp [ClientLoop.writerAct, h]

end RemoteControl.Relay.Frame
