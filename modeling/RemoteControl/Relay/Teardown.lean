import RemoteControl.Relay.Downlink

/-!
Who holds a clone of a sender while an instance is torn down. Clearing a `clients` map takes
the map's clones away; the ones in the `client_loop`s that are attached stay.
-/

namespace RemoteControl.Relay.Teardown

open RemoteControl.Foundations.ByteStrings
open RemoteControl.Foundations.Fifo
open RemoteControl.Foundations.Transition
open RemoteControl.Foundations.Transition.System (follow)
open RemoteControl.Wire.Tunnel
open RemoteControl.Relay.Loops
open RemoteControl.Relay.Frame
open RemoteControl.Relay.Attachment
open RemoteControl.Relay.Uplink
open RemoteControl.Relay.Downlink

/-- The instance has been displaced or has finished, and its map has been cleared. -/
def TornDown (s : RelayState) (i : Nat) : Prop :=
  ((s.host i).displaced = true ∨ (s.host i).phase = .finished) ∧ (s.host i).cleared = true

instance (s : RelayState) (i : Nat) : Decidable (TornDown s i) :=
  inferInstanceAs (Decidable (_ ∧ _))

/-- No sender of the instance's queue is alive and none of the queues of its phones, and the
writers at the other ends come to the end of them. -/
structure Released (s : RelayState) (i : Nat) : Prop where
  toHost : ¬ ToHostHasSender s i
  phones : ∀ c, (s.client c).host = some i → ¬ PhoneQueuesHaveSender s c
  hostWriter_ends : (s.host i).writer = .receiving → (s.host i).toHost.waiting = [] →
    ∃ t, hostWriterAct i .recv s = some t ∧ (t.host i).writer = .closing
  fast_ends : ∀ c, (s.client c).host = some i → (s.client c).writer = .polling .fast →
    (s.client c).fast.waiting = [] → ∃ t, phoneAct c .poll s = some t ∧
      (t.client c).writer = .closing
  bulk_ends : ∀ c, (s.client c).host = some i → (s.client c).writer = .polling .bulk →
    (s.client c).bulk.waiting = [] → ∃ t, phoneAct c .poll s = some t ∧
      (t.client c).writer = .closing

/-- The loop is past `drop(to_host_tx)`, no successor holds its entry any more, and the
`client_loop`s that took their snapshot of the entry have returned. -/
structure LetGo (s : RelayState) (i : Nat) : Prop where
  loop : (s.host i).phase.holdsToHost = false
  successors : ∀ j, (s.host j).phase.old? ≠ some i
  phones : ∀ c, (s.client c).host = some i → (s.client c).phase = .returned

/-! ### Entries of the online table and of the maps -/

/-- The phases of a `host_loop` from its swap-in to the removal of its entry. -/
def isListed : HostPhase → Bool
  | .displacing _ | .clearing _ | .releasing _ | .reading | .routing .. | .leaving => true
  | _ => false

/-- The phases of a `client_loop` in which it may have an entry in a map. -/
def isRegistered : ClientPhase → Bool
  | .inserted | .openFailed | .reading | .forwarding .. | .leaving | .closed => true
  | _ => false

theorem holdsToHost_of_isListed {phase : HostPhase} (h : isListed phase = true) :
    phase.holdsToHost = true := by
  rcases phase <;> first | rfl | cases h

theorem isRegistered_of_holds {phase : ClientPhase} (h : isRegistered phase = true) :
    phase ≠ .returned := by
  rintro rfl
  cases h

/-- An entry of the online table is that of a listed instance of this host, and an entry of a
map is that of a registered `client_loop`. -/
structure Registered (s : RelayState) : Prop where
  online : ∀ hostId i, s.online hostId = some i →
    (s.host i).hostId = hostId ∧ isListed (s.host i).phase = true
  clients : ∀ i c, c ∈ (s.host i).clients → isRegistered (s.client c).phase = true

/-- What a step of a `host_loop` does to the entries: it may add its own to the table, removes
its own before it is no longer listed, and adds none to a map. -/
structure HostEntries (i : Nat) (s t : RelayState) : Prop where
  clients : ∀ j, (t.host j).clients ⊆ (s.host j).clients
  online : ∀ hostId j, t.online hostId = some j →
    s.online hostId = some j ∧ (j = i → hostId = (s.host i).hostId →
        isListed (s.host i).phase = true → isListed (t.host i).phase = true) ∨
      hostId = (s.host i).hostId ∧ j = i ∧ isListed (t.host i).phase = true

theorem setHost_clients {s : RelayState} {i : Nat} {h : HostLoop}
    (hsub : h.clients ⊆ (s.host i).clients) (j : Nat) :
    ((s.setHost i h).host j).clients ⊆ (s.host j).clients := by
  rcases eq_or_ne j i with rfl | hne
  · simpa using hsub
  · simp [hne]

namespace HostEntries

variable {i : Nat} {s t : RelayState}

theorem quiet (hclients : ∀ j, (t.host j).clients ⊆ (s.host j).clients)
    (honline : t.online = s.online)
    (hphase : isListed (s.host i).phase = true → isListed (t.host i).phase = true) :
    HostEntries i s t := by
  refine ⟨hclients, fun hostId j hj => .inl ⟨?_, fun _ _ => hphase⟩⟩
  rw [← honline]
  exact hj

theorem own {h : HostLoop} (hclients : h.clients ⊆ (s.host i).clients)
    (hphase : isListed (s.host i).phase = true → isListed h.phase = true) :
    HostEntries i s (s.setHost i h) := by
  refine .quiet (setHost_clients hclients) rfl ?_
  simpa using hphase

end HostEntries

theorem routeData_entries {i : Nat} {c : String} {out : PhoneOut} {s : RelayState} :
    HostEntries i s (routeData i c out s) := by
  have hsame : HostEntries i s s := .quiet (fun _ => subset_rfl) rfl id
  unfold routeData
  dsimp only
  split
  · split
    · exact .own subset_rfl fun _ => rfl
    · split
      · exact .quiet (fun _ => subset_rfl) rfl id
      · exact hsame
  · exact hsame

theorem hostAct_entries {i : Nat} {a : HostAction} {s t : RelayState}
    (h : hostAct i a s = some t) : HostEntries i s t := by
  have hentry {u : RelayState}
      (honline : u.online = Function.update s.online (s.host i).hostId (some i))
      (hclients : ∀ j, (u.host j).clients ⊆ (s.host j).clients)
      (hphase : isListed (u.host i).phase = true) : HostEntries i s u := by
    refine ⟨hclients, fun hostId j hj => ?_⟩
    rw [honline] at hj
    rcases eq_or_ne hostId (s.host i).hostId with rfl | hne
    · rw [Function.update_self, Option.some.injEq] at hj
      exact .inr ⟨rfl, hj.symm, hphase⟩
    · rw [Function.update_of_ne hne] at hj
      exact .inl ⟨hj, fun _ heq => absurd heq hne⟩
  cases steps_of_hostAct h with
  | displaces _ _ hu =>
      subst hu
      refine hentry rfl (fun j => ?_) (by simp [isListed])
      refine (setHost_clients ?_ j).trans (setHost_clients ?_ j)
      · exact subset_rfl
      · exact subset_rfl
  | claims => exact hentry rfl (setHost_clients subset_rfl) (by simp [isListed])
  | notifyOld _ hu | clearOld _ hu =>
      subst hu
      refine .quiet (fun j => ?_) rfl (by simp [isListed])
      refine (setHost_clients ?_ j).trans (setHost_clients ?_ j)
      · exact subset_rfl
      · simp
  | dropOld | cancelled | streamEnds | pushFails => exact .own subset_rfl fun _ => rfl
  | @routes _ _ down =>
      have hrouted (c : String) (out : PhoneOut) : HostEntries i (s.setPc i { s.pc i with down })
        (routeData i c out (s.setPc i { s.pc i with down })) := routeData_entries
      exact ⟨(hrouted _ _).clients, (hrouted _ _).online⟩
  | skips => exact .quiet (fun _ => subset_rfl) rfl id
  | closes =>
      refine .quiet (setHost_clients ?_) rfl (by simp [isListed])
      exact subset_rfl
  | pushes =>
      have hown : HostEntries i s (s.setHost i { s.host i with phase := .reading }) :=
        .own subset_rfl fun _ => rfl
      exact .quiet hown.clients rfl fun _ => by simp [isListed]
  | deregisters =>
      refine ⟨setHost_clients subset_rfl, fun hostId j hj => ?_⟩
      simp only [setHost_online] at hj
      rcases eq_or_ne hostId (s.host i).hostId with rfl | hne
      · simp at hj
      · rw [Function.update_of_ne hne] at hj
        exact .inl ⟨hj, fun _ heq => absurd heq hne⟩
  | displaced _ hother =>
      refine ⟨setHost_clients subset_rfl, fun hostId j hj => .inl ⟨hj, ?_⟩⟩
      rintro rfl rfl
      exact absurd hj hother
  | dropToHost hphase | writerEnded hphase | clear hphase =>
      refine .own ?_ ?_
      · simp
      · simp [hphase, isListed]

theorem clientAct_registered {c : String} {a : ClientAction} {s t : RelayState}
    (h : clientAct c a s = some t) (hunregister : a ≠ .unregister) (hremove : a ≠ .remove)
    (hs : isRegistered (s.client c).phase = true) : isRegistered (t.client c).phase = true := by
  cases steps_of_clientAct h with
  | unregister => contradiction
  | remove => contradiction
  | phoneSends => simpa using hs
  | readPing hphase | readPong hphase => simp [isRegistered, hphase]
  | snapshot hphase | offline hphase | refuse hphase | dropSenders hphase | writerEnded hphase =>
      simp [hphase, isRegistered] at hs
  | _ => simp [isRegistered]

theorem clientAct_removes {c : String} {a : ClientAction} {s t : RelayState}
    (hs : Routed c s) (h : clientAct c a s = some t) (ha : a = .unregister ∨ a = .remove)
    (j : Nat) : c ∉ (t.host j).clients := by
  intro hmem
  have hbefore : c ∈ (s.host j).clients := by
    refine (clientAct_own h).1 ?_ j hmem
    rcases ha with rfl | rfl <;> simp
  have hhost := hs.member j hbefore
  rcases ha with rfl | rfl <;> cases steps_of_clientAct h
  all_goals
    rename_i i _ hattached
    rw [hattached, Option.some.injEq] at hhost
    subst hhost
    simp at hmem

theorem registered_step {a : Action} {s t : RelayState} (hreach : relay.Reachable s)
    (hs : Registered s) (h : act a s = some t) : Registered t := by
  rcases a with hostId | ⟨c', hostId⟩ | ⟨i, a⟩ | ⟨i, a⟩ | ⟨c', a⟩ | ⟨c', a⟩ | ⟨i, a⟩
  case hostConnects =>
      cases h
      have hidle := (reachable_allocated hreach).fresh s.nextInstance le_rfl
      refine ⟨fun hostId' i hi => ?_, fun i c hmem => ?_⟩
      · have hlisted := hs.online hostId' i hi
        have hne : i ≠ s.nextInstance := by
          rintro rfl
          simp [hidle, isListed] at hlisted
        simpa [hne] using hlisted
      · refine hs.clients i c (setHost_clients ?_ i hmem)
        exact subset_rfl
  case clientConnects =>
      dsimp only [act] at h
      split at h
      · rename_i hfresh
        cases h
        refine ⟨hs.online, fun i c hmem => ?_⟩
        have hregistered := hs.clients i c hmem
        rcases eq_or_ne c c' with rfl | hne
        · simp [idle_of_not_started hreach hfresh.1, isRegistered] at hregistered
        · simpa [hne] using hregistered
      · contradiction
  case host =>
      have hframe := hostAct_frame h
      have hentries := hostAct_entries h
      refine ⟨fun hostId j hj => ?_, fun j c hmem => ?_⟩
      · rw [hframe.hostId]
        rcases hentries.online hostId j hj with ⟨hbefore, hkept⟩ | ⟨rfl, rfl, hlisted⟩
        · obtain ⟨hhostId, hlisted⟩ := hs.online hostId j hbefore
          refine ⟨hhostId, ?_⟩
          rcases eq_or_ne j i with rfl | hne
          · exact hkept rfl hhostId.symm hlisted
          · rw [(hframe.otherHost j hne).1]
            exact hlisted
        · exact ⟨rfl, hlisted⟩
      · obtain ⟨fast, bulk, hclient, -⟩ := hframe.client c
        rw [hclient]
        exact hs.clients j c (hentries.clients j hmem)
  case hostWriter =>
      obtain ⟨toHost, writer, up, rfl, -⟩ := hostWriterAct_frame h
      refine ⟨fun hostId j hj => ?_, fun j c hmem => ?_⟩
      · have hlisted := hs.online hostId j hj
        rcases eq_or_ne j i with rfl | hne
        · simpa using hlisted
        · simpa [hne] using hlisted
      · refine hs.clients j c (setHost_clients ?_ j hmem)
        exact subset_rfl
  case client =>
      have hact : clientAct c' a s = some t := h
      have hframe := clientAct_frame hact
      refine ⟨fun hostId j hj => ?_, fun j c hmem => ?_⟩
      · obtain ⟨toHost, clients, hhost⟩ := hframe.host j
        rw [hhost]
        exact hs.online hostId j (hframe.online ▸ hj)
      · rcases eq_or_ne c c' with rfl | hne
        · by_cases hinsert : a = .insert
          · subst hinsert
            dsimp only [clientAct] at hact
            split at hact
            · cases hact
              simp [isRegistered]
            · contradiction
          · have hbefore := hs.clients j c ((clientAct_own hact).1 hinsert j hmem)
            refine clientAct_registered hact ?_ ?_ hbefore
            · rintro rfl
              exact clientAct_removes (reachable_routed hreach c) hact (.inl rfl) j hmem
            · rintro rfl
              exact clientAct_removes (reachable_routed hreach c) hact (.inr rfl) j hmem
        · rw [hframe.client c hne]
          exact hs.clients j c ((hframe.clients j c hne).mp hmem)
  case phone =>
      obtain ⟨hasSender, l, hl, rfl⟩ := phoneAct_eq h
      refine ⟨hs.online, fun j c hmem => ?_⟩
      have hregistered := hs.clients j c hmem
      rcases eq_or_ne c c' with rfl | hne
      · simpa [(writerAct_frame hl).phase] using hregistered
      · simpa [hne] using hregistered
  case pc =>
      obtain ⟨p, -, rfl⟩ := pcAct_eq h
      exact ⟨hs.online, hs.clients⟩

theorem reachable_registered {s : RelayState} (hs : relay.Reachable s) : Registered s := by
  induction hs with
  | init hinit =>
      cases hinit
      exact ⟨by simp, by simp⟩
  | step hreach hstep ih => exact registered_step hreach ih hstep

/-! ### Releasing -/

theorem not_toHostHasSender {s : RelayState} (hs : relay.Reachable s) {i : Nat}
    (h : LetGo s i) : ¬ ToHostHasSender s i := by
  rintro (honline | hloop | ⟨j, -, hold⟩ | ⟨c, -, hhost, hattached⟩)
  · obtain ⟨-, hlisted⟩ := (reachable_registered hs).online _ i honline
    exact absurd h.loop (by simp [holdsToHost_of_isListed hlisted])
  · rw [h.loop] at hloop
    contradiction
  · exact h.successors j hold
  · rw [h.phones c hhost] at hattached
    contradiction

theorem not_phoneQueuesHaveSender {s : RelayState} (hs : relay.Reachable s) {i : Nat}
    (h : LetGo s i) {c : String} (hattached : (s.client c).host = some i) :
    ¬ PhoneQueuesHaveSender s c := by
  have hreturned := h.phones c hattached
  rintro (hholds | ⟨j, -, hhost, hmem | hroutes⟩)
  · rw [hreturned] at hholds
    contradiction
  · exact isRegistered_of_holds ((reachable_registered hs).clients j c hmem) hreturned
  · obtain rfl : i = j := Option.some.inj (hattached.symm.trans hhost)
    have hloop := h.loop
    rcases hphase : (s.host i).phase <;> rw [hphase] at hroutes hloop <;> contradiction

theorem phoneWriter_ends {s : RelayState} {c : String} (h : ¬ PhoneQueuesHaveSender s c)
    (hempty : (s.client c).writer = .polling .fast ∧ (s.client c).fast.waiting = [] ∨
      (s.client c).writer = .polling .bulk ∧ (s.client c).bulk.waiting = []) :
    ∃ t, phoneAct c .poll s = some t ∧ (t.client c).writer = .closing := by
  refine ⟨s.setClient c { s.client c with writer := .closing }, ?_, by simp⟩
  rcases hempty with ⟨hwriter, hwaiting⟩ | ⟨hwriter, hwaiting⟩
  all_goals simp [phoneAct, ClientLoop.writerAct, hwriter, Queue.pop?_eq_none_iff.mpr hwaiting, h]

theorem released_of_letGo {s : RelayState} (hs : relay.Reachable s) {i : Nat}
    (h : LetGo s i) : Released s i := by
  have hphone {c : String} (hhost : (s.client c).host = some i) : ¬ PhoneQueuesHaveSender s c :=
    not_phoneQueuesHaveSender hs h hhost
  refine ⟨not_toHostHasSender hs h, fun c => hphone, fun hwriter hempty => ?_,
    fun c hhost hwriter hempty => ?_, fun c hhost hwriter hempty => ?_⟩
  · refine ⟨s.setHost i { s.host i with writer := .closing }, ?_, by simp⟩
    simp [hostWriterAct, hwriter, Queue.pop?_eq_none_iff.mpr hempty, not_toHostHasSender hs h]
  · exact phoneWriter_ends (hphone hhost) (.inl ⟨hwriter, hempty⟩)
  · exact phoneWriter_ends (hphone hhost) (.inr ⟨hwriter, hempty⟩)

theorem letGo_of_released {s : RelayState} (hs : relay.Reachable s) {i : Nat}
    (h : Released s i) : LetGo s i := by
  have hsender := h.toHost
  rw [ToHostHasSender, not_or, not_or, not_or] at hsender
  obtain ⟨-, hloop, hold, hclient⟩ := hsender
  refine ⟨by simpa using hloop, fun j hj => ?_, fun c hhost => ?_⟩
  · refine hold ⟨j, ?_, hj⟩
    by_contra hfresh
    rw [(reachable_allocated hs).fresh j (Nat.le_of_not_lt hfresh)] at hj
    contradiction
  · have hattached := reachable_attached hs c
    have hactive : ¬ ((s.client c).phase = .idle ∨ (s.client c).phase = .connecting) := by
      intro hunattached
      rw [(hattached.unattached hunattached).1] at hhost
      contradiction
    have hdetached : (s.client c).phase.isAttached = false := by
      by_contra hholds
      refine hclient ⟨c, hattached.started fun hidle => hactive (.inl hidle), hhost, ?_⟩
      simpa using hholds
    rcases hphase : (s.client c).phase <;> rw [hphase] at hdetached hactive
    all_goals first
      | rfl
      | contradiction

/-- In every reachable state an instance that is torn down has released its phones if and only
if its loop, its successor and all of its `client_loop`s have let go of it. The two are the same
in every reachable state, torn down or not. -/
theorem released_iff_letGo {s : RelayState} (hs : relay.Reachable s) (i : Nat) :
    (TornDown s i → Released s i) ↔ (TornDown s i → LetGo s i) :=
  ⟨fun h htorn => letGo_of_released hs (h htorn), fun h htorn => released_of_letGo hs (h htorn)⟩

/-! ### A displaced instance -/

/-- A successor displaces the instance, and the instance leaves its loop. -/
def displace : List Action :=
  [.hostConnects "pc", .host 1 .swapIn, .host 1 .notifyOld, .host 1 .clearOld, .host 1 .dropOld,
    .host 0 .cancelled, .host 0 .deregister, .host 0 .dropToHost]

/-- The phone disconnects, and its `client_loop` returns. -/
def detachPhone : List Action :=
  [.client phoneId .streamEnds, .client phoneId .sendClose, .client phoneId .remove,
    .client phoneId .dropSenders, .phone phoneId .poll, .phone phoneId .closes,
    .client phoneId .writerEnded]

theorem released_iff_letGo_detached : ∃ s, relay.Reachable s ∧ TornDown s 0 ∧
    (s.client phoneId).host = some 0 ∧ Released s 0 := by
  have hrun : (follow act (attachPhone ++ detachPhone ++ displace) {}).map (fun s =>
      decide (TornDown s 0 ∧ (s.client phoneId).host = some 0 ∧ (s.host 0).phase = .awaiting ∧
        (s.host 1).phase = .reading ∧ s.nextInstance = 2 ∧ s.started = {phoneId} ∧
        (s.client phoneId).phase = .returned)) = some true := by
    decide +kernel
  obtain ⟨s, hs, houtcome⟩ := Option.map_eq_some_iff.mp hrun
  rw [decide_eq_true_eq] at houtcome
  obtain ⟨htorn, hhost, hloop, hsuccessor, hnext, hstarted, hphone⟩ := houtcome
  have hreach := reachable_of_actions hs
  refine ⟨s, hreach, htorn, hhost, (released_iff_letGo hreach 0).mpr (fun _ => ?_) htorn⟩
  refine ⟨by simp [hloop, HostPhase.holdsToHost], fun j => ?_, fun c hc => ?_⟩
  · rcases Nat.lt_or_ge j 2 with hlt | hge
    · obtain rfl | rfl : j = 0 ∨ j = 1 := by omega
      · simp [hloop, HostPhase.old?]
      · simp [hsuccessor, HostPhase.old?]
    · simp [(reachable_allocated hreach).fresh j (hnext ▸ hge), HostPhase.old?]
  · by_cases hmem : c ∈ s.started
    · rw [hstarted, Finset.mem_singleton] at hmem
      rw [hmem]
      exact hphone
    · have hidle := idle_of_not_started hreach hmem
      rw [((reachable_attached hreach c).unattached (.inl hidle)).1] at hc
      exact absurd hc (by simp)

/-- The map of a displaced instance is cleared, and the `client_loop` of a phone that is still
connected holds a sender of the instance's queue and those of its own. -/
theorem displaced_not_released :
    ¬ ∀ s, relay.Reachable s → ∀ i, TornDown s i → Released s i := by
  intro hall
  have hrun : (follow act (attachPhone ++ displace) {}).map (fun s =>
      (decide (TornDown s 0), decide (ToHostHasSender s 0))) = some (true, true) := by
    decide +kernel
  obtain ⟨s, hs, houtcome⟩ := Option.map_eq_some_iff.mp hrun
  simp only [Prod.mk.injEq, decide_eq_true_eq] at houtcome
  exact (hall s (reachable_of_actions hs) 0 houtcome.1).toHost houtcome.2

end RemoteControl.Relay.Teardown
