import RemoteControl.Relay.Frame

/-!
Takeover of a host by a new connection: which instance the online table lists after any
interleaving of swap-ins and cleanups, and that a displaced loop is told to leave.
-/

namespace RemoteControl.Relay.Takeover

open RemoteControl.Foundations.Fifo
open RemoteControl.Foundations.Transition
open RemoteControl.Foundations.Transition.System (follow run_of_follow)
open RemoteControl.Wire.Protocol (Message)
open RemoteControl.Relay.Loops
open RemoteControl.Relay.Frame

/-- The instance of the last swap-in for a host. -/
def lastSwapIn (s : RelayState) (hostId : String) (actions : List Action) : Option Nat :=
  (actions.filterMap fun
    | .host i .swapIn => if (s.host i).hostId = hostId then some i else none
    | _ => none).getLast?

/-- The instance that a host's entry has to be that of: the last one that swapped in, until
its own cleanup. -/
def holder (s : RelayState) (hostId : String) (actions : List Action) : Option Nat :=
  (lastSwapIn s hostId actions).filter fun i => decide (.host i .deregister ∉ actions)

/-- The entries are those of the holders, and a cleanup removes no other entry than its own. -/
structure Current (actions : List Action) (s : RelayState) : Prop where
  online : ∀ hostId, s.online hostId = holder s hostId actions
  cleanup : ∀ i t, act (.host i .deregister) s = some t → ∀ hostId j,
    s.online hostId = some j → t.online hostId = some j ∨ j = i ∧ t.online hostId = none

/-- A cancel permit of the instance is stored, or the instance has consumed one. -/
def Permitted (actions : List Action) (s : RelayState) (i : Nat) : Prop :=
  (s.host i).cancel = true ∨ .host i .cancelled ∈ actions

/-- Every displaced loop has its permit. -/
def Cancelled (actions : List Action) (s : RelayState) : Prop :=
  ∀ i, (s.host i).displaced = true → Permitted actions s i

/-- Every displaced loop has its permit, or its successor is about to call `notify_one`. -/
def CancelDue (actions : List Action) (s : RelayState) : Prop :=
  ∀ i, (s.host i).displaced = true →
    Permitted actions s i ∨ ∃ j, (s.host j).phase = .displacing i

/-! ### The order of the phases -/

def rank : HostPhase → Nat
  | .idle => 0
  | .starting => 1
  | .displacing _ => 2
  | .clearing _ => 3
  | .releasing _ => 4
  | .reading | .routing .. => 5
  | .leaving => 6
  | .deregistered => 7
  | .awaiting => 8
  | .draining => 9
  | .finished => 10

theorem routeData_rank {i : Nat} {c : String} {out : PhoneOut} {s : RelayState}
    (hphase : (s.host i).phase = .reading) :
    5 ≤ rank ((routeData i c out s).host i).phase := by
  have hsame : 5 ≤ rank (s.host i).phase := by simp [hphase, rank]
  unfold routeData
  dsimp only
  split
  · split
    · simp [rank]
    · split
      · exact hsame
      · exact hsame
  · exact hsame

theorem hostAct_rank {i : Nat} {a : HostAction} {s t : RelayState}
    (h : hostAct i a s = some t) : rank (s.host i).phase ≤ rank (t.host i).phase := by
  cases steps_of_hostAct h with
  | routes hphase =>
      rw [hphase]
      exact routeData_rank hphase
  | skips => exact le_rfl
  | displaces hphase | claims hphase | notifyOld hphase | clearOld hphase | dropOld hphase
  | cancelled hphase | closes hphase | streamEnds hphase | pushes hphase | pushFails hphase
  | deregisters hphase | displaced hphase | dropToHost hphase | writerEnded hphase
  | clear hphase => simp [rank, hphase]

theorem rank_step {a : Action} {s t : RelayState} (hreach : relay.Reachable s)
    (h : act a s = some t) (i : Nat) : rank (s.host i).phase ≤ rank (t.host i).phase := by
  rcases a with hostId | ⟨c, hostId⟩ | ⟨j, a⟩ | ⟨j, a⟩ | ⟨c, a⟩ | ⟨c, a⟩ | ⟨j, a⟩
  case hostConnects =>
      cases h
      rcases eq_or_ne i s.nextInstance with rfl | hne
      · simp [(reachable_allocated hreach).fresh _ le_rfl, rank]
      · simp [hne]
  case clientConnects =>
      dsimp only [act] at h
      split at h
      · cases h
        exact le_rfl
      · contradiction
  case host =>
      rcases eq_or_ne i j with rfl | hne
      · exact hostAct_rank h
      · rw [((hostAct_frame h).otherHost i hne).1]
  case hostWriter =>
      obtain ⟨toHost, writer, up, rfl, -⟩ := hostWriterAct_frame h
      rcases eq_or_ne i j with rfl | hne
      · simp
      · simp [hne]
  case client =>
      obtain ⟨toHost, clients, hhost⟩ := (clientAct_frame h).host i
      rw [hhost]
  case phone =>
      obtain ⟨hasSender, l, -, rfl⟩ := phoneAct_eq h
      exact le_rfl
  case pc =>
      obtain ⟨p, -, rfl⟩ := pcAct_eq h
      exact le_rfl

theorem hostId_step {a : Action} {s t : RelayState} (hreach : relay.Reachable s)
    (h : act a s = some t) {i : Nat} (hallocated : (s.host i).phase ≠ .idle) :
    (t.host i).hostId = (s.host i).hostId := by
  rcases a with hostId | ⟨c, hostId⟩ | ⟨j, a⟩ | ⟨j, a⟩ | ⟨c, a⟩ | ⟨c, a⟩ | ⟨j, a⟩
  case hostConnects =>
      cases h
      have hne : i ≠ s.nextInstance := by
        rintro rfl
        exact hallocated ((reachable_allocated hreach).fresh _ le_rfl)
      simp [hne]
  case clientConnects =>
      dsimp only [act] at h
      split at h
      · cases h
        rfl
      · contradiction
  case host => exact (hostAct_frame h).hostId i
  case hostWriter =>
      obtain ⟨toHost, writer, up, rfl, -⟩ := hostWriterAct_frame h
      rcases eq_or_ne i j with rfl | hne
      · simp
      · simp [hne]
  case client =>
      obtain ⟨toHost, clients, hhost⟩ := (clientAct_frame h).host i
      rw [hhost]
  case phone =>
      obtain ⟨hasSender, l, -, rfl⟩ := phoneAct_eq h
      rfl
  case pc =>
      obtain ⟨p, -, rfl⟩ := pcAct_eq h
      rfl

/-- A swap-in is over once a loop has made it, and so is a cleanup's removal. -/
structure Passed (actions : List Action) (s : RelayState) : Prop where
  swapIn : ∀ i, .host i .swapIn ∈ actions → 2 ≤ rank (s.host i).phase
  deregister : ∀ i, .host i .deregister ∈ actions → 7 ≤ rank (s.host i).phase

theorem swapIn_rank {i : Nat} {s t : RelayState} (h : hostAct i .swapIn s = some t) :
    rank (s.host i).phase = 1 ∧ 2 ≤ rank (t.host i).phase := by
  dsimp only [hostAct] at h
  split at h
  · rename_i hphase
    split at h
    all_goals
      cases h
      simp [rank, hphase]
  · contradiction

theorem deregister_rank {i : Nat} {s t : RelayState} (h : hostAct i .deregister s = some t) :
    (t.host i).phase = .deregistered := by
  dsimp only [hostAct] at h
  split at h
  · cases h
    simp
  · contradiction

theorem passed_of_run {actions : List Action} {t : RelayState} (hrun : relay.Run {} actions t) :
    Passed actions t := by
  have hinit : relay.Reachable {} := .init rfl
  induction hrun with
  | nil => exact ⟨by simp, by simp⟩
  | @snoc s t labels a hprev hstep ih =>
      have hrank := rank_step (hinit.run hprev) hstep
      refine ⟨fun i hmem => ?_, fun i hmem => ?_⟩
      · rw [List.mem_append, List.mem_singleton] at hmem
        rcases hmem with hmem | rfl
        · exact (ih.swapIn i hmem).trans (hrank i)
        · exact (swapIn_rank hstep).2
      · rw [List.mem_append, List.mem_singleton] at hmem
        rcases hmem with hmem | rfl
        · exact (ih.deregister i hmem).trans (hrank i)
        · simp [deregister_rank hstep, rank]

/-! ### The table -/

theorem routeData_online (i : Nat) (c : String) (out : PhoneOut) (s : RelayState) :
    (routeData i c out s).online = s.online := by
  unfold routeData
  dsimp only
  split
  · split
    · rfl
    · split <;> rfl
  · rfl

theorem hostAct_online {i : Nat} {a : HostAction} {s t : RelayState}
    (h : hostAct i a s = some t) (hswapIn : a ≠ .swapIn) (hderegister : a ≠ .deregister) :
    t.online = s.online := by
  cases steps_of_hostAct h with
  | displaces | claims | deregisters | displaced => contradiction
  | notifyOld _ hu | clearOld _ hu =>
      subst hu
      rfl
  | routes => exact routeData_online ..
  | _ => rfl

theorem online_step {a : Action} {s t : RelayState} (h : act a s = some t)
    (hswapIn : ∀ i, a ≠ .host i .swapIn) (hderegister : ∀ i, a ≠ .host i .deregister) :
    t.online = s.online := by
  rcases a with hostId | ⟨c, hostId⟩ | ⟨j, a⟩ | ⟨j, a⟩ | ⟨c, a⟩ | ⟨c, a⟩ | ⟨j, a⟩
  case hostConnects =>
      cases h
      rfl
  case clientConnects =>
      dsimp only [act] at h
      split at h
      · cases h
        rfl
      · contradiction
  case host =>
      refine hostAct_online h ?_ ?_
      · rintro rfl
        exact hswapIn j rfl
      · rintro rfl
        exact hderegister j rfl
  case hostWriter =>
      obtain ⟨toHost, writer, up, rfl, -⟩ := hostWriterAct_frame h
      rfl
  case client => exact (clientAct_frame h).online
  case phone =>
      obtain ⟨hasSender, l, -, rfl⟩ := phoneAct_eq h
      rfl
  case pc =>
      obtain ⟨p, -, rfl⟩ := pcAct_eq h
      rfl

theorem swapIn_online {i : Nat} {s t : RelayState} (h : hostAct i .swapIn s = some t) :
    t.online = Function.update s.online (s.host i).hostId (some i) := by
  dsimp only [hostAct] at h
  split at h
  · split at h
    all_goals
      cases h
      rfl
  · contradiction

theorem deregister_online {i : Nat} {s t : RelayState}
    (h : hostAct i .deregister s = some t) :
    t.online = if s.online (s.host i).hostId = some i then
      Function.update s.online (s.host i).hostId none else s.online := by
  dsimp only [hostAct] at h
  split at h
  · cases h
    split <;> rfl
  · contradiction

theorem holder_congr {s t : RelayState} {hostId : String} {actions : List Action}
    (h : ∀ i, .host i .swapIn ∈ actions → (t.host i).hostId = (s.host i).hostId) :
    holder t hostId actions = holder s hostId actions := by
  have hlast : lastSwapIn t hostId actions = lastSwapIn s hostId actions := by
    unfold lastSwapIn
    congr 1
    refine List.filterMap_congr fun a hmem => ?_
    split
    · rw [h _ hmem]
    · rfl
  rw [holder, holder, hlast]

theorem holder_concat_other {s : RelayState} {hostId : String} {actions : List Action}
    {a : Action} (hswapIn : ∀ i, a ≠ .host i .swapIn)
    (hderegister : ∀ i, a ≠ .host i .deregister) :
    holder s hostId (actions ++ [a]) = holder s hostId actions := by
  have hlast : lastSwapIn s hostId (actions ++ [a]) = lastSwapIn s hostId actions := by
    unfold lastSwapIn
    rw [List.filterMap_append]
    have hnone : [a].filterMap (fun
        | .host i .swapIn => if (s.host i).hostId = hostId then some i else none
        | _ => none) = [] := by
      rw [List.filterMap_cons_none]
      · rfl
      · split
        · exact absurd rfl (hswapIn _)
        · rfl
    rw [hnone, List.append_nil]
  have hmem (i : Nat) : .host i .deregister ∈ actions ++ [a] ↔ .host i .deregister ∈ actions := by
    rw [List.mem_append, List.mem_singleton]
    exact or_iff_left fun heq => hderegister i heq.symm
  simp only [holder, hlast, hmem]

theorem holder_concat_swapIn {s : RelayState} {hostId : String} {actions : List Action}
    {i : Nat} (hfresh : .host i .deregister ∉ actions) :
    holder s hostId (actions ++ [.host i .swapIn]) =
      if (s.host i).hostId = hostId then some i else holder s hostId actions := by
  have hmem (j : Nat) : .host j .deregister ∈ actions ++ [.host i .swapIn] ↔
      .host j .deregister ∈ actions := by
    simp
  split
  · rename_i hown
    have hlast : lastSwapIn s hostId (actions ++ [.host i .swapIn]) = some i := by
      simp [lastSwapIn, hown]
    rw [holder, hlast]
    simp [hfresh]
  · rename_i hother
    have hlast : lastSwapIn s hostId (actions ++ [.host i .swapIn]) =
        lastSwapIn s hostId actions := by
      simp [lastSwapIn, hother]
    simp only [holder, hlast, hmem]

theorem holder_concat_deregister {s : RelayState} {hostId : String} {actions : List Action}
    {i : Nat} :
    holder s hostId (actions ++ [.host i .deregister]) =
      if holder s hostId actions = some i then none else holder s hostId actions := by
  have hlast : lastSwapIn s hostId (actions ++ [.host i .deregister]) =
      lastSwapIn s hostId actions := by
    simp [lastSwapIn]
  rw [holder, holder, hlast]
  rcases lastSwapIn s hostId actions with _ | j
  · rfl
  · rcases eq_or_ne j i with rfl | hne
    · by_cases hmem : .host j .deregister ∈ actions <;> simp [Option.filter, hmem]
    · by_cases hmem : .host j .deregister ∈ actions <;> simp [Option.filter, hmem, hne]

theorem hostId_of_holder {s : RelayState} {hostId : String} {actions : List Action} {i : Nat}
    (h : holder s hostId actions = some i) :
    .host i .swapIn ∈ actions ∧ (s.host i).hostId = hostId := by
  rw [holder, Option.filter_eq_some_iff] at h
  have hmem := List.mem_of_getLast? h.1
  rw [List.mem_filterMap] at hmem
  obtain ⟨a, ha, hi⟩ := hmem
  split at hi
  · split at hi
    · cases hi
      exact ⟨ha, ‹_›⟩
    · contradiction
  · contradiction

theorem online_of_run {actions : List Action} {t : RelayState} (hrun : relay.Run {} actions t)
    (hostId : String) : t.online hostId = holder t hostId actions := by
  have hinit : relay.Reachable {} := .init rfl
  induction hrun with
  | nil => rfl
  | @snoc s t labels a hprev hstep ih =>
      have hpassed := passed_of_run hprev
      have hkept (i : Nat) (hmem : .host i .swapIn ∈ labels) :
          (t.host i).hostId = (s.host i).hostId := by
        refine hostId_step (hinit.run hprev) hstep ?_
        intro hidle
        have hswapped := hpassed.swapIn i hmem
        simp [hidle, rank] at hswapped
      by_cases hswapIn : ∃ i, a = .host i .swapIn
      · obtain ⟨i, rfl⟩ := hswapIn
        have hact : hostAct i .swapIn s = some t := hstep
        have hrank := (swapIn_rank hact).1
        have hfresh : .host i .deregister ∉ labels := by
          intro hmem
          have hafter := hpassed.deregister i hmem
          omega
        rw [swapIn_online hact, holder_concat_swapIn hfresh, holder_congr hkept,
          (hostAct_frame hact).hostId, ← ih]
        rcases eq_or_ne hostId (s.host i).hostId with rfl | hne
        · simp
        · simp [hne, hne.symm]
      · rw [not_exists] at hswapIn
        by_cases hderegister : ∃ i, a = .host i .deregister
        · obtain ⟨i, rfl⟩ := hderegister
          rw [deregister_online hstep, holder_concat_deregister, holder_congr hkept, ← ih]
          rcases eq_or_ne hostId (s.host i).hostId with rfl | hne
          · split
            · simp
            · rfl
          · have hother : s.online hostId ≠ some i := by
              intro honline
              rw [ih] at honline
              exact hne (hostId_of_holder honline).2.symm
            rw [if_neg hother]
            split
            · rw [Function.update_of_ne hne]
            · rfl
        · rw [not_exists] at hderegister
          rw [online_step hstep hswapIn hderegister,
            holder_concat_other hswapIn hderegister, holder_congr hkept, ih]

theorem cleanup_own {i : Nat} {s t : RelayState} (h : act (.host i .deregister) s = some t)
    {hostId : String} {j : Nat} (honline : s.online hostId = some j) :
    t.online hostId = some j ∨ j = i ∧ t.online hostId = none := by
  rw [deregister_online h]
  split
  · rename_i hown
    rcases eq_or_ne hostId (s.host i).hostId with rfl | hne
    · rw [honline, Option.some.injEq] at hown
      exact .inr ⟨hown, by simp⟩
    · rw [Function.update_of_ne hne]
      exact .inl honline
  · exact .inl honline

/-! ### The permits -/

/-- A step that neither displaces a loop nor stores or consumes a permit. -/
structure KeepsPermits (s t : RelayState) : Prop where
  displaced : ∀ k, (t.host k).displaced = (s.host k).displaced
  cancel : ∀ k, (t.host k).cancel = (s.host k).cancel
  displacing : ∀ j k, (s.host j).phase = .displacing k → (t.host j).phase = .displacing k

namespace KeepsPermits

variable {s t : RelayState}

theorem congr (h : t.host = s.host) : KeepsPermits s t := by
  refine ⟨fun _ => ?_, fun _ => ?_, fun _ _ hphase => ?_⟩
  · rw [h]
  · rw [h]
  · rw [h]
    exact hphase

theorem setHost {i : Nat} {h : HostLoop} (hdisplaced : h.displaced = (s.host i).displaced)
    (hcancel : h.cancel = (s.host i).cancel)
    (hphase : h.phase = (s.host i).phase ∨ ∀ k, (s.host i).phase ≠ .displacing k) :
    KeepsPermits s (s.setHost i h) := by
  refine ⟨fun k => ?_, fun k => ?_, fun j k hj => ?_⟩
  · rcases eq_or_ne k i with rfl | hne
    · simpa using hdisplaced
    · simp [hne]
  · rcases eq_or_ne k i with rfl | hne
    · simpa using hcancel
    · simp [hne]
  · rcases eq_or_ne j i with rfl | hne
    · rcases hphase with hsame | hother
      · simpa [hsame] using hj
      · exact absurd hj (hother k)
    · simpa [hne] using hj

theorem trans {u : RelayState} (hst : KeepsPermits s t) (htu : KeepsPermits t u) :
    KeepsPermits s u :=
  ⟨fun k => (htu.displaced k).trans (hst.displaced k),
    fun k => (htu.cancel k).trans (hst.cancel k),
    fun j k hphase => htu.displacing j k (hst.displacing j k hphase)⟩

end KeepsPermits

theorem routeData_keepsPermits {i : Nat} {c : String} {out : PhoneOut} {s : RelayState}
    (hphase : (s.host i).phase = .reading) : KeepsPermits s (routeData i c out s) := by
  unfold routeData
  dsimp only
  split
  · split
    · exact .setHost rfl rfl (.inr (by simp [hphase]))
    · split
      · exact .congr rfl
      · exact .congr rfl
  · exact .congr rfl

theorem hostAct_keepsPermits {i : Nat} {a : HostAction} {s t : RelayState}
    (h : hostAct i a s = some t) (hswapIn : a ≠ .swapIn) (hnotify : a ≠ .notifyOld)
    (hcancelled : a ≠ .cancelled) : KeepsPermits s t := by
  have hread (down : Queue Message) : KeepsPermits s (s.setPc i { s.pc i with down }) :=
    .congr rfl
  cases steps_of_hostAct h with
  | displaces | claims | notifyOld | cancelled => contradiction
  | @clearOld old u hphase hu =>
      subst hu
      have hcleared : KeepsPermits s
          (s.setHost old { s.host old with clients := ∅, cleared := true }) :=
        .setHost rfl rfl (.inl rfl)
      refine hcleared.trans (.setHost rfl rfl (.inr fun k => ?_))
      rcases eq_or_ne i old with rfl | hne
      · simp [hphase]
      · simp [hne, hphase]
  | routes hphase => exact (hread _).trans (routeData_keepsPermits hphase)
  | skips => exact hread _
  | closes hphase =>
      refine (hread _).trans (.setHost ?_ ?_ (.inr ?_))
      · rfl
      · rfl
      · simp [hphase]
  | pushes hphase =>
      have hreading : KeepsPermits s (s.setHost i { s.host i with phase := .reading }) :=
        .setHost rfl rfl (.inr (by simp [hphase]))
      exact hreading.trans (.congr rfl)
  | deregisters hphase =>
      have honline : KeepsPermits s
          { s with online := Function.update s.online (s.host i).hostId none } := .congr rfl
      refine honline.trans (.setHost ?_ ?_ (.inr ?_))
      · rfl
      · rfl
      · simp [hphase]
  | dropOld hphase | streamEnds hphase | pushFails hphase | displaced hphase
  | dropToHost hphase | writerEnded hphase | clear hphase =>
      exact .setHost rfl rfl (.inr (by simp [hphase]))

theorem keepsPermits_step {a : Action} {s t : RelayState} (hreach : relay.Reachable s)
    (h : act a s = some t) (hswapIn : ∀ i, a ≠ .host i .swapIn)
    (hnotify : ∀ i, a ≠ .host i .notifyOld) (hcancelled : ∀ i, a ≠ .host i .cancelled) :
    KeepsPermits s t := by
  rcases a with hostId | ⟨c, hostId⟩ | ⟨j, a⟩ | ⟨j, a⟩ | ⟨c, a⟩ | ⟨c, a⟩ | ⟨j, a⟩
  case hostConnects =>
      cases h
      have hallocate : KeepsPermits s { s with nextInstance := s.nextInstance + 1 } := .congr rfl
      refine hallocate.trans (.setHost ?_ ?_ (.inr ?_))
      · rfl
      · rfl
      · simp [(reachable_allocated hreach).fresh s.nextInstance le_rfl]
  case clientConnects =>
      dsimp only [act] at h
      split at h
      · cases h
        exact .congr rfl
      · contradiction
  case host =>
      refine hostAct_keepsPermits h ?_ ?_ ?_
      · rintro rfl
        exact hswapIn j rfl
      · rintro rfl
        exact hnotify j rfl
      · rintro rfl
        exact hcancelled j rfl
  case hostWriter =>
      obtain ⟨toHost, writer, up, rfl, -⟩ := hostWriterAct_frame h
      have hpc : KeepsPermits s (s.setPc j { s.pc j with up }) := .congr rfl
      refine hpc.trans (.setHost ?_ ?_ (.inl ?_))
      · rfl
      · rfl
      · rfl
  case client =>
      have hframe := clientAct_frame h
      refine ⟨fun k => ?_, fun k => ?_, fun i k hphase => ?_⟩
      · obtain ⟨toHost, clients, hhost⟩ := hframe.host k
        rw [hhost]
      · obtain ⟨toHost, clients, hhost⟩ := hframe.host k
        rw [hhost]
      · obtain ⟨toHost, clients, hhost⟩ := hframe.host i
        rw [hhost]
        exact hphase
  case phone =>
      obtain ⟨hasSender, l, -, rfl⟩ := phoneAct_eq h
      exact .congr rfl
  case pc =>
      obtain ⟨p, -, rfl⟩ := pcAct_eq h
      exact .congr rfl

theorem swapIn_displaces {i : Nat} {s t : RelayState} (h : hostAct i .swapIn s = some t)
    {k : Nat} (hdisplaced : (t.host k).displaced = true) :
    (s.host k).displaced = true ∨ (t.host i).phase = .displacing k := by
  dsimp only [hostAct] at h
  split at h
  · split at h
    · rename_i old _
      cases h
      rcases eq_or_ne k old with rfl | hne
      · exact .inr (by simp)
      · left
        rcases eq_or_ne k i with rfl | hi
        · simpa [hne] using hdisplaced
        · simpa [hne, hi] using hdisplaced
    · cases h
      left
      rcases eq_or_ne k i with rfl | hi
      · simpa using hdisplaced
      · simpa [hi] using hdisplaced
  · contradiction

theorem swapIn_keeps {i : Nat} {s t : RelayState} (h : hostAct i .swapIn s = some t) (k : Nat) :
    (t.host k).cancel = (s.host k).cancel ∧
      ∀ j, (s.host j).phase = .displacing k → (t.host j).phase = .displacing k := by
  have hother (j : Nat) (hj : (s.host j).phase = .displacing k) : j ≠ i := by
    rintro rfl
    have hrank := (swapIn_rank h).1
    simp [hj, rank] at hrank
  refine ⟨?_, fun j hj => ?_⟩
  · dsimp only [hostAct] at h
    split at h
    · split at h
      · rename_i old _
        cases h
        rcases eq_or_ne k i with rfl | hi
        · rcases eq_or_ne k old with rfl | hold
          · simp
          · simp [hold]
        · rcases eq_or_ne k old with rfl | hold
          · simp [hi]
          · simp [hi, hold]
      · cases h
        rcases eq_or_ne k i with rfl | hi
        · simp
        · simp [hi]
    · contradiction
  · rw [((hostAct_frame h).otherHost j (hother j hj)).1]
    exact hj

theorem notifyOld_spec {i : Nat} {s t : RelayState} (h : hostAct i .notifyOld s = some t) :
    ∃ old, (s.host i).phase = .displacing old ∧ (t.host old).cancel = true ∧ ∀ k,
      (t.host k).displaced = (s.host k).displaced ∧
        (k ≠ old → (t.host k).cancel = (s.host k).cancel) := by
  dsimp only [hostAct] at h
  split at h
  · rename_i old hphase
    cases h
    refine ⟨old, hphase, ?_, fun k => ⟨?_, fun hold => ?_⟩⟩
    · rcases eq_or_ne old i with rfl | hi
      · simp
      · simp [hi]
    · rcases eq_or_ne k i with rfl | hi
      · rcases eq_or_ne k old with rfl | hold
        · simp
        · simp [hold]
      · rcases eq_or_ne k old with rfl | hold
        · simp [hi]
        · simp [hi, hold]
    · rcases eq_or_ne k i with rfl | hi
      · simp [hold]
      · simp [hi, hold]
  · contradiction

theorem cancelled_spec {i : Nat} {s t : RelayState} (h : hostAct i .cancelled s = some t)
    (k : Nat) : (t.host k).displaced = (s.host k).displaced ∧
      (k ≠ i → (t.host k).cancel = (s.host k).cancel) ∧
        ∀ old, (s.host k).phase = .displacing old → (t.host k).phase = .displacing old := by
  dsimp only [hostAct] at h
  split at h
  · rename_i hphase
    cases h
    rcases eq_or_ne k i with rfl | hi
    · simp [hphase.1]
    · simp [hi]
  · contradiction

theorem cancelDue_of_run {actions : List Action} {t : RelayState}
    (hrun : relay.Run {} actions t) : CancelDue actions t := by
  have hinit : relay.Reachable {} := .init rfl
  induction hrun with
  | nil =>
      intro i hdisplaced
      simp at hdisplaced
  | @snoc s t labels a hprev hstep ih =>
      have hconsumed {i : Nat} (hmem : .host i .cancelled ∈ labels) :
          .host i .cancelled ∈ labels ++ [a] := List.mem_append_left _ hmem
      intro i hdisplaced
      by_cases hswapIn : ∃ j, a = .host j .swapIn
      · obtain ⟨j, rfl⟩ := hswapIn
        have hact : hostAct j .swapIn s = some t := hstep
        obtain ⟨hcancel, hdisplacing⟩ := swapIn_keeps hact i
        rcases swapIn_displaces hact hdisplaced with hbefore | hphase
        · rcases ih i hbefore with (hstored | hmem) | ⟨k, hk⟩
          · exact .inl (.inl (hcancel ▸ hstored))
          · exact .inl (.inr (hconsumed hmem))
          · exact .inr ⟨k, hdisplacing k hk⟩
        · exact .inr ⟨j, hphase⟩
      · by_cases hnotify : ∃ j, a = .host j .notifyOld
        · obtain ⟨j, rfl⟩ := hnotify
          have hact : hostAct j .notifyOld s = some t := hstep
          obtain ⟨old, hold, hstored, hframe⟩ := notifyOld_spec hact
          rcases eq_or_ne i old with rfl | hne
          · exact .inl (.inl hstored)
          · rw [(hframe i).1] at hdisplaced
            rcases ih i hdisplaced with (hcancel | hmem) | ⟨k, hk⟩
            · exact .inl (.inl (by rw [(hframe i).2 hne, hcancel]))
            · exact .inl (.inr (hconsumed hmem))
            · have hkj : k ≠ j := by
                rintro rfl
                rw [hold, HostPhase.displacing.injEq] at hk
                exact hne hk.symm
              exact .inr ⟨k, by rw [((hostAct_frame hact).otherHost k hkj).1, hk]⟩
        · by_cases hcancelled : ∃ j, a = .host j .cancelled
          · obtain ⟨j, rfl⟩ := hcancelled
            have hspec := cancelled_spec (i := j) hstep
            rcases eq_or_ne i j with rfl | hne
            · exact .inl (.inr (by simp))
            · rw [(hspec i).1] at hdisplaced
              rcases ih i hdisplaced with (hcancel | hmem) | ⟨k, hk⟩
              · exact .inl (.inl (by rw [(hspec i).2.1 hne, hcancel]))
              · exact .inl (.inr (hconsumed hmem))
              · exact .inr ⟨k, (hspec k).2.2 i hk⟩
          · rw [not_exists] at hswapIn hnotify hcancelled
            have hkeeps := keepsPermits_step (hinit.run hprev) hstep hswapIn hnotify hcancelled
            rw [hkeeps.displaced] at hdisplaced
            rcases ih i hdisplaced with (hcancel | hmem) | ⟨k, hk⟩
            · exact .inl (.inl (by rw [hkeeps.cancel, hcancel]))
            · exact .inl (.inr (hconsumed hmem))
            · exact .inr ⟨k, hkeeps.displacing k i hk⟩

/-- After every interleaving of connections, swap-ins and cleanups the online table lists for
every host the last instance to swap in that has not cleaned up, no cleanup removes another
instance's entry, and a displaced loop has a permit to leave as soon as its successor has
called `notify_one`. -/
theorem takeover_of_run {actions : List Action} {t : RelayState}
    (hrun : relay.Run {} actions t) : Current actions t ∧ CancelDue actions t := by
  refine ⟨⟨?_, ?_⟩, ?_⟩
  · exact online_of_run hrun
  · intro i u h hostId j honline
    exact cleanup_own h honline
  · exact cancelDue_of_run hrun

/-! ### Two connections of one host -/

/-- The second connection takes the table entry of the first. -/
def swapTwice : List Action :=
  [.hostConnects "pc", .host 0 .swapIn, .hostConnects "pc", .host 1 .swapIn]

/-- The second connection also notifies the first, which cleans up after it has left its
reader. -/
def notifyAndClean : List Action :=
  swapTwice ++ [.host 1 .notifyOld, .host 0 .cancelled, .host 0 .deregister]

theorem takeover_of_run_clean : ∃ t, relay.Run {} notifyAndClean t ∧
    t.online "pc" = some 1 ∧ Current notifyAndClean t ∧ CancelDue notifyAndClean t := by
  have hfollow : (follow act notifyAndClean {}).map (fun t => t.online "pc") =
      some (some 1) := by
    decide +kernel
  obtain ⟨t, ht, honline⟩ := Option.map_eq_some_iff.mp hfollow
  have hrun : relay.Run {} notifyAndClean t := run_of_follow (fun h => h) ht
  exact ⟨t, hrun, honline, takeover_of_run hrun⟩

/-- Between the swap-in of its successor and the successor's `notify_one` a displaced loop has
no permit. -/
theorem swapTwice_not_cancelled :
    ¬ ∀ actions t, relay.Run {} actions t → Current actions t ∧ Cancelled actions t := by
  intro hall
  have hfollow : (follow act swapTwice {}).map (fun t =>
      ((t.host 0).displaced, (t.host 0).cancel)) = some (true, false) := by
    decide +kernel
  obtain ⟨t, ht, houtcome⟩ := Option.map_eq_some_iff.mp hfollow
  simp only [Prod.mk.injEq] at houtcome
  have hcancelled := (hall _ _ (run_of_follow (fun h => h) ht)).2 0 houtcome.1
  rcases hcancelled with hstored | hmem
  · rw [houtcome.2] at hstored
    contradiction
  · simp [swapTwice] at hmem

end RemoteControl.Relay.Takeover
