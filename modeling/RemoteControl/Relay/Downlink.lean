import RemoteControl.Relay.Emission

/-!
The tunnel from the PCs to the phones: text and FILE frames arrive as a prefix of those that
were emitted for the phone, and of the other frames a subsequence does.
-/

namespace RemoteControl.Relay.Downlink

open RemoteControl.Foundations.ByteStrings
open RemoteControl.Foundations.Fifo
open RemoteControl.Foundations.Transition
open RemoteControl.Foundations.Transition.System (follow reachable_of_follow)
open RemoteControl.Wire.Protocol
open RemoteControl.Wire.Tunnel
open RemoteControl.Server.PhoneSessions
open RemoteControl.Relay.Loops
open RemoteControl.Relay.Frame
open RemoteControl.Relay.Attachment
open RemoteControl.Relay.Uplink
open RemoteControl.Relay.Emission

/-- The frames for one phone, numbered in their order. -/
def numbered (payloads : List (Bool × Bytes)) : List PhoneOut :=
  payloads.mapIdx fun index payload => { bytes := payload.2, text := payload.1, index }

/-- What the pump of a phone's session has emitted. -/
def emitted (s : RelayState) (i : Nat) (c : String) : List PhoneOut :=
  numbered (payloadsFor c (s.pc i).hostOut.sent)

/-- What has been put on a phone's WebSocket, pongs aside. -/
def outs (toPhone : List ToPhone) : List PhoneOut :=
  toPhone.filterMap fun
    | .out out => some out
    | .pong _ => none

def delivered (s : RelayState) (c : String) : List PhoneOut :=
  outs (s.client c).toPhone

/-- A phone receives what was emitted for it on the PC it is attached to and nothing else:
all text and FILE frames up to some point, and in order some of the others. -/
structure FaithfulDownlink (s : RelayState) (c : String) : Prop where
  prefix_of_mustDeliver : ∀ i, (s.client c).host = some i →
    (delivered s c).filter (·.mustDeliver) <+: (emitted s i c).filter (·.mustDeliver)
  sublist_of_droppable : ∀ i, (s.client c).host = some i →
    ((delivered s c).filter fun out => !out.mustDeliver).Sublist
      ((emitted s i c).filter fun out => !out.mustDeliver)
  unattached : (s.client c).host = none → delivered s c = []

theorem numbered_append_singleton (xs : List (Bool × Bytes)) (x : Bool × Bytes) :
    numbered (xs ++ [x]) =
      numbered xs ++ [{ bytes := x.2, text := x.1, index := xs.length }] := by
  simp [numbered]

theorem index_lt_of_mem_numbered {xs : List (Bool × Bytes)} :
    ∀ out ∈ numbered xs, out.index < xs.length := by
  intro out hmem
  obtain ⟨k, hk, rfl⟩ := List.mem_mapIdx.mp hmem
  exact hk

theorem numbered_isPrefix {xs ys : List (Bool × Bytes)} (h : xs <+: ys) :
    numbered xs <+: numbered ys := by
  obtain ⟨rest, rfl⟩ := h
  rw [numbered, numbered, List.mapIdx_append]
  exact List.prefix_append ..

/-! ### What a `host_loop` routes -/

/-- The frame for a phone that waits for room in its bulk queue. -/
def pending (phase : HostPhase) (c : String) : List PhoneOut :=
  match phase with
  | .routing clientId out => if clientId = c then [out] else []
  | _ => []

/-- The frames for a phone that its instance has read, numbered. -/
def routable (s : RelayState) (i : Nat) (c : String) : List PhoneOut :=
  numbered (payloadsRead s i c)

@[simp] theorem routable_setHost (s : RelayState) (j : Nat) (h : HostLoop) (i : Nat)
    (c : String) : routable (s.setHost j h) i c = routable s i c := rfl

@[simp] theorem routable_setClient (s : RelayState) (c' : String) (l : ClientLoop) (i : Nat)
    (c : String) : routable (s.setClient c' l) i c = routable s i c := rfl

/-- The queues of a phone hold what its instance has read for it: in the bulk queue all that
must be delivered, for as long as the phone is in the map and its writer lives. -/
structure Routed (c : String) (s : RelayState) : Prop where
  member : ∀ i, c ∈ (s.host i).clients → (s.client c).host = some i
  waiting : ∀ i, pending (s.host i).phase c ≠ [] → (s.client c).host = some i
  unattached : (s.client c).host = none →
    (s.client c).fast.sent = [] ∧ (s.client c).bulk.sent = []
  fast : ∀ i, (s.client c).host = some i →
    (s.client c).fast.sent.Sublist ((routable s i c).filter fun out => !out.mustDeliver)
  bulk : ∀ i, (s.client c).host = some i →
    (s.client c).bulk.sent <+: (routable s i c).filter (·.mustDeliver)
  next : ∀ i, (s.client c).host = some i → (s.client c).writer ≠ .finished →
    (s.client c).bulk.sent ++ pending (s.host i).phase c <+:
      (routable s i c).filter (·.mustDeliver)
  all : ∀ i, c ∈ (s.host i).clients → (s.client c).writer ≠ .finished →
    (s.client c).bulk.sent ++ pending (s.host i).phase c =
      (routable s i c).filter (·.mustDeliver)
  ahead : ∀ i, (s.client c).host = some i → ∀ out ∈ (s.client c).fast.sent,
    ∀ earlier ∈ routable s i c, earlier.mustDeliver = true → earlier.index < out.index →
      earlier ∈ (s.client c).bulk.sent

/-- A step that routes nothing to this phone. -/
structure RoutesNothing (c : String) (s t : RelayState) : Prop where
  fast : (t.client c).fast.sent = (s.client c).fast.sent
  bulk : (t.client c).bulk.sent = (s.client c).bulk.sent
  writer : (s.client c).writer = .finished → (t.client c).writer = .finished
  clients : ∀ i, c ∈ (t.host i).clients → c ∈ (s.host i).clients
  pending : ∀ i, pending (t.host i).phase c = pending (s.host i).phase c
  read : ∀ i, payloadsRead t i c = payloadsRead s i c

theorem Routed.quiet {c : String} {s t : RelayState} (hs : Routed c s)
    (hst : RoutesNothing c s t) (hhost : (t.client c).host = (s.client c).host) :
    Routed c t := by
  have hwriter (h : (t.client c).writer ≠ .finished) : (s.client c).writer ≠ .finished :=
    fun hfinished => h (hst.writer hfinished)
  have hroutable (i : Nat) : routable t i c = routable s i c := by
    rw [routable, routable, hst.read]
  refine ⟨?_, ?_, ?_, ?_, ?_, ?_, ?_, ?_⟩
  · intro i hmem
    rw [hhost]
    exact hs.member i (hst.clients i hmem)
  · intro i hwaiting
    rw [hst.pending] at hwaiting
    rw [hhost]
    exact hs.waiting i hwaiting
  · rw [hhost, hst.fast, hst.bulk]
    exact hs.unattached
  · intro i hi
    rw [hst.fast, hroutable]
    exact hs.fast i (hhost ▸ hi)
  · intro i hi
    rw [hst.bulk, hroutable]
    exact hs.bulk i (hhost ▸ hi)
  · intro i hi hlive
    rw [hst.bulk, hst.pending, hroutable]
    exact hs.next i (hhost ▸ hi) (hwriter hlive)
  · intro i hmem hlive
    rw [hst.bulk, hst.pending, hroutable]
    exact hs.all i (hst.clients i hmem) (hwriter hlive)
  · intro i hi
    rw [hst.fast, hst.bulk, hroutable]
    exact hs.ahead i (hhost ▸ hi)

theorem Routed.snapshot {c : String} {s t : RelayState} (hs : Routed c s)
    (hst : RoutesNothing c s t) (hnone : (s.client c).host = none) : Routed c t := by
  obtain ⟨hfast, hbulk⟩ := hs.unattached hnone
  have hoff (i : Nat) : c ∉ (s.host i).clients := by
    intro hmem
    rw [hs.member i hmem] at hnone
    contradiction
  have hpending (i : Nat) : pending (t.host i).phase c = [] := by
    rw [hst.pending]
    by_contra hwaiting
    rw [hs.waiting i hwaiting] at hnone
    contradiction
  have hout (i : Nat) : c ∉ (t.host i).clients := fun hmem => hoff i (hst.clients i hmem)
  refine ⟨?_, ?_, ?_, ?_, ?_, ?_, ?_, ?_⟩
  · exact fun i hmem => absurd hmem (hout i)
  · exact fun i hwaiting => absurd (hpending i) hwaiting
  · rw [hst.fast, hst.bulk]
    exact fun _ => ⟨hfast, hbulk⟩
  · rw [hst.fast, hfast]
    exact fun _ _ => List.nil_sublist _
  · rw [hst.bulk, hbulk]
    exact fun _ _ => List.nil_prefix
  · intro i _ _
    rw [hst.bulk, hbulk, hpending]
    exact List.nil_prefix
  · exact fun i hmem => absurd hmem (hout i)
  · rw [hst.fast, hfast]
    exact fun _ _ out hmem => absurd hmem List.not_mem_nil

theorem Routed.insert {c : String} {s t : RelayState} {i : Nat} (hs : Routed c s)
    (hfast : (t.client c).fast.sent = (s.client c).fast.sent)
    (hbulk : (t.client c).bulk.sent = (s.client c).bulk.sent)
    (hwriter : (t.client c).writer = (s.client c).writer)
    (hhost : (t.client c).host = (s.client c).host)
    (hclients : ∀ j, c ∈ (t.host j).clients → j = i ∨ c ∈ (s.host j).clients)
    (hpending : ∀ j, pending (t.host j).phase c = pending (s.host j).phase c)
    (hread : ∀ j, payloadsRead t j c = payloadsRead s j c)
    (hattached : (s.client c).host = some i) (hnothing : payloadsRead s i c = []) :
    Routed c t := by
  have hroutable (j : Nat) : routable t j c = routable s j c := by
    rw [routable, routable, hread]
  have hempty : routable s i c = [] := by
    rw [routable, hnothing]
    rfl
  refine ⟨?_, ?_, ?_, ?_, ?_, ?_, ?_, ?_⟩
  · intro j hmem
    rw [hhost]
    rcases hclients j hmem with rfl | hmem
    · exact hattached
    · exact hs.member j hmem
  · intro j hwaiting
    rw [hpending] at hwaiting
    rw [hhost]
    exact hs.waiting j hwaiting
  · rw [hhost, hfast, hbulk]
    exact hs.unattached
  · intro j hj
    rw [hfast, hroutable]
    exact hs.fast j (hhost ▸ hj)
  · intro j hj
    rw [hbulk, hroutable]
    exact hs.bulk j (hhost ▸ hj)
  · intro j hj hlive
    rw [hbulk, hpending, hroutable]
    exact hs.next j (hhost ▸ hj) (hwriter ▸ hlive)
  · intro j hmem hlive
    rw [hbulk, hpending, hroutable]
    rcases hclients j hmem with rfl | hmem
    · have hnext := hs.next j hattached (hwriter ▸ hlive)
      rw [hempty] at hnext ⊢
      exact List.prefix_nil.mp hnext
    · exact hs.all j hmem (hwriter ▸ hlive)
  · intro j hj
    rw [hfast, hbulk, hroutable]
    exact hs.ahead j (hhost ▸ hj)

theorem setHost_phase {s : RelayState} {j : Nat} {h : HostLoop}
    (hphase : h.phase = (s.host j).phase) (i : Nat) :
    ((s.setHost j h).host i).phase = (s.host i).phase := by
  rcases eq_or_ne i j with rfl | hne
  · simpa using hphase
  · simp [hne]

namespace RoutesNothing

variable {c : String} {s t u : RelayState}

theorem refl (c : String) (s : RelayState) : RoutesNothing c s s :=
  ⟨rfl, rfl, id, fun _ => id, fun _ => rfl, fun _ => rfl⟩

theorem trans (hst : RoutesNothing c s t) (htu : RoutesNothing c t u) : RoutesNothing c s u :=
  ⟨htu.fast.trans hst.fast, htu.bulk.trans hst.bulk, fun h => htu.writer (hst.writer h),
    fun i h => hst.clients i (htu.clients i h), fun i => (htu.pending i).trans (hst.pending i),
    fun i => (htu.read i).trans (hst.read i)⟩

theorem setHost {i : Nat} {h : HostLoop}
    (hclients : c ∈ h.clients → c ∈ (s.host i).clients)
    (hpending : Downlink.pending h.phase c = Downlink.pending (s.host i).phase c) :
    RoutesNothing c s (s.setHost i h) := by
  refine ⟨rfl, rfl, id, fun j => ?_, fun j => ?_, fun _ => rfl⟩
  · rcases eq_or_ne j i with rfl | hne
    · simpa using hclients
    · simp [hne]
  · rcases eq_or_ne j i with rfl | hne
    · simpa using hpending
    · simp [hne]

theorem setOld {i old : Nat} {h : HostLoop} {phase : HostPhase}
    (hclients : c ∈ h.clients → c ∈ (s.host old).clients)
    (hphase : h.phase = (s.host old).phase)
    (hpending : Downlink.pending phase c = Downlink.pending (s.host i).phase c) :
    RoutesNothing c s
      ((s.setHost old h).setHost i { (s.setHost old h).host i with phase }) := by
  refine .trans (.setHost hclients (by rw [hphase])) (.setHost id ?_)
  rw [setHost_phase hphase]
  exact hpending

theorem online (online : String → Option Nat) : RoutesNothing c s { s with online } :=
  ⟨rfl, rfl, id, fun _ => id, fun _ => rfl, fun _ => rfl⟩

theorem setPc {i : Nat} {p : RelayClient}
    (hread : payloadsFor c (tunnelFrames p.down.taken) = payloadsRead s i c) :
    RoutesNothing c s (s.setPc i p) := by
  refine ⟨rfl, rfl, id, fun _ => id, fun _ => rfl, fun j => ?_⟩
  rcases eq_or_ne j i with rfl | hne
  · simpa [payloadsRead] using hread
  · simp [payloadsRead, hne]

theorem setClient {c' : String} {l : ClientLoop}
    (hl : c' = c → l.fast.sent = (s.client c).fast.sent ∧ l.bulk.sent = (s.client c).bulk.sent ∧
      ((s.client c).writer = .finished → l.writer = .finished)) :
    RoutesNothing c s (s.setClient c' l) := by
  rcases eq_or_ne c' c with rfl | hne
  · obtain ⟨hfast, hbulk, hwriter⟩ := hl rfl
    refine ⟨?_, ?_, ?_, fun _ => id, fun _ => rfl, fun _ => rfl⟩ <;> simpa
  · refine ⟨?_, ?_, ?_, fun _ => id, fun _ => rfl, fun _ => rfl⟩ <;> simp [hne.symm]

end RoutesNothing

theorem pending_of_ne {c c' : String} (h : c' ≠ c) (out : PhoneOut) :
    pending (.routing c' out) c = [] :=
  if_neg h

theorem pending_self (c : String) (out : PhoneOut) : pending (.routing c out) c = [out] :=
  if_pos rfl

theorem filter_concat {p : PhoneOut → Bool} {xs : List PhoneOut} {out : PhoneOut} :
    (xs ++ [out]).filter p = xs.filter p ++ if p out then [out] else [] := by
  rw [List.filter_append]
  congr 1
  rcases hp : p out <;> simp [hp]

theorem routable_concat {s t : RelayState} {i : Nat} {c : String} {text : Bool}
    {payload : Bytes} (h : payloadsRead t i c = payloadsRead s i c ++ [(text, payload)]) :
    routable t i c = routable s i c ++
      [{ bytes := payload, text, index := (payloadsRead s i c).length }] := by
  rw [routable, h, numbered_append_singleton]
  rfl

theorem Routed.of_attached {c : String} {s : RelayState} {i : Nat}
    (hhost : (s.client c).host = some i)
    (hothers : ∀ j ≠ i, c ∉ (s.host j).clients ∧ pending (s.host j).phase c = [])
    (hfast : (s.client c).fast.sent.Sublist ((routable s i c).filter fun out => !out.mustDeliver))
    (hbulk : (s.client c).bulk.sent <+: (routable s i c).filter (·.mustDeliver))
    (hnext : (s.client c).writer ≠ .finished →
      (s.client c).bulk.sent ++ pending (s.host i).phase c <+:
        (routable s i c).filter (·.mustDeliver))
    (hall : c ∈ (s.host i).clients → (s.client c).writer ≠ .finished →
      (s.client c).bulk.sent ++ pending (s.host i).phase c =
        (routable s i c).filter (·.mustDeliver))
    (hahead : ∀ out ∈ (s.client c).fast.sent, ∀ earlier ∈ routable s i c,
      earlier.mustDeliver = true → earlier.index < out.index →
        earlier ∈ (s.client c).bulk.sent) : Routed c s := by
  have hself {j : Nat} (hj : (s.client c).host = some j) : i = j :=
    Option.some.inj (hhost.symm.trans hj)
  have hmember {j : Nat} (hmem : c ∈ (s.host j).clients) : j = i := by
    by_contra hne
    exact (hothers j hne).1 hmem
  refine ⟨?_, ?_, ?_, ?_, ?_, ?_, ?_, ?_⟩
  · intro j hmem
    rw [hmember hmem]
    exact hhost
  · intro j hwaiting
    have heq : j = i := by
      by_contra hne
      exact hwaiting (hothers j hne).2
    rw [heq]
    exact hhost
  · intro hnone
    rw [hhost] at hnone
    contradiction
  · intro j hj
    exact hself hj ▸ hfast
  · intro j hj
    exact hself hj ▸ hbulk
  · intro j hj
    exact hself hj ▸ hnext
  · intro j hmem
    exact (hmember hmem).symm ▸ hall (hmember hmem ▸ hmem)
  · intro j hj
    exact hself hj ▸ hahead

theorem Routed.others {c : String} {s : RelayState} {i : Nat} (hs : Routed c s)
    (hhost : (s.client c).host = some i) :
    ∀ j ≠ i, c ∉ (s.host j).clients ∧ pending (s.host j).phase c = [] := by
  intro j hne
  have hself {k : Nat} (hk : (s.client c).host = some k) : k = i :=
    Option.some.inj (hk.symm.trans hhost)
  refine ⟨fun hmem => hne (hself (hs.member j hmem)), ?_⟩
  by_contra hwaiting
  exact hne (hself (hs.waiting j hwaiting))

/-- The relay has read one more frame for the phone from an instance's PC. -/
structure Reads (c : String) (i : Nat) (out : PhoneOut) (p : RelayClient) (s : RelayState) :
    Prop where
  idle : pending (s.host i).phase c = []
  grown : routable (s.setPc i p) i c = routable s i c ++ [out]
  last : out.index = (payloadsRead s i c).length

section

variable {c : String} {i : Nat} {out : PhoneOut} {p : RelayClient} {s : RelayState}

namespace Reads

theorem earlier (h : Reads c i out p s) {other earlier : PhoneOut}
    (hother : other ∈ routable s i c ∨ other = out)
    (hmem : earlier ∈ routable (s.setPc i p) i c) (hlt : earlier.index < other.index) :
    earlier ∈ routable s i c := by
  rw [h.grown, List.mem_append, List.mem_singleton] at hmem
  have hlast := h.last
  rcases hmem with hmem | rfl
  · exact hmem
  · rcases hother with hother | rfl
    · have hindex : other.index < (payloadsRead s i c).length :=
        index_lt_of_mem_numbered other hother
      omega
    · omega

theorem keepsBulk (h : Reads c i out p s) : (routable s i c).filter (·.mustDeliver) <+:
    (routable (s.setPc i p) i c).filter (·.mustDeliver) := by
  rw [h.grown, filter_concat]
  exact List.prefix_append ..

theorem keepsFast (h : Reads c i out p s) :
    ((routable s i c).filter fun out => !out.mustDeliver).Sublist
      ((routable (s.setPc i p) i c).filter fun out => !out.mustDeliver) := by
  rw [h.grown, filter_concat]
  exact List.sublist_append_left ..

theorem ahead (h : Reads c i out p s) (hs : Routed c s) (hhost : (s.client c).host = some i) :
    ∀ other ∈ (s.client c).fast.sent, ∀ earlier ∈ routable (s.setPc i p) i c,
      earlier.mustDeliver = true → earlier.index < other.index →
        earlier ∈ (s.client c).bulk.sent := by
  intro other hother earlier hmem hmust hlt
  have hread := List.mem_of_mem_filter ((hs.fast i hhost).subset hother)
  exact hs.ahead i hhost other hother earlier (h.earlier (.inl hread) hmem hlt) hmust hlt

theorem all (h : Reads c i out p s) (hs : Routed c s) (hmem : c ∈ (s.host i).clients)
    (hlive : (s.client c).writer ≠ .finished) :
    (s.client c).bulk.sent = (routable s i c).filter (·.mustDeliver) := by
  have hall := hs.all i hmem hlive
  rwa [h.idle, List.append_nil] at hall

end Reads

theorem Routed.waits (hs : Routed c s) (h : Reads c i out p s) (hmem : c ∈ (s.host i).clients)
    (hmust : out.mustDeliver = true) :
    Routed c ((s.setPc i p).setHost i { s.host i with phase := .routing c out }) := by
  have hhost := hs.member i hmem
  have hnext (hlive : (s.client c).writer ≠ .finished) :
      (s.client c).bulk.sent ++ [out] =
        (routable (s.setPc i p) i c).filter (·.mustDeliver) := by
    rw [h.grown, filter_concat, if_pos hmust, h.all hs hmem hlive]
  have hself : pending (.routing c out) c = [out] := pending_self c out
  refine .of_attached hhost (fun j hne => ?_) ((hs.fast i hhost).trans h.keepsFast)
    ((hs.bulk i hhost).trans h.keepsBulk) (fun hlive => ?_) (fun _ hlive => ?_) (h.ahead hs hhost)
  · simpa [hne] using hs.others hhost j hne
  · simp only [setHost_host, Function.update_self, hself]
    exact (hnext hlive) ▸ List.prefix_refl _
  · simp only [setHost_host, Function.update_self, hself]
    exact hnext hlive

theorem Routed.pushesFast (hs : Routed c s) (h : Reads c i out p s)
    (hmem : c ∈ (s.host i).clients) (hmay : ¬ out.mustDeliver = true)
    (hopen : (s.client c).writer ≠ .finished) :
    Routed c ((s.setPc i p).setClient c
      { s.client c with fast := (s.client c).fast.push out }) := by
  have hhost := hs.member i hmem
  have hsame : (routable (s.setPc i p) i c).filter (·.mustDeliver) =
      (routable s i c).filter (·.mustDeliver) := by
    rw [h.grown, filter_concat, if_neg hmay, List.append_nil]
  refine .of_attached (by simpa using hhost) (hs.others hhost) ?_ ?_ ?_ ?_ ?_
  · simp only [setClient_client, Function.update_self, Queue.push_sent, routable_setClient]
    rw [h.grown, filter_concat, if_pos (by simpa using hmay)]
    exact (hs.fast i hhost).append_right _
  · simpa using (hs.bulk i hhost).trans h.keepsBulk
  · intro hlive
    simp only [setClient_client, Function.update_self, routable_setClient] at hlive ⊢
    rw [hsame]
    exact hs.next i hhost hlive
  · intro _ hlive
    simp only [setClient_client, Function.update_self, routable_setClient] at hlive ⊢
    rw [hsame]
    exact hs.all i hmem hlive
  · intro other hother earlier hin hmust hlt
    simp only [setClient_client, Function.update_self, Queue.push_sent, List.mem_append,
      List.mem_singleton, routable_setClient] at hother hin ⊢
    rcases hother with hother | rfl
    · exact h.ahead hs hhost other hother earlier hin hmust hlt
    · rw [h.all hs hmem hopen, List.mem_filter]
      exact ⟨h.earlier (.inr rfl) hin hlt, hmust⟩

theorem Routed.drops (hs : Routed c s) (h : Reads c i out p s)
    (hhost : (s.client c).host = some i)
    (hmay : c ∈ (s.host i).clients → ¬ out.mustDeliver = true) : Routed c (s.setPc i p) := by
  refine .of_attached hhost (hs.others hhost) ((hs.fast i hhost).trans h.keepsFast)
    ((hs.bulk i hhost).trans h.keepsBulk) (fun hlive => ?_) (fun hmem hlive => ?_)
    (h.ahead hs hhost)
  · exact (hs.next i hhost hlive).trans h.keepsBulk
  · rw [h.grown, filter_concat, if_neg (hmay hmem), List.append_nil]
    exact hs.all i hmem hlive

theorem Routed.elsewhere (hs : Routed c s) (p : RelayClient)
    (hhost : (s.client c).host ≠ some i) : Routed c (s.setPc i p) := by
  have hsame {j : Nat} (hj : (s.client c).host = some j) :
      routable (s.setPc i p) j c = routable s j c := by
    have hne : j ≠ i := by
      rintro rfl
      exact hhost hj
    simp [routable, payloadsRead, hne]
  refine ⟨hs.member, hs.waiting, hs.unattached, ?_, ?_, ?_, ?_, ?_⟩
  · intro j hj
    rw [hsame hj]
    exact hs.fast j hj
  · intro j hj
    rw [hsame hj]
    exact hs.bulk j hj
  · intro j hj
    rw [hsame hj]
    exact hs.next j hj
  · intro j hin
    rw [hsame (hs.member j hin)]
    exact hs.all j hin
  · intro j hj
    rw [hsame hj]
    exact hs.ahead j hj

end

theorem Routed.routeData {c : String} {i : Nat} {text : Bool} {payload : Bytes}
    {down : Queue Message} {s : RelayState} (hs : Routed c s)
    (hphase : (s.host i).phase = .reading)
    (hread : payloadsFor c (tunnelFrames down.taken) = payloadsRead s i c ++ [(text, payload)]) :
    Routed c (routeData i c
      { bytes := payload, text, index := (payloadsRead s i c).length }
      (s.setPc i { s.pc i with down })) := by
  have hreads : Reads c i { bytes := payload, text, index := (payloadsRead s i c).length }
      { s.pc i with down } s := by
    refine ⟨by simp [pending, hphase], routable_concat ?_, rfl⟩
    simpa [payloadsRead] using hread
  unfold Loops.routeData
  dsimp only
  split
  · rename_i hmem
    split
    · rename_i hmust
      exact hs.waits hreads hmem hmust
    · rename_i hmay
      split
      · rename_i hroom
        exact hs.pushesFast hreads hmem hmay hroom.1
      · exact hs.drops hreads (hs.member i hmem) fun _ => hmay
  · rename_i hmem
    by_cases hhost : (s.client c).host = some i
    · exact hs.drops hreads hhost fun hin => absurd hin hmem
    · exact hs.elsewhere _ hhost

theorem routeData_other {c c' : String} {i : Nat} {out : PhoneOut} {s : RelayState}
    (hne : c' ≠ c) (hphase : (s.host i).phase = .reading) :
    RoutesNothing c s (Loops.routeData i c' out s) := by
  unfold Loops.routeData
  dsimp only
  split
  · split
    · refine .setHost ?_ ?_
      · exact id
      · rw [pending_of_ne hne, hphase]
        rfl
    · split
      · exact .setClient fun heq => absurd heq hne
      · exact .refl c s
  · exact .refl c s

theorem Routed.push {c : String} {i : Nat} {out : PhoneOut} {s : RelayState} {h : HostLoop}
    {l : ClientLoop} (hs : Routed c s) (hphase : (s.host i).phase = .routing c out)
    (hreading : h.phase = .reading) (hclients : h.clients = (s.host i).clients)
    (hhost : l.host = (s.client c).host) (hfast : l.fast = (s.client c).fast)
    (hwriter : l.writer = (s.client c).writer)
    (hbulk : l.bulk.sent = (s.client c).bulk.sent ∧ l.writer = .finished ∨
      l.bulk.sent = (s.client c).bulk.sent ++ [out] ∧ l.writer ≠ .finished) :
    Routed c ((s.setHost i h).setClient c l) := by
  have hpending : pending (s.host i).phase c = [out] := by
    rw [hphase]
    exact pending_self c out
  have hnone : pending h.phase c = [] := by
    rw [hreading]
    rfl
  have hattached : (s.client c).host = some i := hs.waiting i (by simp [hpending])
  have hothers := hs.others hattached
  have hdone (hlive : l.writer ≠ .finished) :
      l.bulk.sent = (s.client c).bulk.sent ++ pending (s.host i).phase c := by
    rcases hbulk with ⟨-, hfinished⟩ | ⟨hsent, -⟩
    · exact absurd hfinished hlive
    · rw [hsent, hpending]
  refine .of_attached (i := i) (by simpa using hhost.trans hattached) (fun j hne => ?_)
    ?_ ?_ ?_ ?_ ?_
  · simpa [hne] using hothers j hne
  · simpa [hfast] using hs.fast i hattached
  · simp only [setClient_client, Function.update_self, routable_setClient, routable_setHost]
    rcases hbulk with ⟨hsent, -⟩ | ⟨-, hlive⟩
    · rw [hsent]
      exact hs.bulk i hattached
    · rw [hdone hlive]
      exact hs.next i hattached (hwriter ▸ hlive)
  · intro hlive
    simp only [setClient_client, Function.update_self, setClient_host, setHost_host,
      routable_setClient, routable_setHost] at hlive ⊢
    rw [hnone, List.append_nil, hdone hlive]
    exact hs.next i hattached (hwriter ▸ hlive)
  · intro hin hlive
    simp only [setClient_client, Function.update_self, setClient_host, setHost_host,
      routable_setClient, routable_setHost] at hin hlive ⊢
    rw [hnone, List.append_nil, hdone hlive]
    exact hs.all i (hclients ▸ hin) (hwriter ▸ hlive)
  · intro other hother earlier hin hmust hlt
    simp only [setClient_client, Function.update_self, hfast, routable_setClient,
      routable_setHost] at hother hin ⊢
    have hmem := hs.ahead i hattached other hother earlier hin hmust hlt
    rcases hbulk with ⟨hsent, -⟩ | ⟨hsent, -⟩
    · rw [hsent]
      exact hmem
    · rw [hsent]
      exact List.mem_append_left _ hmem

theorem routeData_host {c c' : String} {i : Nat} {out : PhoneOut} {s : RelayState} :
    ((Loops.routeData i c' out s).client c).host = (s.client c).host := by
  obtain ⟨fast, bulk, hclient, -⟩ := (routeData_frame i c' out s).client c
  rw [hclient]

theorem RoutesNothing.taken {c : String} {s : RelayState} {i : Nat} {m : Message}
    {down : Queue Message} (hpop : (s.pc i).down.pop? = some (m, down))
    (hnone : payloadsFor c (tunnelFrames [m]) = []) :
    RoutesNothing c s (s.setPc i { s.pc i with down }) := by
  refine .setPc ?_
  rw [Queue.pop?_taken hpop, tunnelFrames_append, payloadsFor, List.filterMap_append]
  rw [payloadsFor] at hnone
  rw [hnone, List.append_nil]
  rfl

theorem Routed.hostRead {c c' : String} {i : Nat} {s : RelayState} {bytes payload : Bytes}
    {down : Queue Message} {text : Bool} (hs : Routed c s) (hphase : (s.host i).phase = .reading)
    (hpop : (s.pc i).down.pop? = some (.binary bytes, down))
    (hdecode : decode bytes = some (.data c' text payload)) :
    Routed c (Loops.routeData i c'
      { bytes := payload
        text
        index := (payloadsFor c' (tunnelFrames (s.pc i).down.taken)).length }
      (s.setPc i { s.pc i with down })) := by
  have hframes : tunnelFrames [.binary bytes] = [.data c' text payload] := by
    simp [tunnelFrames, hdecode]
  rcases eq_or_ne c' c with rfl | hne
  · refine hs.routeData hphase ?_
    rw [Queue.pop?_taken hpop, tunnelFrames_append, hframes, payloadsFor, List.filterMap_append]
    simp [payloadsRead, payloadsFor]
  · have hquiet := RoutesNothing.taken (c := c) hpop (by rw [hframes]; simp [payloadsFor, hne])
    exact hs.quiet (hquiet.trans (routeData_other hne hphase)) routeData_host

theorem Routed.hostPush {c c' : String} {i : Nat} {s : RelayState} {out : PhoneOut}
    (hs : Routed c s) (hphase : (s.host i).phase = .routing c' out)
    (hlive : (s.client c').writer ≠ .finished) :
    Routed c ((s.setHost i { s.host i with phase := .reading }).setClient c'
      { s.client c' with bulk := (s.client c').bulk.push out }) := by
  rcases eq_or_ne c' c with rfl | hne
  · exact hs.push hphase rfl rfl rfl rfl rfl (.inr ⟨Queue.push_sent .., hlive⟩)
  · have hquiet : RoutesNothing c s (s.setHost i { s.host i with phase := .reading }) := by
      refine .setHost ?_ ?_
      · exact id
      · rw [hphase, pending_of_ne hne]
        rfl
    refine hs.quiet (hquiet.trans (.setClient fun heq => absurd heq hne)) ?_
    simp [hne.symm]

theorem Routed.hostPushFails {c c' : String} {i : Nat} {s : RelayState} {out : PhoneOut}
    (hs : Routed c s) (hphase : (s.host i).phase = .routing c' out)
    (hfinished : (s.client c').writer = .finished) :
    Routed c (s.setHost i { s.host i with phase := .reading }) := by
  rcases eq_or_ne c' c with rfl | hne
  · have hpush := hs.push (h := { s.host i with phase := .reading }) (l := s.client c') hphase
      rfl rfl rfl rfl rfl (.inl ⟨rfl, hfinished⟩)
    have hsame : (s.setHost i { s.host i with phase := .reading }).setClient c'
        (s.client c') = s.setHost i { s.host i with phase := .reading } := by
      simp [RelayState.setClient, RelayState.setHost]
    rwa [hsame] at hpush
  · refine hs.quiet (.setHost ?_ ?_) rfl
    · exact id
    · rw [hphase, pending_of_ne hne]
      rfl

theorem Routed.hostAct {c : String} {i : Nat} {a : HostAction} {s t : RelayState}
    (hs : Routed c s) (h : hostAct i a s = some t) : Routed c t := by
  cases steps_of_hostAct h with
  | displaces hphase _ hu =>
      subst hu
      refine hs.quiet ((RoutesNothing.online _).trans (.setOld ?_ ?_ ?_)) rfl
      · exact id
      · rfl
      · simp [pending, hphase]
  | notifyOld hphase hu | clearOld hphase hu =>
      subst hu
      refine hs.quiet (.setOld ?_ ?_ ?_) rfl
      · simp
      · rfl
      · simp [pending, hphase]
  | routes hphase hpop hdecode => exact hs.hostRead hphase hpop hdecode
  | skips _ hpop hnone => exact hs.quiet (.taken hpop (hnone c)) rfl
  | closes hphase hpop =>
      refine hs.quiet ((RoutesNothing.taken hpop rfl).trans (.setHost ?_ ?_)) rfl
      · exact id
      · simp [pending, hphase]
  | pushes hphase hlive => exact hs.hostPush hphase hlive
  | pushFails hphase hfinished => exact hs.hostPushFails hphase hfinished
  | claims hphase | deregisters hphase =>
      refine hs.quiet ((RoutesNothing.online _).trans (.setHost ?_ ?_)) rfl
      · exact id
      · simp [pending, hphase]
  | dropOld hphase | cancelled hphase | streamEnds hphase | displaced hphase
  | dropToHost hphase | writerEnded hphase | clear hphase =>
      refine hs.quiet (.setHost ?_ ?_) rfl
      · simp
      · simp [pending, hphase]

namespace RoutesNothing

theorem allocate {c : String} {s : RelayState} (nextInstance : Nat) :
    RoutesNothing c s { s with nextInstance } :=
  ⟨rfl, rfl, id, fun _ => id, fun _ => rfl, fun _ => rfl⟩

theorem start {c : String} {s : RelayState} (started : Finset String) :
    RoutesNothing c s { s with started } :=
  ⟨rfl, rfl, id, fun _ => id, fun _ => rfl, fun _ => rfl⟩

end RoutesNothing

/-- A `client_loop` whose writer has not been spawned. -/
def Unspawned (l : ClientLoop) : Prop :=
  beforeWriter l.phase = true → l.writer = .unspawned

theorem idle_of_not_started {s : RelayState} (hs : relay.Reachable s) {c : String}
    (h : c ∉ s.started) : (s.client c).phase = .idle := by
  by_contra hactive
  exact h ((reachable_attached hs c).started hactive)

theorem reachable_unspawned {s : RelayState} (hs : relay.Reachable s) (c : String) :
    Unspawned (s.client c) := by
  induction hs with
  | init hinit =>
      cases hinit
      exact fun _ => rfl
  | @step s t a hreach hstep ih =>
      have hchange := clientChange_of_act hstep (idle_of_not_started hreach (c := c))
      generalize t.client c = l at hchange ⊢
      rcases hchange with _ | ⟨fast, bulk, -, -⟩ | ⟨_, hloop⟩ | ⟨hasSender, a, _, hwrite⟩
      · exact ih
      · exact ih
      · intro hbefore
        obtain ⟨hbefore, hwriter⟩ := hloop.spawned hbefore
        rw [hwriter]
        exact ih hbefore
      · intro hbefore
        rw [(writerAct_frame hwrite).phase] at hbefore
        rw [writerAct_unspawned (ih hbefore)] at hwrite
        contradiction

theorem unread_of_snapped {s : RelayState} (hs : relay.Reachable s) {i : Nat} {c : String}
    (hphase : (s.client c).phase = .snapped) : payloadsRead s i c = [] := by
  have hpre := payloadsRead_isPrefix hs i c
  by_contra hread
  have hopened := openedBy_of_emitted hs fun hnone => hread (by
    rw [hnone] at hpre
    exact List.prefix_nil.mp hpre)
  have huplinked := (reachable_attached hs c).attached i hopened.host
  simp only [Uplinked, hphase] at huplinked
  exact hopened.sent huplinked.1

theorem Routed.clientAct {c : String} {a : ClientAction} {s t : RelayState}
    (hreach : relay.Reachable s) (hs : Routed c s) (h : clientAct c a s = some t) :
    Routed c t := by
  have hframe := clientAct_frame h
  have hloop := hframe.loop
  obtain ⟨hclients, hhost⟩ := clientAct_own h
  have hfinished (hfinished : (s.client c).writer = .finished) :
      (t.client c).writer = .finished := by
    rcases hloop.writer with hsame | ⟨hbefore, -⟩
    · rw [hsame]
      exact hfinished
    · rw [reachable_unspawned hreach c hbefore] at hfinished
      contradiction
  have hpending (j : Nat) : pending (t.host j).phase c = pending (s.host j).phase c := by
    obtain ⟨toHost, clients, heq⟩ := hframe.host j
    rw [heq]
  have hread (j : Nat) : payloadsRead t j c = payloadsRead s j c := by
    rw [payloadsRead, payloadsRead, hframe.pc]
  rcases eq_or_ne a .insert with rfl | hinsert
  · dsimp only [Loops.clientAct] at h
    split at h
    · rename_i i hphase hattached
      cases h
      refine hs.insert (i := i) ?_ ?_ ?_ ?_ (fun j hmem => ?_) hpending hread hattached
        (unread_of_snapped hreach hphase)
      · simp
      · simp
      · simp
      · simp
      · rcases eq_or_ne j i with rfl | hne
        · exact .inl rfl
        · exact .inr (by simpa [hne] using hmem)
    · contradiction
  · have hquiet : RoutesNothing c s t :=
      ⟨by rw [hloop.fast], by rw [hloop.bulk], hfinished, hclients hinsert, hpending, hread⟩
    rcases eq_or_ne a .snapshot with rfl | hsnapshot
    · refine hs.snapshot hquiet ?_
      dsimp only [Loops.clientAct] at h
      split at h
      · rename_i hphase
        exact ((reachable_attached hreach c).unattached (.inr hphase)).1
      · contradiction
    · exact hs.quiet hquiet (hhost hsnapshot)

theorem routed_step {c : String} {a : Action} {s t : RelayState} (hreach : relay.Reachable s)
    (hs : Routed c s) (h : act a s = some t) : Routed c t := by
  rcases a with hostId | ⟨c', hostId⟩ | ⟨i, a⟩ | ⟨i, a⟩ | ⟨c', a⟩ | ⟨c', a⟩ | ⟨i, a⟩
  case hostConnects =>
      cases h
      have hidle := (reachable_allocated hreach).fresh s.nextInstance le_rfl
      refine hs.quiet ((RoutesNothing.allocate _).trans (.setHost ?_ ?_)) rfl
      · exact id
      · simp [pending, hidle]
  case clientConnects =>
      dsimp only [act] at h
      split at h
      · cases h
        refine hs.quiet ((RoutesNothing.start _).trans (.setClient fun heq => ?_)) ?_
        · subst heq
          exact ⟨rfl, rfl, id⟩
        · rcases eq_or_ne c c' with rfl | hne
          · simp
          · simp [hne]
      · contradiction
  case host => exact hs.hostAct h
  case hostWriter =>
      obtain ⟨toHost, writer, up, rfl, -⟩ := hostWriterAct_frame h
      refine hs.quiet (.trans (.setPc ?_) (.setHost ?_ ?_)) rfl
      · rfl
      · exact id
      · rfl
  case client =>
      rcases eq_or_ne c c' with rfl | hne
      · exact hs.clientAct hreach h
      · have hframe := clientAct_frame h
        have hclient := hframe.client c hne
        refine hs.quiet ⟨by rw [hclient], by rw [hclient], by rw [hclient]; exact id,
          fun j => (hframe.clients j c hne).mp, fun j => ?_, fun j => ?_⟩ (by rw [hclient])
        · obtain ⟨toHost, clients, heq⟩ := hframe.host j
          rw [heq]
        · rw [payloadsRead, payloadsRead, hframe.pc]
  case phone =>
      obtain ⟨hasSender, l, hl, rfl⟩ := phoneAct_eq h
      have hframe := writerAct_frame hl
      refine hs.quiet (.setClient fun heq => ?_) ?_
      · subst heq
        refine ⟨hframe.fast, hframe.bulk, fun hfinished => ?_⟩
        rw [writerAct_finished hfinished] at hl
        contradiction
      · rcases eq_or_ne c c' with rfl | hne
        · simpa using hframe.host
        · simp [hne]
  case pc =>
      obtain ⟨p, hact, rfl⟩ := pcAct_eq h
      refine hs.quiet (.setPc ?_) rfl
      rw [pcAct_down_taken hact]
      rfl

theorem reachable_routed {s : RelayState} (hs : relay.Reachable s) (c : String) :
    Routed c s := by
  induction hs with
  | init hinit =>
      cases hinit
      refine ⟨?_, ?_, ?_, ?_, ?_, ?_, ?_, ?_⟩ <;> simp [pending, Queue.sent]
  | step hreach hstep ih => exact routed_step hreach ih hstep

/-! ### What a phone's writer delivers -/

/-- A frame whose text, if it is one, is UTF-8. -/
def Deliverable (out : PhoneOut) : Prop :=
  (toMessage? out.text out.bytes).isSome = true

/-- The frames on the WebSocket, and the one in hand, are all that the writer took from the
bulk queue and some of what it took from the fast queue. -/
def Written (l : ClientLoop) : Prop :=
  match l.writer with
  | .closing | .finished =>
      (outs l.toPhone).filter (·.mustDeliver) <+: l.bulk.taken ∧
        ((outs l.toPhone).filter fun out => !out.mustDeliver).Sublist l.fast.taken
  | .sending out =>
      Deliverable out ∧ (outs l.toPhone ++ [out]).filter (·.mustDeliver) = l.bulk.taken ∧
        ((outs l.toPhone ++ [out]).filter fun out => !out.mustDeliver).Sublist l.fast.taken
  | _ =>
      (outs l.toPhone).filter (·.mustDeliver) = l.bulk.taken ∧
        ((outs l.toPhone).filter fun out => !out.mustDeliver).Sublist l.fast.taken

theorem Written.parts {l : ClientLoop} (h : Written l) :
    (outs l.toPhone).filter (·.mustDeliver) <+: l.bulk.taken ∧
      ((outs l.toPhone).filter fun out => !out.mustDeliver).Sublist l.fast.taken := by
  unfold Written at h
  split at h
  · exact h
  · exact h
  · rw [filter_concat, filter_concat] at h
    obtain ⟨-, hbulk, hfast⟩ := h
    refine ⟨?_, (List.sublist_append_left ..).trans hfast⟩
    rw [← hbulk]
    exact List.prefix_append ..
  · exact ⟨h.1 ▸ List.prefix_refl _, h.2⟩

theorem outs_append_pong (toPhone : List ToPhone) (payload : Bytes) :
    outs (toPhone ++ [.pong payload]) = outs toPhone := by
  simp [outs]

theorem outs_sendToPhone {toPhone : List ToPhone} {out : PhoneOut} (h : Deliverable out) :
    outs (sendToPhone toPhone out) = outs toPhone ++ [out] := by
  obtain ⟨m, hm⟩ := Option.isSome_iff_exists.mp h
  simp [sendToPhone, hm, outs]

theorem Written.congr {l l' : ClientLoop} (h : Written l) (hwriter : l'.writer = l.writer)
    (htoPhone : l'.toPhone = l.toPhone) (hfast : l'.fast.taken = l.fast.taken)
    (hbulk : l'.bulk.taken = l.bulk.taken) : Written l' := by
  unfold Written
  rw [hwriter, htoPhone, hfast, hbulk]
  exact h

theorem Written.writerAct {l l' : ClientLoop} {hasSender : Bool} {a : PhoneAction}
    (hs : Written l)
    (hfast : ∀ out ∈ l.fast.waiting, out.mustDeliver = false ∧ Deliverable out)
    (hbulk : ∀ out ∈ l.bulk.waiting, out.mustDeliver = true ∧ Deliverable out)
    (h : l.writerAct hasSender a = some l') : Written l' := by
  have hparts := hs.parts
  unfold ClientLoop.writerAct at h
  split at h
  · rename_i hwriter
    simp only [Written, hwriter] at hs
    split at h
    · cases h
      simpa only [Written] using hs
    · split at h
      · cases h
        simpa only [Written] using hs
      · cases h
        simpa only [Written] using hparts
  · rename_i hwriter
    simp only [Written, hwriter] at hs
    split at h
    · rename_i out fast hpop
      obtain ⟨hmay, hdeliverable⟩ := hfast out (by simp [Queue.pop?_waiting hpop])
      cases h
      simp only [Written]
      rw [filter_concat, filter_concat, Queue.pop?_taken hpop]
      refine ⟨hdeliverable, ?_, ?_⟩
      · simpa [hmay] using hs.1
      · simpa [hmay] using hs.2.append_right [out]
    · split at h
      · cases h
        simpa only [Written] using hs
      · cases h
        simpa only [Written] using hparts
  · rename_i hwriter
    simp only [Written, hwriter] at hs
    split at h
    · rename_i out bulk hpop
      obtain ⟨hmust, hdeliverable⟩ := hbulk out (by simp [Queue.pop?_waiting hpop])
      cases h
      simp only [Written]
      rw [filter_concat, filter_concat, Queue.pop?_taken hpop]
      refine ⟨hdeliverable, ?_, ?_⟩
      · simp [hmust, hs.1]
      · simpa [hmust] using hs.2
    · split at h
      · cases h
        simpa only [Written] using hs
      · cases h
        simpa only [Written] using hparts
  · rename_i hwriter
    simp only [Written, hwriter] at hs
    cases h
    simpa only [Written, outs_append_pong] using hs
  · rename_i out hwriter
    simp only [Written, hwriter] at hs
    cases h
    simpa only [Written, outs_sendToPhone hs.1] using hs.2
  · rename_i flushed payload hwriter
    cases h
    simp only [Written]
    split
    · rwa [outs_append_pong]
    · exact hparts
  · rename_i flushed out hwriter
    simp only [Written, hwriter] at hs
    cases h
    simp only [Written]
    split
    · rw [outs_sendToPhone hs.1, hs.2.1]
      exact ⟨List.prefix_refl _, hs.2.2⟩
    · exact hparts
  · rename_i hwriter
    simp only [Written, hwriter] at hs
    cases h
    simpa only [Written] using hs
  · contradiction

theorem deliverable_of_mem_routable {s : RelayState} (hs : relay.Reachable s) {i : Nat}
    {c : String} {out : PhoneOut} (h : out ∈ routable s i c) : Deliverable out := by
  obtain ⟨k, hk, rfl⟩ := List.mem_mapIdx.mp h
  have hmem := (payloadsRead_isPrefix hs i c).subset (List.getElem_mem hk)
  obtain ⟨frame, hframe, hpayload⟩ := List.mem_filterMap.mp hmem
  obtain ⟨c', text, payload, rfl, hvalid, -⟩ := (reachable_emits hs i).frames frame hframe
  dsimp only at hpayload
  split at hpayload
  · rw [Deliverable, ← Option.some.inj hpayload]
    exact hvalid
  · contradiction

theorem waiting_kinds {s : RelayState} (hs : relay.Reachable s) (c : String) :
    (∀ out ∈ (s.client c).fast.waiting, out.mustDeliver = false ∧ Deliverable out) ∧
      ∀ out ∈ (s.client c).bulk.waiting, out.mustDeliver = true ∧ Deliverable out := by
  have hrouted := reachable_routed hs c
  rcases hhost : (s.client c).host with _ | i
  · obtain ⟨hfast, hbulk⟩ := hrouted.unattached hhost
    rw [Queue.sent, List.append_eq_nil_iff] at hfast hbulk
    simp [hfast.2, hbulk.2]
  · refine ⟨fun out hmem => ?_, fun out hmem => ?_⟩
    · have hin := (hrouted.fast i hhost).subset (List.mem_append_right _ hmem)
      rw [List.mem_filter] at hin
      exact ⟨by simpa using hin.2, deliverable_of_mem_routable hs hin.1⟩
    · have hin := (hrouted.bulk i hhost).subset (List.mem_append_right _ hmem)
      rw [List.mem_filter] at hin
      exact ⟨hin.2, deliverable_of_mem_routable hs hin.1⟩

theorem reachable_written {s : RelayState} (hs : relay.Reachable s) (c : String) :
    Written (s.client c) := by
  induction hs with
  | init hinit =>
      cases hinit
      simp [Written, outs]
  | @step s t a hreach hstep ih =>
      have hunspawned := reachable_unspawned hreach c
      have hchange := clientChange_of_act hstep (idle_of_not_started hreach (c := c))
      generalize t.client c = l at hchange ⊢
      rcases hchange with _ | ⟨fast, bulk, hfast, hbulk⟩ | ⟨_, hloop⟩ | ⟨hasSender, a, _, hwrite⟩
      · exact ih
      · exact ih.congr rfl rfl hfast hbulk
      · rcases hloop.writer with hwriter | ⟨hbefore, hwriter⟩
        · exact ih.congr hwriter hloop.toPhone (by rw [hloop.fast]) (by rw [hloop.bulk])
        · simp only [Written, hunspawned hbefore] at ih
          simp only [Written, hwriter]
          rwa [hloop.toPhone, hloop.fast, hloop.bulk]
      · obtain ⟨hfast, hbulk⟩ := waiting_kinds hreach c
        exact ih.writerAct hfast hbulk hwrite

/-! ### The downlink -/

theorem routable_prefix_emitted {s : RelayState} (hs : relay.Reachable s) (i : Nat)
    (c : String) : routable s i c <+: emitted s i c :=
  numbered_isPrefix (payloadsRead_isPrefix hs i c)

/-- In every interleaving, and however full the queues are, a phone receives all text and FILE
frames emitted for it up to some point, some of the other frames in their order, and no frame
that was emitted for another phone. -/
theorem reachable_faithfulDownlink {s : RelayState} (hs : relay.Reachable s) (c : String) :
    FaithfulDownlink s c := by
  have hrouted := reachable_routed hs c
  obtain ⟨hbulk, hfast⟩ := (reachable_written hs c).parts
  refine ⟨fun i hi => ?_, fun i hi => ?_, fun hnone => ?_⟩
  · exact hbulk.trans ((Queue.taken_prefix_sent _).trans
      ((hrouted.bulk i hi).trans ((routable_prefix_emitted hs i c).filter _)))
  · exact hfast.trans ((Queue.taken_prefix_sent _).sublist.trans
      ((hrouted.fast i hi).trans ((routable_prefix_emitted hs i c).sublist.filter _)))
  · obtain ⟨hfastSent, hbulkSent⟩ := hrouted.unattached hnone
    rw [Queue.sent, List.append_eq_nil_iff] at hfastSent hbulkSent
    rw [hbulkSent.1, List.prefix_nil, List.filter_eq_nil_iff] at hbulk
    rw [hfastSent.1, List.sublist_nil, List.filter_eq_nil_iff] at hfast
    rw [List.eq_nil_iff_forall_not_mem]
    intro out hmem
    rcases hmust : out.mustDeliver
    · exact hfast out hmem (by simp [hmust])
    · exact hbulk out hmem hmust

/-! ### A text and a video frame -/

/-- The PC is told to open the session of the phone. -/
def openSession : List Action :=
  [.hostWriter 0 .recv, .hostWriter 0 .sent, .pc 0 .read]

/-- The pump emits a text, and the relay puts it into the bulk queue. -/
def emitText (text : String) : List Action :=
  [.pc 0 (.produce phoneId .control (.text text)), .pc 0 (.pump phoneId),
    .pc 0 .writerRecv, .pc 0 .writerSent, .host 0 .read, .host 0 .push]

/-- The pump finds no control message and emits a video frame, and the relay puts it into the
fast queue. -/
def emitVideo (frame : Bytes) : List Action :=
  [.pc 0 (.produce phoneId .video (.binary frame)), .pc 0 (.pump phoneId),
    .pc 0 (.pump phoneId), .pc 0 .writerRecv, .pc 0 .writerSent, .host 0 .read]

/-- The phone's writer finds no pong and takes from the fast queue. -/
def deliverFast : List Action :=
  [.phone phoneId .poll, .phone phoneId .poll, .phone phoneId .sent]

/-- The phone's writer finds neither a pong nor a fast frame and takes from the bulk queue. -/
def deliverBulk : List Action :=
  [.phone phoneId .poll, .phone phoneId .poll, .phone phoneId .poll, .phone phoneId .sent]

theorem reachable_faithfulDownlink_both : ∃ s, relay.Reachable s ∧
    delivered s phoneId = [⟨[1, 9], false, 1⟩, ⟨[104, 105], true, 0⟩] ∧
      FaithfulDownlink s phoneId := by
  have hrun : (follow act (attachPhone ++ openSession ++ emitText "hi" ++ emitVideo [1, 9] ++
      deliverFast ++ deliverBulk) {}).map (fun s => delivered s phoneId) =
        some [⟨[1, 9], false, 1⟩, ⟨[104, 105], true, 0⟩] := by
    decide +kernel
  obtain ⟨s, hs, hdelivered⟩ := Option.map_eq_some_iff.mp hrun
  have hreach := reachable_of_actions hs
  exact ⟨s, hreach, hdelivered, reachable_faithfulDownlink hreach phoneId⟩

end RemoteControl.Relay.Downlink
