import RemoteControl.Server.Pool
import RemoteControl.Server.SlotFrame

/-!
The slot of the file-send bridge (`server-pc/src/file_send.rs`): who is in it while any number of
connections authenticate, register, are overwritten and leave.
-/

namespace RemoteControl.Server.BridgeSlot

open RemoteControl.Foundations.Custody
open RemoteControl.Foundations.Interference
open RemoteControl.Foundations.Interference.Task
open RemoteControl.Foundations.Transition
open RemoteControl.Foundations.Transition.System
open RemoteControl.Server.Stores
open RemoteControl.Server.Connection
open RemoteControl.Server.Loop
open RemoteControl.Server.Frame
open RemoteControl.Server.Pool
open RemoteControl.Server.SlotFrame

/-! ### One connection -/

/-- How far a connection has come with the bridge, and the instance id it was given. -/
inductive Standing where
  | unregistered
  | allocated (n : UInt64)
  | registered (n : UInt64)
  | deregistered (n : UInt64)

/-- Its `bridge_registration`. -/
def Standing.registration : Standing → Option BridgeRegistration
  | .registered n => some ⟨n⟩
  | _ => none

structure Fitting (k : Standing) (c : Conn) : Prop where
  registration : c.bridgeRegistration = k.registration
  authenticated : k ≠ .unregistered → c.authenticated = true

/-- What a section does with the bridge. -/
inductive Deed (connId : Nat) (bridge bridge' : FileSendBridge) : Standing → Standing → Prop
  | settled {k : Standing} :
      bridge'.slot = bridge.slot → bridge'.nextInstance = bridge.nextInstance →
      Deed connId bridge bridge' k k
  | allocated :
      bridge'.slot = bridge.slot → bridge'.nextInstance = bridge.nextInstance + 1 →
      Deed connId bridge bridge' .unregistered (.allocated bridge.nextInstance)
  | registered {n : UInt64} :
      bridge'.slot = some (n, connId) → bridge'.nextInstance = bridge.nextInstance →
      Deed connId bridge bridge' (.allocated n) (.registered n)
  | deregistered {n : UInt64} :
      bridge' = bridge.deregister ⟨n⟩ →
      Deed connId bridge bridge' (.registered n) (.deregistered n)

structure Acted (k : Standing) (s : St) (k' : Standing) (s' : St) : Prop where
  deed : Deed s.conn.connId s.world.bridge s'.world.bridge k k'
  connId : s'.conn.connId = s.conn.connId
  before : Fitting k s.conn
  after : Fitting k' s'.conn

/-- The others leave the locals of this connection alone, and that is all it needs. -/
def discipline : Discipline St Standing where
  rely _ s s' := s'.conn = s.conn
  act := Acted
  next _ _ := True

/-- At the select. -/
def Idle (k : Standing) (s : St) : Prop :=
  Fitting k s.conn ∧ (k = .unregistered ∨ ∃ n, k = .registered n)

/-- After the teardown. -/
def Gone (k : Standing) (s : St) : Prop :=
  Fitting k s.conn ∧ (k = .unregistered ∨ ∃ n, k = .deregistered n)

variable {k : Standing} {s s' : St}

theorem Fitting.settled (h : Fitting k s.conn) (hsettled : Settled s s') : Fitting k s'.conn :=
  ⟨hsettled.registration.trans h.registration,
    fun hk => hsettled.authenticated (h.authenticated hk)⟩

theorem Fitting.of_conn_eq (h : Fitting k s.conn) (hconn : s'.conn = s.conn) :
    Fitting k s'.conn := by
  rw [hconn]
  exact h

theorem keeps_settled {α : Type} {t : Handler α} (ht : Guarantees Settled t)
    (h : Fitting k s.conn) :
    Keeps discipline (fun k' _ s' => k' = k ∧ Fitting k s'.conn) t k s := by
  refine keeps_of_guarantees (D := discipline) (I := fun k s => Fitting k s.conn) ht
    (fun _ => trivial) (fun h hconn => h.of_conn_eq hconn) (fun h hsettled => ?_) h
  have hafter := h.settled hsettled
  exact ⟨⟨.settled hsettled.slot hsettled.nextInstance, hsettled.connId, h, hafter⟩, hafter⟩

theorem keeps_then {α β : Type} {post : Standing → β → St → Prop} {t : Handler α}
    {f : α → Handler β} (ht : Guarantees Settled t) (h : Fitting k s.conn)
    (hf : ∀ a s', Fitting k s'.conn → Keeps discipline post (f a) k s') :
    Keeps discipline post (t >>= f) k s := by
  refine (keeps_settled ht h).bind ?_
  rintro k' a s' ⟨rfl, hfitting⟩
  exact hf a s' hfitting

theorem keeps_conn {β : Type} {post : Standing → β → St → Prop} {f : Conn → Handler β}
    (h : Fitting k s.conn)
    (hf : ∀ s', Fitting k s'.conn → Keeps discipline post (f s'.conn) k s') :
    Keeps discipline post (.read St.conn >>= f) k s := by
  have hread : Keeps discipline (fun k' c s' => k' = k ∧ c = s'.conn ∧ Fitting k s'.conn)
      (.read St.conn) k s := by
    refine keeps_read trivial fun found hfound => ?_
    have hkept := h.of_conn_eq hfound
    exact ⟨k, ⟨.settled rfl rfl, rfl, hkept, hkept⟩, rfl, rfl, hkept⟩
  refine hread.bind ?_
  rintro k' c s' ⟨rfl, rfl, hkept⟩
  exact hf s' hkept

/-- Between the two sections of `register`. -/
def Allocated (k : Standing) (n : UInt64) (s : St) : Prop :=
  k = .allocated n ∧ Fitting k s.conn

theorem registerBridgeOnce_keeps (h : Idle k s) :
    Keeps discipline (fun k _ s => Idle k s) registerBridgeOnce k s := by
  obtain ⟨hfitting, hidle⟩ := h
  refine keeps_conn hfitting fun s' hkept => ?_
  split
  · next hcond =>
      obtain ⟨hauth, hnone⟩ : s'.conn.authenticated = true ∧
          s'.conn.bridgeRegistration = none := by
        simpa using hcond
      obtain rfl : k = .unregistered := by
        refine hidle.resolve_right ?_
        rintro ⟨n, rfl⟩
        rw [hkept.registration] at hnone
        cases hnone
      refine Keeps.bind (show Keeps discipline Allocated _ _ _ from ?_) ?_
      · refine keeps_critical trivial fun found hfound => ?_
        have hconn : found.conn = s'.conn := hfound
        have hafter : Fitting (.allocated found.world.bridge.nextInstance) found.conn :=
          ⟨by rw [hconn]; exact hnone, fun _ => by rw [hconn]; exact hauth⟩
        exact ⟨_, ⟨.allocated rfl rfl, rfl, hkept.of_conn_eq hconn, hafter⟩, rfl, hafter⟩
      · rintro _ n s'' ⟨rfl, hallocated⟩
        refine keeps_modify trivial fun found hfound => ?_
        have hbefore : Fitting (.allocated n) found.conn := hallocated.of_conn_eq hfound
        have hafter : Fitting (.registered n)
            { found.conn with
              bridgeRegistration := some ⟨n⟩
              effects := found.conn.effects ++ [.registerBridge] } :=
          ⟨rfl, fun _ => hbefore.authenticated (by simp)⟩
        exact ⟨.registered n, ⟨.registered rfl rfl, rfl, hbefore, hafter⟩, hafter, .inr ⟨n, rfl⟩⟩
  · exact keeps_pure ⟨hkept, hidle⟩

theorem iteration_keeps {crates : Crates} {cfg : Config} {os : Answers} {event : Event}
    (h : Idle k s) :
    Keeps discipline (fun k _ s => Idle k s) (iteration crates cfg os event) k s := by
  refine keeps_then (handleEvent_settled crates cfg os event) h.1 fun flow s' hfitting => ?_
  have hidle : Idle k s' := ⟨hfitting, h.2⟩
  cases flow with
  | stop => exact keeps_pure hidle
  | restart => exact keeps_pure hidle
  | fallThrough =>
      exact (registerBridgeOnce_keeps hidle).bind fun _ _ _ hidle => keeps_pure hidle

theorem deregisterBridge_keeps (h : Idle k s) :
    Keeps discipline (fun k _ s => Gone k s) deregisterBridge k s := by
  obtain ⟨hfitting, hidle⟩ := h
  refine keeps_conn hfitting fun s' hkept => ?_
  rcases hidle with rfl | ⟨n, rfl⟩
  · rw [hkept.registration]
    exact keeps_pure ⟨hkept, .inl rfl⟩
  · rw [hkept.registration]
    refine keeps_modify trivial fun found hfound => ?_
    have hbefore : Fitting (.registered n) found.conn := hkept.of_conn_eq hfound
    have hafter : Fitting (.deregistered n) { found.conn with bridgeRegistration := none } :=
      ⟨rfl, fun _ => hbefore.authenticated (by simp)⟩
    exact ⟨.deregistered n, ⟨.deregistered rfl, rfl, hbefore, hafter⟩, hafter, .inr ⟨n, rfl⟩⟩

theorem teardown_keeps {os : Answers} (h : Idle k s) :
    Keeps discipline (fun k _ s => Gone k s) (teardown os) k s := by
  refine keeps_then stopActiveStream_settled h.1 fun _ s₁ h₁ => ?_
  refine keeps_then (drainTransfers_settled os) h₁ fun _ s₂ h₂ => ?_
  refine keeps_then (drainSends_settled os) h₂ fun _ s₃ h₃ => ?_
  exact deregisterBridge_keeps ⟨h₃, h.2⟩

def rules (crates : Crates) (cfg : Config) : Rules crates cfg Standing where
  toDiscipline := discipline
  idle := Idle
  gone := Gone
  allowed _ := True
  admits _ _ := True
  rely_trans h h' := h'.trans h
  idle_stable h hconn := ⟨h.1.of_conn_eq hconn, h.2⟩
  gone_stable h hconn := ⟨h.1.of_conn_eq hconn, h.2⟩
  iteration_keeps _ _ h := iteration_keeps h
  teardown_keeps _ h := teardown_keeps h

/-! ### Histories -/

/-- The registration that a section makes: the instance id and the connection. -/
def registers : Act → Option (UInt64 × Nat)
  | .step i (.section found left) =>
      match found.conn.bridgeRegistration, left.conn.bridgeRegistration with
      | none, some reg => some (reg.instanceId, i)
      | _, _ => none
  | _ => none

def deregisters : Act → Option Nat
  | .step i (.section found left) =>
      match found.conn.bridgeRegistration, left.conn.bridgeRegistration with
      | some _, none => some i
      | _, _ => none
  | _ => none

/-- The instance id that a section takes from the counter. -/
def allocates : Act → Option (UInt64 × Nat)
  | .step i (.section found left) =>
      if left.world.bridge.nextInstance = found.world.bridge.nextInstance then none
      else some (found.world.bridge.nextInstance, i)
  | _ => none

def registrations (acts : List Act) : List (UInt64 × Nat) :=
  acts.filterMap registers

def deregistrations (acts : List Act) : List Nat :=
  acts.filterMap deregisters

def allocations (acts : List Act) : List (UInt64 × Nat) :=
  acts.filterMap allocates

/-- The instance id that a connection was given. -/
def Standing.instanceId : Standing → Option UInt64
  | .unregistered => none
  | .allocated n | .registered n | .deregistered n => some n

/-- The slot and the counter agree with the history and with how far each connection has come;
`first` is the first instance id. -/
structure Ledger (first : UInt64) (K : Nat → Standing) (acts : List Act)
    (bridge : FileSendBridge) : Prop where
  counted : (allocations acts).map Prod.fst =
    (List.range (allocations acts).length).map fun t => first + UInt64.ofNat t
  next : bridge.nextInstance = first + UInt64.ofNat (allocations acts).length
  allocated : ∀ i n, (K i).instanceId = some n → (n, i) ∈ allocations acts
  registered : ∀ i n, (n, i) ∈ registrations acts ↔ K i = .registered n ∨ K i = .deregistered n
  deregistered : ∀ i, i ∈ deregistrations acts ↔ ∃ n, K i = .deregistered n
  once : ((registrations acts).map Prod.snd).Nodup
  slot : ∀ n i, bridge.slot = some (n, i) ↔
    (registrations acts).getLast? = some (n, i) ∧ i ∉ deregistrations acts

variable {first : UInt64} {K : Nat → Standing} {acts : List Act} {bridge : FileSendBridge}

theorem Ledger.start (hslot : bridge.slot = none) :
    Ledger bridge.nextInstance (fun _ => .unregistered) [] bridge := by
  refine ⟨rfl, (UInt64.add_zero _).symm, by simp [Standing.instanceId], by simp [registrations],
    by simp [deregistrations], by simp [registrations], ?_⟩
  simp [registrations, hslot]

theorem Ledger.injective (h : Ledger first K acts bridge)
    (hfew : (allocations acts).length ≤ 2 ^ 64) {n : UInt64} {i j : Nat}
    (hi : (n, i) ∈ allocations acts) (hj : (n, j) ∈ allocations acts) : i = j := by
  have hnodup : ((allocations acts).map Prod.fst).Nodup := by
    rw [h.counted]
    refine List.Nodup.map_on (fun t ht u hu heq => ?_) List.nodup_range
    have ht := List.mem_range.mp ht
    have hu := List.mem_range.mp hu
    have hsame := congrArg UInt64.toNat ((UInt64.add_right_inj first).mp heq)
    rw [UInt64.toNat_ofNat', UInt64.toNat_ofNat', Nat.mod_eq_of_lt (by omega),
      Nat.mod_eq_of_lt (by omega)] at hsame
    exact hsame
  exact congrArg Prod.snd (List.inj_on_of_nodup_map hnodup hi hj rfl)

theorem Ledger.holder_eq (h : Ledger first K acts bridge)
    (hfew : (allocations acts).length ≤ 2 ^ 64) {n : UInt64} {i j : Nat}
    (hi : (K i).instanceId = some n) (hj : (K j).instanceId = some n) : i = j :=
  h.injective hfew (h.allocated i n hi) (h.allocated j n hj)

theorem Ledger.standing (h : Ledger first K acts bridge) {n : UInt64} {i : Nat}
    (hslot : bridge.slot = some (n, i)) : K i = .registered n := by
  obtain ⟨hlast, hstill⟩ := (h.slot n i).mp hslot
  refine ((h.registered i n).mp (List.mem_of_getLast? hlast)).resolve_right fun hgone => ?_
  exact hstill ((h.deregistered i).mpr ⟨n, hgone⟩)

theorem registrations_snoc (acts : List Act) (act : Act) :
    registrations (acts ++ [act]) = registrations acts ++ (registers act).toList := by
  rcases h : registers act with _ | entry <;> simp [registrations, List.filterMap_append, h]

theorem deregistrations_snoc (acts : List Act) (act : Act) :
    deregistrations (acts ++ [act]) = deregistrations acts ++ (deregisters act).toList := by
  rcases h : deregisters act with _ | entry <;> simp [deregistrations, List.filterMap_append, h]

theorem allocations_snoc (acts : List Act) (act : Act) :
    allocations (acts ++ [act]) = allocations acts ++ (allocates act).toList := by
  rcases h : allocates act with _ | entry <;> simp [allocations, List.filterMap_append, h]

theorem Ledger.quiet (h : Ledger first K acts bridge) {act : Act} {bridge' : FileSendBridge}
    (hslot : bridge'.slot = bridge.slot) (hnext : bridge'.nextInstance = bridge.nextInstance)
    (hregisters : registers act = none) (hderegisters : deregisters act = none)
    (hallocates : allocates act = none) : Ledger first K (acts ++ [act]) bridge' := by
  constructor <;>
    simp only [registrations_snoc, deregistrations_snoc, allocations_snoc, hregisters,
      hderegisters, hallocates, Option.toList_none, List.append_nil, hslot, hnext]
  · exact h.counted
  · exact h.next
  · exact h.allocated
  · exact h.registered
  · exact h.deregistered
  · exact h.once
  · exact h.slot

section

variable {i : Nat} {k' : Standing} {act : Act} {bridge' : FileSendBridge} {n : UInt64}

theorem Ledger.allocate (h : Ledger first K acts bridge) (hK : K i = .unregistered)
    (hslot : bridge'.slot = bridge.slot) (hnext : bridge'.nextInstance = bridge.nextInstance + 1)
    (hregisters : registers act = none) (hderegisters : deregisters act = none)
    (hallocates : allocates act = some (bridge.nextInstance, i)) :
    Ledger first (Function.update K i (.allocated bridge.nextInstance)) (acts ++ [act])
      bridge' := by
  have hother (k : Standing) (hk : k ≠ .unregistered)
      (hk' : k ≠ .allocated bridge.nextInstance) (j : Nat) :
      Function.update K i (.allocated bridge.nextInstance) j = k ↔ K j = k := by
    rcases eq_or_ne j i with rfl | hne
    · rw [Function.update_self, hK]
      exact iff_of_false hk'.symm hk.symm
    · rw [Function.update_of_ne hne]
  constructor <;>
    simp only [registrations_snoc, deregistrations_snoc, allocations_snoc, hregisters,
      hderegisters, hallocates, Option.toList_none, Option.toList_some, List.append_nil, hslot,
      hnext]
  · rw [List.length_append, List.length_singleton, List.range_succ, List.map_append,
      List.map_append, h.counted, h.next]
    rfl
  · rw [List.length_append, List.length_singleton, UInt64.ofNat_add, ← UInt64.add_assoc, h.next]
    rfl
  · intro j m hm
    rcases eq_or_ne j i with rfl | hne
    · rw [Function.update_self] at hm
      obtain rfl := Option.some.inj hm
      exact List.mem_append_right _ (List.mem_singleton_self _)
    · rw [Function.update_of_ne hne] at hm
      exact List.mem_append_left _ (h.allocated j m hm)
  · intro j m
    rw [h.registered, hother _ (by simp) (by simp), hother _ (by simp) (by simp)]
  · intro j
    rw [h.deregistered]
    exact exists_congr fun m => (hother _ (by simp) (by simp) j).symm
  · exact h.once
  · exact h.slot

theorem Ledger.register (h : Ledger first K acts bridge) (hK : K i = .allocated n)
    (hslot : bridge'.slot = some (n, i)) (hnext : bridge'.nextInstance = bridge.nextInstance)
    (hregisters : registers act = some (n, i)) (hderegisters : deregisters act = none)
    (hallocates : allocates act = none) :
    Ledger first (Function.update K i (.registered n)) (acts ++ [act]) bridge' := by
  have hnever (m : UInt64) : (m, i) ∉ registrations acts := by
    rw [h.registered, hK]
    simp
  have hstays : i ∉ deregistrations acts := by
    rw [h.deregistered, hK]
    simp
  constructor <;>
    simp only [registrations_snoc, deregistrations_snoc, allocations_snoc, hregisters,
      hderegisters, hallocates, Option.toList_none, Option.toList_some, List.append_nil, hslot,
      hnext]
  · exact h.counted
  · exact h.next
  · intro j m hm
    rcases eq_or_ne j i with rfl | hne
    · rw [Function.update_self] at hm
      refine h.allocated j m ?_
      rw [hK]
      exact hm
    · rw [Function.update_of_ne hne] at hm
      exact h.allocated j m hm
  · intro j m
    rw [List.mem_append, List.mem_singleton]
    rcases eq_or_ne j i with rfl | hne
    · rw [Function.update_self]
      simp [hnever m, eq_comm]
    · rw [Function.update_of_ne hne, h.registered]
      simp [hne]
  · intro j
    rcases eq_or_ne j i with rfl | hne
    · rw [Function.update_self]
      simp [hstays]
    · rw [Function.update_of_ne hne]
      exact h.deregistered j
  · rw [List.map_append, List.map_singleton, List.nodup_append]
    refine ⟨h.once, List.nodup_singleton _, fun j hj j' hj' heq => ?_⟩
    obtain ⟨entry, hmem, hentry⟩ := List.mem_map.mp hj
    have hi : entry.2 = i := (hentry.trans heq).trans (List.mem_singleton.mp hj')
    refine hnever entry.1 ?_
    rw [← hi]
    exact hmem
  · intro m j
    rw [List.getLast?_concat]
    refine ⟨fun heq => ⟨heq, ?_⟩, And.left⟩
    have hj : i = j := congrArg Prod.snd (Option.some.inj heq)
    rw [← hj]
    exact hstays

theorem Ledger.deregister_slot (h : Ledger first K acts bridge)
    (hfew : (allocations acts).length ≤ 2 ^ 64) (hK : K i = .registered n) (m : UInt64) (j : Nat) :
    (bridge.deregister ⟨n⟩).slot = some (m, j) ↔ bridge.slot = some (m, j) ∧ j ≠ i := by
  rcases hslot : bridge.slot with _ | ⟨cur, owner⟩
  · simp [FileSendBridge.deregister, hslot]
  · have howner : K owner = .registered cur := h.standing hslot
    have hsame : cur = n ↔ owner = i := by
      constructor
      · rintro rfl
        exact h.holder_eq hfew (by rw [howner]; rfl) (by rw [hK]; rfl)
      · rintro rfl
        rw [hK] at howner
        exact (Standing.registered.inj howner).symm
    by_cases hcur : cur = n
    · obtain rfl := hsame.mp hcur
      simp only [FileSendBridge.deregister, hslot, hcur, if_true, Option.some.injEq, Prod.mk.injEq]
      simp +contextual
    · have hne : owner ≠ i := fun heq => hcur (hsame.mpr heq)
      simp only [FileSendBridge.deregister, hslot, hcur, if_false, Option.some.injEq,
        Prod.mk.injEq]
      refine ⟨fun heq => ⟨heq, ?_⟩, And.left⟩
      rw [← heq.2]
      exact hne

theorem deregister_nextInstance (bridge : FileSendBridge) (reg : BridgeRegistration) :
    (bridge.deregister reg).nextInstance = bridge.nextInstance := by
  unfold FileSendBridge.deregister
  split
  · split <;> rfl
  · rfl

theorem Ledger.deregister (h : Ledger first K acts bridge)
    (hfew : (allocations acts).length ≤ 2 ^ 64) (hK : K i = .registered n)
    (hregisters : registers act = none) (hderegisters : deregisters act = some i)
    (hallocates : allocates act = none) :
    Ledger first (Function.update K i (.deregistered n)) (acts ++ [act])
      (bridge.deregister ⟨n⟩) := by
  constructor <;>
    simp only [registrations_snoc, deregistrations_snoc, allocations_snoc, hregisters,
      hderegisters, hallocates, Option.toList_none, Option.toList_some, List.append_nil]
  · exact h.counted
  · rw [deregister_nextInstance]
    exact h.next
  · intro j m hm
    rcases eq_or_ne j i with rfl | hne
    · rw [Function.update_self] at hm
      refine h.allocated j m ?_
      rw [hK]
      exact hm
    · rw [Function.update_of_ne hne] at hm
      exact h.allocated j m hm
  · intro j m
    rcases eq_or_ne j i with rfl | hne
    · rw [Function.update_self, h.registered, hK]
      simp
    · rw [Function.update_of_ne hne]
      exact h.registered j m
  · intro j
    rw [List.mem_append, List.mem_singleton]
    rcases eq_or_ne j i with rfl | hne
    · rw [Function.update_self]
      exact iff_of_true (.inr rfl) ⟨n, rfl⟩
    · rw [Function.update_of_ne hne, h.deregistered]
      simp [hne]
  · exact h.once
  · intro m j
    rw [h.deregister_slot hfew hK, h.slot, List.mem_append, List.mem_singleton, not_or, and_assoc]

/-! ### The PC -/

structure Owned (crates : Crates) (cfg : Config) (first : UInt64) (K : Nat → Standing)
    (acts : List Act) (pc : Pc) : Prop where
  follows : ∀ i m, pc.members i = some m → m.Follows (rules crates cfg) (K i) pc.world
  fitting : ∀ i m, pc.members i = some m → Fitting (K i) m.conn
  connId : ∀ i m, pc.members i = some m → m.conn.connId = i
  absent : ∀ i, pc.members i = none → K i = .unregistered
  ledger : Ledger first K acts pc.world.bridge

variable {crates : Crates} {cfg : Config} {folders : Folders} {pc pc' : Pc}

theorem Owned.start (hfresh : Fresh pc) (hslot : pc.world.bridge.slot = none) :
    Owned crates cfg pc.world.bridge.nextInstance (fun _ => .unregistered) [] pc := by
  have hmember {P : Prop} {i : Nat} {m : Member} (hm : pc.members i = some m) : P := by
    rw [hfresh.1 i] at hm
    cases hm
  exact ⟨fun _ _ => hmember, fun _ _ => hmember, fun _ _ => hmember, fun _ _ => rfl,
    .start hslot⟩

theorem Owned.put (h : Owned crates cfg first K acts pc) {acts' : List Act} {m' : Member}
    {world : World} (hfollows : m'.Follows (rules crates cfg) k' world)
    (hfitting : Fitting k' m'.conn) (hid : m'.conn.connId = i)
    (hledger : Ledger first (Function.update K i k') acts' world.bridge) :
    Owned crates cfg first (Function.update K i k') acts' (pc.put world i m') := by
  refine ⟨fun j m hm => ?_, fun j m hm => ?_, fun j m hm => ?_, fun j hnone => ?_, hledger⟩
  · rcases members_put hm with ⟨rfl, rfl⟩ | ⟨hne, hold⟩
    · rw [Function.update_self]
      exact hfollows
    · rw [Function.update_of_ne hne]
      exact (h.follows j m hold).rely rfl
  · rcases members_put hm with ⟨rfl, rfl⟩ | ⟨hne, hold⟩
    · rw [Function.update_self]
      exact hfitting
    · rw [Function.update_of_ne hne]
      exact h.fitting j m hold
  · rcases members_put hm with ⟨rfl, rfl⟩ | ⟨hne, hold⟩
    · exact hid
    · exact h.connId j m hold
  · have hne : j ≠ i := by
      rintro rfl
      simp [Pc.put] at hnone
    have hbefore : pc.members j = none := by
      simpa [Pc.put, Function.update_of_ne hne] using hnone
    rw [Function.update_of_ne hne]
    exact h.absent j hbefore

theorem Owned.of_world (h : Owned crates cfg first K acts pc) {world : World}
    {requests : Nat → Option SendRequest} {streamed : Nat → List Nat}
    (hslot : world.bridge.slot = pc.world.bridge.slot)
    (hnext : world.bridge.nextInstance = pc.world.bridge.nextInstance)
    (hregisters : registers act = none) (hderegisters : deregisters act = none)
    (hallocates : allocates act = none) :
    Owned crates cfg first K (acts ++ [act]) { pc with world, requests, streamed } :=
  ⟨fun i m hm => (h.follows i m hm).rely rfl, h.fitting, h.connId, h.absent,
    h.ledger.quiet hslot hnext hregisters hderegisters hallocates⟩

theorem Owned.moved (h : Owned crates cfg first K acts pc) {move : Move} {m' : Member}
    {world : World} (hmove : ∀ found left, move ≠ .section found left)
    (hfollows : m'.Follows (rules crates cfg) (K i) world) (hfitting : Fitting (K i) m'.conn)
    (hid : m'.conn.connId = i) (hslot : world.bridge.slot = pc.world.bridge.slot)
    (hnext : world.bridge.nextInstance = pc.world.bridge.nextInstance) :
    Owned crates cfg first K (acts ++ [.step i move]) (pc.put world i m') := by
  have hput (hledger : Ledger first (Function.update K i (K i)) (acts ++ [.step i move])
      world.bridge) := h.put hfollows hfitting hid hledger
  rw [Function.update_eq_self] at hput
  refine hput (h.ledger.quiet hslot hnext ?_ ?_ ?_)
  all_goals
    cases move with
    | «section» found left => exact absurd rfl (hmove found left)
    | select => rfl
    | settle => rfl

theorem Owned.acted (h : Owned crates cfg first K acts pc)
    (hfew : (allocations acts).length ≤ 2 ^ 64) {m m' : Member} {left : St}
    (hm : pc.members i = some m) (hacted : Acted (K i) ⟨pc.world, m.conn⟩ k' left)
    (hfollows : m'.Follows (rules crates cfg) k' left.world) (hconn : m'.conn = left.conn) :
    Owned crates cfg first (Function.update K i k')
      (acts ++ [.step i (.section ⟨pc.world, m.conn⟩ left)]) (pc.put left.world i m') := by
  obtain ⟨hdeed, hid, hbefore, hafter⟩ := hacted
  have hid : m'.conn.connId = i := by
    rw [hconn, hid]
    exact h.connId i m hm
  refine h.put hfollows (hconn ▸ hafter) hid ?_
  have hconnId : m.conn.connId = i := h.connId i m hm
  have hfound : m.conn.bridgeRegistration = (K i).registration := hbefore.registration
  have hleft : left.conn.bridgeRegistration = k'.registration := hafter.registration
  generalize hk : K i = k at hdeed hfound
  cases hdeed with
  | settled hslot hnext =>
      rw [← hk, Function.update_eq_self]
      refine h.ledger.quiet hslot hnext ?_ ?_ (if_pos hnext)
      · rw [registers, hfound, hleft]
        cases k'.registration <;> rfl
      · rw [deregisters, hfound, hleft]
        cases k'.registration <;> rfl
  | allocated hslot hnext =>
      refine h.ledger.allocate hk hslot hnext ?_ ?_ (if_neg ?_)
      · rw [registers, hfound, hleft]
        rfl
      · rw [deregisters, hfound, hleft]
        rfl
      · rw [hnext]
        simp
  | registered hslot hnext =>
      refine h.ledger.register hk (hconnId ▸ hslot) hnext ?_ ?_ (if_pos hnext)
      · rw [registers, hfound, hleft]
        rfl
      · rw [deregisters, hfound, hleft]
        rfl
  | @deregistered n hbridge =>
      have hnext : left.world.bridge.nextInstance = pc.world.bridge.nextInstance := by
        rw [hbridge]
        exact deregister_nextInstance _ _
      rw [hbridge]
      refine h.ledger.deregister hfew hk ?_ ?_ (if_pos hnext)
      · rw [registers, hfound, hleft]
        rfl
      · rw [deregisters, hfound, hleft]
        rfl

theorem dispatch_slot {alive : Nat → Bool} {cmd : FileSendCmd}
    (h : bridge.dispatch alive cmd = (.ok (), bridge')) :
    bridge'.slot = bridge.slot ∧ bridge'.nextInstance = bridge.nextInstance := by
  obtain ⟨inst, owner, -, -, rfl⟩ := dispatch_eq_ok h
  exact ⟨rfl, rfl⟩

theorem serve_slot {alive : Nat → Bool} {world world' : World} {r r' : SendRequest}
    {served : Served} (h : RequestStep alive world r served world' r') :
    world'.bridge.slot = world.bridge.slot ∧
      world'.bridge.nextInstance = world.bridge.nextInstance := by
  cases h with
  | dispatched hstage hdispatch => exact dispatch_slot hdispatch
  | _ => exact ⟨rfl, rfl⟩

theorem Owned.step (h : Owned crates cfg first K acts pc)
    (hfew : (allocations acts).length ≤ 2 ^ 64) (hstep : PcStep crates cfg folders pc act pc') :
    ∃ K', Owned crates cfg first K' (acts ++ [act]) pc' := by
  cases hstep with
  | @join i peerLabel hfree =>
      have hledger : Ledger first (Function.update K i .unregistered)
          (acts ++ [.join i peerLabel]) pc.world.bridge := by
        rw [← h.absent i hfree, Function.update_eq_self]
        exact h.ledger.quiet rfl rfl rfl rfl rfl
      have hfollows : (Member.start i peerLabel pc.world.now).Follows (rules crates cfg)
          .unregistered pc.world :=
        ⟨⟨rfl, by simp⟩, .inl rfl⟩
      exact ⟨_, h.put hfollows ⟨rfl, by simp⟩ rfl hledger⟩
  | @step i m m' move world hm hmember hdir =>
      obtain ⟨k', hacts, hfollows⟩ := (h.follows i m hm).step (fun _ => rfl) hmember
        (fun _ _ _ _ => ⟨trivial, trivial⟩) fun _ h => h
      cases hacts with
      | acted hupdate hacted hconn hlive => exact ⟨_, h.acted hfew hm hacted hfollows hconn⟩
      | stayed hmove hconn hlive =>
          refine ⟨K, h.moved hmove hfollows ?_ ?_ rfl rfl⟩
          · rw [hconn]
            exact h.fitting i m hm
          · rw [hconn]
            exact h.connId i m hm
      | returned hleaving hconn hphase hgone =>
          refine ⟨K, h.moved (by simp) hfollows ?_ ?_ rfl rfl⟩
          · rw [hconn]
            exact h.fitting i m hm
          · rw [hconn]
            exact h.connId i m hm
  | request => exact ⟨K, h.of_world rfl rfl rfl rfl rfl⟩
  | serve hr hserve => exact ⟨K, h.of_world (serve_slot hserve).1 (serve_slot hserve).2 rfl rfl rfl⟩
  | cancel hdispatch =>
      have hslot := dispatch_slot hdispatch
      exact ⟨K, h.of_world hslot.1 hslot.2 rfl rfl rfl⟩
  | cancelIgnored => exact ⟨K, h.of_world rfl rfl rfl rfl rfl⟩
  | streamerEnds => exact ⟨K, h.of_world rfl rfl rfl rfl rfl⟩
  | tick => exact ⟨K, h.of_world rfl rfl rfl rfl rfl⟩
  | rotate => exact ⟨K, h.of_world rfl rfl rfl rfl rfl⟩

theorem Owned.run {pc₀ : Pc} (hfresh : Fresh pc₀) (hslot : pc₀.world.bridge.slot = none)
    (hrun : (pool crates cfg folders).Run pc₀ acts pc)
    (hfew : (allocations acts).length ≤ 2 ^ 64) :
    ∃ first K, Owned crates cfg first K acts pc := by
  induction hrun with
  | nil => exact ⟨_, _, .start hfresh hslot⟩
  | @snoc _ pc acts act _ hstep ih =>
      have hbefore : (allocations acts).length ≤ 2 ^ 64 := by
        rw [allocations_snoc, List.length_append] at hfew
        exact (Nat.le_add_right _ _).trans hfew
      obtain ⟨first, K, howned⟩ := ih hbefore
      obtain ⟨K', hnext⟩ := howned.step hbefore hstep
      exact ⟨first, K', hnext⟩

end

/-! ### Routing -/

/-- The command that an act dispatches, where the dispatch returns `Ok`. -/
def dispatches (pc : Pc) : Act → Option FileSendCmd
  | .serve u .dispatched =>
      match pc.requests u with
      | some { name, len, spool, stage := .dispatching id, .. } => some (.send id name len spool)
      | _ => none
  | .cancel id (some _) => some (.cancel id)
  | _ => none

/-- The command is put into the queue of the connection in the slot, and into no other. -/
def Delivers (cmd : FileSendCmd) (pc pc' : Pc) : Prop :=
  ∃ n i, pc.world.bridge.slot = some (n, i) ∧ pc.alive i = true ∧
    pc'.world.bridge.commands =
      Function.update pc.world.bridge.commands i (pc.world.bridge.commands i ++ [cmd])

/-- The bridge routes only to the live, authenticated owner of the slot. -/
structure Routes (crates : Crates) (cfg : Config) (folders : Folders) (acts : List Act)
    (pc : Pc) : Prop where
  /-- In the slot is the last registration, as long as it has not been deregistered. -/
  slot : ∀ n i, pc.world.bridge.slot = some (n, i) ↔
    (registrations acts).getLast? = some (n, i) ∧ i ∉ deregistrations acts
  owner : ∀ n i, pc.world.bridge.slot = some (n, i) →
    ∃ m, pc.members i = some m ∧ m.live = true ∧ m.conn.authenticated = true
  once : ((registrations acts).map Prod.snd).Nodup
  stale : ∀ act pc' i n j, (pool crates cfg folders).step pc act pc' → deregisters act = some i →
    pc.world.bridge.slot = some (n, j) → j ≠ i → pc'.world.bridge.slot = some (n, j)
  dispatched : ∀ act pc' cmd, (pool crates cfg folders).step pc act pc' →
    dispatches pc act = some cmd → Delivers cmd pc pc'

/-- No connection, no request, and nobody in the slot. -/
def Started (pc : Pc) : Prop :=
  Fresh pc ∧ pc.world.bridge.slot = none

section

variable {crates : Crates} {cfg : Config} {folders : Folders} {pc pc' : Pc}

theorem live_of_registered {n : UInt64} {m : Member} {world : World}
    (h : m.Follows (rules crates cfg) (.registered n) world) : m.live = true := by
  unfold Member.Follows at h
  unfold Member.live
  split at h
  · next hphase => rw [hphase]
  · next hphase => rw [hphase]
  · next hphase => rw [hphase]
  · rcases h.2 with hk | ⟨m, hk⟩ <;> cases hk

theorem registers_eq_none {act : Act} {i : Nat} (h : deregisters act = some i) :
    registers act = none := by
  unfold deregisters at h
  split at h
  · next found left =>
      split at h
      · next hfound hleft => rw [registers, hfound, hleft]
      · cases h
  · cases h

theorem delivers_of_step {act : Act} {cmd : FileSendCmd}
    (hstep : PcStep crates cfg folders pc act pc') (h : dispatches pc act = some cmd) :
    Delivers cmd pc pc' := by
  cases hstep with
  | @serve u r r' served world hr hserve =>
      cases hserve with
      | dispatched hstage hdispatch =>
          obtain ⟨n, owner, hslot, halive, rfl⟩ := dispatch_eq_ok hdispatch
          obtain ⟨name, len, spool, stage, sentTo, sentId⟩ := r
          obtain rfl := hstage
          simp only [dispatches, hr, Option.some.injEq] at h
          obtain rfl := h
          exact ⟨n, owner, hslot, halive, rfl⟩
      | _ => cases h
  | cancel hdispatch =>
      obtain ⟨n, owner, hslot, halive, rfl⟩ := dispatch_eq_ok hdispatch
      rw [hslot] at h
      obtain rfl := Option.some.inj h
      exact ⟨n, owner, hslot, halive, rfl⟩
  | _ => cases h

/-- In every run of the PC in which the bridge hands out no more than 2^64 instance ids, commands
are routed to the live, authenticated connection that registered last and not to any other. -/
theorem slot_routes_to_owner {pc₀ : Pc} {acts : List Act} (hstarted : Started pc₀)
    (hrun : (pool crates cfg folders).Run pc₀ acts pc)
    (hfew : (allocations acts).length ≤ 2 ^ 64) : Routes crates cfg folders acts pc := by
  obtain ⟨first, K, howned⟩ := Owned.run hstarted.1 hstarted.2 hrun hfew
  refine ⟨howned.ledger.slot, fun n i hslot => ?_, howned.ledger.once,
    fun act pc' i n j hstep hgone hslot hne => ?_, fun act pc' cmd => delivers_of_step⟩
  · have hK := howned.ledger.standing hslot
    rcases hm : pc.members i with _ | m
    · rw [howned.absent i hm] at hK
      cases hK
    · refine ⟨m, rfl, ?_, (howned.fitting i m hm).authenticated (by simp [hK])⟩
      have hfollows := howned.follows i m hm
      rw [hK] at hfollows
      exact live_of_registered hfollows
  · obtain ⟨K', hnext⟩ := howned.step hfew hstep
    obtain ⟨hlast, hstill⟩ := (howned.ledger.slot n j).mp hslot
    refine (hnext.ledger.slot n j).mpr ?_
    rw [registrations_snoc, deregistrations_snoc, registers_eq_none hgone, hgone]
    refine ⟨by simpa using hlast, ?_⟩
    simp [hstill, hne]

end

/-! ### A counter that wraps -/

/-- The PC that trusts the phone, with this bridge. -/
def shared (bridge : FileSendBridge) : World :=
  { pairedPc.world with bridge }

def joined (i : Nat) : Conn where
  connId := i
  peerLabel := "p"

/-- The phone has said hello, and the connection has registered. -/
def entered (i : Nat) (n : UInt64) : Conn :=
  { joined i with
    authenticated := true
    bridgeRegistration := some ⟨n⟩
    outbox := [.msg (.welcome smoothAnswers.session (serverInfo bareConfig) "" none none)]
    effects := [.saveTrusted, .registerBridge] }

/-- After a registration of the connection `i`. -/
def claimed (bridge : FileSendBridge) (i : Nat) : FileSendBridge :=
  { bridge with
    slot := some (bridge.nextInstance, i)
    nextInstance := bridge.nextInstance + 1 }

theorem hello_run (bridge : FileSendBridge) (i : Nat) :
    (iteration phoneCrates bareConfig smoothAnswers helloEvent).run ⟨shared bridge, joined i⟩ =
      (true, ⟨shared (claimed bridge i), entered i bridge.nextInstance⟩) := by
  rfl

def waiting (i : Nat) (n : UInt64) : Member where
  conn := entered i n
  phase := .selecting
  deadline := pairedPc.world.now + idleTimeout
  lastInbound := 0

theorem bind_done {α : Type} (t : Handler α) : (t >>= fun a => pure a) = t := by
  induction t with
  | done a => rfl
  | atomic update next ih => exact congrArg (Task.atomic update) (funext ih)

def sessionActs (bridge : FileSendBridge) (i : Nat) : List Act :=
  .join i "p" :: .step i (.select helloEvent smoothAnswers) ::
    (sectionsOf i (iteration phoneCrates bareConfig smoothAnswers helloEvent)
      ⟨shared bridge, joined i⟩ ++ [.step i .settle])

theorem run_session {pc : Pc} {bridge : FileSendBridge} {i : Nat} (hfree : pc.members i = none)
    (hworld : pc.world = shared bridge) :
    (pool phoneCrates bareConfig usualFolders).Run pc (sessionActs bridge i)
      (pc.put (shared (claimed bridge i)) i (waiting i bridge.nextInstance)) := by
  obtain ⟨world, members, requests, streamed⟩ := pc
  obtain rfl : world = shared bridge := hworld
  let pc : Pc := ⟨shared bridge, members, requests, streamed⟩
  let start : Member := .start i "p" 0
  let task := iteration phoneCrates bareConfig smoothAnswers helloEvent
  let handling : Member := { start with phase := .handling smoothAnswers task }
  let handled : Member :=
    { start with
      conn := entered i bridge.nextInstance
      phase := .handling smoothAnswers (.done true) }
  have hjoin : PcStep phoneCrates bareConfig usualFolders pc (.join i "p")
      (pc.put pc.world i start) :=
    .join "p" hfree
  have hselect : PcStep phoneCrates bareConfig usualFolders (pc.put pc.world i start)
      (.step i (.select helloEvent smoothAnswers))
      ((pc.put pc.world i start).put pc.world i handling) := by
    refine .step (put_members_self ..) (.select rfl trivial) ?_
    rintro _ _ dir ⟨rfl, rfl⟩ hdir
    cases hdir
    rfl
  have hphase : handling.phase = .handling smoothAnswers (task >>= fun a => pure a) :=
    congrArg (Phase.handling smoothAnswers) (bind_done task).symm
  have htask : (pool phoneCrates bareConfig usualFolders).Run (pc.put pc.world i handling)
      (sectionsOf i task ⟨shared bridge, joined i⟩)
      ((pc.put pc.world i handling).put (shared (claimed bridge i)) i handled) :=
    run_task (.handling smoothAnswers) (fun hphase => .handle hphase rfl rfl)
      (put_members_self ..) hphase (hello_run bridge i)
  have hsettle : PcStep phoneCrates bareConfig usualFolders
      (pc.put (shared (claimed bridge i)) i handled) (.step i .settle)
      ((pc.put (shared (claimed bridge i)) i handled).put (shared (claimed bridge i)) i
        (waiting i bridge.nextInstance)) :=
    step_of_not_select (put_members_self ..) (.goesOn rfl) (by simp)
  rw [put_put] at hselect htask hsettle
  exact ((Run.single hjoin).snoc hselect).append (htask.snoc hsettle)

theorem slot_routes_to_owner_hello : ∃ (pc : Pc) (acts : List Act),
    pc.world.bridge.slot = some (0, 0) ∧ Routes phoneCrates bareConfig usualFolders acts pc := by
  have hrun := run_session (show pairedPc.members 0 = none from rfl) rfl
  have hfew : (allocations (sessionActs pairedPc.world.bridge 0)).length ≤ 2 ^ 64 := by
    decide +kernel
  exact ⟨_, _, rfl, slot_routes_to_owner ⟨fresh_paired, rfl⟩ hrun hfew⟩

/-- The bridge once the connections 0 to `k` have registered. -/
def bridgeAfter : Nat → FileSendBridge
  | 0 => claimed pairedPc.world.bridge 0
  | k + 1 => claimed (bridgeAfter k) (k + 1)

theorem bridgeAfter_next (k : Nat) : (bridgeAfter k).nextInstance = UInt64.ofNat (k + 1) := by
  induction k with
  | zero => rfl
  | succ k ih =>
      rw [bridgeAfter, claimed, ih, UInt64.ofNat_add (k + 1) 1]
      rfl

/-- The connections 0 to `k` are there, and no other. -/
structure Crowded (k : Nat) (pc : Pc) : Prop where
  world : pc.world = shared (bridgeAfter k)
  first : pc.members 0 = some (waiting 0 0)
  free : ∀ j, k < j → pc.members j = none

theorem leads_crowded (k : Nat) : ∃ pc,
    (pool phoneCrates bareConfig usualFolders).Leads pairedPc pc ∧ Crowded k pc := by
  induction k with
  | zero =>
      refine ⟨_, ⟨_, run_session rfl rfl⟩, rfl, rfl, fun j hj => ?_⟩
      rw [put_members_of_ne _ _ _ (Nat.ne_of_gt hj)]
      rfl
  | succ k ih =>
      obtain ⟨pc, hleads, hcrowded⟩ := ih
      have hsession := run_session (hcrowded.free (k + 1) (Nat.lt_succ_self k)) hcrowded.world
      refine ⟨_, hleads.trans ⟨_, hsession⟩, rfl, ?_, fun j hj => ?_⟩
      · rw [put_members_of_ne _ _ _ (Nat.succ_ne_zero k).symm]
        exact hcrowded.first
      · rw [put_members_of_ne _ _ _ (Nat.ne_of_gt hj)]
        exact hcrowded.free j ((Nat.lt_succ_self k).trans hj)

theorem leads_departure {pc : Pc} {bridge : FileSendBridge}
    (hfirst : pc.members 0 = some (waiting 0 0)) (hworld : pc.world = shared bridge) :
    ∃ pc₁ act pc₂, (pool phoneCrates bareConfig usualFolders).Leads pc pc₁ ∧
      PcStep phoneCrates bareConfig usualFolders pc₁ act pc₂ ∧ deregisters act = some 0 ∧
      pc₁.world.bridge = bridge ∧ pc₂.world.bridge = bridge.deregister ⟨0⟩ := by
  obtain ⟨world, members, requests, streamed⟩ := pc
  obtain rfl : world = shared bridge := hworld
  let pc : Pc := ⟨shared bridge, members, requests, streamed⟩
  let inPhase (phase : Phase) : Pc := pc.put (shared bridge) 0 { waiting 0 0 with phase }
  have hselect : PcStep phoneCrates bareConfig usualFolders pc
      (.step 0 (.select (.inbox none) smoothAnswers))
      (inPhase (.handling smoothAnswers (.done false))) := by
    refine .step hfirst (.select rfl trivial) ?_
    rintro _ _ dir ⟨rfl, rfl⟩ hdir
    cases hdir
    rfl
  have hsettle : PcStep phoneCrates bareConfig usualFolders
      (inPhase (.handling smoothAnswers (.done false))) (.step 0 .settle)
      ((inPhase (.handling smoothAnswers (.done false))).put (shared bridge) 0
        { waiting 0 0 with phase := .leaving (teardown smoothAnswers) }) :=
    step_of_not_select (put_members_self ..) (.stops rfl) (by simp)
  have htask {α : Type} (t : Handler α) (f : α → Handler PUnit) (a : α)
      (hrun : t.run ⟨shared bridge, entered 0 0⟩ = (a, ⟨shared bridge, entered 0 0⟩)) :
      (pool phoneCrates bareConfig usualFolders).Leads (inPhase (.leaving (t >>= f)))
        (inPhase (.leaving (f a))) := by
    have hleads : (pool phoneCrates bareConfig usualFolders).Leads
        (inPhase (.leaving (t >>= f))) _ :=
      ⟨_, run_task .leaving (fun hphase => .leave hphase rfl rfl) (put_members_self ..) rfl hrun⟩
    rw [put_put] at hleads
    exact hleads
  let last : Handler PUnit :=
    .modify fun s =>
      { world := { s.world with bridge := s.world.bridge.deregister ⟨0⟩ }
        conn := { s.conn with bridgeRegistration := none } }
  have hteardown : (pool phoneCrates bareConfig usualFolders).Leads
      (inPhase (.leaving (teardown smoothAnswers))) (inPhase (.leaving last)) :=
    ((htask stopActiveStream _ _ rfl).trans (htask (drainTransfers smoothAnswers) _ _ rfl)).trans
      ((htask (drainSends smoothAnswers) _ _ rfl).trans (htask (.read St.conn) _ _ rfl))
  have hlast : PcStep phoneCrates bareConfig usualFolders (inPhase (.leaving last)) _ _ :=
    step_of_not_select (put_members_self ..) (.leave rfl rfl rfl) (by simp)
  rw [put_put] at hsettle
  exact ⟨_, _, _, ((Leads.single hselect).trans (.single hsettle)).trans hteardown, hlast, rfl,
    rfl, rfl⟩

/-- The connection that registers after 2^64 others is given the instance id of the first: when
the first one leaves, it clears the slot of the last. -/
theorem counter_wraps :
    ¬∀ (crates : Crates) (cfg : Config) (folders : Folders) (pc₀ pc : Pc) (acts : List Act),
      Started pc₀ → (pool crates cfg folders).Run pc₀ acts pc →
      Routes crates cfg folders acts pc := by
  intro hclaim
  obtain ⟨pc, hleads, hworld, hfirst, -⟩ := leads_crowded (18446744073709551615 + 1)
  obtain ⟨pc₁, act, pc₂, hleft, hstep, hgone, hbefore, hafter⟩ := leads_departure hfirst hworld
  obtain ⟨acts, hrun⟩ := hleads.trans hleft
  have hnext : (bridgeAfter 18446744073709551615).nextInstance = 0 :=
    (bridgeAfter_next _).trans (by decide)
  have hslot : pc₁.world.bridge.slot = some (0, 18446744073709551615 + 1) := by
    rw [hbefore]
    exact congrArg (fun n => some (n, 18446744073709551615 + 1)) hnext
  have hkept := (hclaim _ _ _ _ _ _ ⟨fresh_paired, rfl⟩ hrun).stale act pc₂ 0 0 _ hstep hgone hslot
    (by decide)
  rw [hafter, FileSendBridge.deregister, ← hbefore, hslot] at hkept
  cases hkept

end RemoteControl.Server.BridgeSlot
