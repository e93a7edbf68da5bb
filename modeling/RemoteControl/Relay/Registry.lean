import RemoteControl.Foundations.Transition
import RemoteControl.Relay.HostsFile

/-!
The relay's registry of hosts and the file it is kept in (`relay/src/main.rs`): concurrent
calls of `host_register`, each of which snapshots the map under its lock and persists the
snapshot through one temporary file.
-/

namespace RemoteControl.Relay.Registry

open RemoteControl.Foundations.ByteStrings
open RemoteControl.Foundations.Transition
open RemoteControl.Foundations.Transition.System (follow reachable_of_follow)
open RemoteControl.Relay.HostsFile

/-! ### The file system -/

/-- The file contents by inode, and the directory entries of the temporary file and of the
hosts file. -/
structure Disk where
  inodes : Nat → Bytes
  nextInode : Nat
  tmp : Option Nat
  hostsFile : Option Nat

namespace Disk

/-- `open` with `O_CREAT | O_TRUNC` on the temporary file. -/
def openTmp (disk : Disk) : Nat × Disk :=
  match disk.tmp with
  | some inode => (inode, { disk with inodes := Function.update disk.inodes inode [] })
  | none =>
      (disk.nextInode,
        { disk with
          inodes := Function.update disk.inodes disk.nextInode []
          nextInode := disk.nextInode + 1
          tmp := some disk.nextInode })

/-- `write` through an open descriptor, whatever name the inode has by now. -/
def write (disk : Disk) (inode offset : Nat) (data : Bytes) : Disk :=
  { disk with
    inodes := Function.update disk.inodes inode (writeAt (disk.inodes inode) offset data) }

/-- `rename` of the temporary file onto the hosts file, which fails if there is none. -/
def rename (disk : Disk) : Disk :=
  match disk.tmp with
  | some inode => { disk with tmp := none, hostsFile := some inode }
  | none => disk

/-- The entries name inodes that exist, and not the same one. -/
structure WellFormed (disk : Disk) : Prop where
  tmp_lt : ∀ inode, disk.tmp = some inode → inode < disk.nextInode
  hostsFile_lt : ∀ inode, disk.hostsFile = some inode → inode < disk.nextInode
  distinct : ∀ inode, disk.tmp = some inode → disk.hostsFile ≠ some inode

end Disk

/-- `load_hosts_from_disk`. -/
def loadHosts (json : HostsJson) (disk : Disk) : Hosts :=
  match disk.hostsFile with
  | none => ∅
  | some inode => (json.fromSlice (disk.inodes inode)).getD ∅

/-- The hosts file is absent, or parses. -/
def Parses (json : HostsJson) (disk : Disk) : Prop :=
  ∀ inode, disk.hostsFile = some inode → (json.fromSlice (disk.inodes inode)).isSome = true

/-! ### Registrations -/

/-- How far a call has come: it has its snapshot, writes it through a descriptor, has closed
the temporary file, or has returned. -/
inductive Phase where
  | snapped
  | writing (inode offset : Nat)
  | written
  | done
deriving DecidableEq, Repr

structure Call where
  snapshot : Hosts
  phase : Phase

/-- The registry in memory, every registration so far (those loaded at the start included),
the calls in the order of their snapshots, and the disk. -/
structure State where
  hosts : Hosts
  registered : List (String × HostRecord)
  calls : Nat → Option Call
  nextCall : Nat
  disk : Disk

inductive Action where
  | snapshot (hostId : String) (record : HostRecord)
  | openTmp (call : Nat)
  | writePart (call size : Nat)
  | closeTmp (call : Nat)
  | rename (call : Nat)
deriving DecidableEq, Repr

/-- The state after one call moves on to `phase`. -/
def State.advance (s : State) (i : Nat) (snapshot : Hosts) (phase : Phase) (disk : Disk) :
    State :=
  { s with calls := Function.update s.calls i (some ⟨snapshot, phase⟩), disk }

@[simp] theorem State.advance_calls_self (s : State) (i : Nat) (snapshot : Hosts)
    (phase : Phase) (disk : Disk) :
    (s.advance i snapshot phase disk).calls i = some ⟨snapshot, phase⟩ :=
  Function.update_self ..

theorem State.advance_calls_of_ne {i j : Nat} (h : j ≠ i) (s : State) (snapshot : Hosts)
    (phase : Phase) (disk : Disk) : (s.advance i snapshot phase disk).calls j = s.calls j :=
  Function.update_of_ne h ..

def act (json : HostsJson) : Action → State → Option State
  | .snapshot hostId record, s =>
      let hosts := s.hosts.insert hostId record
      some
        { s with
          hosts
          registered := s.registered ++ [(hostId, record)]
          calls := Function.update s.calls s.nextCall (some ⟨hosts, .snapped⟩)
          nextCall := s.nextCall + 1 }
  | .openTmp i, s =>
      match s.calls i with
      | some ⟨snapshot, .snapped⟩ =>
          let (inode, disk) := s.disk.openTmp
          some (s.advance i snapshot (.writing inode 0) disk)
      | _ => none
  | .writePart i size, s =>
      match s.calls i with
      | some ⟨snapshot, .writing inode offset⟩ =>
          let data := ((json.toVecPretty snapshot).drop offset).take size
          if data = [] then none
          else
            some (s.advance i snapshot (.writing inode (offset + data.length))
              (s.disk.write inode offset data))
      | _ => none
  | .closeTmp i, s =>
      match s.calls i with
      | some ⟨snapshot, .writing _ offset⟩ =>
          if offset = (json.toVecPretty snapshot).length then
            some (s.advance i snapshot .written s.disk)
          else none
      | _ => none
  | .rename i, s =>
      match s.calls i with
      | some ⟨snapshot, .written⟩ => some (s.advance i snapshot .done s.disk.rename)
      | _ => none

/-- The relay has just started: what it loaded is what it knows. -/
structure Boots (json : HostsJson) (s : State) : Prop where
  hosts : s.hosts = loadHosts json s.disk
  registered : ∀ hostId record,
    (hostId, record) ∈ s.registered ↔ s.hosts.lookup hostId = some record
  calls : ∀ i, s.calls i = none
  parses : Parses json s.disk
  disk : s.disk.WellFormed

def registry (json : HostsJson) : System State Action where
  init := Boots json
  step s action t := act json action s = some t

/-- No call is in progress. -/
def Quiescent (s : State) : Prop :=
  ∀ i call, s.calls i = some call → call.phase = .done

/-- The hosts file parses to registered records, and holds every host registered so far
whenever no registration is in progress. -/
structure Durable (json : HostsJson) (s : State) : Prop where
  parses : Parses json s.disk
  registered : ∀ hostId record, (loadHosts json s.disk).lookup hostId = some record →
    (hostId, record) ∈ s.registered
  complete : Quiescent s → ∀ hostId record, (hostId, record) ∈ s.registered →
    hostId ∈ loadHosts json s.disk

/-- A call opens the temporary file only when every call with an earlier snapshot has
returned. -/
def InTurn (s : State) (action : Action) (_ : State) : Prop :=
  ∀ i, action = .openTmp i → ∀ j call, j < i → s.calls j = some call → call.phase = .done

/-! ### Registrations in turn -/

/-- What a call in progress has on the disk. -/
def OnDisk (json : HostsJson) (disk : Disk) (call : Call) : Prop :=
  match call.phase with
  | .snapped | .done => True
  | .writing inode offset =>
      disk.tmp = some inode ∧ disk.inodes inode = (json.toVecPretty call.snapshot).take offset ∧
        offset ≤ (json.toVecPretty call.snapshot).length
  | .written =>
      ∃ inode, disk.tmp = some inode ∧ disk.inodes inode = json.toVecPretty call.snapshot

/-- The calls of a state by their snapshots, each below the later ones and below the map. -/
structure Snapshots (s : State) : Prop where
  fresh : ∀ i call, s.calls i = some call → i < s.nextCall
  mono : ∀ i j earlier later, i < j → s.calls i = some earlier → s.calls j = some later →
    ∀ hostId, hostId ∈ earlier.snapshot → hostId ∈ later.snapshot
  below : ∀ i call, s.calls i = some call → ∀ hostId, hostId ∈ call.snapshot → hostId ∈ s.hosts
  known : ∀ i call, s.calls i = some call → ∀ hostId record,
    call.snapshot.lookup hostId = some record → (hostId, record) ∈ s.registered
  knownHosts : ∀ hostId record, s.hosts.lookup hostId = some record →
    (hostId, record) ∈ s.registered

/-- The invariant of runs in which the calls persist in turn: what the hosts file holds lies
between the snapshots of the calls that have returned and those of the calls that have not. -/
structure Orderly (json : HostsJson) (s : State) : Prop extends Snapshots s where
  turn : ∀ i j earlier later, i < j → s.calls i = some earlier → s.calls j = some later →
    later.phase ≠ .snapped → earlier.phase = .done
  disk : s.disk.WellFormed
  onDisk : ∀ i call, s.calls i = some call → OnDisk json s.disk call
  parses : Parses json s.disk
  registered : ∀ hostId record, (loadHosts json s.disk).lookup hostId = some record →
    (hostId, record) ∈ s.registered
  savedBelow : ∀ hostId, hostId ∈ loadHosts json s.disk → hostId ∈ s.hosts
  savedPending : ∀ i call, s.calls i = some call → call.phase ≠ .done →
    ∀ hostId, hostId ∈ loadHosts json s.disk → hostId ∈ call.snapshot
  savedDone : ∀ i call, s.calls i = some call → call.phase = .done →
    ∀ hostId, hostId ∈ call.snapshot → hostId ∈ loadHosts json s.disk
  covered : ∀ hostId record, (hostId, record) ∈ s.registered →
    hostId ∈ loadHosts json s.disk ∨ ∃ i call, s.calls i = some call ∧ hostId ∈ call.snapshot

theorem Orderly.durable {json : HostsJson} {s : State} (h : Orderly json s) :
    Durable json s where
  parses := h.parses
  registered := h.registered
  complete := by
    intro hquiet hostId record hmem
    rcases h.covered hostId record hmem with hsaved | ⟨i, call, hcall, hsnapshot⟩
    · exact hsaved
    · exact h.savedDone i call hcall (hquiet i call hcall) hostId hsnapshot

theorem boots_orderly {json : HostsJson} {s : State} (h : Boots json s) : Orderly json s := by
  have hnone {i : Nat} {call : Call} (hcall : s.calls i = some call) : False := by
    rw [h.calls i] at hcall
    cases hcall
  refine
    { fresh := fun _ _ hcall => (hnone hcall).elim
      mono := fun _ _ _ _ _ hcall _ => (hnone hcall).elim
      below := fun _ _ hcall => (hnone hcall).elim
      known := fun _ _ hcall => (hnone hcall).elim
      knownHosts := fun hostId record => (h.registered hostId record).mpr
      turn := fun _ _ _ _ _ hcall _ => (hnone hcall).elim
      disk := h.disk
      onDisk := fun _ _ hcall => (hnone hcall).elim
      parses := h.parses
      registered := ?_
      savedBelow := ?_
      savedPending := fun _ _ hcall => (hnone hcall).elim
      savedDone := fun _ _ hcall => (hnone hcall).elim
      covered := ?_ }
  · intro hostId record hlookup
    rw [← h.hosts] at hlookup
    exact (h.registered hostId record).mpr hlookup
  · intro hostId hmem
    rw [h.hosts]
    exact hmem
  · intro hostId record hmem
    rw [← h.hosts]
    have hlookup := (h.registered hostId record).mp hmem
    exact .inl (AList.lookup_isSome.mp (by simp [hlookup]))

theorem Snapshots.advance {s : State} (h : Snapshots s) {i : Nat} {call : Call}
    (hcall : s.calls i = some call) (phase : Phase) (disk : Disk) :
    Snapshots (s.advance i call.snapshot phase disk) := by
  have hold {j : Nat} {other : Call}
      (hother : (s.advance i call.snapshot phase disk).calls j = some other) :
      ∃ before, s.calls j = some before ∧ before.snapshot = other.snapshot := by
    rcases eq_or_ne j i with rfl | hne
    · rw [State.advance_calls_self] at hother
      exact ⟨call, hcall, by rw [← Option.some.inj hother]⟩
    · rw [State.advance_calls_of_ne hne] at hother
      exact ⟨other, hother, rfl⟩
  refine ⟨?_, ?_, ?_, ?_, h.knownHosts⟩
  · intro j other hother
    obtain ⟨before, hbefore, -⟩ := hold hother
    exact h.fresh j before hbefore
  · intro j k earlier later hlt hearlier hlater
    obtain ⟨before, hbefore, heq⟩ := hold hearlier
    obtain ⟨before', hbefore', heq'⟩ := hold hlater
    rw [← heq, ← heq']
    exact h.mono j k before before' hlt hbefore hbefore'
  · intro j other hother
    obtain ⟨before, hbefore, heq⟩ := hold hother
    rw [← heq]
    exact h.below j before hbefore
  · intro j other hother
    obtain ⟨before, hbefore, heq⟩ := hold hother
    rw [← heq]
    exact h.known j before hbefore

theorem Orderly.others {json : HostsJson} {s : State} (h : Orderly json s) {i : Nat}
    {call : Call} (hcall : s.calls i = some call) (hphase : call.phase ≠ .done)
    (hturn : ∀ j other, j < i → s.calls j = some other → other.phase = .done)
    {j : Nat} {other : Call} (hne : j ≠ i) (hother : s.calls j = some other) :
    other.phase = .snapped ∨ other.phase = .done := by
  rcases Nat.lt_or_gt_of_ne hne with hlt | hgt
  · exact .inr (hturn j other hlt hother)
  · by_contra hactive
    rw [not_or] at hactive
    exact hphase (h.turn i j call other hgt hcall hother hactive.1)

theorem Orderly.turn_of_active {json : HostsJson} {s : State} (h : Orderly json s) {i : Nat}
    {call : Call} (hcall : s.calls i = some call) (hphase : call.phase ≠ .snapped) :
    ∀ j other, j < i → s.calls j = some other → other.phase = .done :=
  fun j other hlt hother => h.turn j i other call hlt hother hcall hphase

theorem loadHosts_congr (json : HostsJson) {disk disk' : Disk}
    (hfile : disk'.hostsFile = disk.hostsFile)
    (hinodes : ∀ inode, disk.hostsFile = some inode →
      disk'.inodes inode = disk.inodes inode) :
    loadHosts json disk' = loadHosts json disk ∧ (Parses json disk → Parses json disk') := by
  constructor
  · unfold loadHosts
    rw [hfile]
    split
    · rfl
    · rename_i inode hinode
      rw [hinodes inode (by simpa using hinode)]
  · intro hparses inode hinode
    rw [hfile] at hinode
    rw [hinodes inode hinode]
    exact hparses inode hinode

theorem Orderly.advance {json : HostsJson} {s : State} (h : Orderly json s) {i : Nat}
    {call : Call} (hcall : s.calls i = some call) (hphase : call.phase ≠ .done)
    (hturn : ∀ j other, j < i → s.calls j = some other → other.phase = .done)
    {phase : Phase} {disk : Disk} (hphase' : phase ≠ .done) (hdisk : disk.WellFormed)
    (honDisk : OnDisk json disk ⟨call.snapshot, phase⟩)
    (hfile : disk.hostsFile = s.disk.hostsFile)
    (hinodes : ∀ inode, s.disk.hostsFile = some inode →
      disk.inodes inode = s.disk.inodes inode) :
    Orderly json (s.advance i call.snapshot phase disk) := by
  obtain ⟨hload, hparses⟩ := loadHosts_congr json hfile hinodes
  have hothers {j : Nat} {other : Call} (hne : j ≠ i) (hother : s.calls j = some other) :=
    h.others hcall hphase hturn hne hother
  refine
    { h.toSnapshots.advance hcall phase disk with
      turn := ?_
      disk := hdisk
      onDisk := ?_
      parses := hparses h.parses
      registered := ?_
      savedBelow := ?_
      savedPending := ?_
      savedDone := ?_
      covered := ?_ }
  · intro j k earlier later hlt hearlier hlater hlaterPhase
    rcases eq_or_ne j i with rfl | hj
    · rw [State.advance_calls_of_ne (by omega)] at hlater
      rcases hothers (by omega) hlater with hsnapped | hdone
      · contradiction
      · have hearly := h.turn j k call later hlt hcall hlater (by simp [hdone])
        contradiction
    · rw [State.advance_calls_of_ne hj] at hearlier
      rcases eq_or_ne k i with rfl | hk
      · exact hturn j earlier hlt hearlier
      · rw [State.advance_calls_of_ne hk] at hlater
        exact h.turn j k earlier later hlt hearlier hlater hlaterPhase
  · intro j other hother
    rcases eq_or_ne j i with rfl | hj
    · rw [State.advance_calls_self] at hother
      rw [← Option.some.inj hother]
      exact honDisk
    · rw [State.advance_calls_of_ne hj] at hother
      rcases hothers hj hother with hidle | hidle <;> simp [OnDisk, hidle]
  · change ∀ hostId record, (loadHosts json disk).lookup hostId = some record → _
    rw [hload]
    exact h.registered
  · change ∀ hostId, hostId ∈ loadHosts json disk → _
    rw [hload]
    exact h.savedBelow
  · intro j other hother hpending
    change ∀ hostId, hostId ∈ loadHosts json disk → _
    rw [hload]
    rcases eq_or_ne j i with rfl | hj
    · rw [State.advance_calls_self] at hother
      rw [← Option.some.inj hother]
      exact h.savedPending j call hcall hphase
    · rw [State.advance_calls_of_ne hj] at hother
      exact h.savedPending j other hother hpending
  · intro j other hother hdone
    change ∀ hostId, _ → hostId ∈ loadHosts json disk
    rw [hload]
    rcases eq_or_ne j i with rfl | hj
    · rw [State.advance_calls_self] at hother
      rw [← Option.some.inj hother] at hdone
      contradiction
    · rw [State.advance_calls_of_ne hj] at hother
      exact h.savedDone j other hother hdone
  · intro hostId record hmem
    change hostId ∈ loadHosts json disk ∨ _
    rw [hload]
    rcases h.covered hostId record hmem with hsaved | ⟨j, other, hother, hsnapshot⟩
    · exact .inl hsaved
    · rcases eq_or_ne j i with rfl | hj
      · rw [hcall] at hother
        rw [← Option.some.inj hother] at hsnapshot
        exact .inr ⟨j, _, State.advance_calls_self .., hsnapshot⟩
      · exact .inr ⟨j, other, (State.advance_calls_of_ne hj ..).trans hother, hsnapshot⟩

theorem Disk.openTmp_spec {disk : Disk} (h : disk.WellFormed) :
    disk.openTmp.2.WellFormed ∧ disk.openTmp.2.tmp = some disk.openTmp.1 ∧
      disk.openTmp.2.inodes disk.openTmp.1 = [] ∧
      disk.openTmp.2.hostsFile = disk.hostsFile ∧
      ∀ inode, disk.hostsFile = some inode →
        disk.openTmp.2.inodes inode = disk.inodes inode := by
  unfold Disk.openTmp
  rcases htmp : disk.tmp with _ | tmp
  · refine ⟨⟨?_, ?_, ?_⟩, rfl, Function.update_self .., rfl, fun inode hinode => ?_⟩
    · intro inode hinode
      rw [← Option.some.inj hinode]
      exact Nat.lt_succ_self _
    · intro inode hinode
      exact Nat.lt_succ_of_lt (h.hostsFile_lt inode hinode)
    · intro inode hinode hfile
      have hlt := h.hostsFile_lt inode hfile
      rw [← Option.some.inj hinode] at hlt
      exact Nat.lt_irrefl _ hlt
    · exact Function.update_of_ne (Nat.ne_of_lt (h.hostsFile_lt inode hinode)) _ _
  · refine ⟨⟨?_, h.hostsFile_lt, ?_⟩, rfl, Function.update_self .., rfl, fun inode hinode => ?_⟩
    · exact fun inode hinode => h.tmp_lt inode (htmp.trans hinode)
    · exact fun inode hinode => h.distinct inode (htmp.trans hinode)
    · refine Function.update_of_ne ?_ _ _
      rintro rfl
      exact h.distinct inode htmp hinode

theorem Disk.write_spec {disk : Disk} (h : disk.WellFormed) {inode : Nat}
    (htmp : disk.tmp = some inode) (offset : Nat) (data : Bytes) :
    (disk.write inode offset data).WellFormed ∧
      ∀ file, disk.hostsFile = some file →
        (disk.write inode offset data).inodes file = disk.inodes file := by
  refine ⟨⟨h.tmp_lt, h.hostsFile_lt, h.distinct⟩, fun file hfile => ?_⟩
  refine Function.update_of_ne ?_ _ _
  rintro rfl
  exact h.distinct file htmp hfile

theorem take_append_take_drop {α : Type} (xs : List α) (m n : Nat) :
    xs.take m ++ (xs.drop m).take n = xs.take (m + n) :=
  (List.take_add ..).symm

theorem writeAt_take (bytes : Bytes) {offset : Nat} (h : offset ≤ bytes.length) (size : Nat) :
    writeAt (bytes.take offset) offset ((bytes.drop offset).take size) =
      bytes.take (offset + ((bytes.drop offset).take size).length) := by
  have hlen : (bytes.take offset).length = offset := by
    rw [List.length_take]
    omega
  have happend := writeAt_end (bytes.take offset) ((bytes.drop offset).take size)
  rw [hlen] at happend
  rw [happend, List.length_take, List.length_drop, take_append_take_drop]
  rcases Nat.le_total size (bytes.length - offset) with hle | hle
  · rw [min_eq_left hle]
  · rw [min_eq_right hle, List.take_of_length_le (by omega), List.take_of_length_le (by omega)]

theorem openTmp_orderly {json : HostsJson} {s t : State} (h : Orderly json s) {i : Nat}
    (hact : act json (.openTmp i) s = some t)
    (hturn : ∀ j other, j < i → s.calls j = some other → other.phase = .done) :
    Orderly json t := by
  simp only [act] at hact
  split at hact
  · rename_i snapshot hcall
    obtain ⟨hdisk, htmp, hempty, hfile, hinodes⟩ := Disk.openTmp_spec h.disk
    cases hact
    refine h.advance hcall (by simp) hturn (by simp) hdisk ?_ hfile hinodes
    exact ⟨htmp, by simpa using hempty, Nat.zero_le _⟩
  · cases hact

theorem writePart_orderly {json : HostsJson} {s t : State} (h : Orderly json s) {i size : Nat}
    (hact : act json (.writePart i size) s = some t) : Orderly json t := by
  simp only [act] at hact
  split at hact
  · rename_i snapshot inode offset hcall
    split at hact
    · cases hact
    obtain ⟨htmp, hcontent, hoffset⟩ := h.onDisk i _ hcall
    obtain ⟨hdisk, hinodes⟩ := Disk.write_spec h.disk htmp offset
      (((json.toVecPretty snapshot).drop offset).take size)
    cases hact
    refine h.advance hcall (by simp) (h.turn_of_active hcall (by simp)) (by simp) hdisk ?_
      rfl hinodes
    refine ⟨htmp, ?_, ?_⟩
    · refine (Function.update_self ..).trans ?_
      rw [hcontent]
      exact writeAt_take _ hoffset size
    · rw [List.length_take, List.length_drop]
      change offset ≤ (json.toVecPretty snapshot).length at hoffset
      change _ ≤ (json.toVecPretty snapshot).length
      omega
  · cases hact

theorem closeTmp_orderly {json : HostsJson} {s t : State} (h : Orderly json s) {i : Nat}
    (hact : act json (.closeTmp i) s = some t) : Orderly json t := by
  simp only [act] at hact
  split at hact
  · rename_i snapshot inode offset hcall
    split at hact
    · rename_i hend
      obtain ⟨htmp, hcontent, -⟩ := h.onDisk i _ hcall
      cases hact
      refine h.advance hcall (by simp) (h.turn_of_active hcall (by simp)) (by simp) h.disk ?_
        rfl fun _ _ => rfl
      refine ⟨inode, htmp, hcontent.trans ?_⟩
      rw [hend, List.take_length]
    · cases hact
  · cases hact

theorem rename_spec {json : HostsJson} {disk : Disk} (h : disk.WellFormed) {snapshot : Hosts}
    (hdisk : OnDisk json disk ⟨snapshot, .written⟩) :
    disk.rename.WellFormed ∧ Parses json disk.rename ∧
      ∀ hostId, (loadHosts json disk.rename).lookup hostId = snapshot.lookup hostId := by
  obtain ⟨inode, htmp, hcontent⟩ := hdisk
  obtain ⟨read, hread, hlookup⟩ := json.fromSlice_toVecPretty snapshot
  have hrename : disk.rename = { disk with tmp := none, hostsFile := some inode } := by
    rw [Disk.rename, htmp]
  rw [hrename]
  refine ⟨⟨by simp, ?_, by simp⟩, ?_, ?_⟩
  · intro file hfile
    rw [← Option.some.inj hfile]
    exact h.tmp_lt inode htmp
  · intro file hfile
    rw [← Option.some.inj hfile]
    simp only [hcontent, hread, Option.isSome_some]
  · intro hostId
    simp only [loadHosts, hcontent, hread, Option.getD_some]
    exact hlookup hostId

theorem mem_congr {hosts hosts' : Hosts}
    (h : ∀ hostId, hosts.lookup hostId = hosts'.lookup hostId) (hostId : String) :
    hostId ∈ hosts ↔ hostId ∈ hosts' := by
  rw [← AList.lookup_isSome, ← AList.lookup_isSome, h]

theorem rename_orderly {json : HostsJson} {s t : State} (h : Orderly json s) {i : Nat}
    (hact : act json (.rename i) s = some t) : Orderly json t := by
  simp only [act] at hact
  split at hact
  · rename_i snapshot hcall
    have hturn := h.turn_of_active hcall (by simp)
    obtain ⟨hdisk, hparses, hlookup⟩ := rename_spec h.disk (h.onDisk i _ hcall)
    have hmem := mem_congr hlookup
    cases hact
    have hothers {j : Nat} {other : Call} (hne : j ≠ i) (hother : s.calls j = some other) :=
      h.others hcall (by simp) hturn hne hother
    refine
      { h.toSnapshots.advance hcall .done s.disk.rename with
        turn := ?_
        disk := hdisk
        onDisk := ?_
        parses := hparses
        registered := ?_
        savedBelow := ?_
        savedPending := ?_
        savedDone := ?_
        covered := ?_ }
    · intro j k earlier later hlt hearlier hlater hlaterPhase
      rcases eq_or_ne j i with rfl | hj
      · rw [State.advance_calls_self] at hearlier
        rw [← Option.some.inj hearlier]
      · rw [State.advance_calls_of_ne hj] at hearlier
        rcases eq_or_ne k i with rfl | hk
        · exact hturn j earlier hlt hearlier
        · rw [State.advance_calls_of_ne hk] at hlater
          exact h.turn j k earlier later hlt hearlier hlater hlaterPhase
    · intro j other hother
      rcases eq_or_ne j i with rfl | hj
      · rw [State.advance_calls_self] at hother
        rw [← Option.some.inj hother]
        trivial
      · rw [State.advance_calls_of_ne hj] at hother
        rcases hothers hj hother with hidle | hidle <;> simp [OnDisk, hidle]
    · intro hostId record hrecord
      exact h.known i _ hcall hostId record ((hlookup hostId).symm.trans hrecord)
    · intro hostId hsaved
      exact h.below i _ hcall hostId ((hmem hostId).mp hsaved)
    · intro j other hother hpending hostId hsaved
      rcases eq_or_ne j i with rfl | hj
      · rw [State.advance_calls_self] at hother
        rw [← Option.some.inj hother] at hpending
        contradiction
      · rw [State.advance_calls_of_ne hj] at hother
        rcases Nat.lt_or_gt_of_ne hj with hlt | hgt
        · exact absurd (hturn j other hlt hother) hpending
        · exact h.mono i j _ other hgt hcall hother hostId ((hmem hostId).mp hsaved)
    · intro j other hother hdone hostId hsnapshot
      refine (hmem hostId).mpr ?_
      rcases eq_or_ne j i with rfl | hj
      · rw [State.advance_calls_self] at hother
        rw [← Option.some.inj hother] at hsnapshot
        exact hsnapshot
      · rw [State.advance_calls_of_ne hj] at hother
        rcases Nat.lt_or_gt_of_ne hj with hlt | hgt
        · exact h.mono j i other _ hlt hother hcall hostId hsnapshot
        · have hearly := h.turn i j _ other hgt hcall hother (by simp [hdone])
          contradiction
    · intro hostId record hrecord
      rcases h.covered hostId record hrecord with hsaved | ⟨j, other, hother, hsnapshot⟩
      · exact .inl ((hmem hostId).mpr (h.savedPending i _ hcall (by simp) hostId hsaved))
      · rcases eq_or_ne j i with rfl | hj
        · rw [hcall] at hother
          rw [← Option.some.inj hother] at hsnapshot
          exact .inl ((hmem hostId).mpr hsnapshot)
        · exact .inr ⟨j, other, (State.advance_calls_of_ne hj ..).trans hother, hsnapshot⟩
  · cases hact

theorem snapshot_orderly {json : HostsJson} {s t : State} (h : Orderly json s)
    {hostId : String} {record : HostRecord}
    (hact : act json (.snapshot hostId record) s = some t) : Orderly json t := by
  simp only [act] at hact
  cases hact
  have hlt {i : Nat} {call : Call} (hcall : s.calls i = some call) : i ≠ s.nextCall :=
    Nat.ne_of_lt (h.fresh i call hcall)
  have hgrows (id : String) (hid : id ∈ s.hosts) : id ∈ s.hosts.insert hostId record :=
    (AList.mem_insert s.hosts).mpr (.inr hid)
  have hinsert (id : String) (rec : HostRecord)
      (hid : (s.hosts.insert hostId record).lookup id = some rec) :
      (id, rec) ∈ s.registered ++ [(hostId, record)] := by
    rcases eq_or_ne id hostId with rfl | hne
    · rw [AList.lookup_insert] at hid
      simp [Option.some.inj hid]
    · rw [AList.lookup_insert_ne hne] at hid
      exact List.mem_append_left _ (h.knownHosts id rec hid)
  have hcases {i : Nat} {call : Call}
      (hcall : Function.update s.calls s.nextCall
        (some ⟨s.hosts.insert hostId record, .snapped⟩) i = some call) :
      (i = s.nextCall ∧ call = ⟨s.hosts.insert hostId record, .snapped⟩) ∨
        (i < s.nextCall ∧ s.calls i = some call) := by
    rcases eq_or_ne i s.nextCall with rfl | hne
    · rw [Function.update_self] at hcall
      exact .inl ⟨rfl, (Option.some.inj hcall).symm⟩
    · rw [Function.update_of_ne hne] at hcall
      exact .inr ⟨h.fresh i call hcall, hcall⟩
  refine
    { fresh := ?_
      mono := ?_
      below := ?_
      known := ?_
      knownHosts := hinsert
      turn := ?_
      disk := h.disk
      onDisk := ?_
      parses := h.parses
      registered := fun id rec hid => List.mem_append_left _ (h.registered id rec hid)
      savedBelow := fun id hid => hgrows id (h.savedBelow id hid)
      savedPending := ?_
      savedDone := ?_
      covered := ?_ }
  · intro i call hcall
    rcases hcases hcall with ⟨rfl, -⟩ | ⟨hi, -⟩
    · exact Nat.lt_succ_self _
    · exact Nat.lt_succ_of_lt hi
  · intro i j earlier later hij hearlier hlater
    rcases hcases hearlier with ⟨rfl, -⟩ | ⟨hi, hold⟩
    · rcases hcases hlater with ⟨rfl, -⟩ | ⟨hj, -⟩ <;> omega
    · rcases hcases hlater with ⟨-, rfl⟩ | ⟨-, hold'⟩
      · exact fun id hid => hgrows id (h.below i earlier hold id hid)
      · exact h.mono i j earlier later hij hold hold'
  · intro i call hcall
    rcases hcases hcall with ⟨-, rfl⟩ | ⟨-, hold⟩
    · exact fun _ hid => hid
    · exact fun id hid => hgrows id (h.below i call hold id hid)
  · intro i call hcall
    rcases hcases hcall with ⟨-, rfl⟩ | ⟨-, hold⟩
    · exact hinsert
    · exact fun id rec hid => List.mem_append_left _ (h.known i call hold id rec hid)
  · intro i j earlier later hij hearlier hlater hphase
    rcases hcases hlater with ⟨-, rfl⟩ | ⟨hj, hold'⟩
    · contradiction
    · rcases hcases hearlier with ⟨rfl, -⟩ | ⟨-, hold⟩
      · omega
      · exact h.turn i j earlier later hij hold hold' hphase
  · intro i call hcall
    rcases hcases hcall with ⟨-, rfl⟩ | ⟨-, hold⟩
    · trivial
    · exact h.onDisk i call hold
  · intro i call hcall hpending
    rcases hcases hcall with ⟨-, rfl⟩ | ⟨-, hold⟩
    · exact fun id hid => hgrows id (h.savedBelow id hid)
    · exact h.savedPending i call hold hpending
  · intro i call hcall hdone
    rcases hcases hcall with ⟨-, rfl⟩ | ⟨-, hold⟩
    · cases hdone
    · exact h.savedDone i call hold hdone
  · intro id rec hmem
    rcases List.mem_append.mp hmem with hold | hnew
    · refine (h.covered id rec hold).imp_right ?_
      rintro ⟨i, call, hcall, hid⟩
      exact ⟨i, call, (Function.update_of_ne (hlt hcall) _ _).trans hcall, hid⟩
    · obtain ⟨rfl, rfl⟩ := Prod.mk.inj (List.mem_singleton.mp hnew)
      exact .inr ⟨s.nextCall, _, Function.update_self .., (AList.mem_insert s.hosts).mpr (.inl rfl)⟩

theorem step_orderly {json : HostsJson} {s t : State} {action : Action} (h : Orderly json s)
    (hact : act json action s = some t) (hturn : InTurn s action t) : Orderly json t := by
  rcases action with ⟨hostId, record⟩ | i | ⟨i, size⟩ | i | i
  · exact snapshot_orderly h hact
  · exact openTmp_orderly h hact (hturn i rfl)
  · exact writePart_orderly h hact
  · exact closeTmp_orderly h hact
  · exact rename_orderly h hact

/-- In every run in which the calls persist in turn the registry file is durable. -/
theorem durable_of_inTurn (json : HostsJson) {s : State}
    (hreach : ((registry json).restrict InTurn).Reachable s) : Durable json s := by
  refine Orderly.durable (hreach.invariant (I := Orderly json) (fun _ => boots_orderly) ?_)
  intro s action t _ horderly hstep
  exact step_orderly horderly hstep.1 hstep.2

/-! ### Two registrations -/

def record : HostRecord where
  tokenHash := "5e884898da28047151d0e56f8dc62927"
  name := "pc"

def firstId : String := "1c0ffee1-0000-4000-8000-000000000001"

def secondId : String := "1c0ffee2-0000-4000-8000-000000000002"

/-- A relay that starts without a hosts file. -/
def coldStart : State where
  hosts := ∅
  registered := []
  calls _ := none
  nextCall := 0
  disk := { inodes := fun _ => [], nextInode := 0, tmp := none, hostsFile := none }

theorem coldStart_boots (json : HostsJson) : Boots json coldStart where
  hosts := rfl
  registered := by simp [coldStart]
  calls _ := rfl
  parses := by simp [Parses, coldStart]
  disk := ⟨by simp [coldStart], by simp [coldStart], by simp [coldStart]⟩

/-- The steps of one call after its snapshot, with a single `write`. -/
def persist (i size : Nat) : List Action :=
  [.openTmp i, .writePart i size, .closeTmp i, .rename i]

theorem persist_spec {json : HostsJson} {s : State} {i : Nat} {snapshot : Hosts}
    (hcall : s.calls i = some ⟨snapshot, .snapped⟩) (hne : json.toVecPretty snapshot ≠ []) :
    ∃ t, follow (act json) (persist i (json.toVecPretty snapshot).length) s = some t ∧
      t.calls = Function.update s.calls i (some ⟨snapshot, .done⟩) ∧
      t.registered = s.registered ∧
      ∀ hostId, (loadHosts json t.disk).lookup hostId = snapshot.lookup hostId := by
  let inode := s.disk.openTmp.1
  let bytes := json.toVecPretty snapshot
  let disk := s.disk.openTmp.2.write inode 0 bytes
  have htmp : disk.tmp = some inode ∧ disk.inodes inode = bytes := by
    have hempty : s.disk.openTmp.2.inodes inode = [] := by
      simp only [inode, Disk.openTmp]
      split <;> exact Function.update_self ..
    constructor
    · simp only [disk, inode, Disk.write, Disk.openTmp]
      split
      · assumption
      · rfl
    · refine (Function.update_self ..).trans ?_
      rw [hempty]
      exact writeAt_end [] bytes
  let opened := s.advance i snapshot (.writing inode 0) s.disk.openTmp.2
  let wrote := opened.advance i snapshot (.writing inode (0 + bytes.length)) disk
  let closed := wrote.advance i snapshot .written disk
  refine ⟨closed.advance i snapshot .done disk.rename, ?_, ?_, rfl, ?_⟩
  · have hopen : act json (.openTmp i) s = some opened := by
      simp only [act, hcall]
      rfl
    have hwrite : act json (.writePart i bytes.length) opened = some wrote := by
      simp only [act, opened, State.advance_calls_self, List.drop_zero, List.take_length, bytes,
        hne, if_false]
      rfl
    have hclose : act json (.closeTmp i) wrote = some closed := by
      simp only [act, wrote, State.advance_calls_self]
      exact if_pos (Nat.zero_add _)
    have hrename : act json (.rename i) closed =
        some (closed.advance i snapshot .done disk.rename) := by
      simp only [act, closed, State.advance_calls_self]
      rfl
    change (act json (.openTmp i) s).bind (follow (act json)
      [.writePart i bytes.length, .closeTmp i, .rename i]) = _
    simp only [hopen, follow, hwrite, hclose, hrename, Option.bind_some]
  · simp [closed, wrote, opened, State.advance]
  · obtain ⟨read, hread, hlookup⟩ := json.fromSlice_toVecPretty snapshot
    intro hostId
    have hload : loadHosts json disk.rename = read := by
      rw [Disk.rename, htmp.1]
      simp only [loadHosts, htmp.2]
      rw [hread]
      rfl
    change (loadHosts json disk.rename).lookup hostId = _
    rw [hload, hlookup]

theorem twoSnapshots (json : HostsJson) : ∃ s,
    follow (act json) [.snapshot firstId record, .snapshot secondId record] coldStart = some s ∧
      s.calls 0 = some ⟨(∅ : Hosts).insert firstId record, .snapped⟩ ∧
      s.calls 1 =
        some ⟨((∅ : Hosts).insert firstId record).insert secondId record, .snapped⟩ ∧
      (∀ i, 2 ≤ i → s.calls i = none) ∧
      s.registered = [(firstId, record), (secondId, record)] := by
  refine ⟨_, rfl, rfl, rfl, fun i hi => ?_, rfl⟩
  simp only [coldStart]
  rw [Function.update_of_ne (by omega), Function.update_of_ne (by omega)]

/-- Both calls have their snapshots, the second call persists first, and the older snapshot
of the first call then replaces the file. -/
theorem lostUpdate (json : HostsJson) (hne : ∀ hosts, json.toVecPretty hosts ≠ []) :
    ∃ s, (registry json).Reachable s ∧ Quiescent s ∧ (secondId, record) ∈ s.registered ∧
      secondId ∉ loadHosts json s.disk := by
  obtain ⟨s, hfollow, hzero, hone, hrest, hregistered⟩ := twoSnapshots json
  obtain ⟨t, hpersist, hcalls, hreg, -⟩ := persist_spec hone (hne _)
  have hzero' : t.calls 0 = some ⟨(∅ : Hosts).insert firstId record, .snapped⟩ := by
    rw [hcalls, Function.update_of_ne (by decide), hzero]
  obtain ⟨u, hpersist', hcalls', hreg', hload⟩ := persist_spec hzero' (hne _)
  have hstart : (registry json).Reachable coldStart := .init (coldStart_boots json)
  have hs := reachable_of_follow (fun h => h) hstart hfollow
  refine ⟨u, reachable_of_follow (fun h => h) (reachable_of_follow (fun h => h) hs hpersist)
    hpersist', ?_, ?_, ?_⟩
  · intro i call hcall
    rw [hcalls', hcalls] at hcall
    rcases Nat.lt_or_ge i 2 with hlt | hge
    · obtain rfl | rfl : i = 0 ∨ i = 1 := by omega
      · rw [Function.update_self] at hcall
        rw [← Option.some.inj hcall]
      · rw [Function.update_of_ne (by decide), Function.update_self] at hcall
        rw [← Option.some.inj hcall]
    · rw [Function.update_of_ne (by omega), Function.update_of_ne (by omega), hrest i hge] at hcall
      cases hcall
  · simp [hreg', hreg, hregistered]
  · rw [← AList.lookup_isSome, hload]
    decide

theorem lostUpdate_not_durable :
    ¬∀ (json : HostsJson) (s : State), (registry json).Reachable s → Durable json s := by
  intro hclaim
  obtain ⟨s, hreach, hquiet, hmem, hlost⟩ := lostUpdate prettyJson prettyBytes_ne_nil
  exact hlost ((hclaim prettyJson s hreach).complete hquiet secondId record hmem)

theorem reachable_of_opened {json : HostsJson} {actions : List Action} {s t : State}
    (hs : ((registry json).restrict InTurn).Reachable s) (hopened : ∀ i, .openTmp i ∉ actions)
    (h : follow (act json) actions s = some t) :
    ((registry json).restrict InTurn).Reachable t := by
  induction actions generalizing s with
  | nil =>
      cases h
      exact hs
  | cons action rest ih =>
      obtain ⟨mid, hmid, hrest⟩ := Option.bind_eq_some_iff.mp h
      refine ih (.step hs ⟨hmid, ?_⟩) (fun i hmem => hopened i (List.mem_cons_of_mem _ hmem)) hrest
      rintro i rfl
      exact absurd List.mem_cons_self (hopened i)

theorem reachable_of_persist {json : HostsJson} {i size : Nat} {s t : State}
    (hs : ((registry json).restrict InTurn).Reachable s)
    (hturn : ∀ j call, j < i → s.calls j = some call → call.phase = .done)
    (h : follow (act json) (persist i size) s = some t) :
    ((registry json).restrict InTurn).Reachable t := by
  obtain ⟨mid, hmid, hrest⟩ := Option.bind_eq_some_iff.mp h
  refine reachable_of_opened (.step hs ⟨hmid, ?_⟩) (by simp) hrest
  intro j heq
  cases heq
  exact hturn

/-- Two registrations that are persisted one after the other. -/
theorem durable_of_inTurn_twice : ∃ s, ((registry prettyJson).restrict InTurn).Reachable s ∧
    Quiescent s ∧ s.registered = [(firstId, record), (secondId, record)] ∧
      firstId ∈ loadHosts prettyJson s.disk ∧ secondId ∈ loadHosts prettyJson s.disk ∧
        Durable prettyJson s := by
  have hwritten (hosts : Hosts) : prettyJson.toVecPretty hosts ≠ [] := prettyBytes_ne_nil hosts
  obtain ⟨s, hfollow, hzero, hone, hrest, hregistered⟩ := twoSnapshots prettyJson
  have hs : ((registry prettyJson).restrict InTurn).Reachable s :=
    reachable_of_opened (.init (coldStart_boots prettyJson)) (by simp) hfollow
  obtain ⟨t, hpersist, hcalls, hreg, -⟩ := persist_spec hzero (hwritten _)
  have ht := reachable_of_persist hs (fun j _ hlt => absurd hlt (Nat.not_lt_zero j)) hpersist
  have hone' : t.calls 1 =
      some ⟨((∅ : Hosts).insert firstId record).insert secondId record, .snapped⟩ := by
    rw [hcalls, Function.update_of_ne (by decide), hone]
  obtain ⟨u, hpersist', hcalls', hreg', -⟩ := persist_spec hone' (hwritten _)
  have hturn (j : Nat) (call : Call) (hlt : j < 1) (hcall : t.calls j = some call) :
      call.phase = .done := by
    obtain rfl : j = 0 := by omega
    rw [hcalls, Function.update_self] at hcall
    rw [← Option.some.inj hcall]
  have hu := reachable_of_persist ht hturn hpersist'
  have hquiet : Quiescent u := by
    intro i call hcall
    rw [hcalls', hcalls] at hcall
    rcases Nat.lt_or_ge i 2 with hlt | hge
    · obtain rfl | rfl : i = 0 ∨ i = 1 := by omega
      · rw [Function.update_of_ne (by decide), Function.update_self] at hcall
        rw [← Option.some.inj hcall]
      · rw [Function.update_self] at hcall
        rw [← Option.some.inj hcall]
    · rw [Function.update_of_ne (by omega), Function.update_of_ne (by omega), hrest i hge] at hcall
      cases hcall
  have hall : u.registered = [(firstId, record), (secondId, record)] := by
    rw [hreg', hreg, hregistered]
  have hdurable := durable_of_inTurn prettyJson hu
  exact ⟨u, hu, hquiet, hall, hdurable.complete hquiet firstId record (by simp [hall]),
    hdurable.complete hquiet secondId record (by simp [hall]), hdurable⟩

end RemoteControl.Relay.Registry
