import RemoteControl.Foundations.Base64
import RemoteControl.Foundations.Transition
import RemoteControl.Server.Frame

/-!
The trust store over whole histories (`server-pc/src/trusted_devices.rs`): any number of calls of
`mint` and `verify` at once, whose lock sections interleave, and a file that a crash may leave at
any step of a save.
-/

namespace RemoteControl.Server.TrustStore

open RemoteControl.Foundations
open RemoteControl.Foundations.ByteStrings
open RemoteControl.Foundations.Interference
open RemoteControl.Foundations.Interference.Task
open RemoteControl.Foundations.Transition
open RemoteControl.Foundations.Transition.System
open RemoteControl.Server.Stores
open RemoteControl.Server.Connection
open RemoteControl.Server.Frame

variable {crates : Crates}

/-! ### Calls -/

/-- What a call returns, with the pair it is about. -/
inductive Answer where
  | minted (deviceId token : String)
  | verified (deviceId token : String) (outcome : VerifyOutcome)
deriving DecidableEq

/-- Where a call stands. The last three stages are inside the lock section of `save`: the list
is serialised, the temporary file is truncated, and it is written. -/
inductive Call where
  | pushing (device : TrustedDevice) (token : String)
  | checking (deviceId token : String)
  | saving (answer : Answer)
  | serialised (answer : Answer) (bytes : TrustedDevicesFile)
  | truncated (answer : Answer) (bytes : TrustedDevicesFile)
  | written (answer : Answer)

/-- The store, the temporary file next to its path, the call that holds the lock from one step
to the next, and the calls in progress. -/
structure Shared where
  store : TrustedDevicesStore
  tmp : StoredFile
  holder : Option Nat
  calls : Nat → Option Call

def Shared.put (s : Shared) (c : Nat) (call : Option Call) : Shared :=
  { s with calls := Function.update s.calls c call }

inductive Action where
  | mint (c : Nat) (deviceId : String) (tokenBytes : Bytes) (deviceName : String) (nowMs : UInt64)
  | verify (c : Nat) (deviceId token : String)
  | push (c : Nat) (deviceId token : String)
  | accept (c : Nat) (nowMs : UInt64)
  | serialise (c : Nat)
  | truncate (c : Nat)
  | write (c : Nat)
  | returns (c : Nat) (answer : Answer)

/-- The entry that `mint` makes. -/
def newDevice (crates : Crates) (deviceId token deviceName : String) (nowMs : UInt64) :
    TrustedDevice :=
  { deviceId
    tokenHash := sha256Hex crates (utf8 token)
    deviceName
    createdUnixMs := nowMs
    lastSeenUnixMs := nowMs }

def VerifyOutcome.isOk : VerifyOutcome → Bool
  | .ok _ => true
  | .unknownDevice | .badToken => false

inductive Step (crates : Crates) : Shared → Action → Shared → Prop
  | mint {s : Shared} {c : Nat} (deviceId : String) (tokenBytes : Bytes) (deviceName : String)
      (nowMs : UInt64) :
      s.calls c = none →
      Step crates s (.mint c deviceId tokenBytes deviceName nowMs)
        (s.put c (some (.pushing
          (newDevice crates deviceId (crates.base64UrlEncode tokenBytes) deviceName nowMs)
          (crates.base64UrlEncode tokenBytes))))
  | verify {s : Shared} {c : Nat} (deviceId token : String) :
      s.calls c = none →
      Step crates s (.verify c deviceId token) (s.put c (some (.checking deviceId token)))
  | push {s : Shared} {c : Nat} {device : TrustedDevice} {token : String} :
      s.calls c = some (.pushing device token) → s.holder = none →
      Step crates s (.push c device.deviceId token)
        { s.put c (some (.saving (.minted device.deviceId token))) with
          store := s.store.push device }
  | accept {s : Shared} {c : Nat} {deviceId token name : String} {nowMs : UInt64}
      {store : TrustedDevicesStore} :
      s.calls c = some (.checking deviceId token) → s.holder = none →
      s.store.check deviceId (sha256Hex crates (utf8 token)) nowMs = (.ok name, store) →
      Step crates s (.accept c nowMs)
        { s.put c (some (.saving (.verified deviceId token (.ok name)))) with store }
  | refuse {s : Shared} {c : Nat} {deviceId token : String} {nowMs : UInt64}
      {outcome : VerifyOutcome} :
      s.calls c = some (.checking deviceId token) → s.holder = none →
      (s.store.check deviceId (sha256Hex crates (utf8 token)) nowMs).1 = outcome →
      VerifyOutcome.isOk outcome = false →
      Step crates s (.returns c (.verified deviceId token outcome)) (s.put c none)
  | serialise {s : Shared} {c : Nat} {answer : Answer} :
      s.calls c = some (.saving answer) → s.holder = none →
      Step crates s (.serialise c)
        { s.put c (some (.serialised answer s.store.inner)) with holder := some c }
  | truncate {s : Shared} {c : Nat} {answer : Answer} {bytes : TrustedDevicesFile} :
      s.calls c = some (.serialised answer bytes) →
      Step crates s (.truncate c)
        { s.put c (some (.truncated answer bytes)) with tmp := .malformed }
  | write {s : Shared} {c : Nat} {answer : Answer} {bytes : TrustedDevicesFile} :
      s.calls c = some (.truncated answer bytes) →
      Step crates s (.write c) { s.put c (some (.written answer)) with tmp := .parsed bytes }
  | rename {s : Shared} {c : Nat} {answer : Answer} :
      s.calls c = some (.written answer) →
      Step crates s (.returns c answer)
        { s.put c none with
          store := { s.store with disk := s.tmp }
          tmp := .notFound
          holder := none }

/-- The store has been opened from an absent or empty-list file, and nothing is called yet. -/
def Starts (s : Shared) : Prop :=
  (s.store = .openStore .notFound ∨
    s.store = .openStore (.parsed { schema := currentSchema, devices := [] })) ∧
    s.holder = none ∧ ∀ c, s.calls c = none

def trustStore (crates : Crates) : System Shared Action where
  init := Starts
  step := Step crates

/-- What `open` finds at the path, in memory. -/
def reopened (s : Shared) : TrustedDevicesStore :=
  .openStore s.store.disk

/-! ### The pairs of a list -/

/-- The ids and token hashes of a list, in order. -/
def keys (devices : List TrustedDevice) : List (String × String) :=
  devices.map fun dev => (dev.deviceId, dev.tokenHash)

@[simp] theorem keys_append (devices : List TrustedDevice) (device : TrustedDevice) :
    keys (devices ++ [device]) = keys devices ++ [(device.deviceId, device.tokenHash)] := by
  simp [keys]

@[simp] theorem keys_touch (devices : List TrustedDevice) (deviceId : String) (nowMs : UInt64) :
    keys (TrustedDevicesStore.touch devices deviceId nowMs) = keys devices := by
  induction devices with
  | nil => rfl
  | cons dev rest ih =>
      unfold TrustedDevicesStore.touch
      split
      · rfl
      · simpa [keys] using ih

theorem keys_check (store : TrustedDevicesStore) (deviceId tokenHash : String)
    (nowMs : UInt64) :
    keys (store.check deviceId tokenHash nowMs).2.inner.devices = keys store.inner.devices := by
  unfold TrustedDevicesStore.check
  split
  · rfl
  · split
    · rfl
    · exact keys_touch _ _ _

theorem check_of_refused {store : TrustedDevicesStore} {deviceId tokenHash : String}
    {nowMs : UInt64}
    (h : VerifyOutcome.isOk (store.check deviceId tokenHash nowMs).1 = false) :
    (store.check deviceId tokenHash nowMs).2 = store := by
  unfold TrustedDevicesStore.check at h ⊢
  split at h
  · rfl
  · split_ifs at h ⊢
    · rfl
    · cases h

theorem check_frame (store : TrustedDevicesStore) (deviceId tokenHash : String)
    (nowMs : UInt64) :
    (store.check deviceId tokenHash nowMs).2.disk = store.disk ∧
      (store.check deviceId tokenHash nowMs).2.inner.schema = store.inner.schema := by
  unfold TrustedDevicesStore.check
  split
  · exact ⟨rfl, rfl⟩
  · split <;> exact ⟨rfl, rfl⟩

theorem mem_keys_of_find {devices : List TrustedDevice} {deviceId : String}
    {dev : TrustedDevice} (h : devices.find? (fun dev => dev.deviceId = deviceId) = some dev) :
    (deviceId, dev.tokenHash) ∈ keys devices := by
  have hid : dev.deviceId = deviceId := by simpa using List.find?_some h
  exact List.mem_map.mpr ⟨dev, List.mem_of_find?_eq_some h, by rw [hid]⟩

theorem find_eq_none_iff {devices : List TrustedDevice} {deviceId : String} :
    devices.find? (fun dev => dev.deviceId = deviceId) = none ↔
      deviceId ∉ (keys devices).map Prod.fst := by
  rw [List.find?_eq_none, keys, List.map_map, List.mem_map]
  simp [eq_comm]

theorem hash_eq_of_mem {pairs : List (String × String)} (hids : (pairs.map Prod.fst).Nodup)
    {deviceId hash hash' : String} (h : (deviceId, hash) ∈ pairs)
    (h' : (deviceId, hash') ∈ pairs) : hash = hash' := by
  have hpair := List.inj_on_of_nodup_map hids h h' rfl
  exact (Prod.mk.inj hpair).2

/-- What `verify` answers, read off the pairs of the list. -/
theorem check_outcome {store : TrustedDevicesStore}
    (hids : ((keys store.inner.devices).map Prod.fst).Nodup) (deviceId tokenHash : String)
    (nowMs : UInt64) :
    ((∃ name, (store.check deviceId tokenHash nowMs).1 = .ok name) ↔
        (deviceId, tokenHash) ∈ keys store.inner.devices) ∧
      ((store.check deviceId tokenHash nowMs).1 = .unknownDevice ↔
        deviceId ∉ (keys store.inner.devices).map Prod.fst) := by
  rw [← find_eq_none_iff, TrustedDevicesStore.check_eq_ok_iff, TrustedDevicesStore.Holds]
  constructor
  · constructor
    · rintro ⟨dev, hfind, rfl⟩
      exact mem_keys_of_find hfind
    · intro hmem
      obtain ⟨dev, hfind⟩ : ∃ dev,
          store.inner.devices.find? (fun dev => dev.deviceId = deviceId) = some dev := by
        by_contra hnone
        refine find_eq_none_iff.mp (Option.eq_none_iff_forall_not_mem.mpr ?_)
          (List.mem_map_of_mem hmem)
        intro dev hdev
        exact hnone ⟨dev, hdev⟩
      exact ⟨dev, hfind, hash_eq_of_mem hids (mem_keys_of_find hfind) hmem⟩
  · unfold TrustedDevicesStore.check
    cases store.inner.devices.find? fun dev => dev.deviceId = deviceId with
    | none => simp
    | some dev => by_cases hhash : dev.tokenHash = tokenHash <;> simp [hhash]

/-! ### What holds in every state -/

def pushed (crates : Crates) : Action → Option (String × String)
  | .push _ deviceId token => some (deviceId, sha256Hex crates (utf8 token))
  | _ => none

/-- The pairs that the mints of a history have generated, in order. -/
def pushes (crates : Crates) (labels : List Action) : List (String × String) :=
  labels.filterMap (pushed crates)

/-- The answer of a call that is somewhere in `save`. -/
def Call.answer : Call → Option Answer
  | .pushing .. | .checking .. => none
  | .saving answer | .serialised answer _ | .truncated answer _ | .written answer => some answer

/-- The answer is about a pair of the list in memory. -/
def Sound (crates : Crates) (labels : List Action) (s : Shared) (c : Nat) : Answer → Prop
  | .minted deviceId token =>
      (deviceId, sha256Hex crates (utf8 token)) ∈ keys s.store.inner.devices
  | .verified deviceId token outcome =>
      .verify c deviceId token ∈ labels ∧ VerifyOutcome.isOk outcome = true ∧
        (deviceId, sha256Hex crates (utf8 token)) ∈ keys s.store.inner.devices

/-- Each stage keeps what the stages after it need. Inside the lock section of `save`, what was
serialised is still the list in memory. -/
def Stage (crates : Crates) (labels : List Action) (s : Shared) (c : Nat) : Call → Prop
  | .pushing device token => device.tokenHash = sha256Hex crates (utf8 token)
  | .checking deviceId token => .verify c deviceId token ∈ labels
  | .saving answer => Sound crates labels s c answer
  | .serialised answer bytes =>
      Sound crates labels s c answer ∧ s.holder = some c ∧ bytes = s.store.inner
  | .truncated answer bytes =>
      Sound crates labels s c answer ∧ s.holder = some c ∧ bytes = s.store.inner
  | .written answer =>
      Sound crates labels s c answer ∧ s.holder = some c ∧ s.tmp = .parsed s.store.inner

structure Consistent (crates : Crates) (labels : List Action) (s : Shared) : Prop where
  logged : keys s.store.inner.devices = pushes crates labels
  schema : s.store.inner.schema = currentSchema
  stages : ∀ c call, s.calls c = some call → Stage crates labels s c call
  clean : (reopened s).inner.devices = s.store.inner.devices ∨
    ∃ c call answer, s.calls c = some call ∧ call.answer = some answer
  durable : keys (reopened s).inner.devices <+: keys s.store.inner.devices
  completed : ∀ c deviceId token, .returns c (.minted deviceId token) ∈ labels →
    (deviceId, sha256Hex crates (utf8 token)) ∈ keys (reopened s).inner.devices

section

variable {labels : List Action} {s s' : Shared} {label : Action} {c : Nat}

theorem Sound.mono {answer : Answer} (h : Sound crates labels s c answer)
    (hkeys : keys s.store.inner.devices ⊆ keys s'.store.inner.devices) (label : Action) :
    Sound crates (labels ++ [label]) s' c answer := by
  cases answer with
  | minted => exact hkeys h
  | verified => exact ⟨List.mem_append_left _ h.1, h.2.1, hkeys h.2.2⟩

theorem Stage.mono {call : Call} (h : Stage crates labels s c call)
    (hkeys : keys s.store.inner.devices ⊆ keys s'.store.inner.devices)
    (hlock : s.holder = some c →
      s'.holder = some c ∧ s'.store.inner = s.store.inner ∧ s'.tmp = s.tmp)
    (label : Action) : Stage crates (labels ++ [label]) s' c call := by
  cases call with
  | pushing => exact h
  | checking => exact List.mem_append_left _ h
  | saving => exact Sound.mono h hkeys label
  | serialised | truncated =>
      obtain ⟨hsound, hholder, rfl⟩ := h
      obtain ⟨hholder', hinner, -⟩ := hlock hholder
      exact ⟨hsound.mono hkeys label, hholder', hinner.symm⟩
  | written =>
      obtain ⟨hsound, hholder, htmp⟩ := h
      obtain ⟨hholder', hinner, htmp'⟩ := hlock hholder
      exact ⟨hsound.mono hkeys label, hholder', by rw [htmp', htmp, hinner]⟩

theorem stages_of_step {new : Option Call} (hcons : Consistent crates labels s)
    (hcalls : s'.calls = Function.update s.calls c new)
    (hnew : ∀ call, new = some call → Stage crates (labels ++ [label]) s' c call)
    (hkeys : keys s.store.inner.devices ⊆ keys s'.store.inner.devices)
    (hlock : ∀ c' ≠ c, s.holder = some c' →
      s'.holder = some c' ∧ s'.store.inner = s.store.inner ∧ s'.tmp = s.tmp) :
    ∀ c' call, s'.calls c' = some call → Stage crates (labels ++ [label]) s' c' call := by
  intro c' call hcall
  rw [hcalls] at hcall
  by_cases hc : c' = c
  · subst hc
    rw [Function.update_self] at hcall
    exact hnew call hcall
  · rw [Function.update_of_ne hc] at hcall
    exact (hcons.stages c' call hcall).mono hkeys (hlock c' hc) label

theorem Consistent.of_store_eq (hcons : Consistent crates labels s) (hstore : s'.store = s.store)
    (hpushed : pushed crates label = none)
    (hminted : ∀ c deviceId token, label ≠ .returns c (.minted deviceId token))
    (hstages : ∀ c call, s'.calls c = some call →
      Stage crates (labels ++ [label]) s' c call)
    (hsaving : ∀ c call answer, s.calls c = some call → call.answer = some answer →
      ∃ c call answer, s'.calls c = some call ∧ call.answer = some answer) :
    Consistent crates (labels ++ [label]) s' := by
  have hreopened : reopened s' = reopened s := by rw [reopened, reopened, hstore]
  refine ⟨?_, hstore ▸ hcons.schema, hstages, ?_, ?_, ?_⟩
  · rw [hstore, hcons.logged, pushes, pushes, List.filterMap_append]
    simp [hpushed]
  · rw [hreopened, hstore]
    exact hcons.clean.imp_right fun ⟨c, call, answer, hcall, hanswer⟩ =>
      hsaving c call answer hcall hanswer
  · rw [hreopened, hstore]
    exact hcons.durable
  · intro c deviceId token hmem
    rcases List.mem_append.mp hmem with hmem | hmem
    · rw [hreopened]
      exact hcons.completed c deviceId token hmem
    · exact absurd (List.mem_singleton.mp hmem).symm (hminted c deviceId token)

theorem exists_saving {old new : Option Call}
    (hcalls : s'.calls = Function.update s.calls c new) (hold : s.calls c = old)
    (hanswer : old.bind Call.answer = none ∨ (new.bind Call.answer).isSome) :
    ∀ c call answer, s.calls c = some call → call.answer = some answer →
      ∃ c call answer, s'.calls c = some call ∧ call.answer = some answer := by
  intro c' call answer hcall hcallAnswer
  rw [hcalls]
  by_cases hc : c' = c
  · subst hc
    obtain rfl : old = some call := hold.symm.trans hcall
    rcases hanswer with hnone | hsome
    · simp [hcallAnswer] at hnone
    · obtain ⟨answer', hnew⟩ := Option.isSome_iff_exists.mp hsome
      obtain ⟨call', rfl, hanswer'⟩ := Option.bind_eq_some_iff.mp hnew
      exact ⟨c', call', answer', Function.update_self .., hanswer'⟩
  · exact ⟨c', call, answer, by rwa [Function.update_of_ne hc], hcallAnswer⟩

theorem push_consistent (hcons : Consistent crates labels s) {device : TrustedDevice}
    {token : String} (hcall : s.calls c = some (.pushing device token))
    (hfree : s.holder = none) :
    Consistent crates (labels ++ [.push c device.deviceId token])
      { s.put c (some (.saving (.minted device.deviceId token))) with
        store := s.store.push device } := by
  have hhash : device.tokenHash = sha256Hex crates (utf8 token) := hcons.stages _ _ hcall
  have hkeys : keys (s.store.push device).inner.devices =
      keys s.store.inner.devices ++ [(device.deviceId, sha256Hex crates (utf8 token))] := by
    rw [TrustedDevicesStore.push, keys_append, hhash]
  refine ⟨?_, hcons.schema, ?_, ?_, ?_, ?_⟩
  · rw [hkeys, hcons.logged, pushes, pushes, List.filterMap_append]
    rfl
  · refine stages_of_step hcons rfl ?_ ?_ ?_
    · rintro call ⟨⟩
      rw [Stage, Sound, hkeys]
      exact List.mem_append_right _ List.mem_cons_self
    · rw [hkeys]
      exact List.subset_append_left _ _
    · intro c' _ hholder
      exact absurd (hfree.symm.trans hholder) (by simp)
  · exact .inr ⟨c, _, _, Function.update_self .., rfl⟩
  · rw [hkeys]
    exact hcons.durable.trans (List.prefix_append _ _)
  · intro c' deviceId token' hmem
    simp only [List.mem_append, List.mem_singleton, reduceCtorEq, or_false] at hmem
    exact hcons.completed c' deviceId token' hmem

theorem accept_consistent (hcons : Consistent crates labels s) {deviceId token name : String}
    {nowMs : UInt64} {store : TrustedDevicesStore}
    (hcall : s.calls c = some (.checking deviceId token)) (hfree : s.holder = none)
    (hcheck : s.store.check deviceId (sha256Hex crates (utf8 token)) nowMs = (.ok name, store)) :
    Consistent crates (labels ++ [.accept c nowMs])
      { s.put c (some (.saving (.verified deviceId token (.ok name)))) with store } := by
  have hpresented : Action.verify c deviceId token ∈ labels := hcons.stages _ _ hcall
  have hkeys := keys_check s.store deviceId (sha256Hex crates (utf8 token)) nowMs
  obtain ⟨hdisk, hschema⟩ := check_frame s.store deviceId (sha256Hex crates (utf8 token)) nowMs
  obtain ⟨dev, hdev, hhash⟩ := (TrustedDevicesStore.check_eq_ok_iff s.store deviceId
    (sha256Hex crates (utf8 token)) nowMs).mp ⟨name, by rw [hcheck]⟩
  rw [hcheck] at hkeys hdisk hschema
  dsimp only at hkeys hdisk hschema
  have hreopened : reopened
      { s.put c (some (.saving (.verified deviceId token (.ok name)))) with store } =
        reopened s := by
    rw [reopened, reopened, hdisk]
  refine ⟨?_, hschema.trans hcons.schema, ?_, ?_, ?_, ?_⟩
  · rw [hkeys, hcons.logged, pushes, pushes, List.filterMap_append]
    simp [pushed]
  · refine stages_of_step hcons rfl ?_ ?_ ?_
    · rintro call ⟨⟩
      refine ⟨List.mem_append_left _ hpresented, rfl, ?_⟩
      rw [hkeys, ← hhash]
      exact mem_keys_of_find hdev
    · rw [hkeys]
      exact List.Subset.refl _
    · intro c' _ hholder
      exact absurd (hfree.symm.trans hholder) (by simp)
  · exact .inr ⟨c, _, _, Function.update_self .., rfl⟩
  · rw [hreopened, hkeys]
    exact hcons.durable
  · intro c' deviceId' token' hmem
    simp only [List.mem_append, List.mem_singleton, reduceCtorEq, or_false] at hmem
    rw [hreopened]
    exact hcons.completed c' deviceId' token' hmem

theorem rename_consistent (hcons : Consistent crates labels s) {answer : Answer}
    (hcall : s.calls c = some (.written answer)) :
    Consistent crates (labels ++ [.returns c answer])
      { s.put c none with
        store := { s.store with disk := s.tmp }
        tmp := .notFound
        holder := none } := by
  obtain ⟨hsound, hholder, htmp⟩ := hcons.stages _ _ hcall
  have hdevices : (reopened
      { s.put c none with
        store := { s.store with disk := s.tmp }
        tmp := .notFound
        holder := none }).inner.devices = s.store.inner.devices := by
    simp [reopened, TrustedDevicesStore.openStore, htmp, hcons.schema]
  refine ⟨?_, hcons.schema, ?_, .inl hdevices, ?_, ?_⟩
  · rw [pushes, List.filterMap_append]
    exact hcons.logged.trans (List.append_nil _).symm
  · refine stages_of_step hcons rfl (fun _ h => nomatch h) (List.Subset.refl _) ?_
    intro c' hne hholder'
    exact absurd (Option.some.inj (hholder'.symm.trans hholder)) hne
  · exact hdevices ▸ List.prefix_rfl
  · intro c' deviceId token hmem
    rw [hdevices]
    rcases List.mem_append.mp hmem with hmem | hmem
    · exact hcons.durable.subset (hcons.completed c' deviceId token hmem)
    · obtain ⟨rfl, rfl⟩ := Action.returns.inj (List.mem_singleton.mp hmem)
      exact hsound

theorem step_consistent (hcons : Consistent crates labels s) (hstep : Step crates s label s') :
    Consistent crates (labels ++ [label]) s' := by
  have hsame (c' : Nat) : s.holder = some c' →
      s.holder = some c' ∧ s.store.inner = s.store.inner ∧ s.tmp = s.tmp :=
    fun h => ⟨h, rfl, rfl⟩
  cases hstep with
  | mint deviceId tokenBytes deviceName nowMs hfree =>
      refine hcons.of_store_eq rfl rfl (by simp) ?_ (exists_saving rfl hfree (.inl rfl))
      refine stages_of_step hcons rfl ?_ (List.Subset.refl _) fun c' _ => hsame c'
      rintro call ⟨⟩
      rfl
  | @verify c deviceId token hfree =>
      refine hcons.of_store_eq rfl rfl (by simp) ?_ (exists_saving rfl hfree (.inl rfl))
      refine stages_of_step hcons rfl ?_ (List.Subset.refl _) fun c' _ => hsame c'
      rintro call ⟨⟩
      exact List.mem_append_right _ List.mem_cons_self
  | push hcall hfree => exact push_consistent hcons hcall hfree
  | accept hcall hfree hcheck => exact accept_consistent hcons hcall hfree hcheck
  | @refuse c deviceId token nowMs outcome hcall hfree hcheck hrefused =>
      refine hcons.of_store_eq rfl rfl (by simp) ?_ (exists_saving rfl hcall (.inl rfl))
      exact stages_of_step hcons rfl (fun _ h => nomatch h) (List.Subset.refl _) fun c' _ =>
        hsame c'
  | @serialise c answer hcall hfree =>
      refine hcons.of_store_eq rfl rfl (by simp) ?_ (exists_saving rfl hcall (.inr rfl))
      refine stages_of_step hcons rfl ?_ (List.Subset.refl _) ?_
      · rintro call ⟨⟩
        have hsound : Sound crates labels s c answer := hcons.stages _ _ hcall
        exact ⟨hsound.mono (List.Subset.refl _) _, rfl, rfl⟩
      · intro c' _ hholder
        exact absurd (hfree.symm.trans hholder) (by simp)
  | @truncate c answer bytes hcall =>
      obtain ⟨hsound, hholder, hbytes⟩ := hcons.stages _ _ hcall
      refine hcons.of_store_eq rfl rfl (by simp) ?_ (exists_saving rfl hcall (.inr rfl))
      refine stages_of_step hcons rfl ?_ (List.Subset.refl _) ?_
      · rintro call ⟨⟩
        exact ⟨hsound.mono (List.Subset.refl _) _, hholder, hbytes⟩
      · intro c' hne hholder'
        exact absurd (Option.some.inj (hholder'.symm.trans hholder)) hne
  | @write c answer bytes hcall =>
      obtain ⟨hsound, hholder, hbytes⟩ := hcons.stages _ _ hcall
      refine hcons.of_store_eq rfl rfl (by simp) ?_ (exists_saving rfl hcall (.inr rfl))
      refine stages_of_step hcons rfl ?_ (List.Subset.refl _) ?_
      · rintro call ⟨⟩
        exact ⟨hsound.mono (List.Subset.refl _) _, hholder, congrArg _ hbytes⟩
      · intro c' hne hholder'
        exact absurd (Option.some.inj (hholder'.symm.trans hholder)) hne
  | rename hcall => exact rename_consistent hcons hcall

end

theorem starts_consistent {s : Shared} (hstart : Starts s) : Consistent crates [] s := by
  obtain ⟨hstore, -, hcalls⟩ := hstart
  have hempty : s.store.inner = { schema := currentSchema, devices := [] } ∧
      (reopened s).inner.devices = [] := by
    rcases hstore with hstore | hstore <;> rw [reopened, hstore] <;> exact ⟨rfl, rfl⟩
  refine ⟨by rw [hempty.1]; rfl, by rw [hempty.1], ?_, ?_, ?_, ?_⟩
  · intro c call hcall
    exact absurd ((hcalls c).symm.trans hcall) (by simp)
  · exact .inl (by rw [hempty.1, hempty.2])
  · rw [hempty.2]
    exact List.nil_prefix
  · intro c deviceId token hmem
    exact absurd hmem List.not_mem_nil

theorem run_consistent {s₀ s : Shared} {labels : List Action} (hstart : Starts s₀)
    (hrun : (trustStore crates).Run s₀ labels s) : Consistent crates labels s :=
  hrun.invariant (starts_consistent hstart) fun _ _ _ _ _ => step_consistent

/-! ### What the calls return -/

/-- A mint of the history has generated the pair. -/
def Minted (labels : List Action) (deviceId token : String) : Prop :=
  ∃ c, .push c deviceId token ∈ labels

def Action.pushedId : Action → Option String
  | .push _ deviceId _ => some deviceId
  | _ => none

/-- No two mints of the history generate one device id. -/
def DistinctIds (labels : List Action) : Prop :=
  (labels.filterMap Action.pushedId).Nodup

/-- No token that is presented has the hash of another that is minted. -/
def NoCollisions (crates : Crates) (labels : List Action) : Prop :=
  ∀ c deviceId token c' deviceId' token', .push c deviceId token ∈ labels →
    .verify c' deviceId' token' ∈ labels →
    crates.sha256 (utf8 token) = crates.sha256 (utf8 token') → token = token'

theorem hexDigit_inj {m n : UInt8} (hm : m.toNat < 16) (hn : n.toNat < 16)
    (h : hexDigit m = hexDigit n) : m = n := by
  have hall : ∀ i j : Fin 16,
      hexDigit (UInt8.ofNat i) = hexDigit (UInt8.ofNat j) → i = j := by decide
  have hfin := hall ⟨m.toNat, hm⟩ ⟨n.toNat, hn⟩ (by simpa using h)
  exact UInt8.toNat_inj.mp (Fin.mk.inj hfin)

theorem hexEncode_inj {xs ys : Bytes} (h : hexEncode xs = hexEncode ys) : xs = ys := by
  have hchars := String.ofList_injective h
  induction xs generalizing ys with
  | nil =>
      cases ys with
      | nil => rfl
      | cons y ys => simp at hchars
  | cons x xs ih =>
      cases ys with
      | nil => simp at hchars
      | cons y ys =>
          simp only [List.flatMap_cons, List.cons_append, List.nil_append, List.cons.injEq]
            at hchars
          obtain ⟨hhigh, hlow, hrest⟩ := hchars
          have hx := x.toNat_lt
          have hy := y.toNat_lt
          have hdiv := congrArg UInt8.toNat (hexDigit_inj (by simp; omega) (by simp; omega) hhigh)
          have hmod := congrArg UInt8.toNat (hexDigit_inj (by simp; omega) (by simp; omega) hlow)
          simp only [UInt8.toNat_div, UInt8.toNat_mod, UInt8.reduceToNat] at hdiv hmod
          rw [UInt8.toNat_inj.mp (show x.toNat = y.toNat by omega),
            ih (congrArg String.ofList hrest) hrest]

theorem mem_pushes_iff {labels : List Action} {deviceId hash : String} :
    (deviceId, hash) ∈ pushes crates labels ↔
      ∃ token, Minted labels deviceId token ∧ sha256Hex crates (utf8 token) = hash := by
  rw [pushes, List.mem_filterMap]
  constructor
  · rintro ⟨label, hmem, hlabel⟩
    cases label with
    | push c deviceId' token =>
        obtain ⟨rfl, rfl⟩ := Prod.mk.inj (Option.some.inj hlabel)
        exact ⟨token, ⟨c, hmem⟩, rfl⟩
    | _ => cases hlabel
  · rintro ⟨token, ⟨c, hmem⟩, rfl⟩
    exact ⟨_, hmem, rfl⟩

theorem pushes_ids (labels : List Action) :
    (pushes crates labels).map Prod.fst = labels.filterMap Action.pushedId := by
  rw [pushes, List.map_filterMap]
  congr 1
  funext label
  cases label <;> rfl

theorem mem_ids_iff {labels : List Action} {deviceId : String} :
    deviceId ∈ (pushes crates labels).map Prod.fst ↔ ∃ token, Minted labels deviceId token := by
  rw [List.mem_map]
  constructor
  · rintro ⟨⟨_, hash⟩, hmem, rfl⟩
    obtain ⟨token, hminted, -⟩ := mem_pushes_iff.mp hmem
    exact ⟨token, hminted⟩
  · rintro ⟨token, hminted⟩
    exact ⟨_, mem_pushes_iff.mpr ⟨token, hminted, rfl⟩, rfl⟩

theorem minted_of_mem {labels before : List Action} {c : Nat} {deviceId token : String}
    (hnocollisions : NoCollisions crates labels) (hbefore : before ⊆ labels)
    (hpresented : .verify c deviceId token ∈ before)
    (hmem : (deviceId, sha256Hex crates (utf8 token)) ∈ pushes crates before) :
    Minted before deviceId token := by
  obtain ⟨token', ⟨c', hpush⟩, hhash⟩ := mem_pushes_iff.mp hmem
  have htoken := hnocollisions c' deviceId token' c deviceId token (hbefore hpush)
    (hbefore hpresented) (hexEncode_inj hhash)
  exact ⟨c', htoken ▸ hpush⟩

/-- `verify` answers as the pairs demand that the earlier mints have generated. -/
def Correct (before : List Action) (deviceId token : String) (outcome : VerifyOutcome) : Prop :=
  ((∃ name, outcome = .ok name) ↔ Minted before deviceId token) ∧
    (outcome = .badToken ↔
      (∃ token', Minted before deviceId token') ∧ ¬Minted before deviceId token) ∧
    (outcome = .unknownDevice ↔ ¬∃ token', Minted before deviceId token')

theorem correct_of_iff {before : List Action} {deviceId token : String}
    {outcome : VerifyOutcome} (hok : (∃ name, outcome = .ok name) ↔ Minted before deviceId token)
    (hunknown : outcome = .unknownDevice ↔ ¬∃ token', Minted before deviceId token') :
    Correct before deviceId token outcome := by
  refine ⟨hok, ?_, hunknown⟩
  rw [← hok]
  cases outcome with
  | ok name => simp
  | unknownDevice => simp [not_exists.mp (hunknown.mp rfl)]
  | badToken =>
      have hknown : ∃ token', Minted before deviceId token' := by
        by_contra hnone
        cases hunknown.mpr hnone
      simp [hknown]

theorem ids_nodup (crates : Crates) {labels before : List Action} (hids : DistinctIds labels)
    (hbefore : before.Sublist labels) : ((pushes crates before).map Prod.fst).Nodup := by
  rw [pushes_ids]
  exact hids.sublist (hbefore.filterMap _)

theorem returned_correct {s₀ s t : Shared} {labels before : List Action} {c : Nat}
    {deviceId token : String} {outcome : VerifyOutcome} (hstart : Starts s₀)
    (hids : DistinctIds labels) (hnocollisions : NoCollisions crates labels)
    (hbefore : before.Sublist labels) (hrun : (trustStore crates).Run s₀ before s)
    (hstep : Step crates s (.returns c (.verified deviceId token outcome)) t) :
    Correct before deviceId token outcome := by
  have hcons := run_consistent hstart hrun
  generalize hlabel : Action.returns c (.verified deviceId token outcome) = label at hstep
  cases hstep with
  | refuse hcall hfree hcheck hrefused =>
      obtain ⟨rfl, hanswer⟩ := Action.returns.inj hlabel
      obtain ⟨rfl, rfl, rfl⟩ := Answer.verified.inj hanswer
      have hnodup := ids_nodup crates hids hbefore
      rw [← hcons.logged] at hnodup
      obtain ⟨hok, hunknown⟩ := check_outcome hnodup deviceId (sha256Hex crates (utf8 token)) _
      rw [hcheck, hcons.logged] at hok hunknown
      refine correct_of_iff (hok.trans ⟨?_, ?_⟩) (hunknown.trans (not_congr mem_ids_iff))
      · exact minted_of_mem hnocollisions hbefore.subset (hcons.stages _ _ hcall)
      · exact fun hminted => mem_pushes_iff.mpr ⟨token, hminted, rfl⟩
  | rename hcall =>
      obtain ⟨rfl, rfl⟩ := Action.returns.inj hlabel
      obtain ⟨⟨hpresented, hisOk, hmem⟩, -⟩ := hcons.stages _ _ hcall
      rw [hcons.logged] at hmem
      have hminted := minted_of_mem hnocollisions hbefore.subset hpresented hmem
      cases outcome with
      | ok name =>
          refine correct_of_iff ⟨fun _ => hminted, fun _ => ⟨name, rfl⟩⟩ ⟨?_, ?_⟩
          · exact fun h => nomatch h
          · exact fun hnone => absurd ⟨token, hminted⟩ hnone
      | unknownDevice => cases hisOk
      | badToken => cases hisOk
  | _ => cases hlabel

/-! ### The calls and the handlers' tasks -/

/-- The steps of a `mint` that nothing interrupts. -/
def mintAlone (c : Nat) (deviceId : String) (tokenBytes : Bytes) (token deviceName : String)
    (nowMs : UInt64) : List Action :=
  [.mint c deviceId tokenBytes deviceName nowMs, .push c deviceId token, .serialise c,
    .truncate c, .write c, .returns c (.minted deviceId token)]

@[simp] theorem put_put (s : Shared) (c : Nat) (old new : Option Call) :
    (s.put c old).put c new = s.put c new := by
  simp [Shared.put]

theorem save_alone (crates : Crates) {s : Shared} {c : Nat} {answer : Answer}
    (hcall : s.calls c = some (.saving answer)) (hfree : s.holder = none) :
    ∃ t, (trustStore crates).Run s
        [.serialise c, .truncate c, .write c, .returns c answer] t ∧
      t.store = (s.store.save none).2 ∧ t.calls = Function.update s.calls c none ∧
      t.holder = none := by
  have hserialise : Step crates s (.serialise c) _ := .serialise hcall hfree
  have hrun := run_cons_iff.mpr ⟨_, hserialise,
    run_cons_iff.mpr ⟨_, Step.truncate (Function.update_self ..),
      run_cons_iff.mpr ⟨_, Step.write (Function.update_self ..),
        Run.single (M := trustStore crates) (Step.rename (Function.update_self ..))⟩⟩⟩
  refine ⟨_, hrun, rfl, ?_, rfl⟩
  simp [Shared.put]

/-- A `mint` that nothing interrupts does what the task of the handlers does. -/
theorem mint_alone (crates : Crates) {s : Shared} {c : Nat} (hcall : s.calls c = none)
    (hfree : s.holder = none) (os : Answers) (hfault : os.saveFault = none) (deviceName : String)
    (st : St) (htrusted : st.world.trusted = s.store) :
    ∃ t, (trustStore crates).Run s
        (mintAlone c os.deviceId os.tokenBytes (crates.base64UrlEncode os.tokenBytes) deviceName
          st.world.unixMs) t ∧
      ((mint crates os deviceName).run st).1 =
        .ok (os.deviceId, crates.base64UrlEncode os.tokenBytes) ∧
      ((mint crates os deviceName).run st).2.world.trusted = t.store ∧
      t.calls = s.calls ∧ t.holder = none := by
  let token := crates.base64UrlEncode os.tokenBytes
  let device := newDevice crates os.deviceId token deviceName st.world.unixMs
  let mid : Shared :=
    { s.put c (some (.saving (.minted os.deviceId token))) with store := s.store.push device }
  have hmint : Step crates s (.mint c os.deviceId os.tokenBytes deviceName st.world.unixMs)
      (s.put c (some (.pushing device token))) :=
    .mint _ _ _ _ hcall
  have hpush : Step crates (s.put c (some (.pushing device token))) (.push c os.deviceId token)
      mid := by
    have h : Step crates (s.put c (some (.pushing device token))) (.push c device.deviceId token)
        _ := .push (Function.update_self ..) hfree
    rw [put_put] at h
    exact h
  obtain ⟨t, hsave, hstore, hcalls, hholder⟩ :=
    save_alone crates (s := mid) (c := c) (Function.update_self ..) hfree
  refine ⟨t, run_cons_iff.mpr ⟨_, hmint, run_cons_iff.mpr ⟨_, hpush, hsave⟩⟩, ?_, ?_, ?_, hholder⟩
  · simp only [mint, saveTrusted, hfault]
    rfl
  · have hmid : mid.store = st.world.trusted.push device := by rw [htrusted]
    rw [hstore, hmid]
    simp only [mint, saveTrusted, hfault]
    rfl
  · rw [hcalls, ← hcall]
    simp [mid, Shared.put]

theorem verify_run (crates : Crates) (os : Answers) (deviceId token : String) (st : St) :
    (verify crates os deviceId token).run st =
      (match (st.world.trusted.check deviceId (sha256Hex crates (utf8 token)) st.world.unixMs).1
          with
        | .ok deviceName => do
            let _ ← saveTrusted os
            return .ok (.ok deviceName)
        | .unknownDevice => return .ok .unknownDevice
        | .badToken => return .ok .badToken : Handler (Except String VerifyOutcome)).run
        { st with
          world :=
            { st.world with
              trusted := (st.world.trusted.check deviceId (sha256Hex crates (utf8 token))
                st.world.unixMs).2 } } :=
  run_bind _ _ st

/-- A `verify` that nothing interrupts does what the task of the handlers does. -/
theorem verify_alone {s : Shared} {c : Nat} (hcall : s.calls c = none) (hfree : s.holder = none)
    {os : Answers} (hfault : os.saveFault = none) (deviceId token : String) {st : St}
    (htrusted : st.world.trusted = s.store) :
    ∃ labels t outcome, (trustStore crates).Run s labels t ∧
      .returns c (.verified deviceId token outcome) ∈ labels ∧
      ((verify crates os deviceId token).run st).1 = .ok outcome ∧
      ((verify crates os deviceId token).run st).2.world.trusted = t.store := by
  have hverify : Step crates s (.verify c deviceId token)
      (s.put c (some (.checking deviceId token))) :=
    .verify _ _ hcall
  rcases hcheck : s.store.check deviceId (sha256Hex crates (utf8 token)) st.world.unixMs with
    ⟨outcome, store⟩
  have hst : st.world.trusted.check deviceId (sha256Hex crates (utf8 token)) st.world.unixMs =
      (outcome, store) := by rw [htrusted, hcheck]
  have hrun := verify_run crates os deviceId token st
  rw [hst] at hrun
  dsimp only at hrun
  have hrefused (hrefused : VerifyOutcome.isOk outcome = false) :
      ∃ t, (trustStore crates).Run s
          [.verify c deviceId token, .returns c (.verified deviceId token outcome)] t ∧
        store = t.store := by
    have hrefuse : Step crates (s.put c (some (.checking deviceId token)))
        (.returns c (.verified deviceId token outcome)) _ :=
      .refuse (Function.update_self ..) hfree (congrArg Prod.fst hcheck) hrefused
    refine ⟨_, run_cons_iff.mpr ⟨_, hverify, Run.single hrefuse⟩, ?_⟩
    have houtcome : (s.store.check deviceId (sha256Hex crates (utf8 token))
        st.world.unixMs).1 = outcome := congrArg Prod.fst hcheck
    rw [← houtcome] at hrefused
    have hsame := check_of_refused hrefused
    rw [hcheck] at hsame
    exact hsame
  cases outcome with
  | ok name =>
      let mid : Shared :=
        { s.put c (some (.saving (.verified deviceId token (.ok name)))) with store }
      have haccept : Step crates (s.put c (some (.checking deviceId token)))
          (.accept c st.world.unixMs) mid := by
        have h : Step crates (s.put c (some (.checking deviceId token)))
            (.accept c st.world.unixMs) _ := .accept (Function.update_self ..) hfree hcheck
        rw [put_put] at h
        exact h
      obtain ⟨t, hsave, hstore, -⟩ :=
        save_alone crates (s := mid) (c := c) (Function.update_self ..) hfree
      refine ⟨_, t, .ok name, run_cons_iff.mpr ⟨_, hverify, run_cons_iff.mpr ⟨_, haccept, hsave⟩⟩,
        by simp, ?_, ?_⟩
      · rw [hrun]
        simp only [run_bind, saveTrusted, run_critical, run_pure]
      · rw [hrun, hstore]
        simp only [run_bind, saveTrusted, run_critical, run_pure, hfault]
        rfl
  | unknownDevice =>
      obtain ⟨t, hsteps, hstore⟩ := hrefused rfl
      exact ⟨_, t, .unknownDevice, hsteps, by simp, by rw [hrun]; rfl, by rw [hrun]; exact hstore⟩
  | badToken =>
      obtain ⟨t, hsteps, hstore⟩ := hrefused rfl
      exact ⟨_, t, .badToken, hsteps, by simp, by rw [hrun]; rfl, by rw [hrun]; exact hstore⟩

/-- In every history of calls that starts from an absent or empty-list file, with distinct device
ids and without hash collisions: when no call is in progress, the file holds the list in memory;
in every state, a store opened from the file accepts every pair that a mint has returned; and
`verify` answers `Ok` for the pairs that an earlier mint has generated, `BadToken` for another
token of a known id, and `UnknownDevice` for any other id. -/
theorem trust_store_durable_and_sound (crates : Crates) {s₀ s : Shared} {labels : List Action}
    (hstart : (trustStore crates).init s₀) (hrun : (trustStore crates).Run s₀ labels s)
    (hids : DistinctIds labels) (hnocollisions : NoCollisions crates labels) :
    ((∀ c, s.calls c = none) → (reopened s).inner.devices = s.store.inner.devices) ∧
      (∀ c deviceId token nowMs, .returns c (.minted deviceId token) ∈ labels →
        ∃ name, ((reopened s).check deviceId (sha256Hex crates (utf8 token)) nowMs).1 =
          .ok name) ∧
      ∀ before c deviceId token outcome after,
        labels = before ++ .returns c (.verified deviceId token outcome) :: after →
          Correct before deviceId token outcome := by
  have hcons := run_consistent hstart hrun
  refine ⟨?_, ?_, ?_⟩
  · intro hidle
    rcases hcons.clean with hclean | ⟨c, call, answer, hcall, -⟩
    · exact hclean
    · exact absurd ((hidle c).symm.trans hcall) (by simp)
  · intro c deviceId token nowMs hreturned
    have hnodup := ids_nodup crates hids (List.Sublist.refl labels)
    rw [← hcons.logged] at hnodup
    have hreopened := hnodup.sublist (hcons.durable.sublist.map Prod.fst)
    exact (check_outcome hreopened _ _ nowMs).1.mpr (hcons.completed c deviceId token hreturned)
  · rintro before c deviceId token outcome after rfl
    obtain ⟨t, hbefore, hafter⟩ := run_append_iff.mp hrun
    obtain ⟨u, hstep, -⟩ := run_cons_iff.mp hafter
    exact returned_correct hstart hids hnocollisions (List.sublist_append_left _ _) hbefore hstep

def tokenBytes : Bytes :=
  (List.range 32).map UInt8.ofNat

def token : String :=
  Base64.encode tokenBytes

def wrongToken : String :=
  "wrong-token"

/-- SHA-256 of the token. -/
def tokenSha : Bytes :=
  [234, 134, 106, 117, 126, 76, 56, 186, 191, 168, 18, 124, 190, 154, 64, 157, 62, 31, 147, 160,
    15, 241, 72, 143, 247, 53, 252, 249, 23, 175, 255, 208]

/-- SHA-256 of the wrong token. -/
def wrongTokenSha : Bytes :=
  [86, 69, 167, 88, 230, 168, 241, 43, 106, 39, 21, 204, 34, 86, 90, 159, 104, 209, 237, 115, 217,
    141, 51, 161, 197, 173, 249, 146, 119, 205, 11, 115]

def tokenCrates : Crates where
  parseClientMsg _ := none
  base64UrlEncode := Base64.encode
  base64UrlDecode := Base64.decode
  hmacSha256 _ _ := []
  sha256 bytes := if bytes = utf8 token then tokenSha else wrongTokenSha

def freshStore : Shared where
  store := .openStore .notFound
  tmp := .notFound
  holder := none
  calls _ := none

/-- A mint, and a call of `verify` with another token. -/
def roundtrip : List Action :=
  mintAlone 0 "device" tokenBytes token "PLR-AL30" 0 ++
    [.verify 1 "device" wrongToken, .returns 1 (.verified "device" wrongToken .badToken)]

def mintAnswers : Answers :=
  { smoothAnswers with tokenBytes, deviceId := "device" }

def freshSt : St where
  world := bareWorld
  conn := { connId := 1, peerLabel := "10.0.0.7:40000" }

theorem roundtrip_run : ∃ t, (trustStore tokenCrates).Run freshStore roundtrip t := by
  obtain ⟨t, hmint, -, hstore, hcalls, hholder⟩ := mint_alone tokenCrates (s := freshStore)
    (c := 0) rfl rfl mintAnswers rfl "PLR-AL30" freshSt rfl
  have hverify : Step tokenCrates t (.verify 1 "device" wrongToken) _ :=
    .verify _ _ (by rw [hcalls]; rfl)
  have hbad : (t.store.check "device" (sha256Hex tokenCrates (utf8 wrongToken)) 0).1 =
      .badToken := by
    rw [← hstore]
    decide
  have hrefuse : Step tokenCrates (t.put 1 (some (.checking "device" wrongToken)))
      (.returns 1 (.verified "device" wrongToken .badToken)) _ :=
    .refuse (Function.update_self 1 _ t.calls) hholder hbad rfl
  exact ⟨_, hmint.append (run_cons_iff.mpr ⟨_, hverify, Run.single hrefuse⟩)⟩

theorem trust_store_durable_and_sound_roundtrip :
    ∃ t, (trustStore tokenCrates).Run freshStore roundtrip t ∧
      (∃ name, ((reopened t).check "device" (sha256Hex tokenCrates (utf8 token)) 0).1 =
        .ok name) ∧
      Correct (mintAlone 0 "device" tokenBytes token "PLR-AL30" 0 ++
        [.verify 1 "device" wrongToken]) "device" wrongToken .badToken := by
  obtain ⟨t, hrun⟩ := roundtrip_run
  have hids : DistinctIds roundtrip := List.nodup_singleton "device"
  have hnocollisions : NoCollisions tokenCrates roundtrip := by
    intro c deviceId minted c' deviceId' presented hpush hverify hsha
    obtain ⟨rfl, rfl, rfl⟩ : c = 0 ∧ deviceId = "device" ∧ minted = token := by
      simpa [roundtrip, mintAlone] using hpush
    obtain ⟨rfl, rfl, rfl⟩ : c' = 1 ∧ deviceId' = "device" ∧ presented = wrongToken := by
      simpa [roundtrip, mintAlone] using hverify
    exact absurd hsha (by decide)
  have hsound := trust_store_durable_and_sound tokenCrates ⟨.inl rfl, rfl, fun _ => rfl⟩ hrun hids
    hnocollisions
  exact ⟨t, hrun, hsound.2.1 0 "device" token 0 (by simp [roundtrip, mintAlone]),
    hsound.2.2 _ 1 "device" wrongToken .badToken [] rfl⟩

end RemoteControl.Server.TrustStore
