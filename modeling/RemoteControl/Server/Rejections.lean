import RemoteControl.Server.PairingCodes
import RemoteControl.Server.TrustStore
import RemoteControl.Server.WelcomeKey

/-!
What a rejected `Hello` and a failed `mint` leave behind in the two stores.
-/

namespace RemoteControl.Server.Rejections

open RemoteControl.Foundations.ByteStrings
open RemoteControl.Foundations.Interference
open RemoteControl.Foundations.Interference.Task
open RemoteControl.Wire.Protocol
open RemoteControl.Server.Stores
open RemoteControl.Server.Connection
open RemoteControl.Server.Loop
open RemoteControl.Server.Frame
open RemoteControl.Server.Authentication
open RemoteControl.Server.PairingCodes
open RemoteControl.Server.TrustStore (keys keys_append keys_check)
open RemoteControl.Server.WelcomeKey

def EndsInError (s s' : St) : Prop :=
  ∃ code m, s'.conn.outbox = s.conn.outbox ++ [.msg (.error code m)]

/-- No section of the handler changes a store, so that every later `Hello`, whoever sends it and
whatever happens before and meanwhile, is handled as without these sections. -/
structure ConsumesNothing (crates : Crates) (cfg : Config) (trace : List (St × St)) : Prop where
  stores : ∀ p ∈ trace, p.2.world.pairing = p.1.world.pairing ∧
    p.2.world.trusted = p.1.world.trusted
  later : ∀ p ∈ trace, ∀ (os : Answers) (v : UInt32) (c nonce : String) (client : ClientInfo)
    (conn : Conn) (rest : List (St × St)) (cont : Bool) (s : St),
    Exec Others (handleHello crates cfg os v c nonce client) ⟨p.2.world, conn⟩ rest cont s ↔
      Exec Others (handleHello crates cfg os v c nonce client) ⟨p.1.world, conn⟩ rest cont s

/-- The version and the code pass, and the nonce is no base64url. -/
def Spoiled (crates : Crates) (v : UInt32) (c nonce : String) (trace : List (St × St)) : Prop :=
  supportedVersion v = true ∧
    FirstFinds (fun s => s.world.pairing.Accepts s.world.now c) trace ∧
    crates.base64UrlDecode nonce = none

variable {crates : Crates} {cfg : Config}

theorem consumesNothing_of_world {trace : List (St × St)}
    (h : ∀ p ∈ trace, p.2.world = p.1.world) : ConsumesNothing crates cfg trace := by
  constructor
  · intro p hp
    rw [h p hp]
    exact ⟨rfl, rfl⟩
  · intro p hp os v c nonce client conn rest cont s
    rw [h p hp]

theorem refuse_world {code : ErrorCode} {m : String} {cont : Bool} {s s' : St}
    {trace : List (St × St)}
    (h : Exec Others (do sendError code m; return false) s trace cont s') :
    ∀ p ∈ trace, p.2.world = p.1.world := by
  simp only [exec_bind_iff, exec_pure_iff] at h
  obtain ⟨_, _, _, _, hsend, ⟨rfl, -, -⟩, rfl⟩ := h
  obtain ⟨found, -, rfl, -⟩ := exec_modify_iff.mp hsend
  intro p hp
  rw [List.append_nil, List.mem_singleton] at hp
  rw [hp]

theorem verifyAndConsume_ne {store : PairingStore} {now : Nat} {candidate : String}
    (h : (store.verifyAndConsume now candidate).1 = .ok) :
    (store.verifyAndConsume now candidate).2 ≠ store := by
  obtain ⟨-, hfresh, -⟩ := (store.verifyAndConsume_eq_ok_iff now candidate).mp h
  have hconsumed := (verifyAndConsume_consumed store now candidate).mpr (.inr h)
  intro heq
  rw [heq, hfresh] at hconsumed
  cases hconsumed

/-- A `Hello` that ends in an error has consumed nothing, unless only its nonce is wrong. -/
theorem rejected_consumesNothing_iff (crates : Crates) (cfg : Config) {os : Answers}
    {v : UInt32} {c nonce : String} {client : ClientInfo} {s s' : St} {trace : List (St × St)}
    {cont : Bool} (hexec : Exec Others (handleHello crates cfg os v c nonce client) s trace cont s')
    (hrejected : EndsInError s s') :
    ConsumesNothing crates cfg trace ↔ ¬Spoiled crates v c nonce trace := by
  unfold handleHello at hexec
  split at hexec
  · next hv =>
      refine iff_of_true (consumesNothing_of_world (refuse_world hexec)) ?_
      rintro ⟨hsupported, -⟩
      simp [hsupported] at hv
  next hv =>
  simp only [verifyAndConsume, exec_bind_iff (t := critical _), exec_critical_iff] at hexec
  obtain ⟨_, result, mid, rest, ⟨found, hothers, rfl, hresult, rfl⟩, hexec, rfl⟩ := hexec
  have hrefused {code : ErrorCode} {m : String} {left : St} (hne : result ≠ .ok)
      (h : Exec Others (do sendError code m; return false) left rest cont s') :
      ConsumesNothing crates cfg
          ([(found, { found with
              world := { found.world with
                pairing := (found.world.pairing.verifyAndConsume found.world.now c).2 } })] ++
            rest) ↔
        ¬Spoiled crates v c nonce
          ([(found, { found with
              world := { found.world with
                pairing := (found.world.pairing.verifyAndConsume found.world.now c).2 } })] ++
            rest) := by
    have hkept : (found.world.pairing.verifyAndConsume found.world.now c).2 =
        found.world.pairing := verifyAndConsume_of_ne_ok (hresult ▸ hne)
    refine iff_of_true (consumesNothing_of_world fun p hp => ?_) ?_
    · rcases List.mem_cons.mp hp with rfl | hp
      · dsimp only
        rw [hkept]
      · exact refuse_world h p hp
    · rintro ⟨-, hfirst, -⟩
      refine hne (hresult.trans ?_)
      rw [List.singleton_append, firstFinds_cons] at hfirst
      exact (PairingStore.verifyAndConsume_eq_ok_iff _ _ _).mpr hfirst
  cases result with
  | badCode => exact hrefused (by simp) hexec
  | expired => exact hrefused (by simp) hexec
  | used => exact hrefused (by simp) hexec
  | ok =>
      have haccepts := (PairingStore.verifyAndConsume_eq_ok_iff _ _ _).mp hresult.symm
      dsimp only at hexec
      split at hexec
      · next hnonce =>
          refine iff_of_false (fun h => ?_) (not_not.mpr ⟨by simpa using hv, ?_, hnonce⟩)
          · exact verifyAndConsume_ne hresult.symm (h.stores _ List.mem_cons_self).1
          · rw [List.singleton_append, firstFinds_cons]
            exact haccepts
      · next nonceBytes hnonce =>
          -- A welcome, and so no error.
          obtain ⟨_, _, _, _, -, houtbox⟩ := welcome_exec hexec
          obtain ⟨code, m, hrejected⟩ := hrejected
          rw [houtbox, others_conn hothers] at hrejected
          have hsame := List.append_cancel_left hrejected
          cases hsame

/-! ### A wrong version and a malformed nonce -/

theorem exists_hello (v : UInt32) (c nonce : String) : ∃ trace, Exec Others
    (handleHello helloCrates bareConfig smoothAnswers v c nonce phoneInfo) freshConnection.st trace
    ((handleHello helloCrates bareConfig smoothAnswers v c nonce phoneInfo).run
      freshConnection.st).1
    ((handleHello helloCrates bareConfig smoothAnswers v c nonce phoneInfo).run
      freshConnection.st).2 :=
  exists_exec_run others_refl _ _

theorem rejected_consumesNothing_version :
    ∃ trace cont s, Exec Others
        (handleHello helloCrates bareConfig smoothAnswers 7 "123456" helloNonce phoneInfo)
        freshConnection.st trace cont s ∧ ConsumesNothing helloCrates bareConfig trace := by
  obtain ⟨trace, hexec⟩ := exists_hello 7 "123456" helloNonce
  refine ⟨trace, _, _, hexec, ?_⟩
  refine (rejected_consumesNothing_iff _ _ hexec ⟨_, _, rfl⟩).mpr ?_
  rintro ⟨hsupported, -⟩
  exact absurd hsupported (by decide)

/-- The one-shot code is gone, and the phone that scanned it cannot pair any more. -/
theorem malformed_nonce_consumes_code :
    ¬∀ (crates : Crates) (cfg : Config) (os : Answers) (v : UInt32) (c nonce : String)
        (client : ClientInfo) (s s' : St) (trace : List (St × St)) (cont : Bool),
      Exec Others (handleHello crates cfg os v c nonce client) s trace cont s' →
      EndsInError s s' → ConsumesNothing crates cfg trace := by
  intro hclaim
  have hexec := exec_runUnder others_refl nobody_acts
    (handleHello helloCrates bareConfig smoothAnswers 6 "123456" "!" phoneInfo) freshConnection.st
  have hnothing := hclaim _ _ _ _ _ _ _ _ _ _ _ hexec ⟨_, _, rfl⟩
  have hsame := (hnothing.stores _ (.head _)).1
  exact absurd (congrArg PairingStore.consumed hsame) (by decide)

/-! ### A mint whose save fails -/

/-- The pair that the mint generates. -/
def mintedKey (crates : Crates) (os : Answers) : String × String :=
  (os.deviceId, sha256Hex crates (utf8 (crates.base64UrlEncode os.tokenBytes)))

/-- A mint that returns an error has left the list as it was, where nobody acted between its two
sections, and no later save writes the pair that it has generated. -/
structure LeavesNoTrace (crates : Crates) (os : Answers) (owner : Nat)
    (result : Except SaveFault (String × String)) (trace : List (St × St)) (s' : St) : Prop where
  memory : ∀ fault pushing saving, result = .error fault → trace = [pushing, saving] →
    saving.1.world.trusted = pushing.2.world.trusted →
      s'.world.trusted.inner.devices = pushing.1.world.trusted.inner.devices
  disk : ∀ fault world file, result = .error fault →
    Relation.ReflTransGen (OtherStep owner) s'.world world →
    world.trusted.save none = (.ok (), { world.trusted with disk := .parsed file }) →
      mintedKey crates os ∉ keys file.devices

theorem otherStep_keys {owner : Nat} {world world' : World} (h : OtherStep owner world world')
    {key : String × String} (hkey : key ∈ keys world.trusted.inner.devices) :
    key ∈ keys world'.trusted.inner.devices := by
  cases h with
  | push device =>
      show key ∈ keys (world.trusted.inner.devices ++ [device])
      rw [keys_append]
      exact List.mem_append_left _ hkey
  | check deviceId tokenHash =>
      show key ∈ keys (world.trusted.check deviceId tokenHash world.unixMs).2.inner.devices
      rw [keys_check]
      exact hkey
  | save fault =>
      cases fault with
      | none => exact hkey
      | some fault => exact hkey
  | _ => exact hkey

theorem others_keys {s s' : St} (h : Others s s') {key : String × String}
    (hkey : key ∈ keys s.world.trusted.inner.devices) :
    key ∈ keys s'.world.trusted.inner.devices := by
  obtain ⟨world, hsteps, rfl⟩ := h
  induction hsteps with
  | refl => exact hkey
  | tail _ hstep ih => exact otherStep_keys hstep ih

/-- The state after the first section of `mint`. -/
def pushed (crates : Crates) (os : Answers) (deviceName : String) (s : St) : St :=
  { s with
    world :=
      { s.world with
        trusted :=
          s.world.trusted.push
            { deviceId := os.deviceId
              tokenHash := sha256Hex crates (utf8 (crates.base64UrlEncode os.tokenBytes))
              deviceName
              createdUnixMs := s.world.unixMs
              lastSeenUnixMs := s.world.unixMs } } }

theorem mem_keys_pushed (os : Answers) (deviceName : String) (s : St) :
    mintedKey crates os ∈ keys (pushed crates os deviceName s).world.trusted.inner.devices := by
  show mintedKey crates os ∈ keys (s.world.trusted.inner.devices ++ [_])
  rw [keys_append]
  exact List.mem_append_right _ (List.mem_singleton_self _)

theorem mint_exec {os : Answers} {deviceName : String} {s s' : St} {trace : List (St × St)}
    {result : Except SaveFault (String × String)}
    (h : Exec Others (mint crates os deviceName) s trace result s') :
    ∃ found between, Others (pushed crates os deviceName found) between ∧
      trace = [(found, pushed crates os deviceName found), (between, s')] ∧
      s'.world.trusted.inner = between.world.trusted.inner ∧
      ∀ fault, result = .error fault ↔ os.saveFault = some fault := by
  simp only [mint, exec_bind_iff, exec_modify_iff, saveTrusted, exec_critical_iff] at h
  obtain ⟨_, _, _, _, ⟨found, -, rfl, rfl⟩, ⟨_, saved, mid, _, ⟨between, hbetween, rfl, rfl, rfl⟩,
    h, rfl⟩, rfl⟩ := h
  refine ⟨found, between, hbetween, ?_⟩
  rcases hfault : os.saveFault with _ | fault
  · simp only [hfault, TrustedDevicesStore.save, exec_pure_iff] at h
    obtain ⟨rfl, rfl, rfl⟩ := h
    exact ⟨rfl, rfl, by simp⟩
  · simp only [hfault, TrustedDevicesStore.save, exec_pure_iff] at h
    obtain ⟨rfl, rfl, rfl⟩ := h
    exact ⟨rfl, rfl, by simp⟩

/-- A failed mint always leaves its entry in the list, from where the next save writes it. -/
theorem mint_leavesNoTrace_iff (crates : Crates) {os : Answers} {deviceName : String} {s s' : St}
    {trace : List (St × St)} {result : Except SaveFault (String × String)}
    (hexec : Exec Others (mint crates os deviceName) s trace result s') :
    LeavesNoTrace crates os s.conn.connId result trace s' ↔ os.saveFault = none := by
  obtain ⟨found, between, hbetween, rfl, hinner, hresult⟩ := mint_exec hexec
  constructor
  · intro h
    by_contra hfault
    obtain ⟨fault, hfault⟩ := Option.ne_none_iff_exists'.mp hfault
    have hkept := others_keys hbetween (mem_keys_pushed os deviceName found)
    rw [← hinner] at hkept
    exact h.disk fault s'.world s'.world.trusted.inner ((hresult fault).mpr hfault) .refl rfl hkept
  · intro hfault
    have hok (fault : SaveFault) : result ≠ .error fault := by
      rw [ne_eq, hresult, hfault]
      simp
    exact ⟨fun fault _ _ herror => absurd herror (hok fault),
      fun fault _ _ herror => absurd herror (hok fault)⟩

theorem mint_leavesNoTrace_saved : ∃ trace result s, LeavesNoTrace helloCrates smoothAnswers
    freshConnection.st.conn.connId result trace s := by
  obtain ⟨trace, hexec⟩ := exists_exec_run others_refl
    (mint helloCrates smoothAnswers phoneInfo.name) freshConnection.st
  exact ⟨_, _, _, (mint_leavesNoTrace_iff _ hexec).mpr rfl⟩

/-- The temporary file cannot be written. -/
def failingAnswers : Answers :=
  { smoothAnswers with saveFault := some .write }

theorem failed_mint_leaves_entry :
    ¬∀ (crates : Crates) (os : Answers) (deviceName : String) (s s' : St)
        (trace : List (St × St)) (result : Except SaveFault (String × String)),
      Exec Others (mint crates os deviceName) s trace result s' →
      LeavesNoTrace crates os s.conn.connId result trace s' := by
  intro hclaim
  have hexec := exec_runUnder others_refl nobody_acts
    (mint helloCrates failingAnswers phoneInfo.name) freshConnection.st
  have hmemory := (hclaim _ _ _ _ _ _ _ hexec).memory .write _ _ rfl rfl rfl
  exact absurd (congrArg List.length hmemory) (by decide)

end RemoteControl.Server.Rejections
