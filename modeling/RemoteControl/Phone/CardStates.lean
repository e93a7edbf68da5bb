import RemoteControl.Phone.ViewModel

/-!
The states of the cards once the collector has taken every event, and the events that never
reach it.
-/

namespace RemoteControl.Phone.CardStates

open RemoteControl.Foundations.DropOldest
open RemoteControl.Foundations.Transition
open RemoteControl.Foundations.Transition.System
open RemoteControl.Phone.Messages
open RemoteControl.Phone.Downloads
open RemoteControl.Phone.QrCode
open RemoteControl.Phone.Client
open RemoteControl.Phone.ViewModel

/-! ### How a transfer has ended -/

/-- What an event tells of a transfer: that it begins, or how it has ended. -/
def tells (key : Key) (e : Emission) : Option (Option UploadState) :=
  if e.key = key then
    match e.event with
    | .incoming .. => some none
    | .complete .. => some (some .complete)
    | .failed .. => some (some .failed)
    | _ => none
  else none

def momentTells (key : Key) : Moment → Option (Option UploadState)
  | .began began => if began = key then some none else none
  | .emitted e => tells key e

/-- The last `Complete` or `Failed` of a transfer since it began. -/
def outcome (s : AppViewModel) (key : Key) : Option UploadState :=
  (latest (momentTells key) s.history).join

/-- The card of a transfer that has ended shows how. -/
def Shown (s : AppViewModel) : Prop :=
  ∀ card ∈ s.uploads, ∀ state, outcome s card.key = some state → card.state = state

/-! ### Events that count -/

/-- The event that a step emits. -/
def emission (s : AppViewModel) : Event → Option Emission
  | .thread i event => do
      let u ← s.threads[i]?
      let (_, _, emitted) ← u.act event
      emitted.map fun event => { direction := .upload, event }
  | .emitNext call => s.calls[call]?.bind List.head?
  | _ => none

/-- The cards, with the one that is about to be seeded. -/
def cards (s : AppViewModel) : List UploadStatus :=
  s.seeding.toList ++ s.uploads

/-- An event is how its transfer has ended, no later one about the transfer waits, and some card
of the transfer does not show it yet. -/
def Awaited (s : AppViewModel) (e : Emission) (later : List Emission) : Prop :=
  ∃ state, tells e.key e = some (some state) ∧ outcome s e.key = some state ∧
    (∀ e' ∈ later, tells e.key e' = none) ∧
    ∃ card ∈ cards s, card.key = e.key ∧ card.state ≠ state

/-- No event is dropped that a card awaits, and none is collected that changes the state of a
card of the other direction, whose own transfer has ended and has nothing more to say. -/
def Regular (s : AppViewModel) (event : Event) (_ : AppViewModel) : Prop :=
  (∀ e ∈ emission s event, ∀ oldest rest, s.fileEvents = oldest :: rest →
    s.fileEvents.length = extraBufferCapacity → ¬ Awaited s oldest (rest ++ [e])) ∧
  match event with
  | .collect _ => ∀ e rest, s.fileEvents = e :: rest → ∀ state, tells e.key e = some (some state) →
      ∀ card ∈ s.uploads, card.id = e.event.id → card.key ≠ e.key →
        (∀ e' ∈ rest, tells card.key e' = none) →
          ∀ ended, outcome s card.key = some ended → ended = state
  | _ => True

/-! ### What is known of a transfer -/

/-- The buffer has the last word on a transfer, or nothing more and then every card shows it. -/
structure Informed (key : Key) (s : AppViewModel) : Prop where
  waiting : ∀ word, latest (tells key) s.fileEvents = some word →
    outcome s key = word ∨ outcome s key = none
  shown : latest (tells key) s.fileEvents = none → ∀ state, outcome s key = some state →
    ∀ card ∈ cards s, card.key = key → card.state = state

theorem key_of_tells {key : Key} {e : Emission} {word : Option UploadState}
    (h : tells key e = some word) : e.key = key :=
  (Option.ite_none_right_eq_some.mp h).1

theorem Informed.congr {key : Key} {s t : AppViewModel} (h : Informed key s)
    (hevents : t.fileEvents = s.fileEvents) (houtcome : outcome t key = outcome s key)
    (hcards : ∀ card ∈ cards t, card.key = key → card ∈ cards s) : Informed key t := by
  refine ⟨fun word hword => ?_, fun hnone state hstate card hcard hkey => ?_⟩
  · rw [houtcome]
    exact h.waiting word (hevents ▸ hword)
  · exact h.shown (hevents ▸ hnone) state (houtcome ▸ hstate) card (hcards card hcard hkey) hkey

theorem outcome_tryEmit (s : AppViewModel) (e : Emission) (key : Key) :
    outcome (s.tryEmit e) key = (tells key e).elim (outcome s key) id := by
  show (latest (momentTells key) (s.history ++ [.emitted e])).join = _
  rw [latest_concat]
  show ((tells key e).or _).join = _
  cases tells key e <;> rfl

theorem tryEmit_informed {key : Key} {s : AppViewModel} {e : Emission} (h : Informed key s)
    (hbound : s.fileEvents.length ≤ extraBufferCapacity)
    (hspared : ∀ oldest rest, s.fileEvents = oldest :: rest →
      s.fileEvents.length = extraBufferCapacity → ¬ Awaited s oldest (rest ++ [e])) :
    Informed key (s.tryEmit e) := by
  have houtcome := outcome_tryEmit s e key
  have hoffer : (s.tryEmit e).fileEvents = offer extraBufferCapacity s.fileEvents e := rfl
  have hcases := offer_cases (by decide) hbound e
  cases he : tells key e with
  | some word =>
      -- The new event has the last word.
      have hlatest : latest (tells key) (s.tryEmit e).fileEvents = some word := by
        rw [hoffer]
        rcases hcases with heq | ⟨oldest, rest, -, -, heq⟩ <;>
          rw [heq, latest_concat, he, Option.some_or]
      rw [he] at houtcome
      refine ⟨fun word' hword' => .inl ?_, fun hnone => ?_⟩
      · rw [hlatest] at hword'
        exact houtcome.trans (Option.some.inj hword')
      · rw [hlatest] at hnone
        contradiction
  | none =>
      rw [he] at houtcome
      change outcome (s.tryEmit e) key = outcome s key at houtcome
      rcases hcases with heq | ⟨oldest, rest, hevents, hfull, heq⟩
      · have hlatest : latest (tells key) (s.tryEmit e).fileEvents =
            latest (tells key) s.fileEvents := by
          rw [hoffer, heq, latest_concat, he, Option.none_or]
        exact ⟨fun word hword => houtcome ▸ h.waiting word (hlatest ▸ hword),
          fun hnone state hstate =>
            h.shown (hlatest ▸ hnone) state (houtcome.symm.trans hstate)⟩
      · have hlatest : latest (tells key) (s.tryEmit e).fileEvents = latest (tells key) rest := by
          rw [hoffer, heq, latest_concat, he, Option.none_or]
        have hbefore : latest (tells key) s.fileEvents =
            (latest (tells key) rest).or (tells key oldest) := by
          rw [hevents, latest_cons]
        refine ⟨fun word hword => ?_, fun hnone state hstate card hcard hkey => ?_⟩
        · rw [houtcome]
          apply h.waiting word
          rw [hbefore, ← hlatest, hword, Option.some_or]
        · rw [hlatest] at hnone
          rw [hnone, Option.none_or] at hbefore
          have hended : outcome s key = some state := houtcome.symm.trans hstate
          cases hold : tells key oldest with
          | none => exact h.shown (hbefore.trans hold) state hended card hcard hkey
          | some word =>
              -- The oldest event was the last word, and no card awaited it.
              obtain rfl := key_of_tells hold
              have hword := h.waiting word (hbefore.trans hold)
              rw [hended] at hword
              obtain rfl := hword.resolve_right (by simp)
              by_contra hstate'
              refine hspared oldest rest hevents hfull
                ⟨state, hold, hended, fun e' he' => ?_, card, hcard, hkey, hstate'⟩
              rcases List.mem_append.mp he' with he' | he'
              · exact latest_eq_none_iff.mp hnone e' he'
              · obtain rfl := List.mem_singleton.mp he'
                exact he

theorem uploadFile_informed {key : Key} {s : AppViewModel} (h : Informed key s) (name : String)
    (size : Int64) : Informed key (s.uploadFile name size) := by
  unfold AppViewModel.uploadFile
  split
  · exact h
  next ws _ =>
    by_cases hkey : (s.nextTransferId, TransferDirection.upload) = key
    · have houtcome (t : AppViewModel)
          (ht : t.history = s.history ++ [.began (s.nextTransferId, .upload)]) :
          outcome t key = none := by
        rw [outcome, ht, latest_concat]
        simp [momentTells, hkey]
      refine ⟨fun _ _ => .inr (houtcome _ rfl), fun _ state hstate => ?_⟩
      rw [houtcome _ rfl] at hstate
      contradiction
    · refine h.congr rfl ?_ fun card hcard hcardKey => ?_
      · show (latest (momentTells key) (s.history ++ [_])).join = _
        rw [latest_concat]
        simp [momentTells, hkey, outcome]
      · rcases List.mem_append.mp hcard with hcard | hcard
        · simp only [Option.mem_toList, Option.ite_none_right_eq_some] at hcard
          obtain ⟨-, hcard⟩ := hcard
          obtain rfl := Option.some.inj hcard
          exact absurd hcardKey hkey
        · exact List.mem_append_right _ hcard

/-! ### The collector -/

theorem applyEvent_state (currentTimeMillis : Int64) (st : UploadStatus) (e : Emission) :
    (st.applyEvent currentTimeMillis e.event).state = (tells e.key e).join.getD st.state := by
  unfold tells
  rw [if_pos rfl]
  cases e.event <;> rfl

theorem mem_collectEvent {currentTimeMillis : Int64} {e : Emission} {uploads : List UploadStatus}
    {card : UploadStatus} (h : card ∈ collectEvent currentTimeMillis e.event uploads) :
    ∃ before, before.key = card.key ∧ (before ∈ uploads ∨ tells e.key e = some none ∧
        before.key = e.key) ∧
      card = if before.id ≠ e.event.id then before
        else before.applyEvent currentTimeMillis e.event := by
  obtain ⟨before, hbefore, rfl⟩ := List.mem_map.mp h
  refine ⟨before, ?_, ?_, rfl⟩
  · split
    · rfl
    · exact (UploadStatus.applyEvent_key ..).symm
  · refine (List.mem_append.mp hbefore).symm.imp_right fun hseed => ?_
    cases hevent : e.event with
    | incoming id name totalBytes destPath =>
        rw [hevent] at hseed
        obtain rfl := List.mem_singleton.mp hseed
        simp [tells, Emission.key, UploadStatus.key, hevent]
    | _ =>
        rw [hevent] at hseed
        exact absurd hseed List.not_mem_nil

theorem collect_informed {key : Key} {s t : AppViewModel} {currentTimeMillis : Int64}
    (h : Informed key s) (hidle : s.seeding = none) (ht : s.collect currentTimeMillis = some t)
    (hregular : ∀ e rest, s.fileEvents = e :: rest → ∀ state,
      tells e.key e = some (some state) → ∀ card ∈ s.uploads, card.id = e.event.id →
        card.key ≠ e.key → (∀ e' ∈ rest, tells card.key e' = none) →
          ∀ ended, outcome s card.key = some ended → ended = state) : Informed key t := by
  unfold AppViewModel.collect at ht
  split at ht
  · contradiction
  next e rest hevents =>
    obtain rfl := Option.some.inj ht
    have hbefore : latest (tells key) s.fileEvents =
        (latest (tells key) rest).or (tells key e) := by
      rw [hevents, latest_cons]
    refine ⟨fun word hword => ?_, fun hnone state hstate card hcard hkey => ?_⟩
    · apply h.waiting word
      rw [hbefore, hword, Option.some_or]
    · change latest (tells key) rest = none at hnone
      change outcome s key = some state at hstate
      rw [hnone, Option.none_or] at hbefore
      simp only [cards, hidle, Option.toList_none, List.nil_append] at hcard
      obtain ⟨before, hbeforeKey, hfrom, rfl⟩ := mem_collectEvent hcard
      rw [hkey] at hbeforeKey
      by_cases hkeys : e.key = key
      · -- The event is one of this transfer.
        subst hkeys
        have hid : before.id = e.event.id := by
          rw [← Emission.key_fst, ← hbeforeKey]
          rfl
        rw [if_neg (not_not_intro hid), applyEvent_state]
        cases htold : tells e.key e with
        | none =>
            have hmem := hfrom.resolve_right fun hseed => by simp [htold] at hseed
            exact h.shown (hbefore.trans htold) state hstate before
              (List.mem_append_right _ hmem) hbeforeKey
        | some word =>
            have hword := h.waiting word (hbefore.trans htold)
            rw [hstate] at hword
            obtain rfl := hword.resolve_right (by simp)
            rfl
      · have hsilent : tells key e = none := if_neg hkeys
        have hmem := hfrom.resolve_right fun hseed => hkeys (hseed.2.symm.trans hbeforeKey)
        have hshown : before.state = state := h.shown (hbefore.trans hsilent) state hstate before
          (List.mem_append_right _ hmem) hbeforeKey
        split
        · exact hshown
        next hid =>
          rw [applyEvent_state]
          rcases htold : (tells e.key e).join with _ | told
          · exact hshown
          · have htold := Option.join_eq_some_iff.mp htold
            refine (hregular e rest hevents told htold before hmem (not_not.mp hid) ?_ ?_ state
              ?_).symm
            · rw [hbeforeKey]
              exact Ne.symm hkeys
            · rw [hbeforeKey]
              exact latest_eq_none_iff.mp hnone
            · rw [hbeforeKey]
              exact hstate

/-! ### Every step -/

/-- The invariant. -/
structure Told (s : AppViewModel) : Prop where
  bounded : s.fileEvents.length ≤ extraBufferCapacity
  informed : ∀ key, Informed key s

theorem Told.congr {s t : AppViewModel} (h : Told s) (hevents : t.fileEvents = s.fileEvents)
    (hhistory : t.history = s.history) (hcards : ∀ card ∈ cards t, card ∈ cards s) : Told t := by
  refine ⟨hevents ▸ h.bounded, fun key => (h.informed key).congr hevents ?_ ?_⟩
  · rw [outcome, hhistory, outcome]
  · exact fun card hcard _ => hcards card hcard

theorem tryEmit_told {s : AppViewModel} (h : Told s) {e : Emission}
    (hspared : ∀ oldest rest, s.fileEvents = oldest :: rest →
      s.fileEvents.length = extraBufferCapacity → ¬ Awaited s oldest (rest ++ [e])) :
    Told (s.tryEmit e) :=
  ⟨length_offer_le .., fun key => tryEmit_informed (h.informed key) h.bounded hspared⟩

theorem step_told {platform : Platform} {s t : AppViewModel} {event : Event} (h : Told s)
    (ht : (viewModel platform).step s event t) (hregular : Regular s event t) : Told t := by
  change s.act platform event = some t at ht
  obtain ⟨hspared, hcollected⟩ := hregular
  cases event with
  | uploadFile name size =>
      obtain ⟨-, ht⟩ := Option.ite_none_right_eq_some.mp ht
      obtain rfl := Option.some.inj ht
      refine ⟨?_, fun key => uploadFile_informed (h.informed key) name size⟩
      unfold AppViewModel.uploadFile
      split <;> exact h.bounded
  | seed =>
      obtain ⟨st, hst, rfl⟩ := Option.map_eq_some_iff.mp ht
      refine h.congr rfl rfl fun card hcard => ?_
      simpa [cards, hst] using hcard
  | thread i event =>
      obtain ⟨u, hu, ht⟩ := Option.bind_eq_some_iff.mp ht
      obtain ⟨⟨u', message, emitted⟩, hact, ht⟩ := Option.bind_eq_some_iff.mp ht
      obtain rfl := Option.some.inj ht
      cases emitted with
      | none => exact h.congr rfl rfl fun _ hcard => hcard
      | some e =>
          show Told (AppViewModel.tryEmit _ _)
          refine tryEmit_told ?_ ?_
          · exact h.congr rfl rfl fun _ hcard => hcard
          · exact hspared ⟨.upload, e⟩ (by simp [emission, hu, hact])
  | client action os =>
      obtain ⟨-, ht⟩ := Option.ite_none_right_eq_some.mp ht
      obtain ⟨c, -, rfl⟩ := Option.map_eq_some_iff.mp ht
      exact h.congr rfl rfl fun _ hcard => hcard
  | emitNext call =>
      change s.emitNext call = some t at ht
      unfold AppViewModel.emitNext at ht
      split at ht
      next e rest hcall =>
        obtain rfl := Option.some.inj ht
        refine tryEmit_told ?_ ?_
        · exact h.congr rfl rfl fun _ hcard => hcard
        · exact hspared e (by simp [emission, hcall])
      · contradiction
  | collect now =>
      obtain ⟨hidle, ht⟩ := Option.ite_none_right_eq_some.mp ht
      have hidle := Option.isNone_iff_eq_none.mp hidle
      refine ⟨?_, fun key => collect_informed (h.informed key) hidle ht hcollected⟩
      unfold AppViewModel.collect at ht
      split at ht
      · contradiction
      next e rest hevents =>
        obtain rfl := Option.some.inj ht
        have hbounded := h.bounded
        rw [hevents] at hbounded
        exact Nat.le_of_succ_le hbounded
  | remove i =>
      obtain ⟨-, ht⟩ := Option.ite_none_right_eq_some.mp ht
      obtain ⟨r, -, ht⟩ := Option.bind_eq_some_iff.mp ht
      obtain ⟨-, ht⟩ := Option.ite_none_right_eq_some.mp ht
      obtain rfl := Option.some.inj ht
      refine h.congr rfl rfl fun card hcard => ?_
      refine (List.mem_append.mp hcard).elim (List.mem_append_left _) fun hcard => ?_
      exact List.mem_append_right _ (List.mem_filter.mp hcard).1
  | cancelTransfer card os =>
      obtain ⟨-, ht⟩ := Option.ite_none_right_eq_some.mp ht
      obtain rfl := Option.some.inj ht
      unfold AppViewModel.cancelTransfer
      split
      · exact h
      · split
        · unfold AppViewModel.cancelUpload
          split
          · exact h
          · exact h.congr rfl rfl fun _ hcard => hcard
        · exact h.congr rfl rfl fun _ hcard => hcard
  | wait ms =>
      obtain rfl := Option.some.inj ht
      exact h.congr rfl rfl fun _ hcard => hcard

/-- When the buffer is drained, every card of a transfer that has ended shows how. -/
theorem shown_of_regular {platform : Platform} {s : AppViewModel}
    (h : ((viewModel platform).restrict Regular).Reachable s) (hdrained : s.fileEvents = []) :
    Shown s := by
  have htold : Told s := by
    clear hdrained
    induction h with
    | init hinit =>
        obtain ⟨client, -, rfl⟩ := hinit
        refine ⟨Nat.zero_le _, fun key => ⟨fun word hword => ?_, fun _ state hstate => ?_⟩⟩
        · contradiction
        · contradiction
    | step _ hstep ih => exact step_told ih hstep.1 hstep.2
  intro card hcard state hstate
  have hnone : latest (tells card.key) s.fileEvents = none := by rw [hdrained, latest_nil]
  exact (htold.informed card.key).shown hnone state hstate card (List.mem_append_right _ hcard) rfl

/-! ### A second upload while the first one ends -/

def attic : TrustedServer :=
  { deviceId := "d1", token := "t1", wsUrl := "ws://192.168.1.5:9000", serverName := "PC"
    lastConnectedMs := 0 }

/-- The PC says that the first upload is complete. -/
def completing : Platform where
  decodeServerMsg _ := some (.fileTransferComplete 1 "a.txt")
  base64UrlEncode _ := ""
  base64UrlDecode _ := none
  base64Decode _ := none
  hmacSha256 _ _ := []
  validUrl url := url = attic.wsUrl
  sdkInt := 31

def launched : AppViewModel :=
  { client := { hasDownloadsDir := true, directory := { path := "/Downloads" } } }

def firstUpload : List Event :=
  [.client (.connectTrusted attic "Pixel") {}, .client (.callback 0 .onOpen) {},
    .uploadFile "a.txt" 0, .seed, .thread 0 .opened, .thread 0 .checked]

/-- The first upload ends, and before the collector runs the second one sends sixteen chunks. -/
def secondUpload : List Event :=
  [.thread 0 (.read 0), .thread 0 .finished, .uploadFile "b.mp4" 1000000000, .seed,
      .thread 1 .opened, .client (.callback 0 (.onText "")) {}, .emitNext 2] ++
    (List.replicate 16 [Event.thread 1 .checked, .thread 1 (.read 262144)]).flatten ++
    List.replicate 16 (.collect 1000)

def crowded : AppViewModel :=
  (follow (fun event s => s.act completing event) (firstUpload ++ secondUpload) launched).getD
    launched

/-- The `Complete` was the oldest event when the sixteenth progress came. -/
theorem crowded_not_shown :
    (viewModel completing).Reachable crowded ∧ crowded.fileEvents = [] ∧ ¬ Shown crowded := by
  have hfollow : follow (fun event s => s.act completing event) (firstUpload ++ secondUpload)
      launched = some crowded := rfl
  refine ⟨reachable_of_follow (fun h => h) (.init ⟨_, ⟨_, _, rfl⟩, rfl⟩) hfollow,
    by decide +kernel, fun hshown => ?_⟩
  have hstate := hshown { id := 1, name := "a.txt", totalBytes := 0 } (by decide +kernel)
    .complete (by decide +kernel)
  contradiction

/-- A step that neither collects nor finds the buffer full. -/
def actSpaciously (event : Event) (s : AppViewModel) : Option AppViewModel :=
  match event with
  | .collect _ => none
  | event => if s.fileEvents.length < extraBufferCapacity then s.act completing event else none

theorem actSpaciously_regular {event : Event} {s t : AppViewModel}
    (h : actSpaciously event s = some t) :
    ((viewModel completing).restrict Regular).step s event t := by
  cases event with
  | collect _ => contradiction
  | _ =>
      obtain ⟨hroom, h⟩ := Option.ite_none_right_eq_some.mp h
      exact ⟨h, fun _ _ _ _ _ hfull => absurd hfull (Nat.ne_of_lt hroom), trivial⟩

/-- The file of the upload cannot be read. -/
def unreadable : AppViewModel :=
  (follow actSpaciously (firstUpload ++ [.thread 0 (.thrown "io")]) launched).getD launched

def collected : AppViewModel :=
  (unreadable.collect 1000).getD unreadable

theorem shown_of_regular_unreadable : collected.fileEvents = [] ∧ Shown collected := by
  have hfollow : follow actSpaciously (firstUpload ++ [.thread 0 (.thrown "io")]) launched =
      some unreadable := rfl
  have hreachable : ((viewModel completing).restrict Regular).Reachable unreadable :=
    reachable_of_follow actSpaciously_regular (.init ⟨_, ⟨_, _, rfl⟩, rfl⟩) hfollow
  have hevents : unreadable.fileEvents = [⟨.upload, .failed 1 "io"⟩] := by decide +kernel
  have huploads : unreadable.uploads = [{ id := 1, name := "a.txt", totalBytes := 0 }] := by
    decide +kernel
  have hstep : ((viewModel completing).restrict Regular).step unreadable (.collect 1000)
      collected := by
    refine ⟨rfl, fun e he => by contradiction, fun e rest heq state _ card hcard _ hkey => ?_⟩
    rw [hevents] at heq
    rw [huploads] at hcard
    obtain ⟨rfl, -⟩ := List.cons_eq_cons.mp heq
    obtain rfl := List.mem_singleton.mp hcard
    exact absurd rfl hkey
  exact ⟨rfl, shown_of_regular (hreachable.step hstep) rfl⟩

end RemoteControl.Phone.CardStates
