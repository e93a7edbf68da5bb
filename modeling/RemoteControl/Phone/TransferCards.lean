import RemoteControl.Phone.StaleSockets
import RemoteControl.Phone.ViewModel

/-!
Which cards and transfers an event, a removal and a cancellation of one transfer touch.
-/

namespace RemoteControl.Phone.TransferCards

open RemoteControl.Foundations.DropOldest
open RemoteControl.Foundations.Transition
open RemoteControl.Foundations.Transition.System
open RemoteControl.Phone.Messages
open RemoteControl.Phone.Downloads
open RemoteControl.Phone.QrCode
open RemoteControl.Phone.Client
open RemoteControl.Phone.Frame
open RemoteControl.Phone.StaleSockets
open RemoteControl.Phone.ViewModel

/-! ### One's own card -/

/-- The cards of the other transfers. -/
def others (key : Key) (uploads : List UploadStatus) : List UploadStatus :=
  uploads.filter fun st => st.key ≠ key

/-- Every other transfer is as it was: the threads of the other uploads, and the entries of the
other downloads. -/
structure OthersKept (key : Key) (s t : AppViewModel) : Prop where
  uploads : ∀ (i : Nat) (u : Uploader), s.threads[i]? = some u → (u.id, .upload) ≠ key →
    t.threads[i]? = some u
  downloads : ∀ id, (id, .download) ≠ key →
    t.client.incomingFiles.lookup id = s.client.incomingFiles.lookup id

/-- An event, a removal or a cancellation of a transfer leaves the other cards and transfers
alone. -/
def Own (s : AppViewModel) (event : Event) (t : AppViewModel) : Prop :=
  match event with
  | .collect _ => ∀ e ∈ s.fileEvents.head?,
      others e.key t.uploads = others e.key s.uploads ∧ OthersKept e.key s t
  | .remove i => ∀ r ∈ s.removals[i]?,
      others r.key t.uploads = others r.key s.uploads ∧ OthersKept r.key s t
  | .cancelTransfer card _ => t.uploads = s.uploads ∧ OthersKept card.key s t
  | _ => True

/-- A transfer that `cancelTransfer` can reach. -/
def Live (s : AppViewModel) : Key → Prop
  | (id, .upload) => ∃ i u, s.uploadCancelFlags.lookup id = some i ∧ s.threads[i]? = some u ∧
      u.cancelFlag = false
  | (id, .download) => (s.client.incomingFiles.lookup id).isSome = true

/-- The card has the values of the event already. -/
def Shows (currentTimeMillis : Int64) (card : UploadStatus) : FileTransferEvent → Prop
  | .accepted _ destPath => card.destPath = some destPath
  | .incoming .. => True
  | .progress _ bytesSent totalBytes =>
      card.bytesSent = bytesSent ∧ (0 < card.totalBytes ∨ card.totalBytes = totalBytes)
  | .complete _ destPath =>
      card.state = .complete ∧ card.destPath = some destPath ∧
        card.bytesSent = card.totalBytes ∧ card.terminalAtMs = some currentTimeMillis
  | .failed _ reason =>
      card.state = .failed ∧ card.errorReason = some reason ∧
        card.terminalAtMs = some currentTimeMillis

/-- No card of the other direction has the id of the transfer: at an event none but one with its
values, at a removal none, and at a cancellation no earlier one of a live transfer. -/
def Apart (s : AppViewModel) (event : Event) (_ : AppViewModel) : Prop :=
  match event with
  | .collect currentTimeMillis => ∀ e ∈ s.fileEvents.head?, ∀ card ∈ s.uploads,
      card.id = e.event.id → card.key ≠ e.key → Shows currentTimeMillis card e.event
  | .remove i => ∀ r ∈ s.removals[i]?, ∀ card ∈ s.uploads,
      card.id = r.id → card.direction = r.direction
  | .cancelTransfer card _ => ∀ entry ∈ s.uploads.find? (fun st => st.id = card.id),
      entry.direction ≠ card.direction → ¬ Live s entry.key
  | _ => True

/-! ### Cards -/

theorem map_eq_self_iff {α : Type} {f : α → α} {xs : List α} :
    xs.map f = xs ↔ ∀ x ∈ xs, f x = x := by
  induction xs with
  | nil => simp
  | cons x rest ih => simp [ih]

theorem applyEvent_eq_self_iff (currentTimeMillis : Int64) (card : UploadStatus)
    (event : FileTransferEvent) :
    card.applyEvent currentTimeMillis event = card ↔ Shows currentTimeMillis card event := by
  obtain ⟨id, name, total, sent, state, direction, path, reason, terminal⟩ := card
  cases event with
  | accepted _ destPath => simp [UploadStatus.applyEvent, Shows, eq_comm]
  | incoming => exact iff_of_true rfl trivial
  | progress _ bytesSent totalBytes =>
      by_cases hknown : 0 < total
      · simp [UploadStatus.applyEvent, Shows, hknown, eq_comm]
      · simp [UploadStatus.applyEvent, Shows, hknown, eq_comm, and_comm]
  | complete _ destPath =>
      simp only [UploadStatus.applyEvent, Shows, UploadStatus.mk.injEq, true_and]
      constructor
      · rintro ⟨hsent, hstate, hpath, hterminal⟩
        exact ⟨hstate.symm, hpath.symm, hsent.symm, hterminal.symm⟩
      · rintro ⟨hstate, hpath, hsent, hterminal⟩
        exact ⟨hsent.symm, hstate.symm, hpath.symm, hterminal.symm⟩
  | failed _ why => simp [UploadStatus.applyEvent, Shows, eq_comm]

theorem others_seedDownload (e : Emission) (uploads : List UploadStatus) :
    others e.key (seedDownload e.event ++ uploads) = others e.key uploads := by
  unfold Emission.key seedDownload
  cases e.event <;> simp [others, UploadStatus.key]

theorem others_collectEvent (currentTimeMillis : Int64) (e : Emission)
    (uploads : List UploadStatus) :
    others e.key (collectEvent currentTimeMillis e.event uploads) =
      (others e.key uploads).map fun st =>
        if st.id ≠ e.event.id then st else st.applyEvent currentTimeMillis e.event := by
  rw [← others_seedDownload e uploads]
  unfold others collectEvent
  rw [List.filter_map]
  congr 2
  funext st
  by_cases hid : st.id = e.event.id <;> simp [hid]

theorem others_collectEvent_iff (currentTimeMillis : Int64) (e : Emission)
    (uploads : List UploadStatus) :
    others e.key (collectEvent currentTimeMillis e.event uploads) = others e.key uploads ↔
      ∀ card ∈ uploads, card.id = e.event.id → card.key ≠ e.key →
        Shows currentTimeMillis card e.event := by
  rw [others_collectEvent, map_eq_self_iff]
  simp only [others, List.mem_filter, decide_eq_true_eq, ← applyEvent_eq_self_iff]
  constructor
  · intro h card hcard hid hkey
    have hsame := h card ⟨hcard, hkey⟩
    rwa [if_neg (not_not_intro hid)] at hsame
  · rintro h card ⟨hcard, hkey⟩
    split
    · rfl
    next hid => exact h card hcard (not_not.mp hid) hkey

theorem others_filter_iff (r : Removal) (uploads : List UploadStatus) :
    others r.key (uploads.filter fun st => st.id ≠ r.id) = others r.key uploads ↔
      ∀ card ∈ uploads, card.id = r.id → card.direction = r.direction := by
  unfold others
  rw [List.filter_comm, List.filter_eq_self]
  simp only [List.mem_filter, decide_eq_true_eq]
  constructor
  · intro h card hcard hid
    by_contra hdirection
    have hkey : card.key ≠ r.key := fun heq => hdirection (congrArg Prod.snd heq)
    exact h card ⟨hcard, hkey⟩ hid
  · rintro h card ⟨hcard, hkey⟩ hid
    exact hkey (Prod.ext hid (h card hcard hid))

/-! ### Flags and threads -/

/-- A cancel flag is that of a thread with its id, and an entry of `incomingFiles` has its id. -/
structure Linked (s : AppViewModel) : Prop where
  flags : ∀ id i, s.uploadCancelFlags.lookup id = some i →
    ∃ u, s.threads[i]? = some u ∧ u.id = id
  tidy : Tidy s.client

theorem send_tidy {msg : ClientMsg} (hmsg : msg.isHandshake = false) (ws : Nat)
    {c : ConnectionClient} (h : Tidy c) : Tidy (c.send ws msg) :=
  h.messageStep (send_step hmsg ws c).toMessageStep (keepsIds_of_eq rfl)

theorem Linked.congr {s t : AppViewModel} (h : Linked s)
    (hthreads : ∀ (i : Nat) (u : Uploader), s.threads[i]? = some u →
      ∃ u', t.threads[i]? = some u' ∧ u'.id = u.id)
    (hflags : ∀ id i, t.uploadCancelFlags.lookup id = some i →
      s.uploadCancelFlags.lookup id = some i)
    (htidy : Tidy t.client) : Linked t := by
  refine ⟨fun id i hi => ?_, htidy⟩
  obtain ⟨u, hu, hid⟩ := h.flags id i (hflags id i hi)
  obtain ⟨u', hu', hid'⟩ := hthreads i u hu
  exact ⟨u', hu', hid'.trans hid⟩

theorem act_cases {u u' : Uploader} {event : ThreadEvent} {message : Option ClientMsg}
    {emitted : Option FileTransferEvent} (h : u.act event = some (u', message, emitted)) :
    u'.id = u.id ∧ ∀ msg ∈ message, msg.isHandshake = false := by
  have hcaught (reason : String) (hreason : u.caught reason = (u', message, emitted)) :
      u'.id = u.id ∧ ∀ msg ∈ message, msg.isHandshake = false := by
    cases hreason
    exact ⟨rfl, fun msg hmsg => by cases hmsg; rfl⟩
  have hquiet {v : Uploader} {e : Option FileTransferEvent}
      (heq : (v, (none : Option ClientMsg), e) = (u', message, emitted)) (hid : v.id = u.id) :
      u'.id = u.id ∧ ∀ msg ∈ message, msg.isHandshake = false := by
    cases heq
    exact ⟨hid, fun msg hmsg => by cases hmsg⟩
  cases event with
  | opened =>
      obtain ⟨-, h⟩ := Option.ite_none_right_eq_some.mp h
      exact hquiet (Option.some.inj h) rfl
  | thrown reason =>
      obtain ⟨-, h⟩ := Option.ite_none_right_eq_some.mp h
      exact hcaught reason (Option.some.inj h)
  | checked =>
      obtain ⟨-, h⟩ := Option.ite_none_right_eq_some.mp h
      split at h
      · exact hcaught _ (Option.some.inj h)
      · exact hquiet (Option.some.inj h) rfl
  | read n =>
      obtain ⟨-, h⟩ := Option.ite_none_right_eq_some.mp h
      split at h
      · exact hquiet (Option.some.inj h) rfl
      · exact hquiet (Option.some.inj h) rfl
  | finished =>
      obtain ⟨-, h⟩ := Option.ite_none_right_eq_some.mp h
      exact hquiet (Option.some.inj h) rfl

theorem tryEmit_linked {s : AppViewModel} (h : Linked s) (e : Emission) :
    Linked (s.tryEmit e) :=
  ⟨h.flags, h.tidy⟩

theorem uploadFile_linked {s : AppViewModel} (h : Linked s) (name : String) (size : Int64) :
    Linked (s.uploadFile name size) := by
  unfold AppViewModel.uploadFile
  split
  · exact h
  next ws _ =>
    refine ⟨fun id i hi => ?_, send_tidy rfl ws h.tidy⟩
    by_cases hid : id = s.nextTransferId
    · subst hid
      rw [AList.lookup_insert] at hi
      obtain rfl := Option.some.inj hi
      exact ⟨_, List.getElem?_concat_length, rfl⟩
    · rw [AList.lookup_insert_ne hid] at hi
      obtain ⟨u, hu, huid⟩ := h.flags id i hi
      obtain ⟨hlt, -⟩ := List.getElem?_eq_some_iff.mp hu
      exact ⟨u, (List.getElem?_append_left hlt).trans hu, huid⟩

theorem stepThread_linked {s t : AppViewModel} {i : Nat} {event : ThreadEvent} (h : Linked s)
    (ht : s.stepThread i event = some t) : Linked t := by
  unfold AppViewModel.stepThread at ht
  obtain ⟨u, hu, ht⟩ := Option.bind_eq_some_iff.mp ht
  obtain ⟨⟨u', message, emitted⟩, hact, ht⟩ := Option.bind_eq_some_iff.mp ht
  obtain ⟨hid, hmessage⟩ := act_cases hact
  obtain rfl := Option.some.inj ht
  have hlinked : Linked
      { s with
        threads := s.threads.set i u'
        client := message.elim s.client fun msg => s.client.send u.ws msg
        uploadCancelFlags :=
          if event = .finished then s.uploadCancelFlags.erase u.id
          else s.uploadCancelFlags } := by
    refine h.congr (fun j v hv => ?_) (fun id j hj => ?_) ?_
    · by_cases hij : i = j
      · subst hij
        obtain ⟨hlt, -⟩ := List.getElem?_eq_some_iff.mp hu
        obtain rfl := Option.some.inj (hu.symm.trans hv)
        exact ⟨u', List.getElem?_set_self hlt, hid⟩
      · exact ⟨v, (List.getElem?_set_ne hij).trans hv, rfl⟩
    · dsimp only at hj
      split at hj
      · by_cases hne : id = u.id
        · rw [hne, AList.lookup_erase] at hj
          contradiction
        · rwa [AList.lookup_erase_ne hne] at hj
      · exact hj
    · cases message with
      | none => exact h.tidy
      | some msg => exact send_tidy (hmessage msg rfl) u.ws h.tidy
  cases emitted with
  | none => exact hlinked
  | some e => exact tryEmit_linked hlinked _

theorem cancelUpload_linked {s : AppViewModel} (h : Linked s) (id : Int32) :
    Linked (s.cancelUpload id) := by
  unfold AppViewModel.cancelUpload
  split
  · exact h
  next i _ =>
    refine h.congr (fun j v hv => ?_) (fun _ _ hj => hj) h.tidy
    by_cases hij : i = j
    · exact ⟨{ v with cancelFlag := true }, by simp [hv, hij], rfl⟩
    · exact ⟨v, by simp [hv, hij], rfl⟩

theorem called_linked {s : AppViewModel} (h : Linked s) (direction : TransferDirection)
    {client : ConnectionClient} (htidy : Tidy client) : Linked (s.called direction client) :=
  ⟨h.flags, htidy⟩

theorem step_linked {platform : Platform} {s t : AppViewModel} {event : Event} (h : Linked s)
    (ht : (viewModel platform).step s event t) : Linked t := by
  change s.act platform event = some t at ht
  cases event with
  | uploadFile name size =>
      obtain ⟨-, ht⟩ := Option.ite_none_right_eq_some.mp ht
      obtain rfl := Option.some.inj ht
      exact uploadFile_linked h name size
  | seed =>
      obtain ⟨st, -, rfl⟩ := Option.map_eq_some_iff.mp ht
      exact ⟨h.flags, h.tidy⟩
  | thread i event => exact stepThread_linked h ht
  | client action os =>
      obtain ⟨-, ht⟩ := Option.ite_none_right_eq_some.mp ht
      obtain ⟨c, hc, rfl⟩ := Option.map_eq_some_iff.mp ht
      exact called_linked h _ (act_tidy h.tidy hc)
  | emitNext call =>
      change s.emitNext call = some t at ht
      unfold AppViewModel.emitNext at ht
      split at ht
      · obtain rfl := Option.some.inj ht
        exact ⟨h.flags, h.tidy⟩
      · contradiction
  | collect now =>
      obtain ⟨-, ht⟩ := Option.ite_none_right_eq_some.mp ht
      unfold AppViewModel.collect at ht
      split at ht
      · contradiction
      · obtain rfl := Option.some.inj ht
        exact ⟨h.flags, h.tidy⟩
  | remove i =>
      obtain ⟨-, ht⟩ := Option.ite_none_right_eq_some.mp ht
      obtain ⟨r, -, ht⟩ := Option.bind_eq_some_iff.mp ht
      obtain ⟨-, ht⟩ := Option.ite_none_right_eq_some.mp ht
      obtain rfl := Option.some.inj ht
      exact ⟨h.flags, h.tidy⟩
  | cancelTransfer card os =>
      obtain ⟨-, ht⟩ := Option.ite_none_right_eq_some.mp ht
      obtain rfl := Option.some.inj ht
      unfold AppViewModel.cancelTransfer
      split
      · exact h
      · split
        · exact cancelUpload_linked h card.id
        · refine called_linked h _ (h.tidy.messageStep ?_ (cancelDownload_keepsIds os card.id _))
          exact (cancelDownload_step os card.id s.client).toMessageStep
  | wait ms =>
      obtain rfl := Option.some.inj ht
      exact ⟨h.flags, h.tidy⟩

/-! ### Cancellations -/

theorem OthersKept.refl (key : Key) (s : AppViewModel) : OthersKept key s s :=
  ⟨fun _ _ hu _ => hu, fun _ _ => rfl⟩

theorem cancelUpload_kept {s : AppViewModel} (h : Linked s) (id : Int32) :
    OthersKept (id, .upload) s (s.cancelUpload id) := by
  unfold AppViewModel.cancelUpload
  split
  · exact OthersKept.refl _ s
  next i hi =>
    obtain ⟨u, hu, rfl⟩ := h.flags id i hi
    refine ⟨fun j v hv hkey => ?_, fun _ _ => rfl⟩
    have hij : i ≠ j := by
      rintro rfl
      obtain rfl := Option.some.inj (hu.symm.trans hv)
      exact hkey rfl
    simp [hij, hv]

theorem cancelUpload_download_iff (s : AppViewModel) (id : Int32) :
    OthersKept (id, .download) s (s.cancelUpload id) ↔ ¬ Live s (id, .upload) := by
  constructor
  · rintro hkept ⟨i, u, hi, hu, hflag⟩
    have hsame := hkept.uploads i u hu (by simp)
    simp only [AppViewModel.cancelUpload, hi, List.getElem?_modify_eq, hu] at hsame
    have hset := congrArg Uploader.cancelFlag (Option.some.inj hsame)
    rw [hflag] at hset
    contradiction
  · intro hlive
    unfold AppViewModel.cancelUpload
    split
    · exact OthersKept.refl _ s
    next i hi =>
      refine ⟨fun j v hv _ => ?_, fun _ _ => rfl⟩
      by_cases hij : i = j
      · subst hij
        have hflag : v.cancelFlag = true := by
          by_contra hflag
          exact hlive ⟨i, v, hi, hv, by simpa using hflag⟩
        simp [hv, ← hflag]
      · simp [hij, hv]

theorem cancelDownload_kept {s : AppViewModel} (h : Linked s) (os : Answers) (id : Int32) :
    OthersKept (id, .download) s (s.called .download (s.client.cancelDownload os id)) := by
  refine ⟨fun _ _ hu _ => hu, fun other hkey => ?_⟩
  have hother : other ≠ id := fun heq => hkey (heq ▸ rfl)
  show (s.client.cancelDownload os id).incomingFiles.lookup other = _
  unfold ConnectionClient.cancelDownload
  split
  · rfl
  next st hst =>
    rw [failIncoming_incomingFiles, h.tidy.keyed id st hst, AList.lookup_erase_ne hother]

theorem cancelDownload_upload_iff {s : AppViewModel} (h : Linked s) (os : Answers) (id : Int32) :
    OthersKept (id, .upload) s (s.called .download (s.client.cancelDownload os id)) ↔
      ¬ Live s (id, .download) := by
  constructor
  · intro hkept hlive
    obtain ⟨st, hst⟩ := Option.isSome_iff_exists.mp hlive
    have hsame : (s.client.cancelDownload os id).incomingFiles.lookup id =
        s.client.incomingFiles.lookup id := hkept.downloads id (by simp)
    simp only [ConnectionClient.cancelDownload, hst, failIncoming_incomingFiles,
      h.tidy.keyed id st hst, AList.lookup_erase] at hsame
    contradiction
  · intro hlive
    have hnone : s.client.incomingFiles.lookup id = none := by
      simpa [Live] using hlive
    have hquiet : s.client.cancelDownload os id = s.client := by
      simp [ConnectionClient.cancelDownload, hnone]
    rw [hquiet]
    exact ⟨fun _ _ hu _ => hu, fun _ _ => rfl⟩

@[simp]
theorem called_uploads (direction : TransferDirection) (client : ConnectionClient)
    (s : AppViewModel) : (s.called direction client).uploads = s.uploads :=
  rfl

theorem cancelUpload_uploads (s : AppViewModel) (id : Int32) :
    (s.cancelUpload id).uploads = s.uploads := by
  unfold AppViewModel.cancelUpload
  split <;> rfl

theorem cancelTransfer_own_iff {s : AppViewModel} (h : Linked s) {card : UploadStatus}
    (hcard : card ∈ s.uploads) (os : Answers) :
    (s.cancelTransfer os card.id).uploads = s.uploads ∧
        OthersKept card.key s (s.cancelTransfer os card.id) ↔
      ∀ entry ∈ s.uploads.find? (fun st => st.id = card.id),
        entry.direction ≠ card.direction → ¬ Live s entry.key := by
  obtain ⟨entry, hentry⟩ : ∃ entry, s.uploads.find? (fun st => st.id = card.id) = some entry := by
    refine Option.isSome_iff_exists.mp (List.find?_isSome.mpr ⟨card, hcard, ?_⟩)
    exact decide_eq_true rfl
  have hid : entry.id = card.id := by simpa using List.find?_some hentry
  simp only [AppViewModel.cancelTransfer, hentry, Option.mem_some_iff, forall_eq',
    UploadStatus.key, hid]
  cases entry.direction with
  | upload =>
      simp only [cancelUpload_uploads, true_and]
      cases card.direction with
      | upload => simp [cancelUpload_kept h card.id]
      | download => simp [cancelUpload_download_iff]
  | download =>
      simp only [called_uploads, true_and]
      cases card.direction with
      | upload => simp [cancelDownload_upload_iff h os card.id]
      | download => simp [cancelDownload_kept h os card.id]

/-! ### Every step of a run -/

theorem step_own_iff {platform : Platform} {s t : AppViewModel} {event : Event} (h : Linked s)
    (ht : (viewModel platform).step s event t) : Own s event t ↔ Apart s event t := by
  change s.act platform event = some t at ht
  cases event with
  | collect now =>
      obtain ⟨-, ht⟩ := Option.ite_none_right_eq_some.mp ht
      unfold AppViewModel.collect at ht
      cases hevents : s.fileEvents with
      | nil => simp [hevents] at ht
      | cons e rest =>
          rw [hevents] at ht
          obtain rfl := Option.some.inj ht
          have hkept := OthersKept.refl e.key s
          have hown := others_collectEvent_iff now e s.uploads
          simp only [Own, Apart, hevents, List.head?_cons, Option.mem_some_iff, forall_eq']
          exact (and_iff_left ⟨hkept.uploads, hkept.downloads⟩).trans hown
  | remove i =>
      obtain ⟨-, ht⟩ := Option.ite_none_right_eq_some.mp ht
      obtain ⟨r, hr, ht⟩ := Option.bind_eq_some_iff.mp ht
      obtain ⟨-, ht⟩ := Option.ite_none_right_eq_some.mp ht
      obtain rfl := Option.some.inj ht
      have hkept := OthersKept.refl r.key s
      simp only [Own, Apart, hr, Option.mem_some_iff, forall_eq']
      exact (and_iff_left ⟨hkept.uploads, hkept.downloads⟩).trans (others_filter_iff r s.uploads)
  | cancelTransfer card os =>
      obtain ⟨⟨-, hcard⟩, ht⟩ := Option.ite_none_right_eq_some.mp ht
      obtain rfl := Option.some.inj ht
      exact cancelTransfer_own_iff h hcard os
  | _ => exact Iff.rfl

theorem run_linked {platform : Platform} {s t : AppViewModel} {events : List Event}
    (hs : Linked s) (hrun : (viewModel platform).Run s events t) : Linked t := by
  induction hrun with
  | nil => exact hs
  | snoc _ hstep ih => exact step_linked ih hstep

theorem init_linked {platform : Platform} {s : AppViewModel} (h : (viewModel platform).init s) :
    Linked s := by
  obtain ⟨client, hfresh, rfl⟩ := h
  have hclient : (Client.client platform).Reachable client := .init hfresh
  exact ⟨fun id i hi => by simp at hi, reachable_tidy hclient⟩

/-- In a run every event, removal and cancellation touches its own card and transfer only,
exactly if no card of the other direction has the same id at the time. -/
theorem own_iff_apart {platform : Platform} {s t : AppViewModel} {events : List Event}
    (hs : (viewModel platform).init s) :
    ((viewModel platform).restrict Own).Run s events t ↔
      ((viewModel platform).restrict Apart).Run s events t := by
  have hsame {condition condition' : AppViewModel → Event → AppViewModel → Prop} {u}
      (hiff : ∀ {s t event}, Linked s → (viewModel platform).step s event t →
        condition s event t → condition' s event t)
      (hrun : ((viewModel platform).restrict condition).Run s events u) :
      ((viewModel platform).restrict condition').Run s events u := by
    induction hrun with
    | nil => exact .nil _
    | snoc hprev hstep ih =>
        have hlinked := run_linked (init_linked hs) hprev.of_restrict
        exact .snoc ih ⟨hstep.1, hiff hlinked hstep.1 hstep.2⟩
  exact ⟨hsame fun hlinked hstep => (step_own_iff hlinked hstep).mp,
    hsame fun hlinked hstep => (step_own_iff hlinked hstep).mpr⟩

/-! ### An upload and a download with the id 1 -/

def study : TrustedServer :=
  { deviceId := "d1", token := "t1", wsUrl := "ws://192.168.1.5:9000", serverName := "PC"
    lastConnectedMs := 0 }

/-- The PC announces its first file. -/
def announcing : Platform where
  decodeServerMsg _ := some (.fileSendBegin ⟨1, "b.mp4", 9⟩)
  base64UrlEncode _ := ""
  base64UrlDecode _ := none
  base64Decode _ := none
  hmacSha256 _ _ := []
  validUrl url := url = study.wsUrl
  sdkInt := 31

def created : AppViewModel :=
  { client := { hasDownloadsDir := true, directory := { path := "/Downloads" } } }

/-- The upload begins, and its card is there. -/
def uploading : List Event :=
  [.client (.connectTrusted study "Pixel") {}, .client (.callback 0 .onOpen) {},
    .uploadFile "a.txt" 5, .seed, .thread 0 .opened, .thread 0 .checked]

/-- Then the download, and the upload goes on. -/
def announced : List Event :=
  [.client (.callback 0 (.onText "")) {}, .emitNext 2, .collect 1000, .thread 0 (.read 3)]

def crossed : AppViewModel :=
  (follow (fun event s => s.act announcing event) (uploading ++ announced) created).getD created

theorem crossed_reachable : (viewModel announcing).Reachable crossed := by
  have hfollow : follow (fun event s => s.act announcing event) (uploading ++ announced) created =
      some crossed := rfl
  exact reachable_of_follow (fun h => h) (.init ⟨_, ⟨_, _, rfl⟩, rfl⟩) hfollow

/-- The progress of the upload shows on the card of the download, and the button on the card of
the upload cancels the download. -/
theorem crossed_not_own :
    (viewModel announcing).Reachable crossed ∧
      (∃ t, (viewModel announcing).step crossed (.collect 2000) t ∧
        ¬ Own crossed (.collect 2000) t) ∧
      ∃ card ∈ crossed.uploads, ∃ t, card.direction = .upload ∧
        (viewModel announcing).step crossed (.cancelTransfer card {}) t ∧
        ¬ Own crossed (.cancelTransfer card {}) t := by
  refine ⟨crossed_reachable, ⟨_, rfl, ?_⟩, ?_⟩
  · intro hown
    have hothers := (hown ⟨.upload, .progress 1 3 5⟩ (by decide +kernel)).1
    revert hothers
    decide +kernel
  · refine ⟨{ id := 1, name := "a.txt", totalBytes := 5 }, by decide +kernel, _, rfl, rfl, ?_⟩
    rintro ⟨-, hkept⟩
    have hgone := hkept.downloads 1 (by decide)
    revert hgone
    decide +kernel

/-- A step that no card and no transfer can suffer from. -/
def actQuietly (event : Event) (s : AppViewModel) : Option AppViewModel :=
  match event with
  | .collect _ | .remove _ | .cancelTransfer _ _ => none
  | event => s.act announcing event

theorem actQuietly_apart {event : Event} {s t : AppViewModel}
    (h : actQuietly event s = some t) :
    ((viewModel announcing).restrict Apart).step s event t := by
  cases event with
  | collect _ | remove _ | cancelTransfer _ _ => contradiction
  | _ => exact ⟨h, trivial⟩

/-- The upload has sent a chunk. -/
def halfway : AppViewModel :=
  (follow actQuietly (uploading ++ [.thread 0 (.read 3)]) created).getD created

theorem own_iff_apart_halfway :
    ((viewModel announcing).restrict Own).Run created
      (uploading ++ [.thread 0 (.read 3)] ++ [.collect 1000])
      ((halfway.collect 1000).getD halfway) := by
  refine (own_iff_apart ⟨_, ⟨_, _, rfl⟩, rfl⟩).mpr ?_
  have hfollow : follow actQuietly (uploading ++ [.thread 0 (.read 3)]) created =
      some halfway := rfl
  refine .snoc (run_of_follow actQuietly_apart hfollow) ⟨rfl, fun e he card hcard _ hkey => ?_⟩
  have hevents : halfway.fileEvents = [⟨.upload, .progress 1 3 5⟩] := by decide +kernel
  have huploads : halfway.uploads = [{ id := 1, name := "a.txt", totalBytes := 5 }] := by
    decide +kernel
  rw [hevents] at he
  rw [huploads] at hcard
  obtain rfl := List.mem_singleton.mp hcard
  obtain rfl := Option.some.inj he
  exact absurd rfl hkey

end RemoteControl.Phone.TransferCards
