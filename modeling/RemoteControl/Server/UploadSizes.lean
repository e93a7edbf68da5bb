import RemoteControl.Server.Upload

/-!
The sizes of uploads: when what is written for a transfer stays within the size that its begin
declared, and is all of it when the PC reports the transfer complete.
-/

namespace RemoteControl.Server.UploadSizes

open RemoteControl.Foundations.ByteStrings
open RemoteControl.Foundations.Transition
open RemoteControl.Foundations.Transition.System
open RemoteControl.Wire.Protocol
open RemoteControl.Server.Stores
open RemoteControl.Server.Connection
open RemoteControl.Server.FileHandlers
open RemoteControl.Server.Loop
open RemoteControl.Server.Frame
open RemoteControl.Server.Upload

/-! ### Declared sizes -/

/-- The size that the last accepted begin for `id` declared, after one more message. -/
def declare (id : UInt32) (message : Option UploadMsg) (replies : List Outgoing)
    (declared : Option UInt64) : Option UInt64 :=
  match message with
  | some (.start _ size) => if replies.any (acceptsId id) then some size else declared
  | _ => declared

def declaredSince (crates : Crates) (history : List (Label × List Outgoing)) (id : UInt32) :
    Option UInt64 :=
  history.foldl (fun declared entry => declare id (messageOf crates entry.1) entry.2 declared) none

theorem declaredSince_snoc (crates : Crates) (history : List (Label × List Outgoing))
    (entry : Label × List Outgoing) (id : UInt32) :
    declaredSince crates (history ++ [entry]) id =
      declare id (messageOf crates entry.1) entry.2 (declaredSince crates history id) := by
  simp [declaredSince]

/-- `n` bytes are within 16 GiB and within the declared size, where 0 declares none. -/
def InBounds (size : UInt64) (n : Nat) : Prop :=
  n ≤ maxFileSize ∧ (size ≠ 0 → n ≤ size.toNat)

/-- What one message should do. What is written for a live transfer is in bounds; a transfer that
is reported complete has its declared size; and any other one that ends has its file removed
and, unless the phone aborted it, is reported failed. -/
structure Sized (declared : UInt32 → Option UInt64) (v : View) (message : Option UploadMsg)
    (v' : View) (replies : List Outgoing) : Prop where
  live : ∀ id state, v'.transfers.lookup id = some state → ∃ size content,
    declared id = some size ∧ v'.files state.destPath = some content ∧
      InBounds size content.length
  completed : ∀ id dest, .msg (.fileTransferComplete id dest) ∈ replies →
    ∃ state size content, v.transfers.lookup id = some state ∧ declared id = some size ∧
      v'.files state.destPath = some content ∧ content.length ≤ maxFileSize ∧
      (size ≠ 0 → content.length = size.toNat)
  ended : ∀ id state, v.transfers.lookup id = some state → v'.transfers.lookup id = none →
    (∃ dest, .msg (.fileTransferComplete id dest) ∈ replies) ∨
      v'.files state.destPath = none ∧ (message = some (.abort id) ∨
        ∃ reason, .msg (.fileTransferFailed id reason) ∈ replies)

/-- A chunk that continues a live transfer keeps it in bounds, and the one that is flagged last
brings it to the declared size. -/
def Fits (v : View) (message : Option UploadMsg) : Prop :=
  ∀ chunk state, message = some (.chunk chunk) → v.transfers.lookup chunk.id = some state →
    chunk.seq = state.nextExpectedSeq →
      let total := state.bytesWritten + chunk.payload.length
      InBounds state.expectedSize total ∧
        (chunk.isLast = true → state.expectedSize ≠ 0 → total = state.expectedSize.toNat)

/-! ### One message -/

variable {v v' : View} {message : Option UploadMsg} {replies : List Outgoing}
  {declared : UInt32 → Option UInt64} {chunks : UInt32 → List FileChunk}

/-- The transfers count what they have written, and keep what was declared for them. -/
structure Counted (declared : UInt32 → Option UInt64) (v : View) : Prop where
  bytesWritten : ∀ id state, v.transfers.lookup id = some state →
    state.bytesWritten = state.file.position
  declared : ∀ id state, v.transfers.lookup id = some state →
    declared id = some state.expectedSize

def Bounded (v : View) : Prop :=
  ∀ id state, v.transfers.lookup id = some state → InBounds state.expectedSize state.bytesWritten

theorem file_length (htracked : Tracked chunks v) (hcounted : Counted declared v) {id : UInt32}
    {state : FileTransferState} (hlive : v.transfers.lookup id = some state) :
    ∃ content, v.files state.destPath = some content ∧ content.length = state.bytesWritten := by
  have hholds := htracked.holds id state hlive
  refine ⟨_, hholds.content, ?_⟩
  rw [hcounted.bytesWritten id state hlive, hholds.position]

theorem written_length (htracked : Tracked chunks v) (hcounted : Counted declared v) {id : UInt32}
    {state : FileTransferState} (hlive : v.transfers.lookup id = some state) (chunk : FileChunk) :
    ∃ content, written state chunk v.files state.destPath = some content ∧
      content.length = state.bytesWritten + chunk.payload.length := by
  have hholds := htracked.holds id state hlive
  refine ⟨contentOf (chunks id ++ [chunk]), ?_, ?_⟩
  · rw [hholds.written]
    exact Function.update_self ..
  · rw [contentOf_append, List.length_append, hcounted.bytesWritten id state hlive,
      hholds.position]

theorem live_cases (h : Outcome v message v' replies) (htracked : Tracked chunks v) {id : UInt32}
    {state : FileTransferState} (hlive : v'.transfers.lookup id = some state) :
    (v.transfers.lookup id = some state ∧ v'.files state.destPath = v.files state.destPath ∧
        replies.any (acceptsId id) = false) ∨
      (∃ path size, message = some (.start id size) ∧ state = freshTransfer path size ∧
        v'.files path = some [] ∧ replies.any (acceptsId id) = true) ∨
      ∃ chunk before, message = some (.chunk chunk) ∧ chunk.id = id ∧
        v.transfers.lookup id = some before ∧ chunk.seq = before.nextExpectedSeq ∧
        state = advance before chunk ∧ v'.files = written before chunk v.files := by
  have hframe (hid : ∀ r, message.map UploadMsg.request = some r → r.id ≠ id)
      (hbefore : v.transfers.lookup id = some state) :
      v.transfers.lookup id = some state ∧ v'.files state.destPath = v.files state.destPath ∧
        replies.any (acceptsId id) = false := by
    have hconcerns : ¬Concerns id (message.map UploadMsg.request) := by
      rintro ⟨r, hr, hrid⟩
      exact hid r hr hrid
    refine ⟨hbefore, (h.reaction.frame htracked hconcerns hbefore).2, ?_⟩
    cases h with
    | silent => rfl
    | refused => rfl
    | @accepted id' =>
        have hne : id' ≠ id := hid _ rfl
        simpa [acceptsId] using hne
    | aborted => rfl
    | failed => rfl
    | appended => rfl
    | completed => rfl
  cases h with
  | silent htransfers hfiles =>
      exact .inl ⟨(htransfers id).symm.trans hlive, by rw [hfiles], rfl⟩
  | refused => exact .inl ⟨hlive, rfl, rfl⟩
  | @accepted id' path size hnew hfree =>
      rcases eq_or_ne id id' with rfl | hne
      · rw [AList.lookup_insert] at hlive
        refine .inr (.inl ⟨path, size, rfl, (Option.some.inj hlive).symm, ?_, ?_⟩)
        · exact Function.update_self ..
        · simp [acceptsId]
      · rw [AList.lookup_insert_ne hne] at hlive
        refine .inl (hframe ?_ hlive)
        rintro r ⟨⟩
        exact hne.symm
  | @aborted id' =>
      obtain ⟨hne, hbefore⟩ := lookup_of_erase hlive
      refine .inl (hframe ?_ hbefore)
      rintro r ⟨⟩
      exact hne.symm
  | @failed chunk =>
      obtain ⟨hne, hbefore⟩ := lookup_of_erase hlive
      refine .inl (hframe ?_ hbefore)
      rintro r ⟨⟩
      exact hne.symm
  | @appended chunk before hfound hseq hlast =>
      rcases eq_or_ne id chunk.id with rfl | hne
      · rw [AList.lookup_insert] at hlive
        exact .inr (.inr ⟨chunk, before, rfl, rfl, hfound, hseq, (Option.some.inj hlive).symm, rfl⟩)
      · rw [AList.lookup_insert_ne hne] at hlive
        refine .inl (hframe ?_ (lookup_of_erase hlive).2)
        rintro r ⟨⟩
        exact hne.symm
  | @completed chunk =>
      obtain ⟨hne, hbefore⟩ := lookup_of_erase hlive
      refine .inl (hframe ?_ hbefore)
      rintro r ⟨⟩
      exact hne.symm

theorem completed_cases (h : Outcome v message v' replies) {id : UInt32} {dest : String}
    (hsent : .msg (.fileTransferComplete id dest) ∈ replies) :
    ∃ chunk state, message = some (.chunk chunk) ∧ chunk.id = id ∧ chunk.isLast = true ∧
      v.transfers.lookup id = some state ∧ chunk.seq = state.nextExpectedSeq ∧
      v'.files = written state chunk v.files := by
  cases h with
  | silent => cases hsent
  | refused => simp at hsent
  | accepted => simp at hsent
  | aborted => cases hsent
  | failed => simp at hsent
  | appended => cases hsent
  | @completed chunk state hlive hseq hlast =>
      obtain ⟨rfl, -⟩ : id = chunk.id ∧ dest = state.destPath.display := by simpa using hsent
      exact ⟨chunk, state, rfl, rfl, hlast, hlive, hseq, rfl⟩

theorem lookup_ne_of_erase {transfers : HashMap UInt32 FileTransferState} {id id' : UInt32}
    {state : FileTransferState} (hbefore : transfers.lookup id = some state)
    (h : (transfers.erase id').lookup id = none) : id = id' := by
  by_contra hne
  rw [AList.lookup_erase_ne hne, hbefore] at h
  cases h

theorem ended_cases (h : Outcome v message v' replies) {id : UInt32} {state : FileTransferState}
    (hbefore : v.transfers.lookup id = some state) (hgone : v'.transfers.lookup id = none) :
    (∃ dest, .msg (.fileTransferComplete id dest) ∈ replies) ∨
      v'.files state.destPath = none ∧ (message = some (.abort id) ∨
        ∃ reason, .msg (.fileTransferFailed id reason) ∈ replies) := by
  cases h with
  | silent htransfers =>
      rw [htransfers, hbefore] at hgone
      cases hgone
  | refused =>
      rw [hbefore] at hgone
      cases hgone
  | @accepted id' path size hnew =>
      rcases eq_or_ne id id' with rfl | hne
      · rw [hbefore] at hnew
        cases hnew
      · rw [AList.lookup_insert_ne hne, hbefore] at hgone
        cases hgone
  | @aborted id' _ hlive =>
      obtain rfl := lookup_ne_of_erase hbefore hgone
      obtain rfl := Option.some.inj (hbefore.symm.trans hlive)
      exact .inr ⟨Function.update_self .., .inl rfl⟩
  | @failed chunk _ _ hlive =>
      obtain rfl := lookup_ne_of_erase hbefore hgone
      obtain rfl := Option.some.inj (hbefore.symm.trans hlive)
      exact .inr ⟨Function.update_self .., .inr ⟨_, List.mem_singleton_self _⟩⟩
  | @appended chunk _ hlive =>
      rcases eq_or_ne id chunk.id with rfl | hne
      · rw [AList.lookup_insert] at hgone
        cases hgone
      · rw [AList.lookup_insert_ne hne] at hgone
        exact absurd (lookup_ne_of_erase hbefore hgone) hne
  | @completed chunk _ hlive =>
      obtain rfl := lookup_ne_of_erase hbefore hgone
      exact .inl ⟨_, List.mem_singleton_self _⟩

theorem declare_same {id : UInt32} (hreplies : replies.any (acceptsId id) = false)
    (declared : Option UInt64) : declare id message replies declared = declared := by
  unfold declare
  split
  · exact if_neg (by simp [hreplies])
  · rfl

theorem Counted.step (hcounted : Counted declared v) (htracked : Tracked chunks v)
    (h : Outcome v message v' replies) :
    Counted (fun id => declare id message replies (declared id)) v' := by
  refine ⟨fun id state hlive => ?_, fun id state hlive => ?_⟩
  · rcases live_cases h htracked hlive with
      ⟨hbefore, -, -⟩ | ⟨path, size, -, rfl, -, -⟩ | ⟨chunk, before, -, -, hbefore, -, rfl, -⟩
    · exact hcounted.bytesWritten id state hbefore
    · rfl
    · rw [advance, hcounted.bytesWritten id before hbefore]
  · rcases live_cases h htracked hlive with
      ⟨hbefore, -, hreplies⟩ | ⟨path, size, rfl, rfl, -, haccepts⟩ |
        ⟨chunk, before, rfl, -, hbefore, -, rfl, -⟩
    · rw [declare_same hreplies]
      exact hcounted.declared id state hbefore
    · exact if_pos haccepts
    · exact hcounted.declared id before hbefore

theorem inBounds_zero (size : UInt64) : InBounds size 0 :=
  ⟨Nat.zero_le _, fun _ => Nat.zero_le _⟩

theorem Bounded.step (hbounded : Bounded v) (htracked : Tracked chunks v)
    (h : Outcome v message v' replies) (hfits : Fits v message) : Bounded v' := by
  intro id state hlive
  rcases live_cases h htracked hlive with
    ⟨hbefore, -, -⟩ | ⟨path, size, -, rfl, -, -⟩ |
      ⟨chunk, before, hmessage, rfl, hbefore, hseq, rfl, -⟩
  · exact hbounded id state hbefore
  · exact inBounds_zero size
  · exact (hfits chunk before hmessage hbefore hseq).1

theorem Sized.of_fits (hbounded : Bounded v) (htracked : Tracked chunks v)
    (htracked' :
      Tracked (fun id => collect id (message.map UploadMsg.request) replies (chunks id)) v')
    (hcounted : Counted declared v) (h : Outcome v message v' replies) (hfits : Fits v message) :
    Sized (fun id => declare id message replies (declared id)) v message v' replies := by
  have hcounted' := hcounted.step htracked h
  refine ⟨fun id state hlive => ?_, fun id dest hsent => ?_, fun id state => ended_cases h⟩
  · obtain ⟨content, hcontent, hlength⟩ := file_length htracked' hcounted' hlive
    refine ⟨_, content, hcounted'.declared id state hlive, hcontent, ?_⟩
    rw [hlength]
    exact hbounded.step htracked h hfits id state hlive
  · obtain ⟨chunk, state, rfl, rfl, hlast, hlive, hseq, hfiles⟩ := completed_cases h hsent
    obtain ⟨content, hcontent, hlength⟩ := written_length htracked hcounted hlive chunk
    obtain ⟨⟨hmax, -⟩, htotal⟩ := hfits chunk state rfl hlive hseq
    refine ⟨state, _, content, hlive, hcounted.declared _ state hlive, ?_, ?_, ?_⟩
    · rw [hfiles]
      exact hcontent
    · rw [hlength]
      exact hmax
    · rw [hlength]
      exact htotal hlast

theorem Sized.fits (htracked : Tracked chunks v) (hcounted : Counted declared v)
    (h : Outcome v message v' replies)
    (hsized : Sized (fun id => declare id message replies (declared id)) v message v' replies) :
    Fits v message := by
  rintro chunk state rfl hlive hseq
  obtain ⟨content, hcontent, hlength⟩ := written_length htracked hcounted hlive chunk
  have hdeclared := hcounted.declared _ state hlive
  cases h with
  | silent _ _ hunknown =>
      have hnone : v.transfers.lookup chunk.id = none := (hunknown _ rfl).1
      rw [hlive] at hnone
      cases hnone
  | failed hfound hne =>
      obtain rfl := Option.some.inj (hlive.symm.trans hfound)
      exact absurd hseq hne
  | appended hfound _ hlast =>
      obtain rfl := Option.some.inj (hlive.symm.trans hfound)
      obtain ⟨size, content', hsize, hcontent', hin⟩ :=
        hsized.live chunk.id (advance state chunk) (AList.lookup_insert _)
      obtain rfl := Option.some.inj (hdeclared.symm.trans hsize)
      obtain rfl := Option.some.inj (hcontent.symm.trans hcontent')
      rw [hlength] at hin
      exact ⟨hin, fun hflag => absurd hflag (by simp [hlast])⟩
  | completed hfound _ hlast =>
      obtain rfl := Option.some.inj (hlive.symm.trans hfound)
      obtain ⟨state', size, content', hlive', hsize, hcontent', hmax, htotal⟩ :=
        hsized.completed chunk.id _ (List.mem_singleton_self _)
      obtain rfl := Option.some.inj (hlive.symm.trans hlive')
      obtain rfl := Option.some.inj (hdeclared.symm.trans hsize)
      obtain rfl := Option.some.inj (hcontent.symm.trans hcontent')
      rw [hlength] at hmax htotal
      exact ⟨⟨hmax, fun hne => (htotal hne).le⟩, fun _ => htotal⟩

/-! ### Runs -/

/-- Uploads whose chunks all fit. -/
def fitting (crates : Crates) (cfg : Config) : System Session (Label × List Outgoing) :=
  (uploads crates cfg).restrict fun s entry _ => Fits (view s.st) (messageOf crates entry.1)

variable {crates : Crates} {cfg : Config} {s₀ s t : Session}
  {history : List (Label × List Outgoing)} {entry : Label × List Outgoing}

theorem declaredSince_step (crates : Crates) (history : List (Label × List Outgoing))
    (entry : Label × List Outgoing) :
    declaredSince crates (history ++ [entry]) = fun id =>
      declare id (messageOf crates entry.1) entry.2 (declaredSince crates history id) :=
  funext (declaredSince_snoc crates history entry)

theorem uploads_counted (hinit : (uploads crates cfg).init s₀)
    (hrun : (uploads crates cfg).Run s₀ history s) :
    Counted (declaredSince crates history) (view s.st) := by
  refine hrun.invariant (I := fun history s => Counted (declaredSince crates history) (view s.st))
    ⟨fun id state h => ?_, fun id state h => ?_⟩ fun history s entry t hbefore h hstep => ?_
  · rw [view, hinit.2] at h
    cases h
  · rw [view, hinit.2] at h
    cases h
  · obtain ⟨hauth, htracked⟩ := uploads_tracked hinit hbefore
    rw [declaredSince_step]
    exact h.step htracked (uploads_outcome hstep hauth)

theorem fitting_bounded (hinit : (uploads crates cfg).init s₀)
    (hrun : (fitting crates cfg).Run s₀ history s) : Bounded (view s.st) := by
  refine hrun.invariant (I := fun _ s => Bounded (view s.st)) (fun id state h => ?_)
    fun history s entry t hbefore h hstep => ?_
  · rw [view, hinit.2] at h
    cases h
  · obtain ⟨hauth, htracked⟩ := uploads_tracked hinit hbefore.of_restrict
    exact h.step htracked (uploads_outcome hstep.1 hauth) hstep.2

/-- After any run whose chunks all fit, a step is as it should be, the sizes of live and completed
transfers included, exactly when it fits too. -/
theorem sized_iff_fits (hinit : (uploads crates cfg).init s₀)
    (hrun : (fitting crates cfg).Run s₀ history s) (hstep : (uploads crates cfg).step s entry t) :
    Sized (declaredSince crates (history ++ [entry])) (view s.st) (messageOf crates entry.1)
        (view t.st) entry.2 ↔
      Fits (view s.st) (messageOf crates entry.1) := by
  obtain ⟨hauth, htracked⟩ := uploads_tracked hinit hrun.of_restrict
  have hcounted := uploads_counted hinit hrun.of_restrict
  have houtcome := uploads_outcome hstep hauth
  have htracked' := houtcome.reaction.tracked htracked
  rw [declaredSince_step]
  constructor
  · exact Sized.fits htracked hcounted houtcome
  · exact Sized.of_fits (fitting_bounded hinit hrun) htracked htracked' hcounted houtcome

/-! ### Two bytes, of two and of five -/

/-- The phone's begin declares `size` bytes. -/
def begins (size : UInt64) : Crates :=
  parsesTo (.fileTransferBegin 7 "a.txt" size)

def begun (size : UInt64) : Session :=
  undisturbed (begins size) bareConfig (.inbox (some (.text "begin"))) smoothAnswers uploadStart

def twoBytes : FileChunk :=
  ⟨7, 0, true, [104, 105]⟩

def chunkEvent : Event :=
  .inbox (some (.binary (buildFileChunkFrame 7 0 true [104, 105])))

theorem smoothAnswers_smooth : Smooth smoothAnswers :=
  ⟨⟨_, rfl⟩, fun _ => rfl, rfl, rfl, rfl, fun _ => rfl⟩

theorem begun_step {size : UInt64} (hsize : size = 2 ∨ size = 5) : ∃ entry,
    (fitting (begins size) bareConfig).step uploadStart entry (begun size) := by
  obtain ⟨trace, hbegin⟩ : ∃ trace, Step (begins size) bareConfig uploadStart
      (.taken (.inbox (some (.text "begin"))) smoothAnswers trace) (begun size) := by
    rcases hsize with rfl | rfl <;> exact exists_undisturbed rfl trivial rfl
  refine ⟨(_, [.msg (.fileTransferAccepted 7 "Downloads\\a.txt")]),
    ⟨hbegin, ⟨smoothAnswers_smooth, .inl ⟨_, _, _, rfl⟩⟩, ?_⟩, ?_⟩
  · rcases hsize with rfl | rfl <;> rfl
  · rintro chunk state ⟨⟩

theorem chunk_step {size : UInt64} (hsize : size = 2 ∨ size = 5) : ∃ trace t,
    (uploads (begins size) bareConfig).step (begun size)
      (.taken chunkEvent smoothAnswers trace,
        [.msg (.fileTransferComplete 7 "Downloads\\a.txt")]) t := by
  obtain ⟨trace, hchunk⟩ : ∃ trace, Step (begins size) bareConfig (begun size)
      (.taken chunkEvent smoothAnswers trace) _ := by
    refine exists_undisturbed rfl trivial ?_
    rcases hsize with rfl | rfl <;> decide +kernel
  refine ⟨trace, _, hchunk, ⟨smoothAnswers_smooth, trivial⟩, ?_⟩
  dsimp only
  rcases hsize with rfl | rfl <;> decide +kernel

theorem begun_transfer {size : UInt64} (hsize : size = 2 ∨ size = 5) :
    ∃ state, (view (begun size).st).transfers.lookup 7 = some state ∧
      state.bytesWritten = 0 ∧ state.expectedSize = size ∧ state.nextExpectedSeq = 0 := by
  have hlookup : ((view (begun size).st).transfers.lookup 7).map
      (fun state => (state.bytesWritten, state.expectedSize, state.nextExpectedSeq)) =
        some (0, size, 0) := by
    rcases hsize with rfl | rfl <;> decide +kernel
  obtain ⟨state, hstate, heq⟩ := Option.map_eq_some_iff.mp hlookup
  obtain ⟨hwritten, hexpected, hseq⟩ : state.bytesWritten = 0 ∧ state.expectedSize = size ∧
      state.nextExpectedSeq = 0 := by
    simpa using heq
  exact ⟨state, hstate, hwritten, hexpected, hseq⟩

theorem fits_two : Fits (view (begun 2).st) (some (.chunk twoBytes)) := by
  obtain ⟨before, hbefore, hwritten, hexpected, -⟩ := begun_transfer (.inl rfl)
  rintro chunk state ⟨⟩ hlive _
  obtain rfl := Option.some.inj (hbefore.symm.trans hlive)
  rw [hwritten, hexpected]
  exact ⟨⟨by decide, fun _ => by decide⟩, fun _ _ => by decide⟩

theorem not_fits_five : ¬Fits (view (begun 5).st) (some (.chunk twoBytes)) := by
  obtain ⟨before, hbefore, hwritten, hexpected, hseq⟩ := begun_transfer (.inr rfl)
  intro hfits
  have htotal := (hfits twoBytes before rfl hbefore hseq.symm).2 rfl
  rw [hwritten, hexpected] at htotal
  exact absurd (htotal (by decide)) (by decide)

/-- Two bytes are declared and arrive: the transfer is complete. -/
theorem sized_iff_fits_two : ∃ (history : List (Label × List Outgoing)) (trace : List (St × St))
    (t : Session),
    Sized (declaredSince (begins 2) history) (view (begun 2).st)
      (messageOf (begins 2) (.taken chunkEvent smoothAnswers trace)) (view t.st)
      [.msg (.fileTransferComplete 7 "Downloads\\a.txt")] := by
  obtain ⟨entry, hbegin⟩ := begun_step (.inl rfl)
  obtain ⟨trace, t, hchunk⟩ := chunk_step (.inl rfl)
  refine ⟨[entry] ++ [_], trace, t, (sized_iff_fits ⟨rfl, rfl⟩ (.single hbegin) hchunk).mpr ?_⟩
  exact fits_two

/-- Five bytes are declared, two arrive, and the PC reports the transfer complete. -/
theorem premature_last_chunk_completes :
    ¬∀ (crates : Crates) (cfg : Config) (s₀ s t : Session) (history : List (Label × List Outgoing))
        (entry : Label × List Outgoing),
      (uploads crates cfg).init s₀ → (uploads crates cfg).Run s₀ history s →
      (uploads crates cfg).step s entry t →
      Sized (declaredSince crates (history ++ [entry])) (view s.st) (messageOf crates entry.1)
        (view t.st) entry.2 := by
  intro hclaim
  obtain ⟨entry, hbegin⟩ := begun_step (.inr rfl)
  obtain ⟨trace, t, hchunk⟩ := chunk_step (.inr rfl)
  have hinit : (uploads (begins 5) bareConfig).init uploadStart := ⟨rfl, rfl⟩
  have hrun := Run.single hbegin.1
  obtain ⟨hauth, htracked⟩ := uploads_tracked hinit hrun
  have hsized := hclaim _ _ _ _ _ _ _ hinit hrun hchunk
  rw [declaredSince_step] at hsized
  exact not_fits_five (hsized.fits htracked (uploads_counted hinit hrun)
    (uploads_outcome hchunk hauth))

end RemoteControl.Server.UploadSizes
