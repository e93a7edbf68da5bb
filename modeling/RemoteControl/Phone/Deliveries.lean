import Mathlib.Tactic.DeriveCountable
import RemoteControl.Foundations.Texts
import RemoteControl.Phone.FileLink

/-!
What has arrived at the phone of the files that the PC sends: which downloads are under way, what
is on disk of those it has reported complete, and what may be left open.
-/

namespace RemoteControl.Phone.Deliveries

open RemoteControl.Foundations.ByteStrings
open RemoteControl.Foundations.Fifo
open RemoteControl.Foundations.Texts
open RemoteControl.Foundations.Transition
open RemoteControl.Phone.Client
open RemoteControl.Phone.Client.ConnectionClient
open RemoteControl.Phone.DownloadNames
open RemoteControl.Phone.Downloads
open RemoteControl.Phone.FileLink
open RemoteControl.Phone.Frame
open RemoteControl.Phone.Messages
open RemoteControl.Phone.Receipts
open RemoteControl.Phone.Vocabulary
open RemoteControl.Server.Outbound
open RemoteControl.Server.WireOrder (Writer toMessage)
open RemoteControl.Server.WriterPasses (handle enqueue_self enqueue_ne enqueue_arm)
open RemoteControl.Wire.Protocol (Message FileChunk buildFileChunkFrame)
open RemoteControl.Wire.Serde

/-! ### What the phone has heard -/

/-- A download that is under way at the phone has had its chunks one after the other, or its
first one came before the announcement and is lost. -/
inductive Receiving (d : Directory) : List DownloadMsg → IncomingFile → Prop
  | inStep {fileBegin : FileSendBegin} {st : IncomingFile} (got : List VideoFrame) :
      (∀ frame ∈ got, frame.isKeyframe = false) → st.nextSeq = Int32.ofNat got.length →
      held d st.out = payloads got →
      Receiving d (.announce fileBegin :: got.map .chunk) st
  | overtaken {fileBegin : FileSendBegin} {st : IncomingFile} (early : VideoFrame) :
      st.nextSeq = 0 → Receiving d [.chunk early, .announce fileBegin] st

/-- The phone's end: its downloads are those of the PC, and what it has reported is there. -/
structure Received (platform : Platform) (ws : Nat) (s : Link) : Prop where
  separate : Separate s.phone
  receiving : ∀ id st, underWay s.phone id = some st → ∃ u ∈ s.senders, u.key = id ∧
    Receiving s.phone.directory (about platform id s.wire.taken) st
  reported : ∀ id path, (id, path) ∈ completions ws s.phone → ∃ u ∈ s.senders,
    SameInt u.id id ∧ Shelved s.phone path u.content ∧ underWay s.phone id = none ∧
      ∃ fileBegin, .announce fileBegin ∈ about platform id s.wire.taken
  once : ((completions ws s.phone).map Prod.fst).Nodup

theorem Receiving.announced {d : Directory} {heard : List DownloadMsg} {st : IncomingFile}
    (h : Receiving d heard st) : ∃ fileBegin, .announce fileBegin ∈ heard := by
  cases h with
  | inStep => exact ⟨_, List.mem_cons_self⟩
  | overtaken => exact ⟨_, List.mem_cons_of_mem _ List.mem_cons_self⟩

theorem Receiving.congr {d d' : Directory} {heard : List DownloadMsg} {st : IncomingFile}
    (h : Receiving d heard st) (hheld : held d' st.out = held d st.out) :
    Receiving d' heard st := by
  cases h with
  | inStep got hnone hnext hgot => exact .inStep got hnone hnext (hheld.trans hgot)
  | overtaken early hnext => exact .overtaken early hnext

section

variable {platform : Platform} {json : Wire.Protocol.ServerMsg → String} {writer : Writer}
  {ws : Nat} {s t : Link}

/-- Every task is still there. -/
def Remain (s t : Link) : Prop :=
  ∀ u ∈ s.senders, ∃ u' ∈ t.senders, u'.id = u.id ∧ u'.content = u.content

theorem Received.mono (h : Received platform ws s) (hremain : Remain s t)
    (hdrops : Drops s.phone t.phone)
    (hheard : ∀ id st, underWay t.phone id = some st →
      about platform id t.wire.taken = about platform id s.wire.taken)
    (hmore : ∀ id, about platform id s.wire.taken ⊆ about platform id t.wire.taken) :
    Received platform ws t := by
  refine ⟨hdrops.separate, fun id st hst => ?_, fun id path hmem => ?_, ?_⟩
  · obtain ⟨hst', hheld⟩ := hdrops.kept id st hst
    obtain ⟨u, hu, hkey, hreceiving⟩ := h.receiving id st hst'
    obtain ⟨u', hu', hid, -⟩ := hremain u hu
    refine ⟨u', hu', (key_inj.mpr hid).trans hkey, ?_⟩
    rw [hheard id st hst]
    exact hreceiving.congr hheld
  · rw [hdrops.completions] at hmem
    obtain ⟨u, hu, hsame, hshelved, hnone, fileBegin, hannounced⟩ := h.reported id path hmem
    obtain ⟨u', hu', hid, hcontent⟩ := hremain u hu
    refine ⟨u', hu', hid ▸ hsame, hcontent ▸ hdrops.shelved _ _ hshelved, ?_, fileBegin,
      hmore id hannounced⟩
    cases hst : underWay t.phone id with
    | none => rfl
    | some st =>
        rw [(hdrops.kept id st hst).1] at hnone
        cases hnone
  · rw [hdrops.completions]
    exact h.once

theorem remain_refl (s : Link) : Remain s s :=
  fun u hu => ⟨u, hu, rfl, rfl⟩

theorem Received.remain (h : Received platform ws s) (hremain : Remain s t)
    (hphone : t.phone = s.phone) (hwire : t.wire.taken = s.wire.taken) :
    Received platform ws t := by
  refine h.mono hremain ?_ (fun id st _ => by rw [hwire]) fun id => ?_
  · rw [hphone]
    exact (Quiet.refl _).drops h.separate
  · rw [hwire]
    exact fun d hd => hd

variable {os : Answers} {m : Message} {wire : Queue Message} {phone : ConnectionClient}

theorem Received.heard_drops (h : Received platform ws s) (hpop : s.wire.pop? = some (m, wire))
    (hdrops : Drops s.phone phone)
    (hended : ∀ d, said platform m = some d → underWay phone d.id = none) :
    Received platform ws { s with wire, phone } := by
  refine h.mono (remain_refl s) hdrops (fun id st hst => ?_) fun id d hd => ?_
  · show about platform id wire.taken = _
    rw [about_taken hpop]
    rcases about_cases id m with hnone | ⟨d, hsaid, rfl, -⟩
    · rw [hnone, List.append_nil]
    · have hst' : underWay phone d.id = some st := hst
      rw [hended d hsaid] at hst'
      cases hst'
  · show d ∈ about platform id wire.taken
    rw [about_taken hpop]
    exact List.mem_append_left _ hd

theorem Received.quiet (h : Received platform ws s) (hquiet : Quiet s.phone phone) :
    Received platform ws { s with phone } :=
  h.mono (remain_refl s) (hquiet.drops h.separate) (fun _ _ _ => rfl) fun _ _ hd => hd

theorem uniqueDestFile_free {d : Directory} (hnew : NewUuid os d) (name : String) :
    d.entry (uniqueDestFile os d name) = none := by
  have hfree : d.exists_ (uniqueDestFile os d name) = false := by
    rcases uniqueDestFile_cases os d name with ⟨hfree, -⟩ | ⟨-, hlast⟩
    · exact hfree
    · rw [hlast]
      exact hnew _
  simp only [Directory.exists_, Bool.or_eq_false_iff, Option.isSome_eq_false_iff,
    Option.isNone_iff_eq_none] at hfree
  exact hfree.2

theorem Received.announce (h : Received platform ws s) (hsound : Sound platform s)
    (hpop : s.wire.pop? = some (m, wire)) (hnew : NewUuid os s.phone.directory)
    {fileBegin : FileSendBegin} (hsaid : said platform m = some (.announce fileBegin)) :
    Received platform ws { s with wire, phone := s.phone.handleFileSendBegin os fileBegin } := by
  have hself : (DownloadMsg.announce fileBegin).id = fileBegin.id := rfl
  obtain ⟨u, hu, hkey, taken, left, hway, hprefix⟩ := hsound.heard hpop hsaid hself
  have hcourse := hway.course
  rw [hkey] at hcourse
  obtain ⟨-, hheard⟩ := hcourse.heard_announce hprefix
  have hbefore (other : FileSendBegin) :
      .announce other ∉ about platform fileBegin.id s.wire.taken := by
    rcases hheard with hnil | ⟨early, hearly⟩
    · rw [hnil]
      exact List.not_mem_nil
    · rw [hearly]
      simp
  have hnone : underWay s.phone fileBegin.id = none := by
    cases hst : underWay s.phone fileBegin.id with
    | none => rfl
    | some st =>
        obtain ⟨-, -, -, hreceiving⟩ := h.receiving _ st hst
        obtain ⟨other, hmem⟩ := hreceiving.announced
        exact absurd hmem (hbefore other)
  have hother {id : Int32} (hid : id ≠ fileBegin.id) :
      about platform id wire.taken = about platform id s.wire.taken := by
    rw [about_taken hpop, about_other hsaid hid, List.append_nil]
  rcases handleFileSendBegin_cases os (uniqueDestFile_free hnew fileBegin.name) with
    hquiet | ⟨dest, hbegun⟩
  · refine h.heard_drops hpop (hquiet.drops h.separate) fun d hd => ?_
    rw [hsaid] at hd
    cases hd
    rw [live_of_files hquiet.files]
    exact hnone
  · refine ⟨hbegun.separate h.separate, fun id st hst => ?_, fun id path hmem => ?_, ?_⟩
    · rcases hbegun.live_cases hst with ⟨rfl, rfl⟩ | ⟨hid, hst'⟩
      · refine ⟨u, hu, hkey, ?_⟩
        dsimp only
        rw [about_taken hpop, about_self hsaid hself]
        rcases hheard with hnil | ⟨early, hearly⟩
        · rw [hnil]
          exact .inStep [] (by simp) rfl hbegun.held
        · rw [hearly]
          exact .overtaken early rfl
      · obtain ⟨v, hv, hvkey, hreceiving⟩ := h.receiving id st hst'
        refine ⟨v, hv, hvkey, ?_⟩
        dsimp only
        rw [hother hid]
        exact hreceiving.congr (hbegun.other h.separate hst hid).2
    · rw [hbegun.completions] at hmem
      obtain ⟨v, hv, hsame, hshelved, hidle, other, hannounced⟩ := h.reported id path hmem
      have hid : id ≠ fileBegin.id := by
        rintro rfl
        exact hbefore other hannounced
      refine ⟨v, hv, hsame, hbegun.shelved hshelved, ?_, other, ?_⟩
      · dsimp only
        rw [hbegun.live, Function.update_of_ne hid]
        exact hidle
      · dsimp only
        rw [hother hid]
        exact hannounced
    · rw [hbegun.completions]
      exact h.once

theorem handleIncomingFileChunk_none {c : ConnectionClient} {frame : VideoFrame}
    (h : underWay c frame.transferId = none) : c.handleIncomingFileChunk os frame = c := by
  unfold handleIncomingFileChunk
  rw [underWay] at h
  rw [h]

/-- What is heard next is about this download. -/
structure Hears (platform : Platform) (s : Link) (wire : Queue Message) (id : Int32) : Prop where
  other : ∀ id' ≠ id, about platform id' wire.taken = about platform id' s.wire.taken
  more : ∀ id', about platform id' s.wire.taken ⊆ about platform id' wire.taken

theorem hears_of_said (hpop : s.wire.pop? = some (m, wire)) {d : DownloadMsg}
    (hsaid : said platform m = some d) : Hears platform s wire d.id := by
  refine ⟨fun id hid => ?_, fun id d' hd' => ?_⟩
  · rw [about_taken hpop, about_other hsaid hid, List.append_nil]
  · rw [about_taken hpop]
    exact List.mem_append_left _ hd'

variable {st : IncomingFile} {payload : Bytes} {out : OutStream}

theorem Received.idle (h : Received platform ws s) {path : String} {id : Int32}
    (hmem : (id, path) ∈ completions ws s.phone) (hst : underWay s.phone st.id = some st) :
    id ≠ st.id := by
  rintro rfl
  obtain ⟨-, -, -, -, hnone, -⟩ := h.reported _ path hmem
  rw [hst] at hnone
  cases hnone

theorem Received.took (h : Received platform ws s) (hst : underWay s.phone st.id = some st)
    (htook : Took st payload out s.phone phone) (hhears : Hears platform s wire st.id)
    {u : Sender} (hu : u ∈ s.senders) (hkey : u.key = st.id)
    (hreceiving : Receiving phone.directory (about platform st.id wire.taken)
      (st.wrote out payload)) : Received platform ws { s with wire, phone } := by
  refine ⟨htook.separate hst h.separate, fun id st' hst' => ?_, fun id path hmem => ?_, ?_⟩
  · by_cases hid : id = st.id
    · subst hid
      dsimp only at hst'
      rw [htook.live, Function.update_self] at hst'
      cases hst'
      exact ⟨u, hu, hkey, hreceiving⟩
    · obtain ⟨hst₀, hheld⟩ := htook.other hst h.separate hst' hid
      obtain ⟨v, hv, hvkey, hv'⟩ := h.receiving id st' hst₀
      refine ⟨v, hv, hvkey, ?_⟩
      dsimp only
      rw [hhears.other id hid]
      exact hv'.congr hheld
  · rw [htook.completions] at hmem
    have hid := h.idle hmem hst
    obtain ⟨v, hv, hsame, hshelved, hnone, b, hannounced⟩ := h.reported id path hmem
    refine ⟨v, hv, hsame, htook.shelved hst hshelved, ?_, b, hhears.more id hannounced⟩
    dsimp only
    rw [htook.live, Function.update_of_ne hid]
    exact hnone
  · rw [htook.completions]
    exact h.once

theorem Received.completed (h : Received platform ws s) (hst : underWay s.phone st.id = some st)
    (hcompleted : Completed st payload s.phone phone) (hhears : Hears platform s wire st.id)
    {u : Sender} (hu : u ∈ s.senders) (hsame : SameInt u.id st.id)
    (hcontent : held s.phone.directory st.out ++ payload = u.content)
    (hannounced : ∃ fileBegin, .announce fileBegin ∈ about platform st.id wire.taken) :
    Received platform ws { s with wire, phone } := by
  have hold {id : Int32} {path : String} (hmem : (id, path) ∈ completions ws s.phone) :
      ∃ v ∈ s.senders, SameInt v.id id ∧ Shelved phone path v.content ∧
        underWay phone id = none ∧ ∃ b, .announce b ∈ about platform id wire.taken := by
    have hid := h.idle hmem hst
    obtain ⟨v, hv, hvsame, hshelved, hnone, b, hannounced⟩ := h.reported id path hmem
    refine ⟨v, hv, hvsame, hcompleted.shelved hst hshelved, ?_, b, hhears.more id hannounced⟩
    rw [hcompleted.live, Function.update_of_ne hid]
    exact hnone
  refine ⟨hcompleted.separate h.separate, fun id st' hst' => ?_, fun id path hmem => ?_, ?_⟩
  · obtain ⟨hid, hst₀, hheld⟩ := hcompleted.other hst h.separate hst'
    obtain ⟨v, hv, hvkey, hv'⟩ := h.receiving id st' hst₀
    refine ⟨v, hv, hvkey, ?_⟩
    dsimp only
    rw [hhears.other id hid]
    exact hv'.congr hheld
  · rcases hcompleted.completions ws with heq | heq
    · exact hold (heq ▸ hmem)
    · dsimp only at hmem
      rw [heq, List.mem_append, List.mem_singleton] at hmem
      rcases hmem with hmem | hmem
      · exact hold hmem
      · cases hmem
        refine ⟨u, hu, hsame, ?_, ?_, hannounced⟩
        · rw [← hcontent]
          exact hcompleted.shelves hst h.separate
        · dsimp only
          rw [hcompleted.live]
          exact Function.update_self ..
  · rcases hcompleted.completions ws with heq | heq
    · dsimp only
      rw [heq]
      exact h.once
    · dsimp only
      rw [heq, List.map_append, List.nodup_append]
      refine ⟨h.once, List.nodup_singleton _, ?_⟩
      rintro id hid other hother rfl
      obtain ⟨⟨id, path⟩, hmem, rfl⟩ := List.mem_map.mp hid
      exact h.idle hmem hst (List.mem_singleton.mp hother)

theorem Received.chunk (h : Received platform ws s) (hsound : Sound platform s)
    (hpop : s.wire.pop? = some (m, wire)) {frame : VideoFrame}
    (hsaid : said platform m = some (.chunk frame)) :
    Received platform ws { s with wire, phone := s.phone.handleIncomingFileChunk os frame } := by
  cases hst : underWay s.phone frame.transferId with
  | none =>
      rw [handleIncomingFileChunk_none hst]
      refine h.heard_drops hpop ((Quiet.refl _).drops h.separate) fun d hd => ?_
      rw [hsaid] at hd
      cases hd
      exact hst
  | some st =>
      have hid : st.id = frame.transferId := h.separate.id _ st hst
      have hself : (DownloadMsg.chunk frame).id = st.id := hid.symm
      have hcases := handleIncomingFileChunk_cases os hst (h.separate.opened _ st hst)
      obtain ⟨-, -, -, hreceiving⟩ := h.receiving _ st hst
      rw [← hid] at hst hreceiving
      have hhears : Hears platform s wire st.id := hself ▸ hears_of_said hpop hsaid
      obtain ⟨u, hu, hkey, taken, left, hway, hprefix⟩ := hsound.heard hpop hsaid hself
      have hcourse := hway.course
      rw [hkey] at hcourse
      rcases hcases with hgivenUp | ⟨hseq, hcases⟩
      · refine h.heard_drops hpop (hgivenUp.drops hst h.separate) fun d hd => ?_
        rw [hsaid] at hd
        cases hd
        rw [hgivenUp.live, hself]
        exact Function.update_self ..
      · have hheard : about platform st.id wire.taken = _ := about_taken hpop st.id
        rw [about_self hsaid hself] at hheard
        generalize about platform st.id s.wire.taken = heard at hreceiving hprefix hheard
        cases hreceiving with
        | overtaken early hnext =>
            -- The lost chunk had number 0, which the phone still waits for.
            obtain ⟨later, rfl⟩ := hcourse.heard_late hprefix
            have hplace := (hway.sends.inPlace [early] frame (later ++ left) rfl).1
            rw [hseq, hnext] at hplace
            have hne : (0 : Int32) ≠ Int32.ofNat 1 := by decide
            exact absurd hplace hne
        | inStep got hnone hnext hgot =>
            obtain ⟨hsame, later, rfl⟩ := hcourse.heard_chunk hprefix
            have hplace := hway.sends.inPlace got frame (later ++ left) (by simp)
            rcases hcases with ⟨hlast, out, htook⟩ | ⟨hlast, hcompleted⟩
            · refine h.took hst htook hhears hu hkey ?_
              rw [hheard, List.cons_append, ← List.map_singleton, ← List.map_append]
              refine .inStep (got ++ [frame]) (fun frame' hmem => ?_) ?_ ?_
              · rcases List.mem_append.mp hmem with hmem | hmem
                · exact hnone frame' hmem
                · exact List.mem_singleton.mp hmem ▸ hlast
              · rw [List.length_append, List.length_singleton, Int32.ofNat_add, ← hnext]
                rfl
              · rw [payloads_concat, ← hgot]
                exact htook.held
            · have hannounced := (sameInt_toInt32 hsame).symm.trans hkey
              refine h.completed hst hcompleted hhears hu (hannounced ▸ hsame) ?_ ?_
              · rw [hgot]
                exact hplace.2 hlast
              · rw [hheard]
                exact ⟨_, List.mem_append_left _ List.mem_cons_self⟩

theorem Received.hear (h : Received platform ws s) (hsound : Sound platform s)
    (hpop : s.wire.pop? = some (m, wire)) (hnew : NewUuid os s.phone.directory)
    (hhear : hear platform os ws m s.phone = some phone) :
    Received platform ws { s with wire, phone } := by
  cases hsaid : said platform m with
  | none =>
      refine h.heard_drops hpop ((hear_quiet hsaid hhear).drops h.separate) fun d hd => ?_
      rw [hsaid] at hd
      cases hd
  | some d =>
      cases d with
      | announce fileBegin =>
          obtain ⟨c, hquiet, rfl⟩ := hear_announce hsaid hhear
          have hsound' : Sound platform { s with phone := c } :=
            hsound.congr rfl rfl rfl rfl fun _ hm => hm
          have hnew' : NewUuid os c.directory := by
            rw [directory_of_files hquiet.files]
            exact hnew
          exact (h.quiet hquiet).announce hsound' hpop hnew' hsaid
      | chunk frame =>
          obtain ⟨c, hquiet, rfl⟩ := hear_chunk hsaid hhear
          have hsound' : Sound platform { s with phone := c } :=
            hsound.congr rfl rfl rfl rfl fun _ hm => hm
          exact (h.quiet hquiet).chunk hsound' hpop hsaid

theorem leaving_drops {action : Action} {c c' : ConnectionClient} (hleaving : Leaving ws action)
    (h : Separate c) (hact : c.act platform os action = some c') : Drops c c' := by
  cases hleaving with
  | disconnect =>
      cases hact
      exact (disconnect_letGo os c).drops h
  | cancelDownload id =>
      cases hact
      exact cancelDownload_drops os id h
  | onClosing =>
      obtain ⟨-, phase, -, -, hcallback⟩ := deliver_eq_some.mp hact
      cases hcallback
      exact ((quiet_advance ws phase c).trans (quiet_close ws _)).drops h
  | onClosed reason =>
      obtain ⟨-, phase, -, -, hcallback⟩ := deliver_eq_some.mp hact
      cases hcallback
      have hquiet := quiet_advance ws phase c
      exact (onClosed_drops os ws reason (hquiet.separate h)).of_quiet hquiet
  | onFailure message =>
      obtain ⟨-, phase, -, -, hcallback⟩ := deliver_eq_some.mp hact
      have hquiet := quiet_advance ws phase c
      exact (onFailure_drops (hquiet.separate h) hcallback).of_quiet hquiet

/-! ### Every step -/

theorem Received.release (h : Received platform ws s) : Received platform ws s.release := by
  obtain ⟨heq, -, -⟩ := release_eq s
  rw [heq]
  exact h.remain (remain_refl s) rfl rfl

theorem flags_remain (s : Link) {f : Sender → Sender}
    (hf : ∀ u, f u = u ∨ f u = { u with cancel := true }) :
    Remain s { s with senders := s.senders.map f } := by
  intro u hu
  refine ⟨f u, List.mem_map_of_mem hu, ?_⟩
  rcases hf u with heq | heq
  · rw [heq]
    exact ⟨rfl, rfl⟩
  · rw [heq]
    exact ⟨rfl, rfl⟩

theorem step_keeps (hreads : ReadsText platform json) {act : Act}
    (hstep : LinkStep platform json writer ws s act t) (hsound : Sound platform s)
    (h : Received platform ws s) : Sound platform t ∧ Received platform ws t := by
  cases hstep with
  | dispatch _ hid hsize =>
      refine ⟨hsound.dispatch hreads _ hid hsize, h.remain (fun u hu => ?_) ?_ ?_⟩
      · refine ⟨u, ?_, rfl, rfl⟩
        unfold Link.dispatch
        rw [push_eq]
        exact List.mem_append_left _ hu
      · unfold Link.dispatch
        rw [push_eq]
      · unfold Link.dispatch
        rw [push_eq]
  | @cancel id =>
      have hf (u : Sender) : (if u.id = id then { u with cancel := true } else u) = u ∨
          (if u.id = id then { u with cancel := true } else u) = { u with cancel := true } := by
        split
        · exact .inr rfl
        · exact .inl rfl
      exact ⟨hsound.flags hf, h.remain (flags_remain s hf) rfl rfl⟩
  | @sender before after u u' event lanes hsplit hact =>
      refine ⟨(hsound.sender hsplit hact).release, Received.release ?_⟩
      refine h.remain (fun v hv => ?_) rfl rfl
      obtain ⟨taken, left, hway⟩ := hsound.ways u (hsplit ▸ by simp)
      obtain ⟨hid, hcontent, -⟩ := act_sends platform hway.sends hact
      rw [hsplit, List.mem_append, List.mem_cons] at hv
      rcases hv with hv | rfl | hv
      · exact ⟨v, by simp [hv], rfl, rfl⟩
      · exact ⟨u', by simp, hid, hcontent⟩
      · exact ⟨v, by simp [hv], rfl, rfl⟩
  | say _ hout =>
      refine ⟨hsound.push (said_other hreads hout), ?_⟩
      rw [push_eq]
      exact h.remain (remain_refl s) rfl rfl
  | offer _ hbuilt htype =>
      refine ⟨hsound.offer (said_built hbuilt htype), ?_⟩
      unfold Link.offer
      split
      · exact h.remain (remain_refl s) rfl rfl
      · exact h
  | drop hdrop =>
      unfold Link.drop at hdrop
      split at hdrop
      · cases hdrop
        have hsound' := hsound.congr (t := { s with dropped := 1 }) rfl rfl rfl rfl fun _ hm => hm
        refine ⟨hsound'.release, Received.release ?_⟩
        exact h.remain (remain_refl s) rfl rfl
      · cases hdrop
        exact ⟨hsound.congr rfl rfl rfl rfl fun _ hm => hm, h.remain (remain_refl s) rfl rfl⟩
      · cases hdrop
        exact ⟨hsound.congr rfl rfl rfl rfl fun _ hm => hm, h.remain (remain_refl s) rfl rfl⟩
      · cases hdrop
  | write =>
      obtain ⟨hsenders, hphone, hwire⟩ := write_eq writer s
      refine ⟨hsound.write writer, h.remain (fun u hu => ?_) hphone hwire⟩
      rw [hsenders]
      exact ⟨u, hu, rfl, rfl⟩
  | sinkFails =>
      exact ⟨hsound.congr rfl rfl rfl rfl fun _ hm => hm, h.remain (remain_refl s) rfl rfl⟩
  | hear hpop hnew hhear =>
      exact ⟨hsound.congr rfl rfl rfl (Queue.pop?_sent hpop) fun _ hm => hm,
        h.hear hsound hpop hnew hhear⟩
  | @watch os before after m phone hsplit hhear =>
      have hsaid := hsound.frames m (hsplit ▸ by simp)
      have hquiet := h.quiet (hear_quiet hsaid hhear)
      refine ⟨hsound.congr rfl rfl rfl rfl fun m' hm' => ?_,
        hquiet.remain (remain_refl _) rfl rfl⟩
      rw [hsplit]
      exact (List.sublist_cons_self m after).append_left before |>.subset hm'
  | @lose before after m hsplit =>
      refine ⟨hsound.congr rfl rfl rfl rfl fun m' hm' => ?_, h.remain (remain_refl s) rfl rfl⟩
      rw [hsplit]
      exact (List.sublist_cons_self m after).append_left before |>.subset hm'
  | phone hleaving hact =>
      refine ⟨hsound.congr rfl rfl rfl rfl fun _ hm => hm, ?_⟩
      exact h.mono (remain_refl s) (leaving_drops hleaving h.separate hact) (fun _ _ _ => rfl)
        fun _ _ hd => hd

theorem init_keeps (h : (link platform json writer ws).init s) :
    Sound platform s ∧ Received platform ws s := by
  obtain ⟨hs, hempty, hnone⟩ := h
  have hidle (id : Int32) (st : IncomingFile) (hst : underWay s.phone id = some st) : False := by
    rw [underWay, hempty, AList.lookup_empty] at hst
    cases hst
  have hsound : Sound platform ({ phone := s.phone } : Link) :=
    ⟨List.nodup_nil, fun _ _ => ⟨rfl, rfl, rfl, rfl⟩, fun _ hu => absurd hu List.not_mem_nil,
      fun _ hm => absurd hm List.not_mem_nil, fun _ hm => absurd hm List.not_mem_nil⟩
  refine ⟨hs ▸ hsound, ⟨?_, fun id st hst => (hidle id st hst).elim, fun id path hmem => ?_, ?_⟩⟩
  · exact ⟨fun id st hst => (hidle id st hst).elim, fun id st hst => (hidle id st hst).elim,
      fun id st hst => (hidle id st hst).elim, fun id st hst => (hidle id st hst).elim,
      fun id st _ _ hst => (hidle id st hst).elim⟩
  · rw [hnone] at hmem
    cases hmem
  · rw [hnone]
    exact List.nodup_nil

theorem reachable_keeps (hreads : ReadsText platform json)
    (h : (link platform json writer ws).Reachable s) :
    Sound platform s ∧ Received platform ws s :=
  h.invariant (fun _ hinit => init_keeps hinit)
    fun _ _ _ _ hkeeps hstep => step_keeps hreads hstep hkeeps.1 hkeeps.2

/-- The message reports this download complete. -/
def reports (id : Int32) : ClientMsg → Bool
  | .fileSendComplete id' _ => id' = id
  | _ => false

theorem countP_reports (id : Int32) {socket : Socket}
    (hsocket : s.phone.sockets[ws]? = some socket) :
    socket.sent.countP (reports id) = ((completions ws s.phone).map Prod.fst).count id := by
  unfold completions
  rw [hsocket]
  dsimp only
  induction socket.sent with
  | nil => rfl
  | cons msg rest ih =>
      cases msg with
      | fileSendComplete id' destPath =>
          simp only [List.filterMap_cons, List.map_cons, List.count_cons, List.countP_cons, ih,
            reports, beq_iff_eq, decide_eq_true_eq]
      | _ =>
          simp only [List.filterMap_cons, List.countP_cons, ih, reports]
          rfl

/-- Whatever is cancelled, lost or overtaken on the way, and however it is interleaved: a
download that the phone has reported complete is one of the PC, was reported once, and its file
holds exactly the bytes of the spool file. -/
theorem downloads_delivered (hreads : ReadsText platform json)
    (h : (link platform json writer ws).Reachable s) {socket : Socket}
    (hsocket : s.phone.sockets[ws]? = some socket) {id : Int32} {destPath : String}
    (hsent : .fileSendComplete id destPath ∈ socket.sent) :
    (∃ u ∈ s.senders, SameInt u.id id ∧ ∃ name,
        destPath = s.phone.directory.absolutePath name ∧
          s.phone.directory.read name = some u.content) ∧
      socket.sent.countP (reports id) = 1 := by
  obtain ⟨-, hreceived⟩ := reachable_keeps hreads h
  have hmem : (id, destPath) ∈ completions ws s.phone := by
    unfold completions
    rw [hsocket]
    exact List.mem_filterMap.mpr ⟨_, hsent, rfl⟩
  constructor
  · obtain ⟨u, hu, hsame, ⟨name, file, hpath, hentry, hcontent, -⟩, -⟩ :=
      hreceived.reported id destPath hmem
    refine ⟨u, hu, hsame, name, hpath, ?_⟩
    rw [Directory.read, hentry]
    exact congrArg some hcontent
  · rw [countP_reports id hsocket]
    exact List.count_eq_one_of_mem hreceived.once (List.mem_map_of_mem hmem)

/-- Once all has arrived, a download that is still open at the phone is one whose task has sent
no last chunk, or whose first chunk overtook the announcement and was the only one. -/
theorem open_downloads (hreads : ReadsText platform json)
    (h : (link platform json writer ws).Reachable s)
    (hcontrol : (s.lanes.queue .control).waiting = [])
    (hbulk : (s.lanes.queue .bulk).waiting = []) (hwire : s.wire.waiting = [])
    {id : Int32} {st : IncomingFile} (hst : s.phone.incomingFiles.lookup id = some st) :
    ∃ u ∈ s.senders, SameInt u.id id ∧
      ((∀ frame, .chunk frame ∈ about platform id (s.lanes.queue .bulk).sent →
          frame.isKeyframe = false) ∨
        ∃ early fileBegin,
          about platform id s.wire.sent = [.chunk early, .announce fileBegin]) := by
  obtain ⟨hsound, hreceived⟩ := reachable_keeps hreads h
  obtain ⟨u, hu, rfl, hreceiving⟩ := hreceived.receiving id st hst
  obtain ⟨taken, left, -, htook, -, hcourse⟩ := hsound.ways u hu
  have hall : s.wire.sent = s.wire.taken := by
    rw [Queue.sent, hwire, List.append_nil]
  have hpushed : (s.lanes.queue .bulk).sent = (s.lanes.queue .bulk).taken := by
    rw [Queue.sent, hbulk, List.append_nil]
  rw [hall, hcontrol] at hcourse
  rw [hall, hpushed, htook]
  generalize about platform u.key s.wire.taken = heard at hcourse hreceiving
  refine ⟨u, hu, ?_⟩
  cases hreceiving with
  | inStep got hnone _ _ =>
      obtain ⟨hsame, rfl⟩ := hcourse.heard_all
      refine ⟨hsame, .inl fun frame hmem => ?_⟩
      obtain ⟨_, hgot, hframe⟩ := List.mem_map.mp hmem
      cases hframe
      exact hnone frame hgot
  | overtaken early _ => exact ⟨hcourse.heard_behind, .inr ⟨early, _, rfl⟩⟩

end

/-! ### One download -/

section

deriving instance Countable for Wire.Protocol.ServerInfo, Wire.Protocol.AudioMetadata,
  Wire.Protocol.ErrorCode, Wire.Protocol.StreamStopReason, Wire.Protocol.StreamStarted,
  Wire.Protocol.ServerMsg

theorem exists_serverTexts : ∃ (platform : Platform) (json : Wire.Protocol.ServerMsg → String),
    ReadsText platform json := by
  obtain ⟨json, read, hread⟩ := exists_text Wire.Protocol.ServerMsg
  let decodeServerMsg : String → Option ServerMsg := fun text =>
    (read text).bind fun msg => serverMsgOfJson (serverMsgToJson msg)
  refine ⟨{ DownloadLedger.receiving with decodeServerMsg }, json, fun msg => ?_⟩
  show (read (json msg)).bind _ = _
  rw [hread, Option.bind_some]

/-- The client after it has dialled and the socket was opened. -/
def openedOffice : ConnectionClient :=
  { DownloadLedger.dialledOffice with
    sockets := [{ url := DownloadLedger.office.wsUrl, phase := .opened }] }

theorem newUuid_of_noDash {d : Directory} (h : ∀ name, '-' ∈ name.toList → d.entry name = none)
    (os : Answers) : NewUuid os d := by
  intro name
  have hdash : '-' ∈ (lastResort os name).toList := by
    simp [lastResort, toString]
  have hne (other : String) (hother : '-' ∉ other.toList) : lastResort os name ≠ other := by
    rintro heq
    exact hother (heq ▸ hdash)
  rw [Directory.exists_, h _ hdash]
  simp [hne "" (by decide), hne "." (by decide), hne ".." (by decide)]

/-- Two bytes in one chunk, which is the last. -/
def twoBytes : FileChunk :=
  { id := 1, seq := 0, isLast := true, payload := [104, 105] }

/-- The phone after the announcement, and after the chunk. -/
def begun : ConnectionClient :=
  (openedOffice.advance 0 .opened).handleFileSendBegin {} ⟨1, "a.txt", 2⟩

def finished : ConnectionClient :=
  (begun.advance 0 .opened).onBinary {}
    (buildFileChunkFrame twoBytes.id twoBytes.seq twoBytes.isLast twoBytes.payload)

theorem hear_begin {platform : Platform} {json : Wire.Protocol.ServerMsg → String}
    (hreads : ReadsText platform json) :
    hear platform {} 0 (toMessage json (.msg (.fileSendBegin 1 "a.txt" 2))) openedOffice =
      some begun := by
  have hread : platform.decodeServerMsg (json (.fileSendBegin 1 "a.txt" 2)) =
      some (.fileSendBegin ⟨1, "a.txt", 2⟩) :=
    (hreads _).trans (serverMsgOfJson_iff.mpr (.fileSendBegin "a.txt" rfl rfl))
  refine deliver_eq_some.mpr ⟨_, .opened, rfl, rfl, ?_⟩
  show some (onText platform {} 0 (json (.fileSendBegin 1 "a.txt" 2)) _) = some begun
  unfold onText
  rw [hread]
  rfl

theorem hear_twoBytes (platform : Platform) :
    hear platform {} 0 (Sender.frame twoBytes) begun = some finished :=
  deliver_eq_some.mpr ⟨_, .opened, rfl, rfl, rfl⟩

theorem noDash_begun (name : String) (hname : '-' ∈ name.toList) :
    begun.directory.entry name = none := by
  have hne : name ≠ "a.txt" := by
    rintro rfl
    exact absurd hname (by decide)
  exact Function.update_of_ne hne _ _

def announcement (json : Wire.Protocol.ServerMsg → String) : Message :=
  toMessage json (.msg (.fileSendBegin 1 "a.txt" 2))

/-- The queues before the writer takes anything. -/
def pushed (json : Wire.Protocol.ServerMsg → String) : Lane → Queue Message :=
  (({} : Lanes).enqueue .control (announcement json) |>.enqueue .bulk
    (Sender.frame twoBytes)).queue

theorem write_message {s : Link} (m : Message) (rest : Queue Message)
    (hpop : (s.lanes.queue s.lanes.arm).pop? = some (m, rest)) (harm : s.lanes.arm ≠ .video)
    (hm : handle .lan m = .written) :
    s.write .lan =
      { s with lanes := after s.lanes s.lanes.arm rest, wire := s.wire.push m } := by
  unfold Link.write Lanes.poll
  rw [hpop]
  simp only [hm]
  cases hlane : s.lanes.arm with
  | video => exact absurd hlane harm
  | control | bulk => rfl

theorem write_pending {s : Link} (hempty : (s.lanes.queue s.lanes.arm).waiting = [])
    (hsender : s.lanes.hasSender s.lanes.arm = true) :
    s.write .lan = { s with lanes := { s.lanes with arm := s.lanes.arm.next } } := by
  unfold Link.write Lanes.poll
  rw [Queue.pop?_eq_none_iff.mpr hempty]
  simp only [hsender, if_true]

section

variable (platform : Platform) (json : Wire.Protocol.ServerMsg → String)

theorem exists_pushed :
    ∃ s u, (link platform json .lan 0).Reachable s ∧ s.writing = true ∧
      s.lanes = { queue := pushed json } ∧ s.wire = {} ∧ s.phone = openedOffice ∧
      s.senders = [u] ∧ u.content = [104, 105] := by
  let system := link platform json .lan 0
  have thread {s : Link} {u u' : Sender} {lanes : Lanes} (event : SenderEvent)
      (hs : system.Reachable s) (hu : s.senders = [] ++ u :: [])
      (hact : u.act s.writing s.lanes event = some (lanes, u')) :
      system.Reachable { s with lanes, senders := [u'] }.release :=
    .step hs (.sender hu hact)
  have hstart : system.Reachable { phone := openedOffice } := .init ⟨rfl, rfl, rfl⟩
  have hsent := hstart.step
    (show LinkStep platform json .lan 0 _ (.dispatch 1 "a.txt" 2 [104, 105]) _ from
      .dispatch rfl List.not_mem_nil rfl)
  have hopened := thread .opened hsent rfl rfl
  have hchecked := thread .checked hopened rfl rfl
  have hread := thread (.read 2) hchecked rfl rfl
  have hpushed := thread .sent hread rfl rfl
  exact ⟨_, _, hpushed, rfl, rfl, rfl, rfl, rfl, rfl⟩

theorem exists_written :
    ∃ s u, (link platform json .lan 0).Reachable s ∧
      s.wire = { waiting := [announcement json, Sender.frame twoBytes] } ∧
      s.phone = openedOffice ∧ s.senders = [u] ∧ u.content = [104, 105] := by
  obtain ⟨⟨_, lanes, _, _, wire, _, _⟩, u, hs, hwriting, hlanes, hwire, hphone, hsenders,
    hcontent⟩ := exists_pushed platform json
  dsimp only at hwriting hlanes hwire
  subst hwriting hlanes hwire
  have write {s : Link} (hs : (link platform json .lan 0).Reachable s)
      (hwriting : s.writing = true) : (link platform json .lan 0).Reachable (s.write .lan) :=
    .step hs (.write hwriting)
  have hannounced := write hs rfl
  rw [write_message (announcement json) { taken := [announcement json] } rfl
    (show Lane.control ≠ .video by decide) rfl] at hannounced
  have hnone := write hannounced rfl
  rw [write_pending rfl rfl] at hnone
  have hneither := write hnone rfl
  rw [write_pending rfl rfl] at hneither
  have hwritten := write hneither rfl
  rw [write_message (Sender.frame twoBytes) { taken := [Sender.frame twoBytes] } rfl
    (show Lane.bulk ≠ .video by decide) rfl] at hwritten
  exact ⟨_, u, hwritten, rfl, hphone, hsenders, hcontent⟩

end

theorem downloads_delivered_two_bytes :
    ∃ s : Link, s.phone.directory.read "a.txt" = some [104, 105] := by
  obtain ⟨platform, json, hreads⟩ := exists_serverTexts
  obtain ⟨s, u, hs, hwire, hphone, hsenders, hcontent⟩ := exists_written platform json
  have hpop : s.wire.pop? = some (announcement json,
      { taken := [announcement json], waiting := [Sender.frame twoBytes] }) := by
    rw [hwire]
    rfl
  have hbegun := hs.step (.hear hpop (hphone ▸ newUuid_of_noDash (fun _ _ => rfl) {})
    (hphone ▸ hear_begin hreads))
  have hfinished := hbegun.step (.hear rfl (newUuid_of_noDash noDash_begun {})
    (hear_twoBytes platform))
  have hcomplete : ∃ socket, finished.sockets[0]? = some socket ∧
      .fileSendComplete 1 "/Downloads/a.txt" ∈ socket.sent :=
    ⟨_, rfl, by decide +kernel⟩
  obtain ⟨socket, hsocket, hmem⟩ := hcomplete
  obtain ⟨⟨u', hu', -, name, hpath, hread⟩, -⟩ :=
    downloads_delivered hreads hfinished hsocket hmem
  have hu : u' = u := List.mem_singleton.mp (hsenders ▸ hu')
  have hname : name = "a.txt" := DownloadLedger.absolutePath_injective hpath.symm
  rw [hname, hu, hcontent] at hread
  exact ⟨_, hread⟩

/-- The browser cancels a download before its task has read anything. -/
theorem open_downloads_cancelled :
    ∃ (platform : Platform) (s : Link), ∃ u ∈ s.senders, SameInt u.id 1 ∧
      ((∀ frame, .chunk frame ∈ about platform 1 (s.lanes.queue .bulk).sent →
          frame.isKeyframe = false) ∨
        ∃ early fileBegin,
          about platform 1 s.wire.sent = [.chunk early, .announce fileBegin]) := by
  obtain ⟨platform, json, hreads⟩ := exists_serverTexts
  let system := link platform json .lan 0
  have hstart : system.Reachable { phone := openedOffice } := .init ⟨rfl, rfl, rfl⟩
  have hsent := hstart.step
    (show LinkStep platform json .lan 0 _ (.dispatch 1 "a.txt" 2 [104, 105]) _ from
      .dispatch rfl List.not_mem_nil rfl)
  have hcancelled := hsent.step (show LinkStep platform json .lan 0 _ (.cancel 1) _ from .cancel)
  have hopened := hcancelled.step (.sender (show _ = [] ++ _ :: [] from rfl)
    (show Sender.act _ _ _ .opened = some (_, _) from rfl))
  have hended := hopened.step (.sender (show _ = [] ++ _ :: [] from rfl)
    (show Sender.act _ _ _ .checked = some (_, _) from rfl))
  have hwritten := hended.step (.write rfl)
  have hbegun := hwritten.step (.hear rfl (newUuid_of_noDash (fun _ _ => rfl) {})
    (hear_begin hreads))
  have hst : begun.incomingFiles.lookup 1 =
      some (.begun ⟨1, "a.txt", 2⟩ "a.txt" 0) := rfl
  obtain ⟨u, hu, hsame, hopen⟩ := open_downloads hreads hbegun rfl rfl rfl hst
  exact ⟨platform, _, u, hu, hsame, hopen⟩

end

end RemoteControl.Phone.Deliveries
