import RemoteControl.Phone.Frame

/-!
The fallback of a QR payload over whole histories of dials and welcomes.
-/

namespace RemoteControl.Phone.Fallback

open RemoteControl.Foundations.ByteStrings
open RemoteControl.Foundations.Transition
open RemoteControl.Phone.Messages
open RemoteControl.Phone.Downloads
open RemoteControl.Phone.QrCode
open RemoteControl.Phone.Client
open RemoteControl.Phone.Client.ConnectionClient
open RemoteControl.Phone.Frame

/-! ### Histories -/

/-- Who made a dial: `connect` for a payload, called by the user interface or because the dial
of another socket failed, or `connectTrusted`. -/
inductive Origin where
  | connect (payload : QrPayload) (failed : Option Nat)
  | connectTrusted (server : TrustedServer)

inductive Event where
  | dialled (ws : Nat) (origin : Origin)
  | welcomed (ws : Nat)

/-- A payload is dialled because of a failed socket: the failed dial was that of a payload with
this fallback, it had not been welcomed, and nothing else was dialled because of it. -/
structure Justified (history : List Event) (payload : QrPayload) (failed : Nat) : Prop where
  primary : ∃ primary cause, .dialled failed (.connect primary cause) ∈ history ∧
    primary.fallback = some payload
  notWelcomed : Event.welcomed failed ∉ history
  once : ∀ ws other, Event.dialled ws (.connect other (some failed)) ∉ history

/-- Every dial that answers a failure is justified when it is made. -/
def Lawful (history : List Event) : Prop :=
  ∀ before after ws payload failed,
    history = before ++ .dialled ws (.connect payload (some failed)) :: after →
      Justified before payload failed

theorem lawful_nil : Lawful [] := by
  intro before after ws payload failed h
  simp at h

theorem lawful_concat_iff {history : List Event} {event : Event} :
    Lawful (history ++ [event]) ↔
      Lawful history ∧
        ∀ ws payload failed, event = .dialled ws (.connect payload (some failed)) →
          Justified history payload failed := by
  constructor
  · intro h
    constructor
    · intro before after ws payload failed hsplit
      exact h before (after ++ [event]) ws payload failed (by simp [hsplit])
    · rintro ws payload failed rfl
      exact h history [] ws payload failed rfl
  · rintro ⟨hlawful, hevent⟩ before after ws payload failed hsplit
    rcases List.eq_nil_or_concat' after with rfl | ⟨after, last, rfl⟩
    · obtain ⟨rfl, hlast⟩ := List.append_inj' hsplit rfl
      exact hevent ws payload failed (List.singleton_inj.mp hlast)
    · have hsplit' : history ++ [event] =
          (before ++ .dialled ws (.connect payload (some failed)) :: after) ++ [last] := by
        simpa using hsplit
      exact hlawful before after ws payload failed (List.append_inj' hsplit' rfl).1

theorem Lawful.append_quiet {history events : List Event} (h : Lawful history)
    (hquiet : ∀ ws origin, Event.dialled ws origin ∉ events) : Lawful (history ++ events) := by
  induction events using List.reverseRecOn with
  | nil => simpa using h
  | append_singleton events event ih =>
      rw [← List.append_assoc]
      refine lawful_concat_iff.mpr ⟨ih fun ws origin hmem => ?_, ?_⟩
      · exact hquiet ws origin (List.mem_append_left _ hmem)
      · rintro ws payload failed rfl
        exact absurd (List.mem_append_right _ (List.mem_singleton_self _)) (hquiet ws _)

/-! ### The client with its history -/

structure Traced where
  client : ConnectionClient
  history : List Event := []

/-- What a step adds to the history. A callback that leaves one more socket behind has dialled
the fallback. -/
def observe (platform : Platform) (c c' : ConnectionClient) : Action → Option Event
  | .connect payload _ => some (.dialled c.sockets.length (.connect payload none))
  | .connectTrusted server _ => some (.dialled c.sockets.length (.connectTrusted server))
  | .callback ws callback =>
      if c.sockets.length < c'.sockets.length then
        c.pendingFallback.map fun payload =>
          .dialled c.sockets.length (.connect payload (some ws))
      else
        match callback with
        | .onText text =>
            match platform.decodeServerMsg text with
            | some (.welcome welcome) =>
                if accepts platform c welcome then some (.welcomed ws) else none
            | _ => none
        | _ => none
  | _ => none

def traced (platform : Platform) : System Traced (Action × Answers) where
  init t := Fresh t.client ∧ t.history = []
  step t label t' :=
    (client platform).step t.client label t'.client ∧
      t'.history = t.history ++ (observe platform t.client t'.client label.1).toList

theorem exists_history {platform : Platform} {c : ConnectionClient}
    (hc : (client platform).Reachable c) :
    ∃ history, (traced platform).Reachable { client := c, history } := by
  induction hc with
  | init h => exact ⟨[], .init ⟨h, rfl⟩⟩
  | @step c c' label _ hstep ih =>
      obtain ⟨history, hreach⟩ := ih
      have hnext : (traced platform).step { client := c, history } label
          { client := c', history := history ++ (observe platform c c' label.1).toList } :=
        ⟨hstep, rfl⟩
      exact ⟨_, hreach.step hnext⟩

/-! ### What one step does -/

/-- A step without a dial. -/
structure Stays (t t' : Traced) : Prop where
  history : ∃ events, t'.history = t.history ++ events ∧
    ∀ ws origin, Event.dialled ws origin ∉ events
  sockets : t'.client.sockets.length = t.client.sockets.length
  webSocket : t'.client.webSocket = t.client.webSocket ∨ t'.client.webSocket = none
  pendingFallback : t'.client.pendingFallback = t.client.pendingFallback

/-- A step that dials. Only the failure of the current socket makes it dial the pending
fallback. -/
structure DialsAs (t : Traced) (action : Action) (t' : Traced) (origin : Origin) : Prop where
  history : t'.history = t.history ++ [.dialled t.client.sockets.length origin]
  sockets : t'.client.sockets.length = t.client.sockets.length + 1
  webSocket : t'.client.webSocket = some t.client.sockets.length
  fallback : ∀ payload cause, origin = .connect payload cause →
    t'.client.pendingFallback = payload.fallback
  failed : ∀ payload ws, origin = .connect payload (some ws) →
    (∃ message, action = .callback ws (.onFailure message)) ∧
      t.client.webSocket = some ws ∧ t.client.pendingFallback = some payload

theorem dialled_length {os : Answers} {url : String} {c c' : ConnectionClient}
    (h : Dialled os url c c') : c'.sockets.length = c.sockets.length + 1 := by
  rw [h.sockets, List.length_append, (disconnect_evolves os c).length]
  rfl

theorem stays_of_callback {platform : Platform} {ws : Nat} {callback : Callback} {os : Answers}
    {t t' : Traced} (hstep : (traced platform).step t (.callback ws callback, os) t')
    (hlength : t'.client.sockets.length = t.client.sockets.length)
    (hpending : pending t'.client = pending t.client ∨
      pending t'.client = { pending t.client with webSocket := none }) : Stays t t' := by
  refine ⟨⟨_, hstep.2, fun ws' origin hmem => ?_⟩, hlength, ?_, ?_⟩
  · simp only [observe, hlength, lt_irrefl, if_false, Option.mem_toList] at hmem
    split at hmem
    · split at hmem
      · split at hmem <;> simp at hmem
      · simp at hmem
    · simp at hmem
  · rcases hpending with h | h
    · exact .inl (congrArg Pending.webSocket h)
    · exact .inr (congrArg Pending.webSocket h)
  · rcases hpending with h | h
    · exact congrArg Pending.pendingFallback h
    · exact congrArg Pending.pendingFallback h

theorem dialsAs_of_onFailure {platform : Platform} {ws : Nat} {message : Option String}
    {os : Answers} {payload : QrPayload} {t t' : Traced}
    (hstep : (traced platform).step t (.callback ws (.onFailure message), os) t')
    (hcurrent : t.client.webSocket = some ws) (hpending : t.client.pendingFallback = some payload) :
    DialsAs t (.callback ws (.onFailure message)) t' (.connect payload (some ws)) := by
  obtain ⟨s, phase, -, -, hc'⟩ := deliver_eq_some.mp hstep.1
  have hadvance : (t.client.advance ws phase).webSocket = some ws := hcurrent
  rcases onFailure_cases hadvance hc' with ⟨hnone, -, -⟩ | ⟨fb, c₁, hfb, -, hlength, hconnect⟩
  · exact absurd (hpending.symm.trans hnone) (by simp)
  · obtain rfl := Option.some.inj (hpending.symm.trans hfb)
    obtain ⟨hdialled, -, hnew⟩ := connect_dialled hconnect
    rw [(advance_evolves ws phase t.client).length] at hlength
    have hgrows : t'.client.sockets.length = t.client.sockets.length + 1 := by
      rw [dialled_length hdialled, hlength]
    refine ⟨?_, hgrows, ?_, ?_, ?_⟩
    · rw [hstep.2]
      simp [observe, hgrows, hpending]
    · rw [hdialled.webSocket, hlength]
    · rintro _ _ ⟨⟩
      exact congrArg Pending.pendingFallback hnew
    · rintro _ _ ⟨⟩
      exact ⟨⟨message, rfl⟩, hcurrent, hpending⟩

theorem callback_cases {platform : Platform} {ws : Nat} {callback : Callback} {os : Answers}
    {t t' : Traced} (hstep : (traced platform).step t (.callback ws callback, os) t') :
    Stays t t' ∨ ∃ origin, DialsAs t (.callback ws callback) t' origin := by
  obtain ⟨s, phase, -, -, hc'⟩ := deliver_eq_some.mp hstep.1
  have hadvance := advance_messageStep ws phase t.client
  have hmessage (h : MessageStep (t.client.advance ws phase) t'.client) : Stays t t' :=
    stays_of_callback hstep (hadvance.trans h).sockets.length (.inl (hadvance.trans h).pending)
  cases callback with
  | onOpen =>
      have heq := Option.some.inj hc'
      refine .inl (stays_of_callback hstep ?_ (.inl ?_))
      · rw [← heq, (onOpen_evolves platform ws _).length, hadvance.sockets.length]
      · rw [← heq, onOpen_pending, hadvance.pending]
  | onText text =>
      have heq := Option.some.inj hc'
      exact .inl (hmessage (heq ▸ onText_step platform os ws text _))
  | onBinary bytes =>
      have heq := Option.some.inj hc'
      exact .inl (hmessage (heq ▸ onBinary_step os bytes _))
  | onClosing =>
      have heq := Option.some.inj hc'
      exact .inl (hmessage (heq ▸ close_messageStep ws _))
  | onClosed reason =>
      have heq := Option.some.inj hc'
      by_cases hcurrent : t.client.webSocket = some ws
      · have hadvanced : (t.client.advance ws phase).webSocket = some ws := hcurrent
        obtain ⟨-, hpending, hsockets⟩ := onClosed_cases os reason hadvanced
        refine .inl (stays_of_callback hstep ?_ (.inr ?_))
        · rw [← heq, hsockets.length, hadvance.sockets.length]
        · rw [← heq, hpending, hadvance.pending]
      · have hstale : (t.client.advance ws phase).webSocket ≠ some ws := hcurrent
        refine .inl (hmessage ?_)
        rw [← heq, onClosed_stale hstale]
        exact MessageStep.refl _
  | onFailure message =>
      by_cases hcurrent : t.client.webSocket = some ws
      · cases hpending : t.client.pendingFallback with
        | some payload => exact .inr ⟨_, dialsAs_of_onFailure hstep hcurrent hpending⟩
        | none =>
            have hadvanced : (t.client.advance ws phase).webSocket = some ws := hcurrent
            rcases onFailure_cases hadvanced hc' with ⟨-, -, hnew, hsockets⟩ | ⟨fb, c₁, hfb, -⟩
            · refine .inl (stays_of_callback hstep ?_ (.inr ?_))
              · rw [hsockets.length, hadvance.sockets.length]
              · rw [hnew, hadvance.pending]
            · exact absurd (hpending.symm.trans hfb) (by simp)
      · have hstale : (t.client.advance ws phase).webSocket ≠ some ws := hcurrent
        have heq := Option.some.inj ((onFailure_stale hstale).symm.trans hc')
        refine .inl (hmessage ?_)
        rw [← heq]
        exact MessageStep.refl _

theorem step_cases {platform : Platform} {label : Action × Answers} {t t' : Traced}
    (hstep : (traced platform).step t label t') :
    Stays t t' ∨ ∃ origin, DialsAs t label.1 t' origin := by
  obtain ⟨action, os⟩ := label
  have hc' := hstep.1
  cases action with
  | connect payload deviceName =>
      obtain ⟨hdialled, -, hpending⟩ := connect_dialled hc'
      refine .inr ⟨.connect payload none, hstep.2, dialled_length hdialled,
        hdialled.webSocket, ?_, ?_⟩
      · rintro _ _ ⟨⟩
        exact congrArg Pending.pendingFallback hpending
      · rintro _ _ ⟨⟩
  | connectTrusted server deviceName =>
      obtain ⟨hdialled, hpending⟩ := connectTrusted_dialled hc'
      refine .inr ⟨.connectTrusted server, hstep.2, dialled_length hdialled,
        hdialled.webSocket, ?_, ?_⟩
      · rintro _ _ ⟨⟩
      · rintro _ _ ⟨⟩
  | disconnect =>
      have heq := Option.some.inj hc'
      have hpending := disconnect_pending os t.client
      rw [heq] at hpending
      refine .inl ⟨⟨[], hstep.2, by simp⟩, ?_, .inr ?_, ?_⟩
      · rw [← heq, (disconnect_evolves os t.client).length]
      · exact congrArg Pending.webSocket hpending
      · exact congrArg Pending.pendingFallback hpending
  | cancelDownload id =>
      have heq := Option.some.inj hc'
      have hcancel := cancelDownload_step os id t.client
      rw [heq] at hcancel
      exact .inl ⟨⟨[], hstep.2, by simp⟩, hcancel.sockets.length,
        .inl (congrArg Pending.webSocket hcancel.pending),
        congrArg Pending.pendingFallback hcancel.pending⟩
  | callback ws callback => exact callback_cases hstep

/-! ### The invariant -/

/-- Dials are on record under the sockets they made, and the pending fallback is the one of the
current socket's payload. -/
structure Recorded (t : Traced) : Prop where
  current : ∀ ws, t.client.webSocket = some ws → ∃ origin, .dialled ws origin ∈ t.history
  bound : ∀ ws origin, .dialled ws origin ∈ t.history → ws < t.client.sockets.length
  unique : ∀ ws origin origin', .dialled ws origin ∈ t.history →
    .dialled ws origin' ∈ t.history → origin = origin'
  fallback : ∀ ws payload cause, .dialled ws (.connect payload cause) ∈ t.history →
    t.client.webSocket = some ws → t.client.pendingFallback = payload.fallback
  failed : ∀ ws payload failed, .dialled ws (.connect payload (some failed)) ∈ t.history →
    failed < t.client.sockets.length ∧ t.client.webSocket ≠ some failed

theorem Recorded.stays {t t' : Traced} (h : Recorded t) (hstays : Stays t t') : Recorded t' := by
  obtain ⟨events, hevents, hnone⟩ := hstays.history
  have hdialled {ws : Nat} {origin : Origin} :
      .dialled ws origin ∈ t'.history ↔ .dialled ws origin ∈ t.history := by
    simp [hevents, hnone]
  have hkept {ws : Nat} (hcurrent : t'.client.webSocket = some ws) :
      t.client.webSocket = some ws := by
    rcases hstays.webSocket with hsame | hgone
    · rw [← hsame, hcurrent]
    · simp [hgone] at hcurrent
  constructor
  · intro ws hcurrent
    obtain ⟨origin, horigin⟩ := h.current ws (hkept hcurrent)
    exact ⟨origin, hdialled.mpr horigin⟩
  · intro ws origin hmem
    rw [hstays.sockets]
    exact h.bound ws origin (hdialled.mp hmem)
  · intro ws origin origin' hmem hmem'
    exact h.unique ws origin origin' (hdialled.mp hmem) (hdialled.mp hmem')
  · intro ws payload cause hmem hcurrent
    rw [hstays.pendingFallback]
    exact h.fallback ws payload cause (hdialled.mp hmem) (hkept hcurrent)
  · intro ws payload failed hmem
    obtain ⟨hlt, hne⟩ := h.failed ws payload failed (hdialled.mp hmem)
    exact ⟨hstays.sockets ▸ hlt, fun hcurrent => hne (hkept hcurrent)⟩

theorem Recorded.dialsAs {action : Action} {origin : Origin} {t t' : Traced} (h : Recorded t)
    (hdials : DialsAs t action t' origin) : Recorded t' := by
  have hmem {ws : Nat} {origin' : Origin} (hevent : .dialled ws origin' ∈ t'.history) :
      .dialled ws origin' ∈ t.history ∨ (ws = t.client.sockets.length ∧ origin' = origin) := by
    simpa [hdials.history] using hevent
  have hlength := hdials.sockets
  constructor
  · intro ws hcurrent
    obtain rfl := Option.some.inj (hdials.webSocket.symm.trans hcurrent)
    exact ⟨origin, by simp [hdials.history]⟩
  · intro ws origin' hevent
    rcases hmem hevent with hold | ⟨rfl, -⟩
    · have hlt := h.bound ws origin' hold
      omega
    · omega
  · intro ws origin₁ origin₂ hevent₁ hevent₂
    rcases hmem hevent₁ with hold₁ | ⟨rfl, rfl⟩
    · rcases hmem hevent₂ with hold₂ | ⟨rfl, rfl⟩
      · exact h.unique ws origin₁ origin₂ hold₁ hold₂
      · exact absurd (h.bound _ _ hold₁) (lt_irrefl _)
    · rcases hmem hevent₂ with hold₂ | ⟨-, rfl⟩
      · exact absurd (h.bound _ _ hold₂) (lt_irrefl _)
      · rfl
  · intro ws payload cause hevent hcurrent
    obtain rfl := Option.some.inj (hdials.webSocket.symm.trans hcurrent)
    rcases hmem hevent with hold | ⟨-, horigin⟩
    · exact absurd (h.bound _ _ hold) (lt_irrefl _)
    · exact hdials.fallback payload cause horigin.symm
  · intro ws payload failed hevent
    rw [hdials.webSocket]
    have hlt : failed < t.client.sockets.length := by
      rcases hmem hevent with hold | ⟨-, horigin⟩
      · exact (h.failed ws payload failed hold).1
      · obtain ⟨-, hcurrent, -⟩ := hdials.failed payload failed horigin.symm
        obtain ⟨origin', hrecord⟩ := h.current failed hcurrent
        exact h.bound failed origin' hrecord
    refine ⟨by omega, fun hcurrent => ?_⟩
    have heq := Option.some.inj hcurrent
    omega

theorem reachable_recorded {platform : Platform} {t : Traced}
    (ht : (traced platform).Reachable t) : Recorded t := by
  induction ht with
  | init h =>
      obtain ⟨⟨hasDownloadsDir, directory, hclient⟩, hhistory⟩ := h
      constructor <;> simp [hclient, hhistory]
  | step _ hstep ih =>
      rcases step_cases hstep with hstays | ⟨origin, hdials⟩
      · exact ih.stays hstays
      · exact ih.dialsAs hdials

/-! ### The law -/

/-- When the current socket fails after it was welcomed, or after `connectTrusted` dialled it,
no fallback is pending. -/
def Spent (t : Traced) (label : Action × Answers) (_ : Traced) : Prop :=
  ∀ ws message, label.1 = .callback ws (.onFailure message) → t.client.webSocket = some ws →
    .welcomed ws ∈ t.history ∨ (∃ server, .dialled ws (.connectTrusted server) ∈ t.history) →
      t.client.pendingFallback = none

theorem justified_iff_spent {ws : Nat} {payload : QrPayload} {message : Option String}
    {os : Answers} {t t' : Traced} (h : Recorded t) (hcurrent : t.client.webSocket = some ws)
    (hpending : t.client.pendingFallback = some payload) :
    Justified t.history payload ws ↔ Spent t (.callback ws (.onFailure message), os) t' := by
  constructor
  · intro hjustified ws' message' heq _ hleft
    obtain rfl := (Action.callback.inj heq).1
    rcases hleft with hwelcomed | ⟨server, htrusted⟩
    · exact absurd hwelcomed hjustified.notWelcomed
    · obtain ⟨primary, cause, hprimary, -⟩ := hjustified.primary
      exact absurd (h.unique _ _ _ htrusted hprimary) (by simp)
  · intro hspent
    have hfresh (hleft : .welcomed ws ∈ t.history ∨
        ∃ server, .dialled ws (.connectTrusted server) ∈ t.history) : False := by
      have hnone := hspent ws message rfl hcurrent hleft
      simp [hpending] at hnone
    obtain ⟨origin, horigin⟩ := h.current ws hcurrent
    refine ⟨?_, fun hwelcomed => hfresh (.inl hwelcomed), fun ws' other hother => ?_⟩
    · cases origin with
      | connect primary cause =>
          have hfallback := h.fallback ws primary cause horigin hcurrent
          exact ⟨primary, cause, horigin, hfallback.symm.trans hpending⟩
      | connectTrusted server => exact (hfresh (.inr ⟨server, horigin⟩)).elim
    · exact (h.failed ws' other ws hother).2 hcurrent

theorem spent_of_no_fallback {platform : Platform} {label : Action × Answers} {t t' : Traced}
    (hstep : (traced platform).step t label t')
    (hno : ∀ payload ws, ¬ DialsAs t label.1 t' (.connect payload (some ws))) :
    Spent t label t' := by
  obtain ⟨action, os⟩ := label
  intro ws message haction hcurrent _
  obtain rfl : action = .callback ws (.onFailure message) := haction
  cases hpending : t.client.pendingFallback with
  | none => rfl
  | some payload => exact (hno payload ws (dialsAs_of_onFailure hstep hcurrent hpending)).elim

theorem step_lawful_iff {platform : Platform} {label : Action × Answers} {t t' : Traced}
    (h : Recorded t) (hlawful : Lawful t.history) (hstep : (traced platform).step t label t') :
    Lawful t'.history ↔ Spent t label t' := by
  rcases step_cases hstep with hstays | ⟨origin, hdials⟩
  · obtain ⟨events, hevents, hquiet⟩ := hstays.history
    refine iff_of_true (hevents ▸ hlawful.append_quiet hquiet) (spent_of_no_fallback hstep ?_)
    intro payload ws hdials
    have hgrows := hdials.sockets
    rw [hstays.sockets] at hgrows
    omega
  · have hlaw : Lawful t'.history ↔
        ∀ payload ws, origin = .connect payload (some ws) → Justified t.history payload ws := by
      rw [hdials.history, lawful_concat_iff]
      constructor
      · rintro ⟨-, hnew⟩ payload ws rfl
        exact hnew _ payload ws rfl
      · intro hnew
        refine ⟨hlawful, fun ws' payload ws heq => ?_⟩
        exact hnew payload ws (Event.dialled.inj heq).2
    rw [hlaw]
    by_cases hfallback : ∃ payload ws, origin = .connect payload (some ws)
    · obtain ⟨payload, ws, rfl⟩ := hfallback
      obtain ⟨⟨message, haction⟩, hcurrent, hpending⟩ := hdials.failed payload ws rfl
      obtain ⟨action, os⟩ := label
      obtain rfl : action = .callback ws (.onFailure message) := haction
      rw [← justified_iff_spent h hcurrent hpending]
      constructor
      · intro hall
        exact hall payload ws rfl
      · rintro hjustified _ _ ⟨⟩
        exact hjustified
    · refine iff_of_true (fun payload ws heq => (hfallback ⟨payload, ws, heq⟩).elim) ?_
      refine spent_of_no_fallback hstep fun payload ws hdials' => ?_
      have hevent := (List.append_inj' (hdials.history.symm.trans hdials'.history) rfl).2
      exact hfallback ⟨payload, ws, (Event.dialled.inj (List.singleton_inj.mp hevent)).2⟩

theorem reachable_lawful {platform : Platform} {t : Traced}
    (ht : ((traced platform).restrict Spent).Reachable t) : Lawful t.history := by
  induction ht with
  | init h =>
      rw [h.2]
      exact lawful_nil
  | step hreach hstep ih =>
      have hrecorded := reachable_recorded hreach.of_restrict
      exact (step_lawful_iff hrecorded ih hstep.1).mpr hstep.2

theorem dial_of_onFailure {platform : Platform} {label : Action × Answers} {t t' : Traced}
    (hstep : (traced platform).step t label t') {ws ws' : Nat} {payload : QrPayload}
    (hdial : t'.history = t.history ++ [.dialled ws' (.connect payload (some ws))]) :
    (∃ message, label.1 = .callback ws (.onFailure message)) ∧ t.client.webSocket = some ws := by
  rcases step_cases hstep with hstays | ⟨origin, hdials⟩
  · obtain ⟨events, hevents, hquiet⟩ := hstays.history
    have hsame := List.append_cancel_left (hevents.symm.trans hdial)
    exact absurd (hsame ▸ List.mem_singleton_self _) (hquiet ws' _)
  · have hevent := (List.append_inj' (hdials.history.symm.trans hdial) rfl).2
    have horigin := (Event.dialled.inj (List.singleton_inj.mp hevent)).2
    obtain ⟨hcallback, hcurrent, -⟩ := hdials.failed payload ws horigin
    exact ⟨hcallback, hcurrent⟩

/-- A fallback is dialled only when the current socket fails. As long as none is left over when
a welcomed or a trusted connection fails, every such dial answers the failure of its own primary
dial, before that was welcomed, and only once; the first fallback that is left over is dialled
against this law. -/
theorem lawful_iff_spent {platform : Platform} {label : Action × Answers} {t t' : Traced}
    (ht : ((traced platform).restrict Spent).Reachable t)
    (hstep : (traced platform).step t label t') :
    (∀ ws ws' payload,
        t'.history = t.history ++ [.dialled ws' (.connect payload (some ws))] →
          (∃ message, label.1 = .callback ws (.onFailure message)) ∧
            t.client.webSocket = some ws) ∧
      Lawful t.history ∧ (Lawful t'.history ↔ Spent t label t') := by
  refine ⟨fun ws ws' payload hdial => dial_of_onFailure hstep hdial, reachable_lawful ht, ?_⟩
  exact step_lawful_iff (reachable_recorded ht.of_restrict) (reachable_lawful ht) hstep

/-! ### A fallback left over by an earlier code -/

def relayPayload : QrPayload :=
  { host := "relay.example", port := 7000, code := "123456"
    keyB64Url := "AAAAAAAAAAAAAAAAAAAAAAAAAAAAAAAAAAAAAAAAAAA", version := 1
    relayHostId := some "pc" }

def lanPayload : QrPayload :=
  { host := "192.168.1.5", port := 9000, code := "123456"
    keyB64Url := "AAAAAAAAAAAAAAAAAAAAAAAAAAAAAAAAAAAAAAAAAAA", version := 1
    fallback := some relayPayload }

def office : TrustedServer :=
  { deviceId := "d1", token := "t1", wsUrl := "ws://10.0.0.7:9000/ws", serverName := "PC"
    lastConnectedMs := 0 }

def roaming : Platform where
  decodeServerMsg _ := none
  base64UrlEncode _ := "AAAAAAAAAAAAAAAAAAAAAA"
  base64UrlDecode _ := some (List.replicate 32 0)
  base64Decode _ := none
  hmacSha256 _ _ := []
  validUrl _ := true
  sdkInt := 31

theorem taken {platform : Platform} {t : Traced} (action : Action) (os : Answers)
    {c' : ConnectionClient} (hc' : t.client.act platform os action = some c') :
    (traced platform).step t (action, os)
      { client := c', history := t.history ++ (observe platform t.client c' action).toList } :=
  ⟨hc', rfl⟩

def unused : Traced :=
  { client := { hasDownloadsDir := true, directory := { path := "/Downloads" } } }

theorem unused_reachable : (traced roaming).Reachable unused :=
  .init ⟨⟨_, _, rfl⟩, rfl⟩

/-- The user scans a code with a fallback, leaves, and reconnects to another server. -/
theorem leftOver_not_lawful :
    ∃ t, (traced roaming).Reachable t ∧
      t.history =
        [.dialled 0 (.connect lanPayload none), .dialled 1 (.connectTrusted office),
          .dialled 2 (.connect relayPayload (some 1))] ∧
      ¬ Lawful t.history := by
  have hscanned := unused_reachable.step (taken (.connect lanPayload "Pixel") {} rfl)
  have hlet := hscanned.step (taken .disconnect {} rfl)
  have htrusted := hlet.step (taken (.connectTrusted office "Pixel") {} rfl)
  have hfailed := htrusted.step (taken (.callback 1 (.onFailure none)) {} rfl)
  refine ⟨_, hfailed, rfl, fun hlawful => ?_⟩
  have hjustified := hlawful
    [.dialled 0 (.connect lanPayload none), .dialled 1 (.connectTrusted office)] [] 2 relayPayload
    1 rfl
  obtain ⟨primary, cause, hprimary, -⟩ := hjustified.primary
  simp at hprimary

/-- The failure of a first dial uses the fallback by the law. -/
theorem lawful_iff_spent_firstDial :
    ∃ t : Traced, Lawful t.history ∧
      t.history =
        [.dialled 0 (.connect lanPayload none), .dialled 1 (.connect relayPayload (some 0))] := by
  have hunused : ((traced roaming).restrict Spent).Reachable unused := .init ⟨⟨_, _, rfl⟩, rfl⟩
  obtain ⟨t, hscan, hclient, hhistory⟩ : ∃ t, ((traced roaming).restrict Spent).step unused
      (.connect lanPayload "Pixel", {}) t ∧
      (∃ c', t.client.act roaming {} (.callback 0 (.onFailure none)) = some c' ∧
        observe roaming t.client c' (.callback 0 (.onFailure none)) =
          some (.dialled 1 (.connect relayPayload (some 0)))) ∧
      t.history = [.dialled 0 (.connect lanPayload none)] :=
    ⟨_, ⟨taken _ _ rfl, fun _ _ heq => by simp at heq⟩, ⟨_, rfl, rfl⟩, rfl⟩
  obtain ⟨c', hc', hobserve⟩ := hclient
  have hfail := taken (.callback 0 (.onFailure none)) {} hc'
  rw [hobserve, hhistory] at hfail
  have hlaw := lawful_iff_spent (hunused.step hscan) hfail
  refine ⟨_, hlaw.2.2.mpr ?_, rfl⟩
  intro ws message heq _ hleft
  obtain ⟨rfl, -⟩ := Action.callback.inj heq
  simp [hhistory] at hleft

end RemoteControl.Phone.Fallback
