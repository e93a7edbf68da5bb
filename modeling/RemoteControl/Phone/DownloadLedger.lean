import Mathlib.Data.List.Basic
import RemoteControl.Phone.Frame

/-!
The downloads of the phone from their acceptance to their end: the events that the client emits
about them, and their files.
-/

namespace RemoteControl.Phone.DownloadLedger

open RemoteControl.Foundations.ByteStrings
open RemoteControl.Foundations.Transition
open RemoteControl.Foundations.Transition.System
open RemoteControl.Phone.Messages
open RemoteControl.Phone.Downloads
open RemoteControl.Phone.QrCode
open RemoteControl.Phone.Client
open RemoteControl.Phone.Client.ConnectionClient
open RemoteControl.Phone.Frame

/-! ### The ledger -/

/-- An accepted `FileSendBegin`. A terminal event is `true` for `Complete`; whatever closes the
stream of a transfer then emits one. -/
structure Transfer where
  id : Int32
  path : String
  terminals : List Bool := []
deriving DecidableEq

/-- A terminal event belongs to the latest transfer with its id. -/
def settle (id : Int32) (complete : Bool) : List Transfer → List Transfer
  | [] => []
  | t :: older =>
      if t.id = id then { t with terminals := t.terminals ++ [complete] } :: older
      else t :: settle id complete older

def record (transfers : List Transfer) : Emitted → List Transfer
  | .fileEvent (.incoming id _ _ path) => { id, path } :: transfers
  | .fileEvent (.complete id _) => settle id true transfers
  | .fileEvent (.failed id _) => settle id false transfers
  | _ => transfers

/-- The transfers so far, the latest first. -/
def transfers (emitted : List Emitted) : List Transfer :=
  emitted.foldl record []

def OnDisk (d : Directory) (path : String) : Prop :=
  ∃ name, d.absolutePath name = path ∧ (d.entry name).isSome = true

/-- The entry of a transfer. -/
def Transfer.HasEntry (t : Transfer) (c : ConnectionClient) : Prop :=
  ∃ st, c.incomingFiles.lookup t.id = some st ∧ c.directory.absolutePath st.dest = t.path ∧
    st.out.closed = false

/-- The transfer has not failed. -/
def Transfer.Holds (t : Transfer) : Prop :=
  t.terminals ≠ [false]

/-- The files under the output streams of these entries. -/
def streamsOf (entries : List (Sigma fun _ : Int32 => IncomingFile)) : List Nat :=
  entries.map (·.2.out.file)

/-- Every transfer has one terminal event, or has an entry and none; its file stays if the event
is `Complete`, and else is removed, after which the path may be taken again. The streams that are
open are those of the entries, one each. -/
structure Consistent (c : ConnectionClient) : Prop where
  once : ∀ t ∈ transfers c.emitted,
    t.terminals = [] ∧ t.HasEntry c ∨ t.terminals = [true] ∨ t.terminals = [false]
  kept : ∀ newer t older, transfers c.emitted = newer ++ t :: older → t.terminals = [true] →
    OnDisk c.directory t.path ∧ ∀ u ∈ newer, u.path ≠ t.path
  removed : ∀ newer t older, transfers c.emitted = newer ++ t :: older →
    t.terminals = [false] → OnDisk c.directory t.path → ∃ u ∈ newer, u.path = t.path
  entries : ∀ id st, c.incomingFiles.lookup id = some st →
    ∃ t ∈ transfers c.emitted, t.id = id ∧ t.terminals = [] ∧ t.HasEntry c
  streams : c.openStreams.Perm (streamsOf c.incomingFiles.entries)

/-! ### The runs -/

inductive Event where
  | fileSendBegin (fileBegin : FileSendBegin)
  | fileChunk (frame : VideoFrame)
  | cancelDownload (id : Int32)
  | connect (payload : QrPayload) (deviceName : String)
  | connectTrusted (server : TrustedServer) (deviceName : String)
  | disconnect
  | onClosed (ws : Nat) (reason : String)
  | onFailure (ws : Nat) (message : Option String)

/-- File operations succeed. -/
structure Smooth (os : Answers) : Prop where
  opens : os.openFault = none
  writes : os.writeFault = none
  closes : os.closeFault = none
  deletes : ∀ name, os.deleteFault name = false

def act (platform : Platform) (os : Answers) (c : ConnectionClient) :
    Event → Option ConnectionClient
  | .fileSendBegin fileBegin => some (c.handleFileSendBegin os fileBegin)
  | .fileChunk frame => some (c.handleIncomingFileChunk os frame)
  | .cancelDownload id => some (c.cancelDownload os id)
  | .connect payload deviceName => c.connect platform os payload deviceName
  | .connectTrusted server deviceName => c.connectTrusted platform os server deviceName
  | .disconnect => some (c.disconnect os)
  | .onClosed ws reason => some (c.onClosed os ws reason)
  | .onFailure ws message => c.onFailure platform os ws message

def downloads (platform : Platform) : System ConnectionClient (Event × Answers) where
  init := Fresh
  step c label c' := Smooth label.2 ∧ act platform label.2 c label.1 = some c'

/-- Every download that is pending still misses some of its bytes. -/
def AllShort (c : ConnectionClient) : Prop :=
  ∀ id st, c.incomingFiles.lookup id = some st → st.bytesWritten < st.totalBytes

/-- The id of a `FileSendBegin` that is accepted has no entry, the path chosen for it is that of
no transfer, one that has failed apart, and no download is pending with all its bytes when a
connection ends. -/
def Orderly (c : ConnectionClient) : Event × Answers → ConnectionClient → Prop
  | (.fileSendBegin fileBegin, os), _ => c.webSocket.isSome = true → c.hasDownloadsDir = true →
      c.incomingFiles.lookup fileBegin.id = none ∧
        ∀ t ∈ transfers c.emitted, t.Holds →
          t.path ≠ c.directory.absolutePath (uniqueDestFile os c.directory fileBegin.name)
  | (.fileChunk _, _), _ | (.cancelDownload _, _), _ => True
  | (.onClosed ws _, _), _ | (.onFailure ws _, _), _ => c.webSocket = some ws → AllShort c
  | _, _ => AllShort c

/-! ### Settling -/

theorem transfers_concat (emitted : List Emitted) (e : Emitted) :
    transfers (emitted ++ [e]) = record (transfers emitted) e :=
  List.foldl_append

theorem find?_settle_ne {id other : Int32} (h : other ≠ id) (complete : Bool)
    (ts : List Transfer) :
    (settle id complete ts).find? (·.id = other) = ts.find? (·.id = other) := by
  induction ts with
  | nil => rfl
  | cons t older ih =>
      unfold settle
      split
      next hid =>
        have hother : ¬t.id = other := fun heq => h (heq.symm.trans hid)
        rw [List.find?_cons_of_neg (by simpa using hother),
          List.find?_cons_of_neg (by simpa using hother)]
      next => simp only [List.find?_cons, ih]

theorem settle_split {id : Int32} {ts : List Transfer} {t : Transfer}
    (h : ts.find? (·.id = id) = some t) (complete : Bool) :
    ∃ newer older, ts = newer ++ t :: older ∧ t.id = id ∧ (∀ u ∈ newer, u.id ≠ id) ∧
      settle id complete ts =
        newer ++ { t with terminals := t.terminals ++ [complete] } :: older := by
  induction ts with
  | nil => contradiction
  | cons u older ih =>
      by_cases hid : u.id = id
      · rw [List.find?_cons_of_pos (by simpa using hid)] at h
        obtain rfl := Option.some.inj h
        exact ⟨[], older, rfl, hid, fun _ hu => absurd hu List.not_mem_nil, if_pos hid⟩
      · rw [List.find?_cons_of_neg (by simpa using hid)] at h
        obtain ⟨newer, rest, rfl, ht, hnewer, hsettle⟩ := ih h
        refine ⟨u :: newer, rest, rfl, ht, List.forall_mem_cons.mpr ⟨hid, hnewer⟩, ?_⟩
        rw [settle, if_neg hid, hsettle]
        rfl

/-! ### What every step keeps -/

/-- The invariant, with the entries as a function of the id. -/
structure Kept (d : Directory) (live : Int32 → Option IncomingFile) (ts : List Transfer) :
    Prop where
  apart : ts.Pairwise fun u t => t.Holds → u.path ≠ t.path
  onDisk : ∀ t ∈ ts, t.Holds → OnDisk d t.path
  held : ∀ t ∈ ts, OnDisk d t.path → ∃ u ∈ ts, u.Holds ∧ u.path = t.path
  entry : ∀ id st, live id = some st → st.id = id ∧ st.out.closed = false ∧
    ∃ t, ts.find? (·.id = id) = some t ∧ t.terminals = [] ∧ t.path = d.absolutePath st.dest
  unended : ∀ t ∈ ts, t.terminals = [] →
    ts.find? (·.id = t.id) = some t ∧ (live t.id).isSome = true
  once : ∀ t ∈ ts, t.terminals = [] ∨ t.terminals = [true] ∨ t.terminals = [false]

theorem absolutePath_injective {d : Directory} {name name' : String}
    (h : d.absolutePath name = d.absolutePath name') : name = name' :=
  (String.append_right_inj _).mp h

theorem onDisk_congr {d d' : Directory} (hpath : d'.path = d.path)
    (hentry : ∀ name, (d'.entry name).isSome = (d.entry name).isSome) (path : String) :
    OnDisk d' path ↔ OnDisk d path := by
  unfold OnDisk Directory.absolutePath
  simp only [hpath, hentry]

theorem Kept.congr {d d' : Directory} {live live' : Int32 → Option IncomingFile}
    {ts : List Transfer} (h : Kept d live ts) (hpath : d'.path = d.path)
    (hentry : ∀ name, (d'.entry name).isSome = (d.entry name).isSome)
    (hlive : ∀ id, (live' id).isSome = (live id).isSome)
    (hsame : ∀ id st', live' id = some st' → ∃ st, live id = some st ∧ st'.id = st.id ∧
      st'.dest = st.dest ∧ st'.out.closed = st.out.closed) : Kept d' live' ts := by
  constructor
  · exact h.apart
  · intro t ht hholds
    exact (onDisk_congr hpath hentry _).mpr (h.onDisk t ht hholds)
  · intro t ht hdisk
    exact h.held t ht ((onDisk_congr hpath hentry _).mp hdisk)
  · intro id st' hst'
    obtain ⟨st, hst, hid, hdest, hclosed⟩ := hsame id st' hst'
    obtain ⟨hkey, hopen, t, hfind, hterminals, htpath⟩ := h.entry id st hst
    refine ⟨hid.trans hkey, hclosed.trans hopen, t, hfind, hterminals, ?_⟩
    rw [htpath, Directory.absolutePath, Directory.absolutePath, hpath, hdest]
  · intro t ht hterminals
    rw [hlive]
    exact h.unended t ht hterminals
  · exact h.once

theorem pairwise_followUp {newer older : List Transfer} {t t' : Transfer}
    (h : (newer ++ t :: older).Pairwise fun u t => t.Holds → u.path ≠ t.path)
    (hpath : t'.path = t.path) (hholds : t.Holds) :
    (newer ++ t' :: older).Pairwise fun u t => t.Holds → u.path ≠ t.path := by
  obtain ⟨hnewer, hrest, hacross⟩ := List.pairwise_append.mp h
  obtain ⟨htolder, holder⟩ := List.pairwise_cons.mp hrest
  refine List.pairwise_append.mpr ⟨hnewer, List.pairwise_cons.mpr ⟨?_, holder⟩, ?_⟩
  · rw [hpath]
    exact htolder
  · refine fun u hu => List.forall_mem_cons.mpr ⟨fun _ => ?_, fun w hw => ?_⟩
    · rw [hpath]
      exact hacross u hu t List.mem_cons_self hholds
    · exact hacross u hu w (List.mem_cons_of_mem _ hw)

theorem path_ne_of_holds {newer older : List Transfer} {t u : Transfer}
    (h : (newer ++ t :: older).Pairwise fun u t => t.Holds → u.path ≠ t.path)
    (ht : t.Holds) (hu : u ∈ newer ∨ u ∈ older) (hholds : u.Holds) : u.path ≠ t.path := by
  obtain ⟨-, hrest, hacross⟩ := List.pairwise_append.mp h
  cases hu with
  | inl hu => exact hacross u hu t List.mem_cons_self ht
  | inr hu => exact ((List.pairwise_cons.mp hrest).1 u hu hholds).symm

theorem mem_around {newer older : List Transfer} {t u : Transfer} :
    u ∈ newer ++ t :: older ↔ u = t ∨ u ∈ newer ∨ u ∈ older := by
  rw [List.mem_append, List.mem_cons]
  exact or_left_comm

theorem Kept.settle {d d' : Directory} {live : Int32 → Option IncomingFile} {ts : List Transfer}
    {id : Int32} {st : IncomingFile} {complete : Bool} (h : Kept d live ts)
    (hst : live id = some st)
    (hdisk : ∀ path, OnDisk d' path ↔
      OnDisk d path ∧ (complete = true ∨ path ≠ d.absolutePath st.dest))
    (hpath : d'.path = d.path) :
    Kept d' (Function.update live id none) (settle id complete ts) := by
  obtain ⟨-, -, t, hfind, hpending, htpath⟩ := h.entry id st hst
  obtain ⟨newer, older, rfl, rfl, hnewer, hsettle⟩ := settle_split hfind complete
  have htholds : t.Holds := by simp [Transfer.Holds, hpending]
  have hmem {u : Transfer} (hu : u ∈ newer ∨ u ∈ older) : u ∈ newer ++ t :: older :=
    mem_around.mpr (.inr hu)
  have hother {u : Transfer} (hu : u ∈ newer ∨ u ∈ older) (hholds : u.Holds) :
      u.path ≠ d.absolutePath st.dest :=
    htpath ▸ path_ne_of_holds h.apart htholds hu hholds
  rw [hsettle]
  set t' : Transfer := { t with terminals := t.terminals ++ [complete] } with ht'
  have hends : t'.terminals = [complete] := by simp [ht', hpending]
  constructor
  · exact pairwise_followUp h.apart rfl htholds
  · intro u hu hholds
    rw [hdisk]
    rcases mem_around.mp hu with rfl | hu
    · refine ⟨h.onDisk t (by simp) htholds, .inl ?_⟩
      cases complete with
      | true => rfl
      | false => exact absurd hends hholds
    · exact ⟨h.onDisk u (hmem hu) hholds, .inr (hother hu hholds)⟩
  · intro u hu hon
    obtain ⟨hon, hstays⟩ := (hdisk u.path).mp hon
    have hheld : ∃ v ∈ newer ++ t :: older, v.Holds ∧ v.path = u.path := by
      rcases mem_around.mp hu with rfl | hu
      · exact ⟨t, by simp, htholds, rfl⟩
      · exact h.held u (hmem hu) hon
    obtain ⟨v, hv, hholds, hvpath⟩ := hheld
    rcases mem_around.mp hv with rfl | hv
    · refine ⟨t', by simp, ?_, hvpath⟩
      have hcomplete := hstays.resolve_right fun hne => hne (hvpath.symm.trans htpath)
      simp [Transfer.Holds, hends, hcomplete]
    · exact ⟨v, mem_around.mpr (.inr hv), hholds, hvpath⟩
  · intro id' st' hst'
    have hne : id' ≠ t.id := by
      rintro rfl
      simp at hst'
    rw [Function.update_of_ne hne] at hst'
    obtain ⟨hid, hopen, u, hu, hupending, hupath⟩ := h.entry id' st' hst'
    refine ⟨hid, hopen, u, ?_, hupending, ?_⟩
    · rw [← hsettle, find?_settle_ne hne, hu]
    · rw [hupath, Directory.absolutePath, Directory.absolutePath, hpath]
  · intro u hu hupending
    rcases mem_around.mp hu with rfl | hu
    · rw [hends] at hupending
      contradiction
    · obtain ⟨hufind, hulive⟩ := h.unended u (hmem hu) hupending
      have hne : u.id ≠ t.id := by
        intro heq
        -- It would be the same transfer, twice.
        rw [heq, hfind] at hufind
        obtain rfl := Option.some.inj hufind
        exact hother hu htholds htpath
      rw [← hsettle, find?_settle_ne hne, Function.update_of_ne hne]
      exact ⟨hufind, hulive⟩
  · intro u hu
    rcases mem_around.mp hu with rfl | hu
    · rw [hends]
      cases complete <;> simp
    · exact h.once u (hmem hu)

theorem Kept.begin {d d' : Directory} {live : Int32 → Option IncomingFile} {ts : List Transfer}
    (h : Kept d live ts) (st : IncomingFile) (hid : live st.id = none)
    (hfree : ∀ t ∈ ts, t.Holds → t.path ≠ d.absolutePath st.dest)
    (hopen : st.out.closed = false)
    (hdisk : ∀ path, OnDisk d' path ↔ path = d.absolutePath st.dest ∨ OnDisk d path)
    (hpath : d'.path = d.path) :
    Kept d' (Function.update live st.id (some st))
      ({ id := st.id, path := d.absolutePath st.dest } :: ts) := by
  set new : Transfer := { id := st.id, path := d.absolutePath st.dest } with hnew
  have hholds : new.Holds := by simp [Transfer.Holds, hnew]
  constructor
  · exact List.pairwise_cons.mpr ⟨fun t ht hheld => (hfree t ht hheld).symm, h.apart⟩
  · refine List.forall_mem_cons.mpr ⟨fun _ => (hdisk _).mpr (.inl rfl), fun t ht hheld => ?_⟩
    exact (hdisk _).mpr (.inr (h.onDisk t ht hheld))
  · refine List.forall_mem_cons.mpr
      ⟨fun _ => ⟨new, List.mem_cons_self, hholds, rfl⟩, fun t ht hon => ?_⟩
    cases (hdisk t.path).mp hon with
    | inl heq => exact ⟨new, List.mem_cons_self, hholds, heq.symm⟩
    | inr hon =>
        obtain ⟨u, hu, hheld, hupath⟩ := h.held t ht hon
        exact ⟨u, List.mem_cons_of_mem _ hu, hheld, hupath⟩
  · intro id' st' hst'
    by_cases hne : id' = st.id
    · subst hne
      rw [Function.update_self] at hst'
      obtain rfl := Option.some.inj hst'
      refine ⟨rfl, hopen, new, by simp [hnew], rfl, ?_⟩
      rw [hnew, Directory.absolutePath, Directory.absolutePath, hpath]
    · rw [Function.update_of_ne hne] at hst'
      obtain ⟨hkey, hopen', t, hfind, hpending, htpath⟩ := h.entry id' st' hst'
      refine ⟨hkey, hopen', t, ?_, hpending, ?_⟩
      · rw [List.find?_cons_of_neg (by simpa [hnew] using Ne.symm hne), hfind]
      · rw [htpath, Directory.absolutePath, Directory.absolutePath, hpath]
  · refine List.forall_mem_cons.mpr ⟨fun _ => by simp [hnew], fun t ht hpending => ?_⟩
    obtain ⟨hfind, hlive⟩ := h.unended t ht hpending
    have hne : t.id ≠ st.id := by
      intro heq
      rw [heq, hid] at hlive
      contradiction
    rw [List.find?_cons_of_neg (by simpa [hnew] using hne.symm), Function.update_of_ne hne]
    exact ⟨hfind, hlive⟩
  · exact List.forall_mem_cons.mpr ⟨.inl rfl, h.once⟩

/-! ### Files of the directory -/

/-- Writing to files changes no name. -/
structure SameNames (d d' : Directory) : Prop where
  path : d'.path = d.path
  entry : d'.entry = d.entry

theorem writeThrough_sameNames (os : Answers) (d : Directory) (out : OutStream) (bytes : Bytes) :
    SameNames d (writeThrough os d out bytes).1 := by
  unfold writeThrough
  split
  · exact ⟨rfl, rfl⟩
  · split <;> exact ⟨rfl, rfl⟩

theorem flushBuffer_sameNames (os : Answers) (d : Directory) (out : OutStream) :
    SameNames d (flushBuffer os d out).1 := by
  have hthrough := writeThrough_sameNames os d out out.buffer
  unfold flushBuffer
  split
  · exact ⟨rfl, rfl⟩
  · split <;> simp_all only

theorem close_sameNames (os : Answers) (d : Directory) (out : OutStream) :
    SameNames d (Downloads.close os d out).1 := by
  have hflush := flushBuffer_sameNames os d out
  unfold Downloads.close
  split
  · exact ⟨rfl, rfl⟩
  · split <;> simp_all only

theorem flushBuffer_smooth {os : Answers} (hos : Smooth os) (d : Directory) {out : OutStream}
    (hopen : out.closed = false) :
    ∃ d' out', flushBuffer os d out = (d', out', .ok ()) ∧ SameNames d d' ∧
      out'.closed = false ∧ out'.file = out.file := by
  unfold flushBuffer writeThrough
  simp only [hopen, hos.writes]
  split
  · exact ⟨d, out, rfl, ⟨rfl, rfl⟩, hopen, rfl⟩
  · exact ⟨_, _, rfl, ⟨rfl, rfl⟩, rfl, rfl⟩

theorem close_smooth {os : Answers} (hos : Smooth os) (d : Directory) {out : OutStream}
    (hopen : out.closed = false) :
    ∃ d' out', Downloads.close os d out = (d', out', .ok ()) ∧ SameNames d d' := by
  obtain ⟨d', out', hflush, hsame, -⟩ := flushBuffer_smooth hos d hopen
  unfold Downloads.close
  simp only [hopen, hflush, hos.closes]
  exact ⟨d', _, rfl, hsame⟩

theorem write_smooth {os : Answers} (hos : Smooth os) (d : Directory) {out : OutStream}
    (hopen : out.closed = false) (bytes : Bytes) :
    ∃ d' out', write os d out bytes = (d', out', .ok ()) ∧ SameNames d d' ∧
      out'.closed = false ∧ out'.file = out.file := by
  obtain ⟨d', out', hflush, hsame, hopen', hfile⟩ := flushBuffer_smooth hos d hopen
  unfold write
  split
  · rw [hflush]
    simp only [writeThrough, hopen', hos.writes]
    exact ⟨_, _, rfl, ⟨hsame.path, hsame.entry⟩, hopen', hfile⟩
  · split
    · rw [hflush]
      exact ⟨d', _, rfl, hsame, hopen', hfile⟩
    · exact ⟨d, _, rfl, ⟨rfl, rfl⟩, hopen, rfl⟩

theorem SameNames.onDisk {d d' : Directory} (h : SameNames d d') (path : String) :
    OnDisk d' path ↔ OnDisk d path :=
  onDisk_congr h.path (fun name => by rw [h.entry]) path

theorem onDisk_delete {os : Answers} (hos : Smooth os) (d : Directory) (name path : String) :
    OnDisk (d.delete os name) path ↔ OnDisk d path ∧ path ≠ d.absolutePath name := by
  simp only [Directory.delete, hos.deletes, OnDisk, Directory.absolutePath]
  constructor
  · rintro ⟨other, rfl, hentry⟩
    have hne : other ≠ name := by
      rintro rfl
      simp at hentry
    refine ⟨⟨other, rfl, by simpa [Function.update_of_ne hne] using hentry⟩, fun heq => hne ?_⟩
    exact absolutePath_injective (d := d) heq
  · rintro ⟨⟨other, rfl, hentry⟩, hne⟩
    have hother : other ≠ name := fun heq => hne (heq ▸ rfl)
    exact ⟨other, rfl, by simpa [Function.update_of_ne hother] using hentry⟩

theorem delete_path (os : Answers) (d : Directory) (name : String) :
    (d.delete os name).path = d.path := by
  unfold Directory.delete
  split <;> rfl

theorem openOutput_path (d : Directory) (name : String) :
    (d.openOutput name).2.path = d.path := by
  unfold Directory.openOutput
  split <;> rfl

theorem onDisk_openOutput (d : Directory) (name path : String) :
    OnDisk (d.openOutput name).2 path ↔ path = d.absolutePath name ∨ OnDisk d path := by
  have hentry (other : String) : ((d.openOutput name).2.entry other).isSome = true ↔
      other = name ∨ (d.entry other).isSome = true := by
    unfold Directory.openOutput
    split
    next file hfile =>
      refine ⟨.inr, Or.rec (fun heq => ?_) id⟩
      simp [heq, hfile]
    next =>
      by_cases hother : other = name
      · simp [hother]
      · simp [hother]
  simp only [OnDisk, Directory.absolutePath, openOutput_path, hentry]
  constructor
  · rintro ⟨other, rfl, rfl | hother⟩
    · exact .inl rfl
    · exact .inr ⟨other, rfl, hother⟩
  · rintro (rfl | ⟨other, rfl, hother⟩)
    · exact ⟨name, rfl, .inl rfl⟩
    · exact ⟨other, rfl, .inr hother⟩

/-! ### The operations -/

structure Ledger (c : ConnectionClient) : Prop
    extends Kept c.directory (fun id => c.incomingFiles.lookup id) (transfers c.emitted) where
  streams : c.openStreams.Perm (streamsOf c.incomingFiles.entries)

theorem streamsOf_kerase {entries : List (Sigma fun _ : Int32 => IncomingFile)} {id : Int32}
    {st : IncomingFile} (hst : entries.dlookup id = some st) :
    (streamsOf entries).Perm (st.out.file :: streamsOf (entries.kerase id)) := by
  have hmem : id ∈ entries.keys := by
    rw [← List.dlookup_isSome, hst]
    rfl
  obtain ⟨st', before, after, hbefore, rfl, herase⟩ := List.exists_of_kerase hmem
  have heq : st' = st := by
    rw [List.dlookup_append, List.dlookup_eq_none.mpr hbefore, Option.none_or,
      List.dlookup_cons_eq] at hst
    exact Option.some.inj hst
  subst heq
  rw [herase]
  simp [streamsOf]

theorem closeOut_streams (os : Answers) {out : OutStream} (hopen : out.closed = false)
    {c : ConnectionClient} {others : List Nat} (h : c.openStreams.Perm (out.file :: others)) :
    (c.closeOut os out).1.openStreams.Perm others := by
  have herased := h.erase out.file
  rw [List.erase_cons_head] at herased
  simpa [closeOut, hopen] using herased

theorem lookup_erase_update (m : HashMap IncomingFile) (id : Int32) :
    (fun id' => (m.erase id).lookup id') = Function.update (fun id' => m.lookup id') id none := by
  funext id'
  by_cases hid : id' = id
  · subst hid
    rw [AList.lookup_erase, Function.update_self]
  · rw [AList.lookup_erase_ne hid, Function.update_of_ne hid]

theorem lookup_insert_update (m : HashMap IncomingFile) (id : Int32) (st : IncomingFile) :
    (fun id' => (m.insert id st).lookup id') =
      Function.update (fun id' => m.lookup id') id (some st) := by
  funext id'
  by_cases hid : id' = id
  · subst hid
    rw [AList.lookup_insert, Function.update_self]
  · rw [AList.lookup_insert_ne hid, Function.update_of_ne hid]

theorem sendCurrent_files (msg : ClientMsg) (c : ConnectionClient) :
    files (c.sendCurrent msg) = files c ∧ (c.sendCurrent msg).emitted = c.emitted ∧
      (c.sendCurrent msg).openStreams = c.openStreams := by
  unfold sendCurrent
  split <;> exact ⟨rfl, rfl, rfl⟩

theorem Ledger.congr {c c' : ConnectionClient} (h : Ledger c) (hfiles : files c' = files c)
    (hstreams : c'.openStreams = c.openStreams)
    (hemitted : transfers c'.emitted = transfers c.emitted) : Ledger c' := by
  simp only [files, Files.mk.injEq] at hfiles
  refine ⟨?_, ?_⟩
  · rw [hfiles.1, hfiles.2, hemitted]
    exact h.toKept
  · rw [hstreams, hfiles.1]
    exact h.streams

theorem Ledger.replied {c : ConnectionClient} {e : Emitted} (h : Ledger (c.emit e))
    (msg : ClientMsg) : Ledger ((c.sendCurrent msg).emit e) := by
  obtain ⟨hfiles, hemitted, hstreams⟩ := sendCurrent_files msg c
  exact h.congr hfiles hstreams (by simp only [ConnectionClient.emit, hemitted])

theorem failIncoming_ledger {os : Answers} (hos : Smooth os) {c : ConnectionClient}
    (h : Ledger c) {id : Int32} {st : IncomingFile} (hst : c.incomingFiles.lookup id = some st)
    (reason : String) : Ledger (c.failIncoming os st reason) := by
  obtain ⟨rfl, hopen, -⟩ := h.entry id st hst
  have hclose := close_sameNames os c.directory st.out
  unfold failIncoming
  refine Ledger.replied ⟨?_, ?_⟩ _
  · simp only [ConnectionClient.emit, closeOut, transfers_concat]
    rw [lookup_erase_update]
    refine Kept.settle h.toKept hst (fun path => ?_) ?_
    · rw [onDisk_delete hos, hclose.onDisk, Directory.absolutePath, hclose.path]
      simp [Directory.absolutePath]
    · rw [delete_path, hclose.path]
  · exact closeOut_streams os hopen (h.streams.trans (streamsOf_kerase hst))

theorem cancelDownload_ledger {os : Answers} (hos : Smooth os) {c : ConnectionClient}
    (h : Ledger c) (id : Int32) : Ledger (c.cancelDownload os id) := by
  unfold cancelDownload
  split
  · exact h
  next st hst => exact failIncoming_ledger hos h hst _

theorem finishIncoming_ledger {os : Answers} (hos : Smooth os) {c : ConnectionClient}
    (h : Ledger c) {id : Int32} {st : IncomingFile}
    (hst : c.incomingFiles.lookup id = some st) : Ledger (c.finishIncoming os st) := by
  obtain ⟨rfl, hopen, -⟩ := h.entry id st hst
  obtain ⟨d, out, hflush, hsame, hopen', hfile⟩ := flushBuffer_smooth hos c.directory hopen
  obtain ⟨d', out', hclose, hsame'⟩ := close_smooth hos d hopen'
  simp only [finishIncoming, hflush, closeOut, hclose]
  refine Ledger.replied ⟨?_, ?_⟩ _
  · simp only [ConnectionClient.emit, transfers_concat]
    rw [lookup_erase_update]
    refine Kept.settle h.toKept hst (fun path => ?_) (hsame'.path.trans hsame.path)
    rw [hsame'.onDisk, hsame.onDisk]
    simp
  · refine closeOut_streams os (c := { c with directory := d }) hopen' ?_
    rw [hfile]
    exact h.streams.trans (streamsOf_kerase hst)

theorem wrote_ledger {c : ConnectionClient} (h : Ledger c) {st : IncomingFile}
    (hst : c.incomingFiles.lookup st.id = some st) {d : Directory}
    (hsame : SameNames c.directory d) {out : OutStream} (hopen : out.closed = false)
    (hfile : out.file = st.out.file) (payload : Bytes) :
    Ledger
      ({ c with
          directory := d
          incomingFiles := c.incomingFiles.insert st.id (st.wrote out payload) }.emit
        (.fileEvent (.progress st.id (st.wrote out payload).bytesWritten st.totalBytes))) := by
  obtain ⟨-, hopen', -⟩ := h.entry st.id st hst
  refine ⟨?_, ?_⟩
  swap
  · refine h.streams.trans ((streamsOf_kerase hst).trans ?_)
    rw [← hfile]
    rfl
  simp only [ConnectionClient.emit, transfers_concat, lookup_insert_update]
  refine Kept.congr h.toKept hsame.path (fun name => by rw [hsame.entry]) (fun id => ?_) ?_
  · by_cases hid : id = st.id
    · subst hid
      simp [hst]
    · simp [hid]
  · intro id st' hst'
    by_cases hid : id = st.id
    · subst hid
      rw [Function.update_self] at hst'
      obtain rfl := Option.some.inj hst'
      exact ⟨st, hst, rfl, rfl, hopen.trans hopen'.symm⟩
    · rw [Function.update_of_ne hid] at hst'
      exact ⟨st', hst', rfl, rfl, rfl⟩

theorem handleIncomingFileChunk_ledger {os : Answers} (hos : Smooth os) {c : ConnectionClient}
    (h : Ledger c) (frame : VideoFrame) : Ledger (c.handleIncomingFileChunk os frame) := by
  unfold handleIncomingFileChunk
  split
  · exact h
  next st hst =>
    obtain ⟨hid, hopen, -⟩ := h.entry _ st hst
    rw [← hid] at hst
    split
    · exact failIncoming_ledger hos h hst _
    · have hwrite : ∃ d out,
          (if frame.payload = [] then (c.directory, st.out, Except.ok ())
            else write os c.directory st.out frame.payload) = (d, out, .ok ()) ∧
          SameNames c.directory d ∧ out.closed = false ∧ out.file = st.out.file := by
        split
        · exact ⟨_, _, rfl, ⟨rfl, rfl⟩, hopen, rfl⟩
        · exact write_smooth hos c.directory hopen frame.payload
      obtain ⟨d, out, hwrite, hsame, hopen', hfile⟩ := hwrite
      have hwrote := wrote_ledger h hst hsame hopen' hfile frame.payload
      simp only [hwrite]
      split
      · exact finishIncoming_ledger hos hwrote (AList.lookup_insert _)
      · exact hwrote

theorem handleFileSendBegin_ledger {os : Answers} (hos : Smooth os) {c : ConnectionClient}
    (h : Ledger c) {fileBegin : FileSendBegin}
    (hfree : c.webSocket.isSome = true → c.hasDownloadsDir = true →
      c.incomingFiles.lookup fileBegin.id = none ∧
        ∀ t ∈ transfers c.emitted, t.Holds →
          t.path ≠ c.directory.absolutePath (uniqueDestFile os c.directory fileBegin.name)) :
    Ledger (c.handleFileSendBegin os fileBegin) := by
  unfold handleFileSendBegin
  split
  · exact h
  next ws hws =>
    split
    · exact h.congr rfl rfl rfl
    next hdir =>
      obtain ⟨hid, hpath⟩ := hfree (by simp [hws]) (by simpa using hdir)
      simp only [hos.opens]
      set dest := uniqueDestFile os c.directory fileBegin.name
      refine ⟨?_, ?_⟩
      swap
      · have hentries := AList.entries_insert_of_notMem (b := IncomingFile.begun fileBegin dest
          (c.directory.openOutput dest).1) (AList.lookup_eq_none.mp hid)
        simp only [ConnectionClient.emit, send, onSocket, IncomingFile.begun] at hentries ⊢
        rw [hentries]
        exact h.streams.cons _
      simp only [ConnectionClient.emit, send, onSocket, transfers_concat, lookup_insert_update,
        record]
      have hdest : (c.directory.openOutput dest).2.absolutePath dest =
          c.directory.absolutePath dest := by
        rw [Directory.absolutePath, openOutput_path, Directory.absolutePath]
      rw [hdest]
      exact h.toKept.begin (IncomingFile.begun fileBegin dest (c.directory.openOutput dest).1)
        hid hpath rfl (onDisk_openOutput c.directory dest) (openOutput_path c.directory dest)

/-! ### The end of a connection -/

theorem abortIncoming_kept {os : Answers} (hos : Smooth os) (reason : String)
    {c : ConnectionClient} {live : Int32 → Option IncomingFile} {id : Int32} {st : IncomingFile}
    (h : Kept c.directory live (transfers c.emitted)) (hst : live id = some st)
    (hshort : st.bytesWritten < st.totalBytes) :
    Kept (c.abortIncoming os reason st).directory (Function.update live id none)
      (transfers (c.abortIncoming os reason st).emitted) := by
  obtain ⟨rfl, -, t, hfind, hpending, htpath⟩ := h.entry id st hst
  have hclose := close_sameNames os c.directory st.out
  have hthere : OnDisk c.directory (c.directory.absolutePath st.dest) := by
    rw [← htpath]
    exact h.onDisk t (List.mem_of_find?_eq_some hfind) (by simp [Transfer.Holds, hpending])
  obtain ⟨name, hname, hentry⟩ := hthere
  obtain rfl := absolutePath_injective hname
  have hexists : (Downloads.close os c.directory st.out).1.exists_ st.dest = true := by
    simp [Directory.exists_, hclose.entry, hentry]
  simp only [abortIncoming, closeOut, ConnectionClient.emit, transfers_concat, hexists, hshort,
    decide_true, Bool.and_self, if_true]
  refine Kept.settle h hst (fun path => ?_) ?_
  · rw [onDisk_delete hos, hclose.onDisk, Directory.absolutePath, hclose.path]
    simp [Directory.absolutePath]
  · rw [delete_path, hclose.path]

theorem dlookup_tail {entry : Sigma fun _ : Int32 => IncomingFile}
    {rest : List (Sigma fun _ : Int32 => IncomingFile)}
    (hnodup : (entry :: rest).NodupKeys) :
    (fun id => rest.dlookup id) =
      Function.update (fun id => (entry :: rest).dlookup id) entry.1 none := by
  funext id
  by_cases hid : id = entry.1
  · subst hid
    rw [Function.update_self, List.dlookup_eq_none]
    exact List.notMem_keys_of_nodupKeys_cons hnodup
  · rw [Function.update_of_ne hid, List.dlookup_cons_ne _ _ hid]

theorem abortEntries_kept {os : Answers} (hos : Smooth os) (reason : String)
    {entries : List (Sigma fun _ : Int32 => IncomingFile)} {c : ConnectionClient}
    (h : Kept c.directory (fun id => entries.dlookup id) (transfers c.emitted))
    (hnodup : entries.NodupKeys)
    (hshort : ∀ entry ∈ entries, entry.2.bytesWritten < entry.2.totalBytes) :
    let c' := entries.foldl (fun c entry => c.abortIncoming os reason entry.2) c
    Kept c'.directory (fun _ => none) (transfers c'.emitted) := by
  induction entries generalizing c with
  | nil => exact h
  | cons entry rest ih =>
      obtain ⟨hhead, hrest⟩ := List.forall_mem_cons.mp hshort
      refine ih ?_ (List.nodupKeys_of_nodupKeys_cons hnodup) hrest
      rw [dlookup_tail hnodup]
      exact abortIncoming_kept hos reason h (List.dlookup_cons_eq rest entry.1 entry.2) hhead

theorem abortEntries_streams (os : Answers) (reason : String)
    {entries : List (Sigma fun _ : Int32 => IncomingFile)} {c : ConnectionClient}
    (hopen : ∀ entry ∈ entries, entry.2.out.closed = false)
    (h : c.openStreams.Perm (streamsOf entries)) :
    (entries.foldl (fun c entry => c.abortIncoming os reason entry.2) c).openStreams = [] := by
  induction entries generalizing c with
  | nil => exact h.eq_nil
  | cons entry rest ih =>
      obtain ⟨hhead, hrest⟩ := List.forall_mem_cons.mp hopen
      exact ih hrest (closeOut_streams os hhead h)

theorem abortAllIncomingFiles_ledger {os : Answers} (hos : Smooth os) (reason : String)
    {c : ConnectionClient} (h : Ledger c) (hshort : AllShort c) :
    Ledger (c.abortAllIncomingFiles os reason) := by
  have hlookup (entry : Sigma fun _ : Int32 => IncomingFile)
      (hentry : entry ∈ c.incomingFiles.entries) :
      c.incomingFiles.lookup entry.1 = some entry.2 :=
    List.mem_dlookup c.incomingFiles.nodupKeys hentry
  refine ⟨?_, ?_⟩
  · refine abortEntries_kept hos reason h.toKept c.incomingFiles.nodupKeys fun entry hentry => ?_
    exact hshort entry.1 entry.2 (hlookup entry hentry)
  · have hnone := abortEntries_streams os reason
      (fun entry hentry => (h.entry entry.1 entry.2 (hlookup entry hentry)).2.1) h.streams
    rw [abortAllIncomingFiles, hnone]
    exact List.Perm.refl []

theorem allShort_empty {c : ConnectionClient} (h : c.incomingFiles = ∅) : AllShort c := by
  intro id st hst
  rw [h, AList.lookup_empty] at hst
  contradiction

theorem disconnect_ledger {os : Answers} (hos : Smooth os) {c : ConnectionClient} (h : Ledger c)
    (hshort : AllShort c) : Ledger (c.disconnect os) := by
  unfold disconnect
  dsimp only
  cases c.webSocket with
  | none => exact abortAllIncomingFiles_ledger hos _ (h.congr rfl rfl rfl) hshort
  | some ws => exact abortAllIncomingFiles_ledger hos _ (h.congr rfl rfl rfl) hshort

theorem connect_ledger {platform : Platform} {os : Answers} (hos : Smooth os)
    {payload : QrPayload} {deviceName : String} {c c' : ConnectionClient} (h : Ledger c)
    (hshort : AllShort c) (hc' : c.connect platform os payload deviceName = some c') :
    Ledger c' := by
  unfold connect at hc'
  obtain ⟨key, -, hdial⟩ := Option.bind_eq_some_iff.mp hc'
  obtain ⟨-, rfl⟩ := dial_eq_some.mp hdial
  exact (disconnect_ledger hos h hshort).congr rfl rfl rfl

theorem connectTrusted_ledger {platform : Platform} {os : Answers} (hos : Smooth os)
    {server : TrustedServer} {deviceName : String} {c c' : ConnectionClient} (h : Ledger c)
    (hshort : AllShort c) (hc' : c.connectTrusted platform os server deviceName = some c') :
    Ledger c' := by
  obtain ⟨-, rfl⟩ := dial_eq_some.mp hc'
  exact (disconnect_ledger hos h hshort).congr rfl rfl rfl

theorem onClosed_ledger {os : Answers} (hos : Smooth os) {ws : Nat} {reason : String}
    {c : ConnectionClient} (h : Ledger c) (hshort : c.webSocket = some ws → AllShort c) :
    Ledger (c.onClosed os ws reason) := by
  unfold onClosed
  split
  · exact h
  next hcurrent =>
    have hcurrent := not_ne_iff.mp hcurrent
    dsimp only
    cases c.state <;>
      exact abortAllIncomingFiles_ledger hos _ (h.congr rfl rfl rfl) (hshort hcurrent)

theorem onFailure_ledger {platform : Platform} {os : Answers} (hos : Smooth os) {ws : Nat}
    {message : Option String} {c c' : ConnectionClient} (h : Ledger c)
    (hshort : c.webSocket = some ws → AllShort c)
    (hc' : c.onFailure platform os ws message = some c') : Ledger c' := by
  unfold onFailure at hc'
  split at hc'
  · obtain rfl := Option.some.inj hc'
    exact h
  next hcurrent =>
    have haborted := abortAllIncomingFiles_ledger hos (wsFailed message) h
      (hshort (not_ne_iff.mp hcurrent))
    dsimp only at hc'
    split at hc'
    · refine connect_ledger hos ?_ (allShort_empty rfl) hc'
      exact haborted.congr rfl rfl rfl
    · obtain rfl := Option.some.inj hc'
      exact haborted.congr rfl rfl rfl

theorem act_ledger {platform : Platform} {os : Answers} (hos : Smooth os)
    {c c' : ConnectionClient} {event : Event} (h : Ledger c)
    (horderly : Orderly c (event, os) c') (hc' : act platform os c event = some c') :
    Ledger c' := by
  cases event with
  | fileSendBegin fileBegin =>
      obtain rfl := Option.some.inj hc'
      exact handleFileSendBegin_ledger hos h horderly
  | fileChunk frame =>
      obtain rfl := Option.some.inj hc'
      exact handleIncomingFileChunk_ledger hos h frame
  | cancelDownload id =>
      obtain rfl := Option.some.inj hc'
      exact cancelDownload_ledger hos h id
  | connect payload deviceName => exact connect_ledger hos h horderly hc'
  | connectTrusted server deviceName => exact connectTrusted_ledger hos h horderly hc'
  | disconnect =>
      obtain rfl := Option.some.inj hc'
      exact disconnect_ledger hos h horderly
  | onClosed ws reason =>
      obtain rfl := Option.some.inj hc'
      exact onClosed_ledger hos h horderly
  | onFailure ws message => exact onFailure_ledger hos h horderly hc'

/-! ### Consistency -/

theorem Ledger.consistent {c : ConnectionClient} (h : Ledger c) : Consistent c := by
  constructor
  · intro t ht
    refine (h.once t ht).imp_left fun hpending => ⟨hpending, ?_⟩
    obtain ⟨hfind, hlive⟩ := h.unended t ht hpending
    obtain ⟨st, hst⟩ := Option.isSome_iff_exists.mp hlive
    obtain ⟨-, hopen, u, hu, -, hpath⟩ := h.entry t.id st hst
    obtain rfl := Option.some.inj (hfind.symm.trans hu)
    exact ⟨st, hst, hpath.symm, hopen⟩
  · intro newer t older hts hcomplete
    have hholds : t.Holds := by simp [Transfer.Holds, hcomplete]
    refine ⟨h.onDisk t (by simp [hts]) hholds, fun u hu => ?_⟩
    have hapart := h.apart
    rw [hts] at hapart
    exact (List.pairwise_append.mp hapart).2.2 u hu t List.mem_cons_self hholds
  · intro newer t older hts hfailed hon
    obtain ⟨u, hu, hholds, hpath⟩ := h.held t (by simp [hts]) hon
    have hapart := h.apart
    rw [hts] at hu hapart
    rcases List.mem_append.mp hu with hu | hu
    · exact ⟨u, hu, hpath⟩
    · rcases List.mem_cons.mp hu with rfl | hu
      · exact absurd hfailed hholds
      · have hrest := (List.pairwise_append.mp hapart).2.1
        exact absurd hpath.symm ((List.pairwise_cons.mp hrest).1 u hu hholds)
  · intro id st hst
    obtain ⟨-, hopen, t, hfind, hpending, hpath⟩ := h.entry id st hst
    have hid : t.id = id := by simpa using List.find?_some hfind
    refine ⟨t, List.mem_of_find?_eq_some hfind, hid, hpending, st, ?_, hpath.symm, hopen⟩
    rw [hid]
    exact hst
  · exact h.streams

theorem ledger_of_fresh {c : ConnectionClient} (h : Fresh c) : Ledger c := by
  obtain ⟨hasDownloadsDir, directory, rfl⟩ := h
  refine ⟨?_, List.Perm.refl []⟩
  constructor <;> intros <;> simp_all [transfers]

theorem ledger_of_reachable {platform : Platform} {c : ConnectionClient}
    (h : ((downloads platform).restrict Orderly).Reachable c) : Ledger c := by
  induction h with
  | init hfresh => exact ledger_of_fresh hfresh
  | step _ hstep ih => exact act_ledger hstep.1.1 ih hstep.2 hstep.1.2

/-- Every reachable state is consistent, and after a disconnect no transfer is pending. -/
theorem consistent_of_orderly (platform : Platform) {c : ConnectionClient}
    (h : ((downloads platform).restrict Orderly).Reachable c) :
    Consistent c ∧ ∀ os, (c.disconnect os).incomingFiles = ∅ ∧
      (Smooth os → AllShort c → ∀ t ∈ transfers (c.disconnect os).emitted,
        t.terminals = [true] ∨ t.terminals = [false]) := by
  have hledger := ledger_of_reachable h
  refine ⟨hledger.consistent, fun os => ⟨rfl, fun hos hshort t ht => ?_⟩⟩
  have hended := (disconnect_ledger hos hledger hshort).consistent.once t ht
  refine hended.resolve_left ?_
  rintro ⟨-, st, hst, -⟩
  have hempty : (c.disconnect os).incomingFiles = ∅ := rfl
  rw [hempty, AList.lookup_empty] at hst
  contradiction

/-! ### Three runs -/

def office : TrustedServer :=
  { deviceId := "d1", token := "t1", wsUrl := "ws://192.168.1.5:9000", serverName := "PC"
    lastConnectedMs := 0 }

def receiving : Platform where
  decodeServerMsg _ := none
  base64UrlEncode _ := ""
  base64UrlDecode _ := none
  base64Decode _ := none
  hmacSha256 _ _ := []
  validUrl url := url = office.wsUrl
  sdkInt := 31

/-- The client after it has dialled. -/
def dialledOffice : ConnectionClient :=
  { hasDownloadsDir := true
    directory := { path := "/Downloads" }
    state := .connecting
    webSocket := some 0
    pendingWsUrl := office.wsUrl
    pendingHello := some (.trusted office "Pixel")
    sockets := [{ url := office.wsUrl }] }

/-- Three bytes in one chunk. -/
def threeBytes (last : Bool) : VideoFrame :=
  { type := FrameType.file, isKeyframe := last, hasConfig := false, ptsUs := 1
    payload := [1, 2, 3] }

def received (last : Bool) : ConnectionClient :=
  (dialledOffice.handleFileSendBegin {} ⟨1, "a.txt", 3⟩).handleIncomingFileChunk {}
    (threeBytes last)

/-- The PC uses an id again before its first transfer has ended. -/
def repeated : ConnectionClient :=
  (dialledOffice.handleFileSendBegin {} ⟨1, "a.txt", 3⟩).handleFileSendBegin {} ⟨1, "b.txt", 3⟩

theorem smooth_default : Smooth {} :=
  ⟨rfl, rfl, rfl, fun _ => rfl⟩

theorem step_default {c c' : ConnectionClient} {event : Event}
    (h : act receiving {} c event = some c') : (downloads receiving).step c (event, {}) c' :=
  ⟨smooth_default, h⟩

theorem dialledOffice_reachable :
    ((downloads receiving).restrict Orderly).Reachable dialledOffice := by
  have hstart : ((downloads receiving).restrict Orderly).Reachable
      { hasDownloadsDir := true, directory := { path := "/Downloads" } } := .init ⟨_, _, rfl⟩
  have hdial : (downloads receiving).step
      { hasDownloadsDir := true, directory := { path := "/Downloads" } }
      (.connectTrusted office "Pixel", {}) dialledOffice := step_default rfl
  exact hstart.step ⟨hdial, allShort_empty rfl⟩

theorem received_reachable (last : Bool) :
    ((downloads receiving).restrict Orderly).Reachable (received last) := by
  have hbegin : (downloads receiving).step dialledOffice
      (.fileSendBegin ⟨1, "a.txt", 3⟩, {})
      (dialledOffice.handleFileSendBegin {} ⟨1, "a.txt", 3⟩) := step_default rfl
  have hchunk : (downloads receiving).step (dialledOffice.handleFileSendBegin {} ⟨1, "a.txt", 3⟩)
      (.fileChunk (threeBytes last), {}) (received last) := step_default rfl
  refine (dialledOffice_reachable.step ⟨hbegin, fun _ _ => ⟨rfl, ?_⟩⟩).step ⟨hchunk, trivial⟩
  intro t ht
  exact absurd ht List.not_mem_nil

/-- A transfer whose entry was overwritten gets no terminal event; and a download that fails
with all its bytes there leaves its file. -/
theorem repeated_not_consistent :
    (∃ c, (downloads receiving).Reachable c ∧ ¬ Consistent c) ∧
      ∃ c, (downloads receiving).Reachable (received false) ∧
        (downloads receiving).step (received false) (.disconnect, {}) c ∧ ¬ Consistent c := by
  constructor
  · have hfirst : (downloads receiving).step dialledOffice (.fileSendBegin ⟨1, "a.txt", 3⟩, {})
        (dialledOffice.handleFileSendBegin {} ⟨1, "a.txt", 3⟩) := step_default rfl
    have hsecond : (downloads receiving).step
        (dialledOffice.handleFileSendBegin {} ⟨1, "a.txt", 3⟩)
        (.fileSendBegin ⟨1, "b.txt", 3⟩, {}) repeated := step_default rfl
    refine ⟨repeated, (dialledOffice_reachable.of_restrict.step hfirst).step hsecond, ?_⟩
    intro h
    have htransfer : ⟨1, "/Downloads/a.txt", []⟩ ∈ transfers repeated.emitted := by
      decide +kernel
    rcases h.once _ htransfer with ⟨-, st, hst, hpath, -⟩ | hcomplete | hfailed
    · have hdest : (repeated.incomingFiles.lookup 1).map (·.dest) = some "b.txt" := by
        decide +kernel
      rw [hst] at hdest
      have hdest : st.dest = "b.txt" := Option.some.inj hdest
      rw [hdest] at hpath
      exact absurd hpath (by decide +kernel)
    · contradiction
    · contradiction
  · refine ⟨_, (received_reachable false).of_restrict, step_default rfl, ?_⟩
    intro h
    have htransfers : transfers ((received false).disconnect {}).emitted =
        [⟨1, "/Downloads/a.txt", [false]⟩] := by
      decide +kernel
    have hon : OnDisk ((received false).disconnect {}).directory "/Downloads/a.txt" :=
      ⟨"a.txt", by decide +kernel, by decide +kernel⟩
    obtain ⟨u, hu, -⟩ := h.removed [] _ [] htransfers rfl hon
    exact absurd hu List.not_mem_nil

/-- The id may be used again after the end of its first transfer. -/
theorem consistent_of_orderly_twice :
    Consistent ((received true).handleFileSendBegin {} ⟨1, "a.txt", 3⟩) := by
  have hagain : (downloads receiving).step (received true) (.fileSendBegin ⟨1, "a.txt", 3⟩, {})
      ((received true).handleFileSendBegin {} ⟨1, "a.txt", 3⟩) := step_default rfl
  refine (consistent_of_orderly receiving
    ((received_reachable true).step ⟨hagain, fun _ _ => ⟨by decide +kernel, ?_⟩⟩)).1
  have htransfers : transfers (received true).emitted = [⟨1, "/Downloads/a.txt", [true]⟩] := by
    decide +kernel
  rw [htransfers]
  exact List.forall_mem_singleton.mpr fun _ => by decide +kernel

end RemoteControl.Phone.DownloadLedger
