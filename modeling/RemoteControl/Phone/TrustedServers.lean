import Mathlib.Data.List.Induction
import RemoteControl.Phone.Client
import RemoteControl.Wire.Serde

/-!
The phone's list of paired PCs (`app/net/TrustedServers.kt`): it is stored as JSON in the
preferences, and every change reads it, changes it and writes it back.
-/

namespace RemoteControl.Phone.TrustedServers

open RemoteControl.Wire.Serde
open RemoteControl.Phone.Client

/-! ### The store -/

/-- `json` with `listSerializer`: how a list is written as a text, and what is read of a text. -/
structure ListSerializer (Text : Type) where
  encodeToString : List TrustedServer → Text
  decodeFromString : Text → Option (List TrustedServer)
  decode_encode : ∀ items, decodeFromString (encodeToString items) = some items

def asI64 : Json → Option Int64
  | .num n => if -2 ^ 63 ≤ n ∧ n < 2 ^ 63 then some (Int64.ofInt n) else none
  | _ => none

def serverToJson (s : TrustedServer) : Json :=
  .obj
    [("deviceId", .str s.deviceId), ("token", .str s.token), ("wsUrl", .str s.wsUrl),
      ("serverName", .str s.serverName), ("lastConnectedMs", .num s.lastConnectedMs.toInt)]

def serverOfJson (j : Json) : Option TrustedServer := do
  let deviceId ← (← j.field "deviceId").asStr
  let token ← (← j.field "token").asStr
  let wsUrl ← (← j.field "wsUrl").asStr
  let serverName ← (← j.field "serverName").asStr
  let lastConnectedMs ← asI64 (← j.field "lastConnectedMs")
  return { deviceId, token, wsUrl, serverName, lastConnectedMs }

theorem serverOfJson_serverToJson (s : TrustedServer) :
    serverOfJson (serverToJson s) = some s := by
  have hlong : asI64 (.num s.lastConnectedMs.toInt) = some s.lastConnectedMs := by
    rw [asI64, if_pos ⟨s.lastConnectedMs.le_toInt, s.lastConnectedMs.toInt_lt⟩, Int64.ofInt_toInt]
  unfold serverOfJson serverToJson
  simp [Json.field, Json.asStr, List.lookup_cons, hlong]

/-- The serializer, with a JSON value in the place of its text. -/
def listSerializer : ListSerializer Json where
  encodeToString items := .arr (items.map serverToJson)
  decodeFromString
    | .arr elements => elements.mapM serverOfJson
    | _ => none
  decode_encode items := by
    induction items with
    | nil => rfl
    | cons s items ih =>
        dsimp only at ih ⊢
        rw [List.map_cons, List.mapM_cons, serverOfJson_serverToJson, ih]
        rfl

def maxEntries : Nat := 16

/-- The loop of `dedupeByServerName`; `seen` are the names before. -/
def dedupeFrom (seen : List String) : List TrustedServer → List TrustedServer
  | [] => []
  | s :: items =>
      if s.serverName ∈ seen then dedupeFrom seen items
      else s :: dedupeFrom (s.serverName :: seen) items

def dedupeByServerName (items : List TrustedServer) : List TrustedServer :=
  dedupeFrom [] items

section

variable {Text : Type} (json : ListSerializer Text)

/-- What `list` parses; a text that cannot be read counts as an empty list. -/
def parsed : Option Text → List TrustedServer
  | none => []
  | some raw => (json.decodeFromString raw).getD []

def save (items : List TrustedServer) : Option Text :=
  some (json.encodeToString items)

/-- `list`: the servers, and what the preferences hold afterwards. -/
def list : Option Text → List TrustedServer × Option Text
  | none => ([], none)
  | some raw =>
      let parsed := parsed json (some raw)
      let deduped := dedupeByServerName parsed
      (deduped, if deduped.length ≠ parsed.length then save json deduped else some raw)

def upsert (server : TrustedServer) (prefs : Option Text) : Option Text :=
  let current := (list json prefs).1.filter fun s =>
    s.deviceId != server.deviceId && s.serverName != server.serverName
  save json ((server :: current).take maxEntries)

def forget (deviceId : String) (prefs : Option Text) : Option Text :=
  save json ((list json prefs).1.filter fun s => s.deviceId != deviceId)

end

/-! ### Operations -/

inductive Op where
  | upsert (server : TrustedServer)
  | forget (deviceId : String)
  | list

/-- What the preferences hold after an operation. -/
def Op.perform {Text : Type} (json : ListSerializer Text) (prefs : Option Text) :
    Op → Option Text
  | .upsert server => TrustedServers.upsert json server prefs
  | .forget deviceId => TrustedServers.forget json deviceId prefs
  | .list => (TrustedServers.list json prefs).2

/-- What the preferences hold after a sequence of operations on an empty store. -/
def performAll {Text : Type} (json : ListSerializer Text) (ops : List Op) : Option Text :=
  ops.foldl (Op.perform json) none

/-- The list that `list` gives then. -/
def listed {Text : Type} (json : ListSerializer Text) (ops : List Op) : List TrustedServer :=
  (list json (performAll json ops)).1

/-! ### The first entry of each name -/

/-- The entry at a position, if no entry before it has its name. -/
def firstEntry (items : List TrustedServer) (i : Nat) : Option TrustedServer :=
  items[i]?.filter fun s => s.serverName ∉ (items.take i).map TrustedServer.serverName

def firstEntries (items : List TrustedServer) : List TrustedServer :=
  (List.range items.length).filterMap (firstEntry items)

theorem dedupeFrom_concat (seen : List String) (items : List TrustedServer) (s : TrustedServer) :
    dedupeFrom seen (items ++ [s]) =
      dedupeFrom seen items ++
        if s.serverName ∈ seen ∨ s.serverName ∈ items.map TrustedServer.serverName then []
        else [s] := by
  induction items generalizing seen with
  | nil =>
      simp only [List.nil_append, dedupeFrom, List.map_nil, List.not_mem_nil, or_false]
  | cons t items ih =>
      rw [List.cons_append, dedupeFrom, dedupeFrom, ih, ih]
      by_cases hseen : t.serverName ∈ seen
      · have hcond : (s.serverName ∈ seen ∨ s.serverName ∈ items.map TrustedServer.serverName) ↔
            (s.serverName ∈ seen ∨
              s.serverName ∈ (t :: items).map TrustedServer.serverName) := by
          rw [List.map_cons, List.mem_cons]
          constructor
          · exact fun h => h.imp_right .inr
          · rintro (h | h | h)
            · exact .inl h
            · exact .inl (h ▸ hseen)
            · exact .inr h
        rw [if_pos hseen, if_pos hseen]
        simp only [hcond]
      · have hcond : (s.serverName ∈ t.serverName :: seen ∨
            s.serverName ∈ items.map TrustedServer.serverName) ↔
            (s.serverName ∈ seen ∨
              s.serverName ∈ (t :: items).map TrustedServer.serverName) := by
          rw [List.map_cons, List.mem_cons, List.mem_cons, or_assoc, or_left_comm]
        rw [if_neg hseen, if_neg hseen, List.cons_append]
        simp only [hcond]

theorem firstEntry_concat_of_lt {items : List TrustedServer} {i : Nat} (h : i < items.length)
    (s : TrustedServer) : firstEntry (items ++ [s]) i = firstEntry items i := by
  rw [firstEntry, firstEntry, List.getElem?_append_left h, List.take_append_of_le_length h.le]

theorem firstEntry_concat (items : List TrustedServer) (s : TrustedServer) :
    firstEntry (items ++ [s]) items.length =
      if s.serverName ∈ items.map TrustedServer.serverName then none else some s := by
  rw [firstEntry, List.getElem?_concat_length, List.take_left]
  split
  · next hmem => exact Option.filter_some_neg (by simpa using hmem)
  · next hnew => exact Option.filter_some_pos (by simpa using hnew)

theorem firstEntries_concat (items : List TrustedServer) (s : TrustedServer) :
    firstEntries (items ++ [s]) =
      firstEntries items ++
        if s.serverName ∈ items.map TrustedServer.serverName then [] else [s] := by
  have hlast := firstEntry_concat items s
  have hbefore : (List.range items.length).filterMap (firstEntry (items ++ [s])) =
      firstEntries items :=
    List.filterMap_congr fun i hi => firstEntry_concat_of_lt (List.mem_range.mp hi) s
  rw [firstEntries, List.length_append, List.length_singleton, List.range_succ,
    List.filterMap_append, hbefore]
  by_cases hmem : s.serverName ∈ items.map TrustedServer.serverName
  · rw [if_pos hmem] at hlast ⊢
    rw [List.filterMap_cons_none hlast]
    rfl
  · rw [if_neg hmem] at hlast ⊢
    rw [List.filterMap_cons_some hlast]
    rfl

theorem dedupeByServerName_eq (items : List TrustedServer) :
    dedupeByServerName items = firstEntries items := by
  induction items using List.reverseRecOn with
  | nil => rfl
  | append_singleton items s ih =>
      rw [dedupeByServerName] at ih ⊢
      rw [dedupeFrom_concat, firstEntries_concat, ih]
      simp only [List.not_mem_nil, false_or]

/-! ### Distinct names -/

def DistinctNames (items : List TrustedServer) : Prop :=
  (items.map TrustedServer.serverName).Nodup

def DistinctIds (items : List TrustedServer) : Prop :=
  (items.map TrustedServer.deviceId).Nodup

theorem dedupeFrom_distinct (seen : List String) (items : List TrustedServer) :
    DistinctNames (dedupeFrom seen items) ∧
      ∀ s ∈ dedupeFrom seen items, s.serverName ∉ seen := by
  induction items generalizing seen with
  | nil => exact ⟨List.nodup_nil, fun s h => absurd h List.not_mem_nil⟩
  | cons t items ih =>
      rw [dedupeFrom]
      split
      · exact ih seen
      · next hnew =>
          obtain ⟨hnodup, hrest⟩ := ih (t.serverName :: seen)
          refine ⟨List.nodup_cons.mpr ⟨fun hmem => ?_, hnodup⟩, List.forall_mem_cons.mpr ⟨hnew, ?_⟩⟩
          · obtain ⟨s, hs, hname⟩ := List.mem_map.mp hmem
            exact hrest s hs (hname ▸ List.mem_cons_self)
          · exact fun s hs hseen => hrest s hs (List.mem_cons_of_mem _ hseen)

theorem dedupeFrom_sublist (seen : List String) (items : List TrustedServer) :
    (dedupeFrom seen items).Sublist items := by
  induction items generalizing seen with
  | nil => exact List.Sublist.slnil
  | cons t items ih =>
      rw [dedupeFrom]
      split
      · exact (ih seen).cons t
      · exact (ih _).cons_cons t

theorem dedupeFrom_of_distinct {seen : List String} {items : List TrustedServer}
    (h : DistinctNames items) (hseen : ∀ s ∈ items, s.serverName ∉ seen) :
    dedupeFrom seen items = items := by
  induction items generalizing seen with
  | nil => rfl
  | cons t items ih =>
      obtain ⟨hnew, hrest⟩ := List.nodup_cons.mp h
      obtain ⟨ht, hitems⟩ := List.forall_mem_cons.mp hseen
      rw [dedupeFrom, if_neg ht, ih hrest]
      intro s hs hmem
      rcases List.mem_cons.mp hmem with hname | hmem
      · exact hnew (hname ▸ List.mem_map_of_mem hs)
      · exact hitems s hs hmem

theorem dedupeByServerName_of_distinct {items : List TrustedServer} (h : DistinctNames items) :
    dedupeByServerName items = items :=
  dedupeFrom_of_distinct h fun _ _ => List.not_mem_nil

theorem dedupeByServerName_distinct (items : List TrustedServer) :
    DistinctNames (dedupeByServerName items) :=
  (dedupeFrom_distinct [] items).1

/-! ### The list of a store -/

section

variable {Text : Type} (json : ListSerializer Text)

theorem list_fst (prefs : Option Text) :
    (list json prefs).1 = dedupeByServerName (parsed json prefs) := by
  cases prefs <;> rfl

theorem parsed_save (items : List TrustedServer) : parsed json (save json items) = items := by
  rw [save, parsed, json.decode_encode]
  rfl

theorem list_snd (prefs : Option Text) :
    parsed json (list json prefs).2 = dedupeByServerName (parsed json prefs) := by
  cases prefs with
  | none => rfl
  | some raw =>
      rw [list]
      dsimp only
      split
      · exact parsed_save json _
      · next hlength =>
          have hsublist := dedupeFrom_sublist [] (parsed json (some raw))
          exact (hsublist.eq_of_length (not_not.mp hlength)).symm

theorem list_list (prefs : Option Text) :
    list json (list json prefs).2 = list json prefs := by
  cases prefs with
  | none => rfl
  | some raw =>
      have hdistinct := dedupeByServerName_distinct (parsed json (some raw))
      by_cases hlength : (dedupeByServerName (parsed json (some raw))).length =
          (parsed json (some raw)).length
      · have hlist : list json (some raw) =
            (dedupeByServerName (parsed json (some raw)), some raw) := by
          rw [list]
          exact congrArg (Prod.mk _) (if_neg (not_not.mpr hlength))
        rw [hlist]
        exact hlist
      · have hlist : list json (some raw) =
            (dedupeByServerName (parsed json (some raw)),
              save json (dedupeByServerName (parsed json (some raw)))) := by
          rw [list]
          exact congrArg (Prod.mk _) (if_pos hlength)
        have hparsed := parsed_save json (dedupeByServerName (parsed json (some raw)))
        rw [hlist, save, list, ← save, hparsed, dedupeByServerName_of_distinct hdistinct]
        exact congrArg (Prod.mk _) (if_neg (not_not.mpr rfl))

end

/-! ### The list without its store -/

/-- A server in front of those that share neither its name nor its device id. -/
def merge (server : TrustedServer) (items : List TrustedServer) : List TrustedServer :=
  server :: items.filter fun s =>
    s.deviceId != server.deviceId && s.serverName != server.serverName

def Op.apply (items : List TrustedServer) : Op → List TrustedServer
  | .upsert server => (merge server items).take maxEntries
  | .forget deviceId => items.filter fun s => s.deviceId != deviceId
  | .list => items

def entries (ops : List Op) : List TrustedServer :=
  ops.foldl Op.apply []

theorem entries_concat (ops : List Op) (op : Op) :
    entries (ops ++ [op]) = op.apply (entries ops) := by
  rw [entries, List.foldl_append]
  rfl

/-- The last upsert for the name of its server. -/
structure Latest (ops : List Op) (i : Nat) (s : TrustedServer) : Prop where
  upsert : ops[i]? = some (.upsert s)
  last : ∀ j s', i < j → ops[j]? = some (.upsert s') → s'.serverName ≠ s.serverName

/-- Why a server that was upserted is missing: it was forgotten, it was replaced, or a later
upsert found room for newer servers only. -/
inductive Displaced (given : List Op → List TrustedServer) (ops : List Op) (i : Nat)
    (s : TrustedServer) : Prop
  | forgotten {j : Nat} : i < j → ops[j]? = some (.forget s.deviceId) → Displaced given ops i s
  | replaced {j : Nat} {s' : TrustedServer} : i < j → ops[j]? = some (.upsert s') →
      s'.serverName = s.serverName ∨ s'.deviceId = s.deviceId → Displaced given ops i s
  | crowded {j : Nat} {s' : TrustedServer} : i < j → ops[j]? = some (.upsert s') →
      (given (ops.take (j + 1))).length = maxEntries →
      (∀ t ∈ given (ops.take (j + 1)), ∃ k, i < k ∧ Latest (ops.take (j + 1)) k t) →
      Displaced given ops i s

/-- The entries of a list come from upserts, the later one first. -/
def NewestFirst (ops : List Op) (items : List TrustedServer) : Prop :=
  items.Pairwise fun a b => ∀ i j, Latest ops i a → Latest ops j b → j < i

/-- The list that is given after the operations. -/
structure Canonical (given : List Op → List TrustedServer) (ops : List Op) : Prop where
  names : DistinctNames (given ops)
  ids : DistinctIds (given ops)
  bounded : (given ops).length ≤ maxEntries
  latest : ∀ s ∈ given ops, ∃ i, Latest ops i s
  newestFirst : NewestFirst ops (given ops)
  missing : ∀ i s, ops[i]? = some (.upsert s) → s ∈ given ops ∨ Displaced given ops i s

section

variable {ops : List Op} {op : Op} {i : Nat} {s server : TrustedServer}
  {items : List TrustedServer}

theorem lt_of_getElem? {op' : Op} (h : ops[i]? = some op') : i < ops.length :=
  (List.getElem?_eq_some_iff.mp h).1

theorem getElem?_concat_of_some {op' : Op} (h : ops[i]? = some op') :
    (ops ++ [op])[i]? = some op' := by
  rw [List.getElem?_append_left (lt_of_getElem? h)]
  exact h

theorem getElem?_concat_cases {op' : Op} (h : (ops ++ [op])[i]? = some op') :
    ops[i]? = some op' ∨ i = ops.length ∧ op' = op := by
  rcases lt_trichotomy i ops.length with hlt | rfl | hgt
  · rw [List.getElem?_append_left hlt] at h
    exact .inl h
  · rw [List.getElem?_concat_length] at h
    exact .inr ⟨rfl, (Option.some.inj h).symm⟩
  · rw [List.getElem?_eq_none (by simp; omega)] at h
    cases h

theorem Latest.concat (h : Latest ops i s)
    (hop : ∀ s', op = .upsert s' → s'.serverName ≠ s.serverName) : Latest (ops ++ [op]) i s := by
  refine ⟨getElem?_concat_of_some h.upsert, fun j s' hlt hj => ?_⟩
  rcases getElem?_concat_cases hj with hold | ⟨-, heq⟩
  · exact h.last j s' hlt hold
  · exact hop s' heq.symm

theorem latest_concat_cases (h : Latest (ops ++ [op]) i s) :
    Latest ops i s ∨ i = ops.length ∧ op = .upsert s := by
  rcases getElem?_concat_cases h.upsert with hold | ⟨hi, heq⟩
  · exact .inl ⟨hold, fun j s' hlt hj => h.last j s' hlt (getElem?_concat_of_some hj)⟩
  · exact .inr ⟨hi, heq.symm⟩

theorem latest_concat_self : Latest (ops ++ [.upsert s]) ops.length s := by
  refine ⟨List.getElem?_concat_length, fun j s' hlt hj => ?_⟩
  have := lt_of_getElem? hj
  rw [List.length_append, List.length_singleton] at this
  omega

theorem Displaced.concat {given : List Op → List TrustedServer} (h : Displaced given ops i s) :
    Displaced given (ops ++ [op]) i s := by
  cases h with
  | forgotten hlt hj => exact .forgotten hlt (getElem?_concat_of_some hj)
  | replaced hlt hj hsame => exact .replaced hlt (getElem?_concat_of_some hj) hsame
  | @crowded j s' hlt hj hfull hnewer =>
      have htake : (ops ++ [op]).take (j + 1) = ops.take (j + 1) :=
        List.take_append_of_le_length (lt_of_getElem? hj)
      exact .crowded hlt (getElem?_concat_of_some hj) (htake ▸ hfull) (htake ▸ hnewer)

theorem latest_or_displaced {given : List Op → List TrustedServer}
    (h : ops[i]? = some (.upsert s)) : Latest ops i s ∨ Displaced given ops i s := by
  by_cases hlast : ∀ j s', i < j → ops[j]? = some (.upsert s') → s'.serverName ≠ s.serverName
  · exact .inl ⟨h, hlast⟩
  · push Not at hlast
    obtain ⟨j, s', hlt, hj, hname⟩ := hlast
    exact .inr (.replaced hlt hj (.inl hname))

theorem mem_merge : s ∈ merge server items ↔
    s = server ∨ s ∈ items ∧ s.deviceId ≠ server.deviceId ∧ s.serverName ≠ server.serverName := by
  simp [merge]

theorem NewestFirst.kept {kept : List TrustedServer} (h : NewestFirst ops items)
    (hkept : kept.Sublist items)
    (hnot : ∀ s ∈ kept, ∀ s', op = .upsert s' → s'.serverName ≠ s.serverName) :
    NewestFirst (ops ++ [op]) kept := by
  refine (h.sublist hkept).imp_of_mem fun {a b} ha hb horder i j hi hj => ?_
  have hold {s : TrustedServer} {i : Nat} (hs : s ∈ kept) (h : Latest (ops ++ [op]) i s) :
      Latest ops i s :=
    (latest_concat_cases h).resolve_right fun hlast => hnot s hs s hlast.2 rfl
  exact horder i j (hold ha hi) (hold hb hj)

theorem NewestFirst.merge (h : NewestFirst ops items) :
    NewestFirst (ops ++ [.upsert server]) (merge server items) := by
  have hname : ∀ s ∈ (TrustedServers.merge server items).tail,
      s.serverName ≠ server.serverName := by
    intro s hs
    have hs := (List.mem_filter.mp hs).2
    simp only [Bool.and_eq_true, bne_iff_ne] at hs
    exact hs.2
  refine List.pairwise_cons.mpr ⟨fun b hb i j hi hj => ?_, ?_⟩
  · have hi' : i = ops.length := by
      rcases latest_concat_cases hi with hold | ⟨hi', -⟩
      · exact absurd rfl (hi.last _ server (lt_of_getElem? hold.upsert) List.getElem?_concat_length)
      · exact hi'
    rcases latest_concat_cases hj with hold | ⟨-, heq⟩
    · rw [hi']
      exact lt_of_getElem? hold.upsert
    · cases heq
      exact absurd rfl (hname server hb)
  · refine h.kept (List.filter_sublist) fun s hs s' heq => ?_
    cases heq
    exact (hname s hs).symm

theorem merge_distinct (hnames : DistinctNames items) (hids : DistinctIds items) :
    DistinctNames (merge server items) ∧ DistinctIds (merge server items) := by
  have hother : ∀ s ∈ (merge server items).tail,
      s.deviceId ≠ server.deviceId ∧ s.serverName ≠ server.serverName := by
    intro s hs
    simpa using (List.mem_filter.mp hs).2
  refine ⟨List.nodup_cons.mpr ⟨fun hmem => ?_, ?_⟩, List.nodup_cons.mpr ⟨fun hmem => ?_, ?_⟩⟩
  · obtain ⟨s, hs, hname⟩ := List.mem_map.mp hmem
    exact (hother s hs).2 hname
  · exact hnames.sublist (List.filter_sublist.map _)
  · obtain ⟨s, hs, hid⟩ := List.mem_map.mp hmem
    exact (hother s hs).1 hid
  · exact hids.sublist (List.filter_sublist.map _)

theorem latest_merge (h : ∀ s ∈ items, ∃ i, Latest ops i s) :
    ∀ s ∈ merge server items, ∃ i, Latest (ops ++ [.upsert server]) i s := by
  intro s hs
  rcases mem_merge.mp hs with rfl | ⟨hs, -, hname⟩
  · exact ⟨ops.length, latest_concat_self⟩
  · obtain ⟨i, hi⟩ := h s hs
    refine ⟨i, hi.concat fun s' heq => ?_⟩
    cases heq
    exact hname.symm

theorem displaced_of_crowded (h : Canonical entries ops) (hi : Latest ops i s)
    (hmem : s ∈ merge server (entries ops))
    (hnot : s ∉ (merge server (entries ops)).take maxEntries) :
    Displaced entries (ops ++ [.upsert server]) i s := by
  have hmissing : s ∈ (merge server (entries ops)).drop maxEntries := by
    rw [← List.take_append_drop maxEntries (merge server (entries ops))] at hmem
    exact (List.mem_append.mp hmem).resolve_left hnot
  have hall : (ops ++ [Op.upsert server]).take (ops.length + 1) = ops ++ [.upsert server] :=
    List.take_of_length_le (by simp)
  have hgiven : entries (ops ++ [.upsert server]) =
      (merge server (entries ops)).take maxEntries :=
    entries_concat ops _
  have hname : server.serverName ≠ s.serverName := by
    rcases mem_merge.mp hmem with rfl | ⟨-, -, hname⟩
    · exact absurd (List.mem_cons_self) hnot
    · exact hname.symm
  have hs : Latest (ops ++ [.upsert server]) i s :=
    hi.concat fun s' heq => by cases heq; exact hname
  have horder : NewestFirst (ops ++ [.upsert server]) (merge server (entries ops)) :=
    h.newestFirst.merge
  rw [NewestFirst, ← List.take_append_drop maxEntries (merge server (entries ops)),
    List.pairwise_append] at horder
  refine .crowded (lt_of_getElem? hi.upsert) List.getElem?_concat_length ?_ fun t ht => ?_
  · rw [hall, hgiven, List.length_take]
    have hpos := List.length_pos_of_mem hmissing
    rw [List.length_drop] at hpos
    omega
  · rw [hall] at ht ⊢
    rw [hgiven] at ht
    obtain ⟨k, hk⟩ := latest_merge h.latest t (List.mem_of_mem_take ht)
    exact ⟨k, horder.2.2 t ht s hmissing k i hk hs, hk⟩

theorem Canonical.upsert (h : Canonical entries ops) (server : TrustedServer) :
    Canonical entries (ops ++ [.upsert server]) := by
  have hgiven : entries (ops ++ [.upsert server]) =
      (merge server (entries ops)).take maxEntries :=
    entries_concat ops _
  obtain ⟨hnames, hids⟩ := @merge_distinct server _ h.names h.ids
  have htake := List.take_sublist maxEntries (merge server (entries ops))
  rw [← hgiven] at htake
  refine ⟨hnames.sublist (htake.map _), hids.sublist (htake.map _), ?_, fun s hs => ?_,
    h.newestFirst.merge.sublist htake, fun i s hi => ?_⟩
  · rw [hgiven]
    exact List.length_take_le _ _
  · exact latest_merge h.latest s (htake.mem hs)
  rcases getElem?_concat_cases hi with hold | ⟨-, heq⟩
  · rcases h.missing i s hold with hmem | hmissing
    · by_cases hother : server.serverName ≠ s.serverName ∧ server.deviceId ≠ s.deviceId
      · have hmerge : s ∈ merge server (entries ops) :=
          mem_merge.mpr (.inr ⟨hmem, hother.2.symm, hother.1.symm⟩)
        rcases latest_or_displaced hold with hlatest | hmissing
        · by_cases hkept : s ∈ (merge server (entries ops)).take maxEntries
          · exact .inl (hgiven ▸ hkept)
          · exact .inr (displaced_of_crowded h hlatest hmerge hkept)
        · exact .inr hmissing.concat
      · rw [not_and_or, not_not, not_not] at hother
        exact .inr (.replaced (lt_of_getElem? hold) List.getElem?_concat_length hother)
    · exact .inr hmissing.concat
  · cases heq
    rw [hgiven]
    exact .inl List.mem_cons_self

theorem Canonical.forget (h : Canonical entries ops) (deviceId : String) :
    Canonical entries (ops ++ [.forget deviceId]) := by
  have hgiven : entries (ops ++ [.forget deviceId]) =
      (entries ops).filter fun s => s.deviceId != deviceId :=
    entries_concat ops _
  have hkept : (entries (ops ++ [.forget deviceId])).Sublist (entries ops) :=
    hgiven ▸ List.filter_sublist
  have hnot (s' : TrustedServer) : Op.forget deviceId ≠ .upsert s' := nofun
  refine ⟨h.names.sublist (hkept.map _), h.ids.sublist (hkept.map _),
    hkept.length_le.trans h.bounded, fun s hs => ?_, ?_, fun i s hi => ?_⟩
  · obtain ⟨i, hi⟩ := h.latest s (hkept.mem hs)
    exact ⟨i, hi.concat fun s' heq => absurd heq (hnot s')⟩
  · exact h.newestFirst.kept hkept fun _ _ s' heq => absurd heq (hnot s')
  rcases getElem?_concat_cases hi with hold | ⟨-, heq⟩
  · rcases h.missing i s hold with hmem | hmissing
    · by_cases hid : s.deviceId = deviceId
      · exact .inr (.forgotten (lt_of_getElem? hold) (hid ▸ List.getElem?_concat_length))
      · rw [hgiven]
        exact .inl (List.mem_filter.mpr ⟨hmem, bne_iff_ne.mpr hid⟩)
    · exact .inr hmissing.concat
  · cases heq

theorem Canonical.list (h : Canonical entries ops) : Canonical entries (ops ++ [.list]) := by
  have hgiven : entries (ops ++ [.list]) = entries ops := entries_concat ops _
  have hnot (s' : TrustedServer) : Op.list ≠ .upsert s' := nofun
  refine ⟨hgiven ▸ h.names, hgiven ▸ h.ids, hgiven ▸ h.bounded, fun s hs => ?_, ?_,
    fun i s hi => ?_⟩
  · obtain ⟨i, hi⟩ := h.latest s (hgiven ▸ hs)
    exact ⟨i, hi.concat fun s' heq => absurd heq (hnot s')⟩
  · rw [hgiven]
    exact h.newestFirst.kept (List.Sublist.refl _) fun _ _ s' heq => absurd heq (hnot s')
  rcases getElem?_concat_cases hi with hold | ⟨-, heq⟩
  · rw [hgiven]
    exact (h.missing i s hold).imp_right Displaced.concat
  · cases heq

end

theorem canonical_entries (ops : List Op) : Canonical entries ops := by
  induction ops using List.reverseRecOn with
  | nil =>
      exact ⟨List.nodup_nil, List.nodup_nil, Nat.zero_le _, fun s h => absurd h List.not_mem_nil,
        List.Pairwise.nil, fun i s h => nomatch h⟩
  | append_singleton ops op ih =>
      cases op with
      | upsert server => exact ih.upsert server
      | forget deviceId => exact ih.forget deviceId
      | list => exact ih.list

/-! ### The stored list -/

section

variable {Text : Type} (json : ListSerializer Text)

theorem parsed_performAll (ops : List Op) : parsed json (performAll json ops) = entries ops := by
  induction ops using List.reverseRecOn with
  | nil => rfl
  | append_singleton ops op ih =>
      have hstep : performAll json (ops ++ [op]) = op.perform json (performAll json ops) := by
        rw [performAll, List.foldl_append]
        rfl
      have hgiven : dedupeByServerName (entries ops) = entries ops :=
        dedupeByServerName_of_distinct (canonical_entries ops).names
      rw [hstep, entries_concat]
      cases op with
      | upsert server =>
          rw [Op.perform, upsert, parsed_save, list_fst, ih, hgiven]
          rfl
      | forget deviceId =>
          rw [Op.perform, forget, parsed_save, list_fst, ih, hgiven]
          rfl
      | list =>
          rw [Op.perform, list_snd, ih, hgiven]
          rfl

theorem listed_eq (ops : List Op) : listed json ops = entries ops := by
  rw [listed, list_fst, parsed_performAll]
  exact dedupeByServerName_of_distinct (canonical_entries ops).names

/-- After any operations on an empty store the list is canonical. Of any stored content it gives
the first entry of each name, in order, and a second time it gives the same and changes nothing. -/
theorem list_canonical :
    (∀ ops, Canonical (listed json) ops) ∧
      ∀ prefs, (list json prefs).1 = firstEntries (parsed json prefs) ∧
        list json (list json prefs).2 = list json prefs := by
  refine ⟨fun ops => ?_, fun prefs => ⟨?_, list_list json prefs⟩⟩
  · rw [funext (listed_eq json)]
    exact canonical_entries ops
  · rw [list_fst, dedupeByServerName_eq]

end

def pairedServer (deviceId serverName : String) : TrustedServer :=
  { deviceId, token := "token", wsUrl := "ws://10.0.0.2:5000/ws", serverName
    lastConnectedMs := 1700000000000 }

def pairedAgain : List Op :=
  [.upsert (pairedServer "1" "ADMIN"), .upsert (pairedServer "2" "LAPTOP"), .list,
    .upsert (pairedServer "3" "ADMIN")]

/-- A PC that was paired again is listed once, and first. -/
theorem list_canonical_pairedAgain :
    Canonical (listed listSerializer) pairedAgain ∧
      (listed listSerializer pairedAgain).map TrustedServer.deviceId = ["3", "2"] :=
  ⟨(list_canonical listSerializer).1 pairedAgain, by decide +kernel⟩

end RemoteControl.Phone.TrustedServers
