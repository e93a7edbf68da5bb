import Mathlib.Tactic.Ring
import RemoteControl.Phone.QrCode

/-!
How the phone takes an authority apart (`QrPayload.parseAuthority`): the last colon, and the integer
after it.
-/

namespace RemoteControl.Phone.Authorities

open RemoteControl.Phone.QrCode

/-! ### Integers -/

theorem foldl_digits_none (ds : List Char) :
    ds.foldl
      (fun n? c =>
        n?.bind fun n => if c.isDigit then some (10 * n + (c.toNat - '0'.toNat)) else none)
      none = none := by
  induction ds with
  | nil => rfl
  | cons d ds ih => exact ih

theorem foldl_digits (ds : List Char) (n : Nat) :
    ds.foldl
      (fun n? c =>
        n?.bind fun n => if c.isDigit then some (10 * n + (c.toNat - '0'.toNat)) else none)
      (some n) =
      if ds.all Char.isDigit then some (Nat.ofDigitChars 10 ds n) else none := by
  induction ds generalizing n with
  | nil => simp
  | cons d ds ih =>
      rw [List.foldl_cons, Option.bind_some, Nat.ofDigitChars_cons, List.all_cons]
      by_cases hd : d.isDigit = true
      · rw [if_pos hd, ih, hd, Bool.true_and]
      · rw [if_neg hd, foldl_digits_none, Bool.eq_false_iff.mpr hd, Bool.false_and]
        rfl

theorem digits_eq_some_iff {ds : List Char} {n : Nat} :
    digits ds = some n ↔
      ds ≠ [] ∧ (∀ c ∈ ds, c.isDigit = true) ∧ Nat.ofDigitChars 10 ds 0 = n := by
  rw [digits, foldl_digits, ← List.all_eq_true]
  by_cases hne : ds = []
  · simp [hne]
  · by_cases hdigits : ds.all Char.isDigit = true
    · rw [if_neg hne, if_pos hdigits, Option.some.injEq]
      exact ⟨fun h => ⟨hne, hdigits, h⟩, fun h => h.2.2⟩
    · rw [if_neg hne, if_neg hdigits]
      exact ⟨fun h => (Option.some_ne_none n h.symm).elim, fun h => absurd h.2.1 hdigits⟩

theorem toIntOrNull_cases {s : List Char} {n : Int32}
    (h : toIntOrNull (String.ofList s) = some n) :
    ∃ ds, ds ≠ [] ∧ (∀ c ∈ ds, c.isDigit = true) ∧
      (s = '-' :: ds ∧ n.toInt = -(Nat.ofDigitChars 10 ds 0 : Int) ∨
        (s = '+' :: ds ∨ s = ds) ∧ n.toInt = (Nat.ofDigitChars 10 ds 0 : Int)) := by
  rw [toIntOrNull, String.toList_ofList, Option.bind_eq_some_iff] at h
  obtain ⟨v, hv, hrange⟩ := h
  by_cases hfits : Int32.minValue.toInt ≤ v ∧ v ≤ Int32.maxValue.toInt
  swap
  · rw [if_neg hfits] at hrange
    cases hrange
  rw [if_pos hfits, Option.some.injEq] at hrange
  subst hrange
  obtain ⟨hmin, hmax⟩ := hfits
  have htoInt : (Int32.ofInt v).toInt = v :=
    Int32.toInt_ofInt_of_le hmin (Int.lt_add_one_of_le hmax)
  rw [htoInt]
  split at hv
  · obtain ⟨_, hdo, rfl⟩ := Option.map_eq_some_iff.mp hv
    obtain ⟨k, hk, hcast⟩ := Option.bind_eq_some_iff.mp hdo
    obtain rfl := Option.some.inj hcast
    obtain ⟨hne, hdigits, rfl⟩ := digits_eq_some_iff.mp hk
    exact ⟨_, hne, hdigits, .inl ⟨rfl, rfl⟩⟩
  · obtain ⟨k, hk, rfl⟩ := Option.map_eq_some_iff.mp hv
    obtain ⟨hne, hdigits, rfl⟩ := digits_eq_some_iff.mp hk
    exact ⟨_, hne, hdigits, .inr ⟨.inl rfl, rfl⟩⟩
  · obtain ⟨k, hk, rfl⟩ := Option.map_eq_some_iff.mp hv
    obtain ⟨hne, hdigits, rfl⟩ := digits_eq_some_iff.mp hk
    exact ⟨_, hne, hdigits, .inr ⟨.inr rfl, rfl⟩⟩

/-- The text of an `Int`. -/
def intText (n : Int32) : List Char :=
  (toString n).toList

/-- The characters of an integer. -/
def isIntChar (c : Char) : Bool :=
  c.isDigit || c = '-' || c = '+'

theorem toIntOrNull_chars {s : List Char} {n : Int32}
    (h : toIntOrNull (String.ofList s) = some n) :
    s ≠ [] ∧ ∀ c ∈ s, isIntChar c = true := by
  obtain ⟨ds, hne, hdigits, ⟨rfl, -⟩ | ⟨rfl | rfl, -⟩⟩ := toIntOrNull_cases h
  · exact ⟨List.cons_ne_nil _ _, by simpa [isIntChar] using fun c hc => .inl (.inl (hdigits c hc))⟩
  · exact ⟨List.cons_ne_nil _ _, by simpa [isIntChar] using fun c hc => .inl (.inl (hdigits c hc))⟩
  · exact ⟨hne, by simpa [isIntChar] using fun c hc => .inl (.inl (hdigits c hc))⟩

theorem intText_eq (n : Int32) :
    intText n = if 0 ≤ n.toInt then Nat.toDigits 10 n.toInt.toNat
      else '-' :: Nat.toDigits 10 (-n.toInt).toNat := by
  have htext : toString n = n.toInt.repr := rfl
  rw [intText, htext, Int.repr_eq_if]
  split
  · exact Nat.toList_repr
  · simp

theorem intText_chars (n : Int32) :
    intText n ≠ [] ∧ ∀ c ∈ intText n, c.isDigit = true ∨ c = '-' := by
  have hdigits (k : Nat) : ∀ c ∈ Nat.toDigits 10 k, c.isDigit = true := fun c hc =>
    Nat.isDigit_of_mem_toDigits (by decide) (by decide) hc
  rw [intText_eq]
  split
  · exact ⟨Nat.toDigits_ne_nil, fun c hc => .inl (hdigits _ c hc)⟩
  · refine ⟨List.cons_ne_nil _ _, fun c hc => ?_⟩
    rcases List.mem_cons.mp hc with rfl | hc
    · exact .inr rfl
    · exact .inl (hdigits _ c hc)

theorem ofDigitChars_lt {ds : List Char} (h : ∀ c ∈ ds, c.isDigit = true) :
    Nat.ofDigitChars 10 ds 0 < 10 ^ ds.length := by
  induction ds with
  | nil => simp
  | cons d ds ih =>
      have hlater := ih fun c hc => h c (List.mem_cons_of_mem _ hc)
      have hd : d.toNat - '0'.toNat ≤ 9 := by
        have hbounds := Char.isDigit_iff_toNat.mp (h d List.mem_cons_self)
        have hzero : '0'.toNat = 48 := rfl
        have hnine : '9'.toNat = 57 := rfl
        omega
      rw [Nat.ofDigitChars_cons, Nat.ofDigitChars_eq_ofDigitChars_zero, List.length_cons,
        Nat.pow_succ]
      calc 10 ^ ds.length * (10 * 0 + (d.toNat - '0'.toNat)) + Nat.ofDigitChars 10 ds 0
          < 10 ^ ds.length * 9 + 10 ^ ds.length := by
            refine Nat.add_lt_add_of_le_of_lt (Nat.mul_le_mul_left _ ?_) hlater
            omega
        _ = 10 ^ ds.length * 10 := by ring

theorem length_toDigits_le {ds : List Char} (hne : ds ≠ []) (h : ∀ c ∈ ds, c.isDigit = true) :
    (Nat.toDigits 10 (Nat.ofDigitChars 10 ds 0)).length ≤ ds.length :=
  (Nat.length_toDigits_le_iff (by decide) (List.length_pos_iff.mpr hne)).mpr (ofDigitChars_lt h)

theorem length_intText_le {s : List Char} {n : Int32}
    (h : toIntOrNull (String.ofList s) = some n) : (intText n).length ≤ s.length := by
  obtain ⟨ds, hne, hdigits, hcases⟩ := toIntOrNull_cases h
  have hshort := length_toDigits_le hne hdigits
  rw [intText_eq]
  rcases hcases with ⟨rfl, hn⟩ | ⟨hs, hn⟩
  · rw [hn, Int.neg_neg, Int.toNat_natCast]
    split
    · have hzero : (-(Nat.ofDigitChars 10 ds 0 : Int)).toNat = 0 := by omega
      rw [hzero, Nat.toDigits_zero]
      simp
    · simpa using hshort
  · have hle : ds.length ≤ s.length := by
      rcases hs with rfl | rfl
      · exact Nat.le_succ _
      · exact Nat.le_refl _
    rw [hn, if_pos (Int.natCast_nonneg _), Int.toNat_natCast]
    exact hshort.trans hle

theorem toIntOrNull_of_digits {ds : List Char} (hne : ds ≠ [])
    (hdigits : ∀ c ∈ ds, c.isDigit = true) :
    toIntOrNull (String.ofList ds) =
      if Nat.ofDigitChars 10 ds 0 < 2 ^ 31 then some (Int32.ofNat (Nat.ofDigitChars 10 ds 0))
      else none := by
  have hvalue := digits_eq_some_iff.mpr ⟨hne, hdigits, rfl⟩
  have hmin : Int32.minValue.toInt = -(2 ^ 31) := rfl
  have hmax : Int32.maxValue.toInt = 2 ^ 31 - 1 := rfl
  have hrange : (Int32.minValue.toInt ≤ (Nat.ofDigitChars 10 ds 0 : Int) ∧
      (Nat.ofDigitChars 10 ds 0 : Int) ≤ Int32.maxValue.toInt) ↔
        Nat.ofDigitChars 10 ds 0 < 2 ^ 31 := by
    rw [hmin, hmax]
    omega
  rw [toIntOrNull, String.toList_ofList]
  split
  · exact absurd (hdigits '-' List.mem_cons_self) (by decide)
  · exact absurd (hdigits '+' List.mem_cons_self) (by decide)
  · rw [hvalue, Option.map_some, Option.bind_some]
    exact if_congr hrange rfl rfl

theorem isDigit_toDigits (k : Nat) : ∀ c ∈ Nat.toDigits 10 k, c.isDigit = true :=
  fun _ hc => Nat.isDigit_of_mem_toDigits (by decide) (by decide) hc

theorem toIntOrNull_intText (n : Int32) :
    toIntOrNull (String.ofList (intText n)) = some n := by
  have hmin := Int32.minValue_le_toInt n
  have hmax := Int32.toInt_le n
  rw [intText_eq]
  by_cases hn : 0 ≤ n.toInt
  · have hlt : n.toInt.toNat < 2 ^ 31 := by
      have hbound : Int32.maxValue.toInt = 2 ^ 31 - 1 := rfl
      omega
    have hback : Int32.ofNat n.toInt.toNat = n := by
      rw [← Int32.ofInt_eq_ofNat, Int.toNat_of_nonneg hn, Int32.ofInt_toInt]
    rw [if_pos hn, toIntOrNull_of_digits Nat.toDigits_ne_nil (isDigit_toDigits _),
      Nat.ofDigitChars_ten_toDigits, if_pos hlt, hback]
  · have hvalue : digits (Nat.toDigits 10 (-n.toInt).toNat) = some (-n.toInt).toNat :=
      digits_eq_some_iff.mpr
        ⟨Nat.toDigits_ne_nil, isDigit_toDigits _, Nat.ofDigitChars_ten_toDigits⟩
    rw [if_neg hn, toIntOrNull, String.toList_ofList]
    simp only [hvalue, bind, Option.bind_some, pure, Option.map_some]
    rw [Int.toNat_of_nonneg (by omega), Int.neg_neg, if_pos ⟨hmin, hmax⟩, Int32.ofInt_toInt]

theorem toIntOrNull_digits {ds : List Char} (hdigits : ∀ c ∈ ds, c.isDigit = true) {n : Int32} :
    toIntOrNull (String.ofList ds) = some n ↔
      ds ≠ [] ∧ Nat.ofDigitChars 10 ds 0 < 2 ^ 31 ∧
        n = Int32.ofNat (Nat.ofDigitChars 10 ds 0) := by
  by_cases hne : ds = []
  · subst hne
    exact ⟨fun h => absurd rfl (toIntOrNull_chars h).1, fun h => absurd rfl h.1⟩
  · rw [toIntOrNull_of_digits hne hdigits]
    by_cases hfits : Nat.ofDigitChars 10 ds 0 < 2 ^ 31
    · rw [if_pos hfits, Option.some.injEq]
      exact ⟨fun h => ⟨hne, hfits, h.symm⟩, fun h => h.2.2.symm⟩
    · rw [if_neg hfits]
      exact ⟨fun h => (Option.some_ne_none n h.symm).elim, fun h => absurd h.2.1 hfits⟩

/-! ### The last colon -/

theorem splitLastColon_of_not_mem {s : List Char} (h : ':' ∉ s) :
    splitLastColon (String.ofList s) = none := by
  have hall : s.reverse.takeWhile (· != ':') = s.reverse := by
    refine List.takeWhile_eq_self_iff.mpr fun c hc => ?_
    have hne : c ≠ ':' := fun heq => h (heq ▸ List.mem_reverse.mp hc)
    simpa using hne
  rw [splitLastColon, String.toList_ofList, hall, if_pos (by simp)]

theorem splitLastColon_append {host port : List Char} (h : ':' ∉ port) :
    splitLastColon (String.ofList (host ++ ':' :: port)) =
      some (String.ofList host, String.ofList port) := by
  have hport : ∀ c ∈ port.reverse, (c != ':') = true := fun c hc => by
    have hne : c ≠ ':' := fun heq => h (heq ▸ List.mem_reverse.mp hc)
    simpa using hne
  have hafter : (host ++ ':' :: port).reverse.takeWhile (· != ':') = port.reverse := by
    rw [List.reverse_append, List.reverse_cons, List.append_assoc,
      List.takeWhile_append_of_pos hport]
    simp
  have hlength : (String.ofList (host ++ ':' :: port)).length =
      host.length + (port.length + 1) := by
    rw [String.length_ofList, List.length_append, List.length_cons]
  have hcount : host.length + (port.length + 1) - port.length - 1 = host.length := by omega
  rw [splitLastColon, String.toList_ofList, hafter, List.length_reverse, hlength,
    if_neg (by omega), hcount, List.take_left, List.reverse_reverse]

theorem exists_last_colon {s : List Char} (h : ':' ∈ s) :
    ∃ host port, s = host ++ ':' :: port ∧ ':' ∉ port := by
  obtain ⟨port, host, hs, hport⟩ := List.eq_append_cons_of_mem (List.mem_reverse.mpr h)
  refine ⟨host.reverse, port.reverse, ?_, fun hmem => hport (List.mem_reverse.mp hmem)⟩
  have hreversed := congrArg List.reverse hs
  simpa using hreversed

theorem last_colon_unique {host host' port port' : List Char}
    (h : host ++ ':' :: port = host' ++ ':' :: port') (hport : ':' ∉ port) (hport' : ':' ∉ port') :
    host = host' ∧ port = port' := by
  have hsplit := @splitLastColon_append host port hport
  rw [h, splitLastColon_append hport', Option.some.injEq, Prod.mk.injEq, String.ofList_inj,
    String.ofList_inj] at hsplit
  exact ⟨hsplit.1.symm, hsplit.2.symm⟩

theorem parseAuthority_whole {authority : List Char} (h : ':' ∉ authority.tail) (tls : Bool) :
    parseAuthority (String.ofList authority) tls =
      some (String.ofList authority, if tls then 443 else 80) := by
  cases authority with
  | nil => rw [parseAuthority, splitLastColon_of_not_mem List.not_mem_nil]
  | cons c rest =>
      by_cases hc : c = ':'
      · subst hc
        have hsplit := @splitLastColon_append [] rest h
        rw [List.nil_append] at hsplit
        rw [parseAuthority, hsplit]
        exact if_pos rfl
      · have hnone : ':' ∉ c :: rest := fun hmem =>
          (List.mem_cons.mp hmem).elim (fun heq => hc heq.symm) h
        rw [parseAuthority, splitLastColon_of_not_mem hnone]

theorem parseAuthority_split {host port : List Char} (hhost : host ≠ []) (hport : ':' ∉ port)
    (tls : Bool) :
    parseAuthority (String.ofList (host ++ ':' :: port)) tls =
      (toIntOrNull (String.ofList port)).map fun n => (String.ofList host, n) := by
  have hne : String.ofList host ≠ "" := fun h => hhost (by simpa using congrArg String.toList h)
  rw [parseAuthority, splitLastColon_append hport]
  exact if_neg hne

theorem parseAuthority_cases {authority rHost : List Char} {tls : Bool} {rPort : Int32}
    (h : parseAuthority (String.ofList authority) tls = some (String.ofList rHost, rPort)) :
    (':' ∉ authority.tail ∧ rHost = authority ∧ rPort = if tls then 443 else 80) ∨
      ∃ port, ':' ∉ port ∧ authority = rHost ++ ':' :: port ∧ rHost ≠ [] ∧
        toIntOrNull (String.ofList port) = some rPort := by
  by_cases htail : ':' ∈ authority.tail
  · right
    obtain ⟨host, port, hsplit, hport⟩ := exists_last_colon (List.mem_of_mem_tail htail)
    have hhost : host ≠ [] := by
      rintro rfl
      rw [hsplit] at htail
      exact hport htail
    rw [hsplit, parseAuthority_split hhost hport] at h
    obtain ⟨n, hn, hpair⟩ := Option.map_eq_some_iff.mp h
    obtain ⟨hname, rfl⟩ := Prod.mk.inj hpair
    obtain rfl := String.ofList_inj.mp hname
    exact ⟨port, hport, hsplit, hhost, hn⟩
  · left
    rw [parseAuthority_whole htail, Option.some.injEq, Prod.mk.injEq, String.ofList_inj] at h
    exact ⟨htail, h.1.symm, h.2.symm⟩

end RemoteControl.Phone.Authorities
