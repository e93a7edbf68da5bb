import RemoteControl.Phone.Downloads

/-!
Where the files that the PC sends end up (`uniqueDestFile` in `app/net/ConnectionClient.kt`): in
the downloads directory, whatever name the PC announces.
-/

namespace RemoteControl.Phone.DownloadNames

open RemoteControl.Phone.Downloads

/-! ### Paths -/

/-- One component of a path, entered from the place where the ones before it lead. -/
def enter (place : List String) (component : String) : List String :=
  if component = "" ∨ component = "." then place
  else if component = ".." then place.dropLast
  else place ++ [component]

/-- Where a relative path leads from a directory. -/
def resolve (dir : List String) (path : String) : List String :=
  ((path.toList.splitOn '/').map String.ofList).foldl enter dir

/-- `File.getParent`: the path up to its last slash. -/
def getParent (path : String) : String :=
  String.ofList ((path.toList.reverse.dropWhile (· != '/')).drop 1).reverse

/-- A name that stands for an entry of its directory. -/
structure IsEntry (name : String) : Prop where
  noSlash : '/' ∉ name.toList
  notSelf : name ≠ "" ∧ name ≠ "."
  notAbove : name ≠ ".."

theorem resolve_eq {name : String} (h : IsEntry name) (dir : List String) :
    resolve dir name = dir ++ [name] := by
  have hsplit : name.toList.splitOn '/' = [name.toList] := List.splitOn_eq_singleton h.noSlash
  rw [resolve, hsplit, List.map_singleton, String.ofList_toList, List.foldl_cons, List.foldl_nil,
    enter, if_neg (not_or.mpr h.notSelf), if_neg h.notAbove]

theorem getParent_absolutePath {name : String} (h : '/' ∉ name.toList) (d : Directory) :
    getParent (d.absolutePath name) = d.path := by
  have hslash : "/".toList = ['/'] := rfl
  have hchars : (d.absolutePath name).toList.reverse =
      name.toList.reverse ++ '/' :: d.path.toList.reverse := by
    rw [Directory.absolutePath, String.toList_append, String.toList_append, hslash,
      List.reverse_append, List.reverse_append]
    rfl
  have hskip : ∀ c ∈ name.toList.reverse, (c != '/') = true := by
    intro c hc
    rw [bne_iff_ne]
    rintro rfl
    exact h (List.mem_reverse.mp hc)
  rw [getParent, hchars, List.dropWhile_append_of_pos hskip, List.dropWhile_cons_of_neg (by simp),
    List.drop_one, List.tail_cons, List.reverse_reverse, String.ofList_toList]

/-! ### Names -/

theorem sanitized_noSlash (name : String) : '/' ∉ (sanitized name).toList := by
  rw [sanitized, String.toList_ofList]
  intro hmem
  obtain ⟨c, -, hc⟩ := List.mem_map.mp hmem
  split at hc
  · cases hc
  · next hallowed =>
      rw [hc] at hallowed
      exact hallowed (by decide)

theorem baseAndExtension_noSlash {name : String} (h : '/' ∉ name.toList) :
    '/' ∉ (baseAndExtension name).1.toList ∧ '/' ∉ (baseAndExtension name).2.toList := by
  unfold baseAndExtension
  dsimp only
  split
  · exact ⟨h, List.not_mem_nil⟩
  · rw [String.toList_ofList, String.toList_ofList]
    refine ⟨fun hmem => h (List.mem_of_mem_take hmem), fun hmem => ?_⟩
    rcases List.mem_cons.mp hmem with hdot | hmem
    · cases hdot
    · have hback := (List.takeWhile_sublist _).mem (List.mem_reverse.mp hmem)
      exact h (List.mem_reverse.mp hback)

/-- The numbered name that is tried. -/
def numbered (name : String) (i : Nat) : String :=
  s!"{(baseAndExtension name).1} ({i}){(baseAndExtension name).2}"

/-- The name that is taken when all numbered ones exist. -/
def lastResort (os : Answers) (name : String) : String :=
  s!"{(baseAndExtension name).1}-{os.randomUuid}{(baseAndExtension name).2}"

theorem uniqueDestFile_eq (os : Answers) (d : Directory) (name : String) :
    uniqueDestFile os d name =
      if d.exists_ (sanitized name) then
        firstFree d (baseAndExtension (sanitized name)).1 (baseAndExtension (sanitized name)).2
          (lastResort os (sanitized name)) (List.range' 2 998)
      else sanitized name := by
  unfold uniqueDestFile lastResort
  dsimp only

theorem firstFree_cases (d : Directory) (name fallback : String) (ns : List Nat) :
    (∃ i ∈ ns, d.exists_ (numbered name i) = false ∧
      firstFree d (baseAndExtension name).1 (baseAndExtension name).2 fallback ns =
        numbered name i) ∨
    (∀ i ∈ ns, d.exists_ (numbered name i) = true) ∧
      firstFree d (baseAndExtension name).1 (baseAndExtension name).2 fallback ns = fallback := by
  induction ns with
  | nil => exact .inr ⟨fun _ h => absurd h List.not_mem_nil, rfl⟩
  | cons n rest ih =>
      cases htaken : d.exists_ (numbered name n) with
      | false =>
          have hfirst : firstFree d (baseAndExtension name).1 (baseAndExtension name).2 fallback
              (n :: rest) = numbered name n :=
            if_neg (Bool.eq_false_iff.mp htaken)
          exact .inl ⟨n, List.mem_cons_self, htaken, hfirst⟩
      | true =>
          have hnext : firstFree d (baseAndExtension name).1 (baseAndExtension name).2 fallback
              (n :: rest) =
              firstFree d (baseAndExtension name).1 (baseAndExtension name).2 fallback rest :=
            if_pos htaken
          rw [hnext]
          rcases ih with ⟨i, hi, hfree, heq⟩ | ⟨hall, heq⟩
          · exact .inl ⟨i, List.mem_cons_of_mem _ hi, hfree, heq⟩
          · exact .inr ⟨List.forall_mem_cons.mpr ⟨htaken, hall⟩, heq⟩

/-- The name and its numbered alternatives all exist. -/
def Exhausted (d : Directory) (name : String) : Prop :=
  d.exists_ name = true ∧ ∀ i, 2 ≤ i → i ≤ 999 → d.exists_ (numbered name i) = true

theorem uniqueDestFile_cases (os : Answers) (d : Directory) (name : String) :
    (d.exists_ (uniqueDestFile os d name) = false ∧
      (uniqueDestFile os d name = sanitized name ∨
        ∃ i, 2 ≤ i ∧ i ≤ 999 ∧ uniqueDestFile os d name = numbered (sanitized name) i)) ∨
    Exhausted d (sanitized name) ∧
      uniqueDestFile os d name = lastResort os (sanitized name) := by
  rw [uniqueDestFile_eq]
  split
  · next htaken =>
      rcases firstFree_cases d (sanitized name) (lastResort os (sanitized name))
        (List.range' 2 998) with ⟨i, hi, hfree, heq⟩ | ⟨hall, heq⟩
      · obtain ⟨hlow, hhigh⟩ := List.mem_range'_1.mp hi
        exact .inl ⟨heq ▸ hfree, .inr ⟨i, hlow, by omega, heq⟩⟩
      · refine .inr ⟨⟨htaken, fun i hlow hhigh => hall i ?_⟩, heq⟩
        exact List.mem_range'_1.mpr ⟨hlow, by omega⟩
  · next hfree => exact .inl ⟨Bool.eq_false_iff.mpr hfree, .inl rfl⟩

theorem toString_noSlash (i : Nat) : '/' ∉ (toString i).toList := by
  intro hmem
  rw [Nat.toString_eq_ofList_toDigits, String.toList_ofList] at hmem
  have hdigit := Nat.isDigit_of_mem_toDigits (by decide) (by decide) hmem
  exact absurd hdigit (by decide)

theorem uniqueDestFile_noSlash {os : Answers} (huuid : '/' ∉ os.randomUuid.toList)
    (d : Directory) (name : String) : '/' ∉ (uniqueDestFile os d name).toList := by
  have hname := sanitized_noSlash name
  obtain ⟨hbase, hext⟩ := baseAndExtension_noSlash hname
  have hliteral : '/' ∉ " (".toList ∧ '/' ∉ ")".toList ∧ '/' ∉ "-".toList := by decide
  obtain ⟨hopen, hclose, hdash⟩ := hliteral
  have hstring (s : String) : toString s = s := rfl
  rcases uniqueDestFile_cases os d name with ⟨-, heq | ⟨i, -, -, heq⟩⟩ | ⟨-, heq⟩
  · rw [heq]
    exact hname
  · rw [heq, numbered]
    simp only [hstring, String.toList_append, List.mem_append, not_or]
    exact ⟨⟨⟨⟨hbase, hopen⟩, toString_noSlash i⟩, hclose⟩, hext⟩
  · rw [heq, lastResort]
    simp only [hstring, String.toList_append, List.mem_append, not_or]
    exact ⟨⟨⟨hbase, hdash⟩, huuid⟩, hext⟩

theorem ne_special_of_free {d : Directory} {name : String} (h : d.exists_ name = false) :
    (name ≠ "" ∧ name ≠ ".") ∧ name ≠ ".." := by
  simp only [Directory.exists_, Bool.or_eq_false_iff, decide_eq_false_iff_not] at h
  exact h.1

theorem ne_special_of_dash {name : String} (h : '-' ∈ name.toList) :
    (name ≠ "" ∧ name ≠ ".") ∧ name ≠ ".." := by
  refine ⟨⟨?_, ?_⟩, ?_⟩
  all_goals
    rintro rfl
    exact absurd h (by decide)

theorem lastResort_dash (os : Answers) (name : String) : '-' ∈ (lastResort os name).toList := by
  have hdash : '-' ∈ "-".toList := by decide
  have hstring (s : String) : toString s = s := rfl
  rw [lastResort]
  simp only [hstring, String.toList_append, List.mem_append]
  exact .inl (.inl (.inr hdash))

theorem uniqueDestFile_isEntry {os : Answers} (huuid : '/' ∉ os.randomUuid.toList)
    (d : Directory) (name : String) : IsEntry (uniqueDestFile os d name) := by
  have hspecial : (uniqueDestFile os d name ≠ "" ∧ uniqueDestFile os d name ≠ ".") ∧
      uniqueDestFile os d name ≠ ".." := by
    rcases uniqueDestFile_cases os d name with ⟨hfree, -⟩ | ⟨-, heq⟩
    · exact ne_special_of_free hfree
    · rw [heq]
      exact ne_special_of_dash (lastResort_dash os _)
  exact ⟨uniqueDestFile_noSlash huuid d name, hspecial.1, hspecial.2⟩

/-! ### The destination -/

/-- The path of a file directly in the directory, which is neither the directory itself nor the
one above it. -/
structure Contained (d : Directory) (dest : String) : Prop where
  parent : getParent (d.absolutePath dest) = d.path
  place : ∀ dir, resolve dir dest = dir ++ [dest]
  notSelf : ∀ dir, resolve dir dest ≠ dir
  notAbove : ∀ dir, resolve dir dest ≠ dir.dropLast

theorem contained_of_isEntry {name : String} (h : IsEntry name) (d : Directory) :
    Contained d name := by
  have hlength (dir : List String) : (resolve dir name).length = dir.length + 1 := by
    rw [resolve_eq h, List.length_append]
    rfl
  refine ⟨getParent_absolutePath h.noSlash d, resolve_eq h, fun dir hsame => ?_,
    fun dir hsame => ?_⟩
  · have := hlength dir
    rw [hsame] at this
    omega
  · have := hlength dir
    rw [hsame, List.length_dropLast] at this
    omega

/-- Whatever name is announced and whatever the directory contains, the destination is a file
directly in the directory. It did not exist when it was probed; only where the name and the
numbers up to 999 all exist, it is the name with the random UUID, which is not probed. -/
theorem uniqueDestFile_contained {os : Answers} (huuid : '/' ∉ os.randomUuid.toList)
    (d : Directory) (name : String) :
    Contained d (uniqueDestFile os d name) ∧
      (d.exists_ (uniqueDestFile os d name) = false ∨
        Exhausted d (sanitized name) ∧
          uniqueDestFile os d name = lastResort os (sanitized name)) := by
  refine ⟨contained_of_isEntry (uniqueDestFile_isEntry huuid d name) d, ?_⟩
  exact (uniqueDestFile_cases os d name).imp_left And.left

/-- A UUID as `randomUUID` gives one. -/
def usualAnswers : Answers :=
  { randomUuid := "67e55044-10b1-426f-9247-bb680e5fe0c8" }

def emptyDownloads : Directory :=
  { path := "/storage/emulated/0/Download" }

theorem uniqueDestFile_contained_dots :
    Contained emptyDownloads (uniqueDestFile usualAnswers emptyDownloads "..") ∧
      uniqueDestFile usualAnswers emptyDownloads ".." = ". (2)." := by
  refine ⟨(uniqueDestFile_contained ?_ emptyDownloads "..").1, ?_⟩
  · decide +kernel
  · decide +kernel

/-- The name, its numbered alternatives and the one with the UUID. -/
def takenNames : List String :=
  "a.txt" :: lastResort usualAnswers "a.txt" :: (List.range' 2 998).map (numbered "a.txt")

def fullDownloads : Directory :=
  { emptyDownloads with entry := fun name => if name ∈ takenNames then some 0 else none }

theorem fullDownloads_exists {name : String} (h : name ∈ takenNames) :
    fullDownloads.exists_ name = true := by
  simp [Directory.exists_, fullDownloads, h]

/-- Where all of them are taken, the destination exists too. -/
theorem uniqueDestFile_taken :
    ¬∀ (os : Answers) (d : Directory) (name : String),
      d.exists_ (uniqueDestFile os d name) = false := by
  intro h
  have hfree := h usualAnswers fullDownloads "a.txt"
  have hsanitized : sanitized "a.txt" = "a.txt" := by decide +kernel
  have htaken : uniqueDestFile usualAnswers fullDownloads "a.txt" ∈ takenNames := by
    have hcases := uniqueDestFile_cases usualAnswers fullDownloads "a.txt"
    rw [hsanitized] at hcases
    rcases hcases with ⟨-, heq | ⟨i, hlow, hhigh, heq⟩⟩ | ⟨-, heq⟩
    · rw [heq]
      exact List.mem_cons_self
    · rw [heq]
      refine List.mem_cons_of_mem _ (List.mem_cons_of_mem _ (List.mem_map_of_mem ?_))
      exact List.mem_range'_1.mpr ⟨hlow, by omega⟩
    · rw [heq]
      exact List.mem_cons_of_mem _ List.mem_cons_self
  rw [fullDownloads_exists htaken] at hfree
  cases hfree

end RemoteControl.Phone.DownloadNames
