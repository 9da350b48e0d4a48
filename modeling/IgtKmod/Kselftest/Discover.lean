import IgtKmod.Kselftest.Parse

/-!
# Self-test discovery

`igt_kselftest_get_tests` (lines 697-746) walks the module info, builds an entry for each
`parmtype` value that starts with `igt__` and whose name passes the filter, and hands it to
`tests_add` (lines 686-695), which inserts it before the first entry with a greater number, or
at the tail. Into a list sorted by number, this is the stable sort by number of that list
followed by the kept entries in module-info order (`igtKselftestGetTests_stableSort`).

The argument: a list sorted by a key is determined by its restrictions to each value of the key
(`eq_of_pairwise_of_filter_eq`); `tests_add` keeps the list sorted and appends the new entry to
the restriction to its number, and `List.mergeSort` leaves every restriction as it was.

An entry whose `malloc` fails is moved past, so under failing allocations discovery is the same
sort of the kept entries whose allocation succeeded (`igtKselftestGetTests_allocFail`).
-/

namespace IgtKmod.Kselftest

/-- An entry of `kmod_module_get_info`: its key, and its value, which may be NULL. -/
structure ModuleInfo where
  key : List Char
  value : Option (List Char)
  deriving DecidableEq, Repr

def testsAdd (tl : IgtKselftestList) : List IgtKselftestList → List IgtKselftestList
  | [] => [tl]
  | pos :: rest => if pos.number > tl.number then tl :: pos :: rest else pos :: testsAdd tl rest

/-- Lines 710-737 for one entry `d` of the module info, given whether its `malloc` succeeds:
`some (some tl)` for the entry to add, `some none` for one the loop moves past, and `none` where
the code crashes. -/
def getTestsEntry (heap : Heap) (filter : Option (List Char)) (allocOk : Bool) (d : ModuleInfo) :
    Option (Option IgtKselftestList) :=
  if d.key ≠ "parmtype".toList then some none else
  match d.value with
  | none => some none
  | some val =>
    if !strncmpEq val paramPrefix prefixLen then some none
    else if !allocOk then some none
    else (parseParam val).map fun tl =>
      match filter with
      | some f => if strncmpEq (tl.nameStr heap) f f.length then some tl else none
      | none => some tl

/-- `kmod_list_foreach` over the module info, from its `i`-th entry; `mallocOk i` is whether the
`malloc` for the `i`-th entry succeeds. -/
def getTestsLoop (heap : Heap) (mallocOk : Nat → Bool) (filter : Option (List Char)) :
    Nat → List ModuleInfo → List IgtKselftestList → Option (List IgtKselftestList)
  | _, [], tests => some tests
  | i, d :: pre, tests => (getTestsEntry heap filter (mallocOk i) d).bind fun added =>
    getTestsLoop heap mallocOk filter (i + 1) pre (added.elim tests (testsAdd · tests))

def igtKselftestGetTests (heap : Heap) (mallocOk : Nat → Bool) (info : List ModuleInfo)
    (filter : Option (List Char)) (tests : List IgtKselftestList) :
    Option (List IgtKselftestList) :=
  getTestsLoop heap mallocOk filter 0 info tests

/-! ## What discovery keeps -/

/-- What the kernel's modinfo guarantees of a `parmtype` value: a C string `<name>:<type>`. -/
def WellFormedInfo (d : ModuleInfo) : Prop :=
  d.key = "parmtype".toList → ∀ val ∈ d.value, ':' ∈ val ∧ '\x00' ∉ val

instance (d : ModuleInfo) : Decidable (WellFormedInfo d) :=
  inferInstanceAs (Decidable (d.key = "parmtype".toList → ∀ val ∈ d.value, ':' ∈ val ∧ '\x00' ∉ val))

/-- The entry kept from `d`: a `parmtype` value that starts with `igt__`, parsed, whose name
starts with the filter if there is one. -/
def keptEntry (heap : Heap) (filter : Option (List Char)) (d : ModuleInfo) :
    Option IgtKselftestList :=
  if d.key = "parmtype".toList then
    d.value.bind fun val =>
      if paramPrefix.isPrefixOf val then
        (parseParam val).bind fun tl =>
          if filter.all (·.isPrefixOf (tl.nameStr heap)) then some tl else none
      else none
  else none

def keptTests (heap : Heap) (filter : Option (List Char)) (info : List ModuleInfo) :
    List IgtKselftestList :=
  info.filterMap (keptEntry heap filter)

def SortedByNumber (l : List IgtKselftestList) : Prop := l.Pairwise fun a b => a.number ≤ b.number

theorem strncmpEq_paramPrefix (val : List Char) :
    strncmpEq val paramPrefix prefixLen = paramPrefix.isPrefixOf val :=
  strncmpEq_length (by decide) val

theorem getTestsEntry_eq (heap : Heap) {filter : Option (List Char)}
    (hfilter : ∀ f ∈ filter, '\x00' ∉ f) {d : ModuleInfo} (hd : WellFormedInfo d) :
    getTestsEntry heap filter true d = some (keptEntry heap filter d) := by
  unfold getTestsEntry keptEntry
  by_cases hkey : d.key = "parmtype".toList
  · rw [if_neg (not_not.mpr hkey), if_pos hkey]
    cases hv : d.value with
    | none => rfl
    | some val =>
      obtain ⟨hc, h0⟩ := hd hkey val hv
      obtain ⟨tl, htl⟩ := Option.isSome_iff_exists.mp (parseParam_isSome h0 hc)
      simp only [strncmpEq_paramPrefix, Option.some_bind]
      cases paramPrefix.isPrefixOf val
      · rfl
      · cases filter with
        | none => simp [htl]
        | some f => simp [htl, strncmpEq_length (hfilter f rfl)]
  · rw [if_pos hkey, if_neg hkey]

/-! ## Stable sorting by a key -/

section Key

variable {α : Type} (key : α → Nat)

theorem mem_of_filter_key_eq {l₁ l₂ : List α}
    (h : ∀ k, l₁.filter (fun a => key a = k) = l₂.filter (fun a => key a = k)) {b : α}
    (hb : b ∈ l₂) : b ∈ l₁ := by
  have : b ∈ l₂.filter (fun a => key a = key b) := List.mem_filter.mpr ⟨hb, by simp⟩
  rw [← h] at this
  exact (List.mem_filter.mp this).1

theorem eq_of_pairwise_of_filter_eq : ∀ {l₁ l₂ : List α},
    l₁.Pairwise (fun a b => key a ≤ key b) → l₂.Pairwise (fun a b => key a ≤ key b) →
    (∀ k, l₁.filter (fun a => key a = k) = l₂.filter (fun a => key a = k)) → l₁ = l₂
  | [], [], _, _, _ => rfl
  | [], b :: _, _, _, h => absurd (mem_of_filter_key_eq key h (.head _)) (List.not_mem_nil b)
  | a :: _, [], _, _, h =>
    absurd (mem_of_filter_key_eq key (fun k => (h k).symm) (.head _)) (List.not_mem_nil a)
  | a :: t₁, b :: t₂, h₁, h₂, h => by
    have below : ∀ {x : α} {t l : List α}, (x :: t).Pairwise (fun a b => key a ≤ key b) →
        ∀ y ∈ l, (∀ k, (x :: t).filter (fun a => key a = k) = l.filter (fun a => key a = k)) →
        key x ≤ key y := fun hp y hy hf => by
      rcases List.mem_cons.mp (mem_of_filter_key_eq key hf hy) with rfl | hy
      exacts [Nat.le_refl _, List.rel_of_pairwise_cons hp hy]
    have hab : key a = key b := Nat.le_antisymm (below h₁ b (.head _) h)
      (below h₂ a (.head _) fun k => (h k).symm)
    have hk := h (key a)
    simp only [List.filter_cons, hab, decide_True, if_true] at hk
    obtain ⟨rfl, ht⟩ := List.cons.inj hk
    refine congrArg _ (eq_of_pairwise_of_filter_eq h₁.of_cons h₂.of_cons fun k => ?_)
    by_cases hka : key a = k
    · subst hka
      exact ht
    · simpa [List.filter_cons, hka] using h k

theorem mergeSort_filter_key (l : List α) (k : Nat) :
    (l.mergeSort fun a b => key a ≤ key b).filter (fun a => key a = k) =
      l.filter (fun a => key a = k) := by
  have hsub : List.Sublist (l.filter fun a => key a = k) (l.mergeSort fun a b => key a ≤ key b) :=
    List.sublist_mergeSort (fun a b c hab hbc => by simp at *; omega) (fun a b => by simp; omega)
      (List.pairwise_of_forall_mem_list fun a ha b hb => by
        simp only [List.mem_filter, decide_eq_true_eq] at ha hb
        simp [ha.2, hb.2])
      (List.filter_sublist l)
  have h := hsub.filter (fun a => key a = k)
  simp only [List.filter_filter, Bool.and_self] at h
  exact (h.eq_of_length ((List.mergeSort_perm l _).filter _).length_eq.symm).symm

theorem pairwise_mergeSort_key (l : List α) :
    (l.mergeSort fun a b => key a ≤ key b).Pairwise (fun a b => key a ≤ key b) :=
  (List.sorted_mergeSort (fun a b c hab hbc => by simp at *; omega) (fun a b => by simp; omega)
    l).imp (by simp)

end Key

/-! ## `tests_add` -/

theorem testsAdd_perm (tl : IgtKselftestList) :
    ∀ tests, List.Perm (testsAdd tl tests) (tl :: tests)
  | [] => .refl _
  | pos :: rest => by
    unfold testsAdd
    split
    · exact .refl _
    · exact ((testsAdd_perm tl rest).cons pos).trans (.swap tl pos rest)

theorem testsAdd_sorted (tl : IgtKselftestList) :
    ∀ {tests}, SortedByNumber tests → SortedByNumber (testsAdd tl tests)
  | [], _ => List.pairwise_singleton _ _
  | pos :: rest, h => by
    unfold testsAdd
    split
    · exact .cons (fun b hb => by
        rcases List.mem_cons.mp hb with rfl | hb
        exacts [Nat.le_of_lt ‹_›, Nat.le_trans (Nat.le_of_lt ‹_›) (List.rel_of_pairwise_cons h hb)]) h
    · refine .cons (fun b hb => ?_) (testsAdd_sorted tl h.of_cons)
      rcases List.mem_cons.mp ((testsAdd_perm tl rest).mem_iff.mp hb) with rfl | hb
      exacts [Nat.le_of_not_lt ‹_›, List.rel_of_pairwise_cons h hb]

theorem testsAdd_filter (tl : IgtKselftestList) (k : Nat) :
    ∀ {tests}, SortedByNumber tests →
      (testsAdd tl tests).filter (·.number = k) = (tests ++ [tl]).filter (·.number = k)
  | [], _ => rfl
  | pos :: rest, h => by
    unfold testsAdd
    split
    · rename_i hlt
      have hnone : ∀ b ∈ pos :: rest, tl.number < b.number := fun b hb => by
        rcases List.mem_cons.mp hb with rfl | hb
        exacts [hlt, Nat.lt_of_lt_of_le hlt (List.rel_of_pairwise_cons h hb)]
      by_cases htk : tl.number = k
      · have hnil : (pos :: rest).filter (·.number = k) = [] :=
          List.filter_eq_nil_iff.mpr fun b hb => by simpa [← htk] using Nat.ne_of_gt (hnone b hb)
        rw [List.filter_append, hnil, List.filter_cons_of_pos (by simpa using htk), hnil]
        simp [htk]
      · simp [List.filter_cons, htk]
    · simp [List.filter_cons, testsAdd_filter tl k h.of_cons]

/-! ## Discovery is a stable sort -/

theorem getTestsLoop_stable (heap : Heap) {filter : Option (List Char)}
    (hfilter : ∀ f ∈ filter, '\x00' ∉ f) :
    ∀ (info : List ModuleInfo) (i : Nat) (tests : List IgtKselftestList),
      (∀ d ∈ info, WellFormedInfo d) → SortedByNumber tests →
      ∃ r, getTestsLoop heap (fun _ => true) filter i info tests = some r ∧ SortedByNumber r ∧
        ∀ k, r.filter (·.number = k) = (tests ++ keptTests heap filter info).filter (·.number = k)
  | [], _, tests, _, h => ⟨tests, rfl, h, by simp [keptTests]⟩
  | d :: info, i, tests, hinfo, h => by
    have hrest := fun tests => getTestsLoop_stable heap hfilter info (i + 1) tests
      fun d hd => hinfo d (.tail _ hd)
    rw [getTestsLoop, getTestsEntry_eq heap hfilter (hinfo d (.head _)), Option.some_bind]
    cases he : keptEntry heap filter d with
    | none =>
      obtain ⟨r, hr, hs, hf⟩ := hrest tests h
      exact ⟨r, hr, hs, by simpa [keptTests, he] using hf⟩
    | some tl =>
      obtain ⟨r, hr, hs, hf⟩ := hrest (testsAdd tl tests) (testsAdd_sorted tl h)
      have hkept : keptTests heap filter (d :: info) = [tl] ++ keptTests heap filter info := by
        simp [keptTests, he]
      refine ⟨r, hr, hs, fun k => ?_⟩
      rw [hf k, List.filter_append, testsAdd_filter tl k h, hkept, ← List.append_assoc]
      simp only [List.filter_append]

/-- With every allocation succeeding, on well-formed module info, a C-string filter and a list
sorted by number, discovery leaves the stable sort by number of the list followed by the kept
entries in module-info order: sorted, and with the entries of each number in that order. -/
theorem igtKselftestGetTests_stableSort (heap : Heap) (info : List ModuleInfo)
    (filter : Option (List Char)) (tests : List IgtKselftestList)
    (hfilter : ∀ f ∈ filter, '\x00' ∉ f) (hinfo : ∀ d ∈ info, WellFormedInfo d)
    (hsorted : SortedByNumber tests) :
    ∃ r, igtKselftestGetTests heap (fun _ => true) info filter tests = some r ∧
      r = (tests ++ keptTests heap filter info).mergeSort (fun a b => a.number ≤ b.number) ∧
      SortedByNumber r ∧
      ∀ k, r.filter (·.number = k) = (tests ++ keptTests heap filter info).filter (·.number = k) := by
  obtain ⟨r, hr, hs, hf⟩ := getTestsLoop_stable heap hfilter info 0 tests hinfo hsorted
  refine ⟨r, hr, eq_of_pairwise_of_filter_eq IgtKselftestList.number hs
    (pairwise_mergeSort_key _ _) fun k => ?_, hs, hf⟩
  rw [hf k, mergeSort_filter_key]

def twoTests : List ModuleInfo :=
  [⟨"parmtype".toList, some "igt__2__b:bool".toList⟩,
    ⟨"parmtype".toList, some "igt__1__a:bool".toList⟩, ⟨"parm".toList, some "b:run".toList⟩]

theorem igtKselftestGetTests_stableSort_twoTests :
    (∀ f ∈ (none : Option (List Char)), '\x00' ∉ f) ∧ (∀ d ∈ twoTests, WellFormedInfo d) ∧
      SortedByNumber [] ∧
      ∃ r, igtKselftestGetTests (fun _ => []) (fun _ => true) twoTests none [] = some r ∧
        r = ([] ++ keptTests (fun _ => []) none twoTests).mergeSort
          (fun a b => a.number ≤ b.number) ∧
        SortedByNumber r ∧
        ∀ k, r.filter (·.number = k) =
          ([] ++ keptTests (fun _ => []) none twoTests).filter (·.number = k) :=
  ⟨fun f hf => absurd hf (Option.not_mem_none f), by decide, .nil,
    igtKselftestGetTests_stableSort (fun _ => []) twoTests none []
      (fun f hf => absurd hf (Option.not_mem_none f)) (by decide) .nil⟩

example : (igtKselftestGetTests (fun _ => []) (fun _ => true) twoTests none []).map
    (·.map (·.number)) = some [1, 2] := by decide

/-! ## Failing allocations -/

def allocated (mallocOk : Nat → Bool) : Nat → List ModuleInfo → List ModuleInfo
  | _, [] => []
  | i, d :: info =>
    if mallocOk i then d :: allocated mallocOk (i + 1) info else allocated mallocOk (i + 1) info

theorem getTestsEntry_false (heap : Heap) (filter : Option (List Char)) (d : ModuleInfo) :
    getTestsEntry heap filter false d = some none := by
  unfold getTestsEntry
  split
  · rfl
  · split
    · rfl
    · simp

theorem getTestsLoop_allocated (heap : Heap) (mallocOk : Nat → Bool)
    (filter : Option (List Char)) :
    ∀ (info : List ModuleInfo) (i j : Nat) (tests : List IgtKselftestList),
      getTestsLoop heap mallocOk filter i info tests =
        getTestsLoop heap (fun _ => true) filter j (allocated mallocOk i info) tests
  | [], _, _, _ => rfl
  | d :: info, i, j, tests => by
    by_cases hi : mallocOk i
    · rw [allocated, if_pos hi, getTestsLoop, getTestsLoop, hi]
      cases getTestsEntry heap filter true d with
      | none => rfl
      | some added => exact getTestsLoop_allocated heap mallocOk filter info _ _ _
    · rw [allocated, if_neg hi, getTestsLoop, Bool.eq_false_iff.mpr hi, getTestsEntry_false,
        Option.some_bind]
      exact getTestsLoop_allocated heap mallocOk filter info _ _ _

theorem allocated_sublist (mallocOk : Nat → Bool) :
    ∀ (i : Nat) (info : List ModuleInfo), List.Sublist (allocated mallocOk i info) info
  | _, [] => .slnil
  | i, d :: info => by
    rw [allocated]
    split
    · exact (allocated_sublist mallocOk (i + 1) info).cons₂ d
    · exact (allocated_sublist mallocOk (i + 1) info).cons d

theorem getTestsLoop_eq_mergeSort (heap : Heap) {filter : Option (List Char)}
    (hfilter : ∀ f ∈ filter, '\x00' ∉ f) {info : List ModuleInfo}
    (hinfo : ∀ d ∈ info, WellFormedInfo d) (i : Nat) {tests : List IgtKselftestList}
    (hsorted : SortedByNumber tests) :
    getTestsLoop heap (fun _ => true) filter i info tests =
      some ((tests ++ keptTests heap filter info).mergeSort fun a b => a.number ≤ b.number) := by
  obtain ⟨r, hr, hs, hf⟩ := getTestsLoop_stable heap hfilter info i tests hinfo hsorted
  refine hr.trans (congrArg some (eq_of_pairwise_of_filter_eq IgtKselftestList.number hs
    (pairwise_mergeSort_key _ _) fun k => ?_))
  rw [hf k, mergeSort_filter_key]

/-- Whatever allocations fail, on well-formed module info, a C-string filter and a list sorted by
number, discovery leaves the stable sort by number of the list followed by the kept entries whose
allocation succeeded, in module-info order: a failed `malloc` drops its own entry and nothing
else. -/
theorem igtKselftestGetTests_allocFail (heap : Heap) (mallocOk : Nat → Bool)
    (info : List ModuleInfo) (filter : Option (List Char)) (tests : List IgtKselftestList)
    (hfilter : ∀ f ∈ filter, '\x00' ∉ f) (hinfo : ∀ d ∈ info, WellFormedInfo d)
    (hsorted : SortedByNumber tests) :
    igtKselftestGetTests heap mallocOk info filter tests =
      some ((tests ++ keptTests heap filter (allocated mallocOk 0 info)).mergeSort
        fun a b => a.number ≤ b.number) := by
  rw [igtKselftestGetTests, getTestsLoop_allocated heap mallocOk filter info 0 0]
  exact getTestsLoop_eq_mergeSort heap hfilter
    (fun d hd => hinfo d ((allocated_sublist mallocOk 0 info).subset hd)) 0 hsorted

theorem igtKselftestGetTests_allocFail_first :
    (∀ f ∈ (none : Option (List Char)), '\x00' ∉ f) ∧ (∀ d ∈ twoTests, WellFormedInfo d) ∧
      SortedByNumber [] ∧
      igtKselftestGetTests (fun _ => []) (fun i => i != 0) twoTests none [] =
        some (([] ++ keptTests (fun _ => []) none (allocated (fun i => i != 0) 0 twoTests)).mergeSort
          fun a b => a.number ≤ b.number) :=
  ⟨fun f hf => absurd hf (Option.not_mem_none f), by decide, .nil,
    igtKselftestGetTests_allocFail (fun _ => []) (fun i => i != 0) twoTests none []
      (fun f hf => absurd hf (Option.not_mem_none f)) (by decide) .nil⟩

example : (igtKselftestGetTests (fun _ => []) (fun i => i != 0) twoTests none []).map
    (·.map (·.number)) = some [1] := by decide

end IgtKmod.Kselftest
