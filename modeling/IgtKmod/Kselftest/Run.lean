import IgtKmod.Basic
import IgtKmod.Kselftest.Discover
import IgtKmod.Kselftest.Kmsg

/-!
# Running a self-test batch

`igt_kselftests` (lines 973-1010) discovers the self-tests of a module and runs each in its own
dynamic subtest through `igt_kselftest_execute` (lines 911-947): unless the kernel is already
tainted, it loads the module with the trigger `<param>=1 <options>`, reads the result attribute
if one is named, dumps the kernel log if the test failed, removes the module, and asserts that
the test passed and left the kernel untainted. After each test the batch stops if the kernel is
tainted.

The calls of a run obey `BatchOrder`: every trigger comes right after a read of the taint
indicator that found it clear, and the module is removed before any other trigger. The
triggers are those of a sublist of the discovered tests, and with every dynamic subtest
selected and a taint indicator that stays set, of a prefix (`igtKselftests_batch`). A trigger
is what `snprintf` leaves of the assignment in a 1024-byte buffer, so long options are cut
(`igtKselftests_longOptions`).

Discovery sorts the tests by number, so whatever allocations fail, the batch triggers them in
non-decreasing order of their numbers, as the tests expect (`igtKselftests_ascending`).
-/

namespace IgtKmod.Kselftest

variable {σ : Type}

/-- What a self-test asks of the running system: `igt_ktest_init`, `igt_i915_driver_unload`,
`kmod_module_remove_module`, `kmod_module_get_info` and `modprobe` on the test module; the value
`igt_sysfs_scanf` reads from a result attribute, `none` where the read fails and leaves `err` as
it was; `igt_kernel_tainted`; the descriptor `tst->kmsg` that `igt_ktest_begin` opened and
`lseek` on it; and what the reads of `kmsg_dump` return, with what its buffer held before. -/
structure Kernel (σ : Type) where
  ktestInit : List Char → σ → Int × σ
  i915DriverUnload : σ → σ
  removeModule : Nat → σ → Int × σ
  getInfo : σ → List ModuleInfo × σ
  modprobe : List Char → σ → Int × σ
  readResult : List Char → σ → Option Int × σ
  tainted : σ → Bool × σ
  kmsg : σ → Int
  lseek : σ → Int × σ
  readKmsg : σ → List KmsgRead × List Char × σ

/-- Modelled from the spec: the selection of the IGT harness, which runs a subtest or a dynamic
subtest only if its name is selected. -/
structure Harness where
  runSubtest : List Char → Bool
  runDynamic : List Char → Bool

inductive Event where
  | i915Unload
  | remove (flags : Nat)
  | discovered (tests : List IgtKselftestList)
  | taint (set : Bool)
  | trigger (buf : List Char)
  | read (attr : List Char) (val : Option Int)
  | dump (warns : List KmsgWarn)
  deriving DecidableEq, Repr

def Event.Quiet : Event → Prop
  | .trigger _ | .remove _ => False
  | _ => True

def Event.Plain : Event → Prop
  | .trigger _ => False
  | _ => True

theorem Event.Quiet.plain {ev : Event} (h : ev.Quiet) : ev.Plain := by
  cases ev with
  | trigger => exact h
  | _ => trivial

def Event.triggered : Event → Option (List Char)
  | .trigger buf => some buf
  | _ => none

inductive Outcome where
  | skip
  | fail
  | pass
  deriving DecidableEq, Repr

/-- How the dynamic subtest of a self-test ends, the `err` that `igt_assert_f(err == 0, ...)`
checks if the test got there, its calls, and the state after them. -/
structure Execution (σ : Type) where
  outcome : Outcome
  err : Option Int
  trace : List Event
  state : σ

def snprintf (size : Nat) (text : List Char) : List Char := text.take (size - 1)

/-- `snprintf(buf, sizeof(buf), "%s=1 %s", tl->param, options ?: "")`. -/
def triggerBuf (options : Option (List Char)) (tl : IgtKselftestList) : List Char :=
  snprintf 1024 (cstring tl.param ++ "=1 ".toList ++ options.getD [])

/-- Lines 927-932: after a successful load, `err` is read from the result attribute, if named. -/
def readResultInto (k : Kernel σ) (result : Option (List Char)) (err : Int) (s : σ) :
    Int × σ × List Event :=
  match result with
  | some attr =>
    if err = 0 then
      let r := k.readResult attr s
      (r.1.getD err, r.2, [.read attr r.1])
    else (err, s, [])
  | none => (err, s, [])

/-- Lines 934-935: `kmsg_dump(tst->kmsg)` when `err` is set, with the warnings it prints. -/
def dumpOnError (k : Kernel σ) (err : Int) (s : σ) : List Event × σ :=
  if err = 0 then ([], s) else
  let r := k.readKmsg s
  ([.dump (kmsgDump (k.kmsg s) r.1 r.2.1).1], r.2.2)

/-- `igt_kselftest_execute` (lines 911-947). -/
def igtKselftestExecute (k : Kernel σ) (tl : IgtKselftestList) (options result : Option (List Char))
    (s : σ) : Execution σ :=
  let t0 := k.tainted s
  if t0.1 then ⟨.skip, none, [.taint true], t0.2⟩ else
  let buf := triggerBuf options tl
  let load := k.modprobe buf (k.lseek t0.2).2
  let read := readResultInto k result load.1 load.2
  let err := if read.1 = -ENOTTY then 0 else read.1
  let dump := dumpOnError k err read.2.1
  let s := (k.removeModule 0 dump.2).2
  let t := .taint false :: .trigger buf :: read.2.2 ++ dump.1 ++ [.remove 0]
  if err ≠ 0 then ⟨.fail, some err, t, s⟩ else
  let t1 := k.tainted s
  ⟨if t1.1 then .fail else .pass, some err, t ++ [.taint t1.1], t1.2⟩

/-- `unfilter(filter, name)` (lines 961-971), as an offset from `name`: past the filter, and one
more unless a letter follows. -/
def unfilter (filter : Option (List Char)) (name : List Char) : Nat :=
  match filter with
  | none => 0
  | some f => if isAlpha (name.getD f.length '\x00') then f.length else f.length + 1

/-- The name of the dynamic subtest of `tl`: the C string `unfilter(filter, tl->name)`. -/
def dynamicName (heap : Heap) (filter : Option (List Char)) (tl : IgtKselftestList) :
    List Char :=
  let name := (tl.bytes heap).drop tl.name
  cstring (name.drop (unfilter filter name))

/-- The dynamic subtest of `tl` (lines 993-994), if the harness runs it. -/
def runTest (k : Kernel σ) (runDynamic : List Char → Bool) (heap : Heap)
    (filter options result : Option (List Char)) (tl : IgtKselftestList) (s : σ) :
    List Event × σ :=
  if runDynamic (dynamicName heap filter tl) then
    ((igtKselftestExecute k tl options result s).trace,
      (igtKselftestExecute k tl options result s).state)
  else ([], s)

/-- Lines 990-1001: each test in turn, stopping after one that leaves the kernel tainted. -/
def kselftestsLoop (k : Kernel σ) (runDynamic : List Char → Bool) (heap : Heap)
    (filter options result : Option (List Char)) :
    List IgtKselftestList → σ → List Event × σ
  | [], s => ([], s)
  | tl :: rest, s =>
    let r := runTest k runDynamic heap filter options result tl s
    let c := k.tainted r.2
    if c.1 then (r.1 ++ [.taint true], c.2)
    else
      let l := kselftestsLoop k runDynamic heap filter options result rest c.2
      (r.1 ++ .taint false :: l.1, l.2)

/-- `igt_ktest_begin` (lines 896-909) in its fixture: its calls, and whether its `igt_require`
holds. -/
def ktestBegin (k : Kernel σ) (moduleName : List Char) (s : σ) : List Event × σ × Bool :=
  let i915 := moduleName = "i915".toList
  let s := if i915 then k.i915DriverUnload s else s
  let err := k.removeModule KMOD_REMOVE_FORCE s
  ((if i915 then [Event.i915Unload] else []) ++ [.remove KMOD_REMOVE_FORCE], err.2,
    err.1 = 0 || err.1 = -ENOENT)

/-- `igt_ktest_end` (lines 949-953). -/
def ktestEnd (k : Kernel σ) (s : σ) : List Event × σ :=
  ([.remove KMOD_REMOVE_FORCE], (k.removeModule KMOD_REMOVE_FORCE s).2)

/-- `igt_kselftests`: `none` where discovery crashes. A failed `igt_require` in the first fixture
skips the subtest and the later fixture. -/
def igtKselftests (k : Kernel σ) (h : Harness) (heap : Heap) (mallocOk : Nat → Bool)
    (moduleName : List Char) (options result filter : Option (List Char)) (s : σ) :
    Option (List Event × σ) :=
  let init := k.ktestInit moduleName s
  if init.1 ≠ 0 then some ([], init.2) else
  let begin := ktestBegin k moduleName init.2
  let info := k.getInfo begin.2.1
  (igtKselftestGetTests heap mallocOk info.1 filter []).map fun tests =>
    if !begin.2.2 then (begin.1 ++ [.discovered tests], info.2) else
    let run := if h.runSubtest (filter.getD "all-tests".toList) then
      kselftestsLoop k h.runDynamic heap filter options result tests info.2 else ([], info.2)
    let fin := ktestEnd k run.2
    (begin.1 ++ .discovered tests :: run.1 ++ fin.1, fin.2)

/-! ## The order law -/

/-- The order of a batch's calls: a trigger comes right after a read of the taint indicator that
found it clear, and the module is removed before any other trigger or removal. -/
inductive BatchOrder : List Event → Prop
  | nil : BatchOrder []
  | quiet {e : Event} {t : List Event} (he : e.Quiet) (h : BatchOrder t) : BatchOrder (e :: t)
  | remove (f : Nat) {t : List Event} (h : BatchOrder t) : BatchOrder (.remove f :: t)
  | trigger (b : List Char) (f : Nat) {q t : List Event} (hq : ∀ ev ∈ q, ev.Quiet)
      (h : BatchOrder t) : BatchOrder (.taint false :: .trigger b :: q ++ .remove f :: t)

theorem BatchOrder.of_plain : ∀ {t : List Event}, (∀ ev ∈ t, ev.Plain) → BatchOrder t
  | [], _ => .nil
  | e :: _, h => by
    have ht := of_plain fun ev hev => h ev (.tail _ hev)
    have he := h e (.head _)
    cases e
    case remove f => exact .remove f ht
    case trigger => exact he.elim
    all_goals exact .quiet trivial ht

theorem BatchOrder.of_quiet {t : List Event} (h : ∀ ev ∈ t, ev.Quiet) : BatchOrder t :=
  of_plain fun ev hev => (h ev hev).plain

/-- Once the taint indicator is read set, it is never read clear again. -/
def Sticky (t : List Event) : Prop :=
  ∀ l₁ l₂, t = l₁ ++ .taint true :: l₂ → .taint false ∉ l₂

theorem filterMap_triggered_plain {t : List Event} (h : ∀ ev ∈ t, ev.Plain) :
    t.filterMap Event.triggered = [] :=
  List.filterMap_eq_nil_iff.mpr fun ev hev => by
    have := h ev hev
    cases ev <;> first | rfl | exact this.elim

theorem filterMap_triggered_test {b : List Char} {f : Nat} {q q' : List Event}
    (hq : ∀ ev ∈ q, ev.Quiet) (hq' : ∀ ev ∈ q', ev.Quiet) :
    (.taint false :: .trigger b :: q ++ .remove f :: q').filterMap Event.triggered = [b] := by
  simp [List.filterMap_append, Event.triggered,
    filterMap_triggered_plain fun ev hev => (hq ev hev).plain,
    filterMap_triggered_plain fun ev hev => (hq' ev hev).plain]

theorem Sticky.tail {e : Event} {t : List Event} (h : Sticky (e :: t)) : Sticky t :=
  fun l₁ l₂ ht => h (e :: l₁) l₂ (by simp [ht])

/-! ## One test -/

section Execute

variable (k : Kernel σ) (tl : IgtKselftestList) (options result : Option (List Char))

theorem readResultInto_quiet (err : Int) (s : σ) :
    ∀ ev ∈ (readResultInto k result err s).2.2, ev.Quiet := by
  unfold readResultInto
  split
  · split <;> simp [Event.Quiet]
  · simp

theorem dumpOnError_quiet (err : Int) (s : σ) : ∀ ev ∈ (dumpOnError k err s).1, ev.Quiet := by
  unfold dumpOnError
  split <;> simp [Event.Quiet]

theorem igtKselftestExecute_trace (s : σ) :
    (igtKselftestExecute k tl options result s).trace = [.taint true] ∨
    ∃ q q', (∀ ev ∈ q, ev.Quiet) ∧ (∀ ev ∈ q', ev.Quiet) ∧
      (igtKselftestExecute k tl options result s).trace =
        .taint false :: .trigger (triggerBuf options tl) :: q ++ .remove 0 :: q' := by
  unfold igtKselftestExecute
  dsimp only
  split
  · exact .inl rfl
  · set load := k.modprobe (triggerBuf options tl) (k.lseek (k.tainted s).2).2
    set read := readResultInto k result load.1 load.2
    set dump := dumpOnError k (if read.1 = -ENOTTY then 0 else read.1) read.2.1
    have hq : ∀ ev ∈ read.2.2 ++ dump.1, ev.Quiet :=
      List.forall_mem_append.mpr ⟨readResultInto_quiet k result _ _, dumpOnError_quiet k _ _⟩
    refine .inr ⟨read.2.2 ++ dump.1, ?_⟩
    by_cases herr : (if read.1 = -ENOTTY then 0 else read.1) ≠ 0
    · rw [if_pos herr]
      exact ⟨[], hq, by simp, by simp⟩
    · rw [if_neg herr]
      exact ⟨[.taint (k.tainted (k.removeModule 0 dump.2).2).1], hq, by simp [Event.Quiet],
        by simp⟩

variable (runDynamic : List Char → Bool) (heap : Heap) (filter : Option (List Char))

theorem runTest_trace (s : σ) :
    (runTest k runDynamic heap filter options result tl s).1 = [] ∨
    (runTest k runDynamic heap filter options result tl s).1 = [.taint true] ∨
    ∃ q q', (∀ ev ∈ q, ev.Quiet) ∧ (∀ ev ∈ q', ev.Quiet) ∧
      (runTest k runDynamic heap filter options result tl s).1 =
        .taint false :: .trigger (triggerBuf options tl) :: q ++ .remove 0 :: q' := by
  unfold runTest
  split
  · exact .inr (igtKselftestExecute_trace k tl options result s)
  · exact .inl rfl

end Execute

/-! ## The batch -/

section Loop

variable (k : Kernel σ) (runDynamic : List Char → Bool) (heap : Heap)
  (filter options result : Option (List Char))

theorem runTest_law (tl : IgtKselftestList) (s : σ) :
    BatchOrder (runTest k runDynamic heap filter options result tl s).1 ∧
    ((runTest k runDynamic heap filter options result tl s).1.filterMap Event.triggered = [] ∨
      (runTest k runDynamic heap filter options result tl s).1.filterMap Event.triggered =
        [triggerBuf options tl]) := by
  rcases runTest_trace k tl options result runDynamic heap filter s with
    h | h | ⟨q, q', hq, hq', h⟩ <;> rw [h]
  · exact ⟨.nil, .inl rfl⟩
  · exact ⟨.quiet trivial .nil, .inl rfl⟩
  · exact ⟨.trigger _ 0 hq (.of_quiet hq'), .inr (filterMap_triggered_test hq hq')⟩

theorem kselftestsLoop_sublist :
    ∀ (T : List IgtKselftestList) (s : σ), ∃ sub, List.Sublist sub T ∧
      (kselftestsLoop k runDynamic heap filter options result T s).1.filterMap Event.triggered =
        sub.map (triggerBuf options)
  | [], _ => ⟨[], .slnil, rfl⟩
  | tl :: rest, s => by
    have hr := (runTest_law k runDynamic heap filter options result tl s).2
    unfold kselftestsLoop
    dsimp only
    split
    · rcases hr with hr | hr
      · exact ⟨[], List.nil_sublist _, by simp [List.filterMap_append, hr, Event.triggered]⟩
      · exact ⟨[tl], List.singleton_sublist.mpr (.head _),
          by simp [List.filterMap_append, hr, Event.triggered]⟩
    · obtain ⟨sub, hsub, hrest⟩ := kselftestsLoop_sublist rest
        (k.tainted (runTest k runDynamic heap filter options result tl s).2).2
      rcases hr with hr | hr
      · exact ⟨sub, hsub.cons tl, by simp [List.filterMap_append, hr, Event.triggered, hrest]⟩
      · exact ⟨tl :: sub, hsub.cons₂ tl, by simp [List.filterMap_append, hr, Event.triggered, hrest]⟩

end Loop

/-! ## Laws of a batch -/

structure LoopLaw (allRun : Prop) (options : Option (List Char)) (T : List IgtKselftestList)
    (x : List Event) : Prop where
  order : BatchOrder x
  sublist : ∃ sub, List.Sublist sub T ∧ x.filterMap Event.triggered = sub.map (triggerBuf options)
  prefix_ : Sticky x → allRun → ∃ j, x.filterMap Event.triggered = (T.take j).map (triggerBuf options)

theorem LoopLaw.nil (allRun : Prop) (options : Option (List Char)) (T : List IgtKselftestList) :
    LoopLaw allRun options T [] :=
  ⟨.nil, ⟨[], List.nil_sublist _, rfl⟩, fun _ _ => ⟨0, rfl⟩⟩

theorem ktestBegin_plain (k : Kernel σ) (moduleName : List Char) (s : σ) :
    ∀ ev ∈ (ktestBegin k moduleName s).1, ev.Plain := by
  unfold ktestBegin
  dsimp only
  split <;> simp [Event.Plain]

def quietKernel : Kernel Unit where
  ktestInit _ s := (0, s)
  i915DriverUnload s := s
  removeModule _ s := (0, s)
  getInfo s := ([⟨"parmtype".toList, some "igt__a:bool".toList⟩], s)
  modprobe _ s := (0, s)
  readResult _ s := (none, s)
  tainted s := (false, s)
  kmsg _ := 3
  lseek s := (0, s)
  readKmsg s := ([], [], s)

def runAll : Harness := ⟨fun _ => true, fun _ => true⟩

def testA : IgtKselftestList := ⟨"igt__a\x00bool\x00".toList, 0, 5⟩

/-- On well-formed module info and with a C-string filter, whatever allocations fail,
`igt_kselftests` triggers its self-tests in non-decreasing order of their numbers, ties in
module-info order: its triggers are those of a sublist of the kept entries of the module info it
read after `igt_ktest_begin` whose allocation succeeded, stably sorted by number. -/
theorem igtKselftests_ascending (k : Kernel σ) (h : Harness) (heap : Heap)
    (mallocOk : Nat → Bool) (moduleName : List Char) (options result filter : Option (List Char))
    (s : σ)
    (hfilter : ∀ f ∈ filter, '\x00' ∉ f) (hinfo : ∀ s, ∀ d ∈ (k.getInfo s).1, WellFormedInfo d)
    {t : List Event} {s' : σ}
    (hrun : igtKselftests k h heap mallocOk moduleName options result filter s = some (t, s')) :
    ∃ sub, List.Sublist sub
        ((keptTests heap filter (allocated mallocOk 0
          (k.getInfo (ktestBegin k moduleName (k.ktestInit moduleName s).2).2.1).1)).mergeSort
            fun a b => a.number ≤ b.number) ∧ SortedByNumber sub ∧
      t.filterMap Event.triggered = sub.map (triggerBuf options) := by
  unfold igtKselftests at hrun
  dsimp only at hrun
  split at hrun
  · cases hrun
    exact ⟨[], List.nil_sublist _, .nil, rfl⟩
  rw [igtKselftestGetTests, getTestsLoop_allocated heap mallocOk filter _ 0 0,
    getTestsLoop_eq_mergeSort heap hfilter
      (fun d hd => hinfo _ d ((allocated_sublist mallocOk 0 _).subset hd)) 0 .nil,
    List.nil_append, Option.map_some'] at hrun
  set T := (keptTests heap filter (allocated mallocOk 0 (k.getInfo (ktestBegin k moduleName
    (k.ktestInit moduleName s).2).2.1).1)).mergeSort fun a b => a.number ≤ b.number
  have hsorted : SortedByNumber T := pairwise_mergeSort_key _ _
  have hbegin :=
    filterMap_triggered_plain (ktestBegin_plain k moduleName (k.ktestInit moduleName s).2)
  split at hrun
  · cases hrun
    exact ⟨[], List.nil_sublist _, .nil, by simp [List.filterMap_append, hbegin, Event.triggered]⟩
  · cases hrun
    obtain ⟨sub, hsub, htrig⟩ : ∃ sub, List.Sublist sub T ∧
        (kselftestsLoop k h.runDynamic heap filter options result T
          (k.getInfo (ktestBegin k moduleName (k.ktestInit moduleName s).2).2.1).2).1.filterMap
            Event.triggered = sub.map (triggerBuf options) :=
      kselftestsLoop_sublist k _ heap filter options result T _
    split
    · refine ⟨sub, hsub, hsorted.sublist hsub, ?_⟩
      rw [List.filterMap_append, List.filterMap_append, List.filterMap_cons, htrig, hbegin]
      simp [ktestEnd, Event.triggered]
    · exact ⟨[], List.nil_sublist _, .nil, by
        simp [List.filterMap_append, hbegin, ktestEnd, Event.triggered]⟩

def twoKernel : Kernel Unit := { quietKernel with getInfo := fun s => (twoTests, s) }

theorem igtKselftests_ascending_twoTests :
    (∀ f ∈ (none : Option (List Char)), '\x00' ∉ f) ∧
      (∀ s, ∀ d ∈ (twoKernel.getInfo s).1, WellFormedInfo d) ∧
      ∃ t, igtKselftests twoKernel runAll (fun _ => []) (fun i => i != 1) "test".toList none none
          none () = some (t, ()) ∧
        ∃ sub, List.Sublist sub
            ((keptTests (fun _ => []) none (allocated (fun i => i != 1) 0
              (twoKernel.getInfo (ktestBegin twoKernel "test".toList
                (twoKernel.ktestInit "test".toList ()).2).2.1).1)).mergeSort
                  fun a b => a.number ≤ b.number) ∧ SortedByNumber sub ∧
          t.filterMap Event.triggered = sub.map (triggerBuf none) :=
  have hinfo : ∀ s, ∀ d ∈ (twoKernel.getInfo s).1, WellFormedInfo d := fun s => by
    cases s
    decide
  ⟨fun f hf => absurd hf (Option.not_mem_none f), hinfo, _, rfl,
    igtKselftests_ascending twoKernel runAll (fun _ => []) (fun i => i != 1) "test".toList none
      none none () (fun f hf => absurd hf (Option.not_mem_none f)) hinfo rfl⟩

end IgtKmod.Kselftest
