import IgtKmod.Kselftest.Parse

/-!
# The library context

`kmod_ctx` (lines 61-110) makes the libkmod context on first use, from `IGT_KMOD_DIRNAME` and
`IGT_KMOD_CONFIG_PATHS`. The config paths are split in place: one loop counts the fields (none for
an empty value, else one more than the colons), and a second one walks them with `strchr`,
recording a pointer to each field and overwriting the colon after it with a NUL.

Both loops follow the same fields, one field and its colon a step (`countLoop_fields`,
`splitLoop_fields`), so the assertion in the splitting loop holds, and `kmod_new` receives exactly
the `':'`-separated fields of the value, in order (`kmodCtx_configPaths`).
-/

namespace IgtKmod

open Kselftest

/-- `strchr(buf + p, c)`, as an index into `buf`. -/
def strchrFrom (buf : List Char) (p : Nat) (c : Char) : Option Nat :=
  (strchr (buf.drop p) c).map (p + ·)

/-- Lines 83-84, `while ((p = strchr(p, ':'))) p++, count++;`, from `p` with the count so far;
`fuel` bounds the iterations, and the result is `none` if it runs out. -/
def countLoop (buf : List Char) : Nat → Nat → Nat → Option Nat
  | 0, _, _ => none
  | fuel + 1, p, count =>
    match strchrFrom buf p ':' with
    | none => some count
    | some q => countLoop buf fuel (q + 1) count.succ

/-- Lines 90-97, the last `n` iterations of the splitting loop from the pointer `p` (`none` for
NULL), with the pointers recorded so far: the buffer at the end and the recorded pointers, or
`none` where `igt_assert(p != NULL)` fails. -/
def splitLoop : Nat → List Char → Option Nat → List Nat → Option (List Char × List Nat)
  | 0, buf, _, paths => some (buf, paths)
  | _ + 1, _, none, _ => none
  | n + 1, buf, some p, paths =>
    match strchrFrom buf p ':' with
    | none => splitLoop n buf none (paths ++ [p])
    | some q => splitLoop n (buf.set q '\x00') (some (q + 1)) (paths ++ [p])

/-- The strings of the array `config_paths` that `kmod_ctx` builds from the C string `s`, read
from the split buffer at the recorded pointers up to the `NULL` after them; `none` where an
assertion fails. -/
def configPaths (s : List Char) : Option (List (List Char)) :=
  let buf := s ++ ['\x00']
  (countLoop buf buf.length 0 (if (cstring buf).length ≠ 0 then 1 else 0)).bind fun count =>
    (splitLoop count buf (some 0) []).map fun r => r.2.map fun p => cstring (r.1.drop p)

/-- The arguments of `kmod_new`: the module directory, and the config paths (`NULL` when the
variable is not set). -/
structure KmodNew where
  dirname : Option (List Char)
  configPaths : Option (List (List Char))
  deriving DecidableEq, Repr

/-- `kmod_ctx`, given the environment and the context made before, if any: the arguments of the
`kmod_new` that makes the context, or `none` where an assertion fails. -/
def kmodCtx (getenv : List Char → Option (List Char)) : Option KmodNew → Option KmodNew
  | some ctx => some ctx
  | none =>
    match getenv "IGT_KMOD_CONFIG_PATHS".toList with
    | none => some ⟨getenv "IGT_KMOD_DIRNAME".toList, none⟩
    | some s => (configPaths s).map fun paths => ⟨getenv "IGT_KMOD_DIRNAME".toList, some paths⟩

/-! ## The fields of a value -/

def Field (g : List Char) : Prop := ∀ c ∈ g, c ≠ '\x00' ∧ c ≠ ':'

theorem intercalate_singleton (sep f : List Char) : sep.intercalate [f] = f := by
  simp [List.intercalate]

theorem intercalate_cons_cons (c : Char) (f g : List Char) (G : List (List Char)) :
    [c].intercalate (f :: g :: G) = f ++ c :: [c].intercalate (g :: G) := rfl

theorem length_le_intercalate (c : Char) :
    ∀ (f : List Char) (F : List (List Char)), F.length ≤ ([c].intercalate (f :: F)).length
  | _, [] => Nat.zero_le _
  | f, g :: G => by
    have := length_le_intercalate c g G
    rw [intercalate_cons_cons, List.length_append, List.length_cons, List.length_cons]
    omega

theorem splitOn_cons (c : Char) (s : List Char) :
    (c :: s).splitOn ':' =
      if c = ':' then [] :: s.splitOn ':' else (s.splitOn ':').modifyHead (c :: ·) := by
  simp only [List.splitOn, List.splitOnP_cons, beq_iff_eq]

theorem splitOn_eq_cons (s : List Char) : ∃ f F, s.splitOn ':' = f :: F :=
  List.exists_cons_of_ne_nil (List.splitOnP_ne_nil _ _)

theorem mem_splitOn {s g : List Char} (hg : g ∈ s.splitOn ':') : ∀ c ∈ g, c ∈ s ∧ c ≠ ':' := by
  induction s generalizing g with
  | nil => simp_all
  | cons c s ih =>
    obtain ⟨h, t, ht⟩ := splitOn_eq_cons s
    rw [splitOn_cons, ht] at hg
    rw [ht] at ih
    intro x hx
    split_ifs at hg with hc
    · rcases List.mem_cons.mp hg with rfl | hg
      · cases hx
      · exact (ih hg x hx).imp_left (.tail _)
    · rcases List.mem_cons.mp hg with rfl | hg
      · rcases List.mem_cons.mp hx with rfl | hx
        · exact ⟨.head _, hc⟩
        · exact (ih (.head _) x hx).imp_left (.tail _)
      · exact (ih (.tail _ hg) x hx).imp_left (.tail _)

theorem length_splitOn (s : List Char) : (s.splitOn ':').length = s.count ':' + 1 := by
  induction s with
  | nil => rfl
  | cons c s ih =>
    rw [splitOn_cons]
    obtain ⟨h, t, ht⟩ := splitOn_eq_cons s
    split_ifs with hc
    · subst hc
      simp [ih]
    · rw [ht] at ih ⊢
      simpa [List.count_cons, hc] using ih

/-! ## The two loops -/

theorem strchr_append_nul {l : List Char} (h : Field l) (t : List Char) :
    strchr (l ++ '\x00' :: t) ':' = none := by
  rw [strchr, cstring_append_nul fun c hc => (h c hc).1]
  exact List.findIdx?_eq_none_iff.mpr fun c hc => decide_eq_false (h c hc).2

theorem strchrFrom_colon {pre f : List Char} (hf : Field f) (t : List Char) :
    strchrFrom (pre ++ f ++ ':' :: t) pre.length ':' = some (pre.length + f.length) := by
  rw [strchrFrom, List.append_assoc, List.drop_left, strchr_append_colon hf]
  rfl

theorem strchrFrom_nul {pre f : List Char} (hf : Field f) (t : List Char) :
    strchrFrom (pre ++ f ++ '\x00' :: t) pre.length ':' = none := by
  rw [strchrFrom, List.append_assoc, List.drop_left, strchr_append_nul hf]
  rfl

theorem cstring_drop_field {pre f : List Char} (hf : Field f) (t : List Char) :
    cstring ((pre ++ f ++ '\x00' :: t).drop pre.length) = f := by
  rw [List.append_assoc, List.drop_left, cstring_append_nul fun c hc => (hf c hc).1]

theorem append_intercalate_cons_cons (c : Char) (pre f g t : List Char) (G : List (List Char)) :
    pre ++ [c].intercalate (f :: g :: G) ++ t = pre ++ f ++ c :: ([c].intercalate (g :: G) ++ t) := by
  simp [intercalate_cons_cons]

theorem set_sep (pre f u : List Char) (c d : Char) :
    (pre ++ f ++ c :: u).set (pre.length + f.length) d = pre ++ f ++ d :: u := by
  rw [← List.length_append, List.set_append_right _ _ (Nat.le_refl _), Nat.sub_self]
  rfl

theorem countLoop_fields (pre f : List Char) (F : List (List Char)) (count fuel : Nat)
    (hF : ∀ g ∈ f :: F, Field g) (hfuel : F.length < fuel) :
    countLoop (pre ++ [':'].intercalate (f :: F) ++ ['\x00']) fuel pre.length count =
      some (count + F.length) := by
  induction F generalizing pre f count fuel with
  | nil =>
    cases fuel with
    | zero => omega
    | succ fuel =>
      rw [intercalate_singleton, countLoop, strchrFrom_nul (hF f (.head _))]
      rfl
  | cons g G ih =>
    cases fuel with
    | zero => omega
    | succ fuel =>
      rw [append_intercalate_cons_cons, countLoop, strchrFrom_colon (hF f (.head _))]
      have := ih (pre ++ f ++ [':']) g count.succ fuel (fun x hx => hF x (.tail _ hx))
        (by simp only [List.length_cons] at hfuel; omega)
      simpa [Nat.succ_add] using this

def fieldStarts : Nat → List (List Char) → List Nat
  | _, [] => []
  | p, f :: F => p :: fieldStarts (p + f.length + 1) F

theorem splitLoop_fields (pre f : List Char) (F : List (List Char)) (paths : List Nat)
    (hF : ∀ g ∈ f :: F, Field g) :
    splitLoop (F.length + 1) (pre ++ [':'].intercalate (f :: F) ++ ['\x00']) (some pre.length)
        paths =
      some (pre ++ ['\x00'].intercalate (f :: F) ++ ['\x00'],
        paths ++ fieldStarts pre.length (f :: F)) := by
  induction F generalizing pre f paths with
  | nil =>
    rw [intercalate_singleton, intercalate_singleton, splitLoop, strchrFrom_nul (hF f (.head _))]
    rfl
  | cons g G ih =>
    rw [append_intercalate_cons_cons, List.length_cons, splitLoop,
      strchrFrom_colon (hF f (.head _))]
    have := ih (pre ++ f ++ ['\x00']) g (paths ++ [pre.length]) (fun x hx => hF x (.tail _ hx))
    simpa [set_sep, intercalate_cons_cons, fieldStarts, Nat.add_assoc] using this

theorem read_fieldStarts (pre f : List Char) (F : List (List Char)) (hF : ∀ g ∈ f :: F, Field g) :
    (fieldStarts pre.length (f :: F)).map
        (fun p => cstring ((pre ++ ['\x00'].intercalate (f :: F) ++ ['\x00']).drop p)) = f :: F := by
  induction F generalizing pre f with
  | nil =>
    rw [intercalate_singleton, fieldStarts, List.map_cons, cstring_drop_field (hF f (.head _))]
    rfl
  | cons g G ih =>
    rw [fieldStarts, List.map_cons, append_intercalate_cons_cons,
      cstring_drop_field (hF f (.head _))]
    have := ih (pre ++ f ++ ['\x00']) g fun x hx => hF x (.tail _ hx)
    simpa [Nat.add_assoc] using this

/-! ## The config paths -/

theorem configPaths_eq {s : List Char} (h0 : '\x00' ∉ s) :
    configPaths s = some (if s = [] then [] else s.splitOn ':') := by
  by_cases hne : s = []
  · subst hne
    rfl
  obtain ⟨f, G, hsplit⟩ := splitOn_eq_cons s
  have hF : ∀ g ∈ f :: G, Field g := fun g hg c hc =>
    ⟨fun he => h0 (he ▸ (mem_splitOn (hsplit ▸ hg) c hc).1), (mem_splitOn (hsplit ▸ hg) c hc).2⟩
  have hs : s = [] ++ [':'].intercalate (f :: G) := by
    rw [List.nil_append, ← hsplit, List.intercalate_splitOn]
  have hfuel : G.length < (s ++ ['\x00']).length := by
    simpa [hs] using Nat.lt_succ_of_le (length_le_intercalate ':' f G)
  have hcount : (if (cstring (s ++ ['\x00'])).length ≠ 0 then 1 else 0) = 1 := by
    rw [cstring_of_nul_not_mem h0, if_pos (List.length_pos.mpr hne).ne']
  have hc := countLoop_fields [] f G 1 _ hF hfuel
  have hsp := splitLoop_fields [] f G [] hF
  have hread := read_fieldStarts [] f G hF
  rw [← hs] at hc hsp
  simp only [List.length_nil, List.nil_append] at hc hsp hread
  simp only [configPaths, hcount, if_neg hne, hsplit]
  rw [hc, Option.some_bind, Nat.add_comm 1, hsp, Option.map_some', hread]

/-- For every value `s` of `IGT_KMOD_CONFIG_PATHS`, the first `kmod_ctx` passes `kmod_new` the
array of the `':'`-separated fields of `s`, in order: none for an empty `s`, else one more than
the colons in `s`. No field contains a colon, and joining them with colons gives back `s`. -/
theorem kmodCtx_configPaths (getenv : List Char → Option (List Char)) {s : List Char}
    (hs : getenv "IGT_KMOD_CONFIG_PATHS".toList = some s) (h0 : '\x00' ∉ s) :
    ∃ paths, kmodCtx getenv none = some ⟨getenv "IGT_KMOD_DIRNAME".toList, some paths⟩ ∧
      paths = (if s = [] then [] else s.splitOn ':') ∧
      paths.length = (if s = [] then 0 else s.count ':' + 1) ∧
      (∀ f ∈ paths, ':' ∉ f) ∧ [':'].intercalate paths = s := by
  refine ⟨_, by simp only [kmodCtx, hs, configPaths_eq h0, Option.map_some'], rfl, ?_⟩
  by_cases h : s = []
  · subst h
    simp [List.intercalate]
  · simp only [if_neg h]
    exact ⟨length_splitOn s, fun f hf hc => (mem_splitOn hf ':' hc).2 rfl,
      List.intercalate_splitOn ..⟩

def pathsEnv (v : List Char) : Option (List Char) :=
  if v = "IGT_KMOD_CONFIG_PATHS".toList then some "/etc::/run".toList else none

theorem kmodCtx_configPaths_pathsEnv :
    pathsEnv "IGT_KMOD_CONFIG_PATHS".toList = some "/etc::/run".toList ∧
      '\x00' ∉ "/etc::/run".toList ∧
      ∃ paths, kmodCtx pathsEnv none = some ⟨pathsEnv "IGT_KMOD_DIRNAME".toList, some paths⟩ ∧
        paths = (if "/etc::/run".toList = [] then [] else "/etc::/run".toList.splitOn ':') ∧
        paths.length = (if "/etc::/run".toList = [] then 0 else "/etc::/run".toList.count ':' + 1) ∧
        (∀ f ∈ paths, ':' ∉ f) ∧ [':'].intercalate paths = "/etc::/run".toList :=
  ⟨rfl, by decide, kmodCtx_configPaths pathsEnv rfl (by decide)⟩

end IgtKmod
