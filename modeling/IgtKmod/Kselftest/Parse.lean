import Mathlib.Data.List.Basic

/-!
# Self-test parameter names

The loop body of `igt_kselftest_get_tests` (lines 719-737) turns a `parmtype` value
`igt__<s>:<type>` into an `igt_kselftest_list` entry: a copy of the value cut at its colon, the
ordering number, and where in the copy the test name starts. A C string is the list of its
characters before the terminating NUL.

Number and name are read by `sscanf(name, "%u__%n", ...)`, whose count is `1` as soon as `%u`
converted, whether or not `__` follows. For an identifier `s`, the name is `r` when
`s = <digits>__r` (`parseParam_numbered`) and `s` when `s` has no leading digit
(`parseParam_unnumbered`); when the digits are not followed by `__`, `%n` is never stored and
the name is moved by the stale `offset`, past the end of the copy (`parseParam_stale`).
-/

namespace IgtKmod.Kselftest

/-- `struct igt_kselftest_list`: `param` holds the bytes of the allocation, and `name` is the
offset of `tl->name` in it. -/
structure IgtKselftestList where
  param : List Char
  number : Nat
  name : Nat
  deriving DecidableEq, Repr

def paramPrefix : List Char := "igt__".toList

def prefixLen : Nat := 5

/-- The C string at the head of `s`. -/
def cstring (s : List Char) : List Char := s.takeWhile (· ≠ '\x00')

/-- `strchr(s, c)`: the index of the first `c` in the C string `s`. -/
def strchr (s : List Char) (c : Char) : Option Nat := (cstring s).findIdx? (· = c)

/-- `strncmp(a, b, n) == 0` for C strings `a` and `b`. -/
def strncmpEq (a b : List Char) (n : Nat) : Bool :=
  (a ++ ['\x00']).take n == (b ++ ['\x00']).take n

def isDigit (c : Char) : Bool := 48 ≤ c.toNat && c.toNat ≤ 57

def isAlpha (c : Char) : Bool := (65 ≤ c.toNat && c.toNat ≤ 90) || (97 ≤ c.toNat && c.toNat ≤ 122)

def isSpace (c : Char) : Bool :=
  c = ' ' || c = '\t' || c = '\n' || c = '\x0b' || c = '\x0c' || c = '\r'

def digitsValue (d : List Char) : Nat := d.foldl (fun v c => 10 * v + (c.toNat - '0'.toNat)) 0

/-- What glibc's `%u` stores into an `unsigned int`: `strtoul` of the digits, which saturates
at `ULONG_MAX` on a 64-bit target and negates modulo `2^64` after a minus sign, cut to 32 bits. -/
def scanU (neg : Bool) (v : Nat) : Nat :=
  (if v < Nat.pow 2 64 then (if neg then (Nat.pow 2 64 - v) % Nat.pow 2 64 else v)
    else Nat.pow 2 64 - 1) % Nat.pow 2 32

/-- The outcome of `sscanf(str, "%u__%n", &number, &offset)`: the count it returns, and what it
stores in `number` and in `offset`. -/
structure ScanResult where
  count : Int
  number : Option Nat
  offset : Option Nat
  deriving DecidableEq, Repr

/-- `__%n` once `%u` has consumed `used` characters: the count `%n` stores, if `__` matches. -/
def scanTail (used : Nat) : List Char → Option Nat
  | '_' :: '_' :: _ => some (used + 2)
  | _ => none

def sscanfNumber (str : List Char) : ScanResult :=
  let ws := (str.takeWhile isSpace).length
  match str.drop ws with
  | [] => ⟨-1, none, none⟩
  | c :: rest =>
    let sign := if c = '-' ∨ c = '+' then 1 else 0
    let body := (c :: rest).drop sign
    let digits := body.takeWhile isDigit
    if digits = [] then ⟨0, none, none⟩
    else ⟨1, some (scanU (c = '-') (digitsValue digits)),
      scanTail (ws + sign + digits.length) (body.drop digits.length)⟩

/-- Lines 724-737 for a value `val` that starts with `igt__`: the entry, or `none` where the code
writes through the null pointer that `strchr` returns for a value with no colon. -/
def parseParam (val : List Char) : Option IgtKselftestList :=
  let offset := val.length + 1
  let param := val ++ ['\x00']
  (strchr param ':').map fun colon =>
    let param := param.set colon '\x00'
    let scan := sscanfNumber (cstring (param.drop prefixLen))
    let name := if scan.count = 1 then prefixLen + scan.offset.getD offset else prefixLen
    ⟨param, scan.number.getD 0, name⟩

/-- What follows an allocation holding `param` in the heap. -/
def Heap : Type := List Char → List Char

/-- The bytes from the start of `tl->param` on: the allocation, then the heap after it. -/
def IgtKselftestList.bytes (heap : Heap) (tl : IgtKselftestList) : List Char :=
  tl.param ++ heap tl.param

def IgtKselftestList.nameStr (heap : Heap) (tl : IgtKselftestList) : List Char :=
  cstring ((tl.bytes heap).drop tl.name)

/-! ## C strings -/

theorem cstring_append_nul {l : List Char} (h : ∀ c ∈ l, c ≠ '\x00') (t : List Char) :
    cstring (l ++ '\x00' :: t) = l := by
  rw [cstring, List.takeWhile_append_of_pos fun c hc => decide_eq_true (h c hc)]
  simp


theorem strncmpEq_length {f : List Char} (hf : '\x00' ∉ f) (a : List Char) :
    strncmpEq a f f.length = f.isPrefixOf a := by
  induction f generalizing a with
  | nil => simp [strncmpEq]
  | cons c f ih =>
    have hc : c ≠ '\x00' := fun h => hf (h ▸ .head _)
    cases a with
    | nil => simp [strncmpEq, List.isPrefixOf, Ne.symm hc]
    | cons x a =>
      have := ih (fun h => hf (.tail _ h)) a
      simp only [strncmpEq, List.cons_append, List.length_cons, List.take_succ_cons,
        List.isPrefixOf] at this ⊢
      rw [← this]
      simp only [List.cons_beq_cons, List.append_nil]
      rw [Bool.beq_comm]

theorem cstring_of_nul_not_mem {l : List Char} (h : '\x00' ∉ l) : cstring (l ++ ['\x00']) = l :=
  cstring_append_nul (fun _ hc he => h (he ▸ hc)) []

theorem getD_cstring_length (s : List Char) : s.getD (cstring s).length '\x00' = '\x00' := by
  induction s with
  | nil => rfl
  | cons c s ih =>
    by_cases hc : c = '\x00'
    · simp [cstring, hc]
    · simpa [cstring, hc] using ih

theorem cstring_drop {s : List Char} {k : Nat} (hk : k ≤ (cstring s).length) :
    cstring (s.drop k) = (cstring s).drop k := by
  induction s generalizing k with
  | nil => simp [cstring]
  | cons c s ih =>
    by_cases hc : c = '\x00'
    · obtain rfl : k = 0 := by simpa [cstring, hc] using hk
      rfl
    · cases k with
      | zero => rfl
      | succ k => simpa [cstring, hc] using ih (by simpa [cstring, hc] using hk)

theorem parseParam_isSome {val : List Char} (h0 : '\x00' ∉ val) (hc : ':' ∈ val) :
    (parseParam val).isSome := by
  simp only [parseParam, Option.isSome_map', strchr, cstring_of_nul_not_mem h0]
  rw [List.findIdx?_isSome]
  exact List.any_eq_true.mpr ⟨':', hc, by simp⟩

/-! ## Identifiers -/

def identChar (c : Char) : Bool := isDigit c || isAlpha c || c = '_'

theorem identChar_toNat {c : Char} (h : identChar c) : 48 ≤ c.toNat ∧ c.toNat ≠ 58 := by
  simp only [identChar, isDigit, isAlpha, Bool.or_eq_true, Bool.and_eq_true, decide_eq_true_eq] at h
  rcases h with (h | h | h) | rfl
  all_goals first | decide | omega

theorem identChar_ne {c : Char} (h : identChar c) :
    c ≠ '\x00' ∧ c ≠ ':' ∧ isSpace c = false ∧ c ≠ '-' ∧ c ≠ '+' := by
  obtain ⟨h48, h58⟩ := identChar_toNat h
  have below : ∀ d : Char, d.toNat < 48 → c ≠ d := fun d hd he => by subst he; omega
  refine ⟨below _ (by decide), fun he => h58 (by rw [he]; rfl), ?_, below _ (by decide),
    below _ (by decide)⟩
  simp only [isSpace, Bool.or_eq_false_iff, decide_eq_false_iff_not]
  exact ⟨⟨⟨⟨⟨below _ (by decide), below _ (by decide)⟩, below _ (by decide)⟩, below _ (by decide)⟩,
    below _ (by decide)⟩, below _ (by decide)⟩

variable {s : List Char}

theorem sscanfNumber_ident (hs : ∀ c ∈ s, identChar c) :
    sscanfNumber s = if s.takeWhile isDigit = [] then ⟨if s = [] then -1 else 0, none, none⟩
      else ⟨1, some (scanU false (digitsValue (s.takeWhile isDigit))),
        scanTail (s.takeWhile isDigit).length (s.drop (s.takeWhile isDigit).length)⟩ := by
  cases s with
  | nil => rfl
  | cons c rest =>
    obtain ⟨-, -, hsp, hminus, hplus⟩ := identChar_ne (hs c (.head _))
    simp only [sscanfNumber, List.takeWhile_cons, hsp, if_neg Bool.false_ne_true, List.length_nil,
      List.drop_zero, hminus, hplus, or_self, if_false, List.drop_zero, Nat.zero_add,
      decide_False, reduceCtorEq]

theorem strchr_append_colon {l : List Char} (h : ∀ c ∈ l, c ≠ '\x00' ∧ c ≠ ':') (t : List Char) :
    strchr (l ++ ':' :: t) ':' = some l.length := by
  rw [strchr, cstring, List.takeWhile_append_of_pos fun c hc => decide_eq_true (h c hc).1,
    List.takeWhile_cons_of_pos (by decide), List.findIdx?_append,
    List.findIdx?_eq_none_iff.mpr fun c hc => decide_eq_false (h c hc).2]
  simp

theorem paramPrefix_identChar : ∀ c ∈ paramPrefix, identChar c := by decide

theorem parseParam_ident (type : List Char) (hs : ∀ c ∈ s, identChar c) :
    parseParam (paramPrefix ++ s ++ ':' :: type) =
      some ⟨paramPrefix ++ s ++ '\x00' :: type ++ ['\x00'], (sscanfNumber s).number.getD 0,
        if (sscanfNumber s).count = 1 then
          prefixLen + (sscanfNumber s).offset.getD ((paramPrefix ++ s ++ ':' :: type).length + 1)
        else prefixLen⟩ := by
  have hps : ∀ c ∈ paramPrefix ++ s, c ≠ '\x00' ∧ c ≠ ':' := fun c hc => by
    obtain ⟨h0, hcol, -⟩ := identChar_ne ((List.mem_append.mp hc).elim (paramPrefix_identChar c) (hs c))
    exact ⟨h0, hcol⟩
  have hcolon : strchr (paramPrefix ++ s ++ ':' :: type ++ ['\x00']) ':' =
      some (paramPrefix ++ s).length := by
    rw [List.append_assoc, List.cons_append]
    exact strchr_append_colon hps _
  have hset : (paramPrefix ++ s ++ ':' :: type ++ ['\x00']).set (paramPrefix ++ s).length '\x00' =
      paramPrefix ++ s ++ '\x00' :: type ++ ['\x00'] := by
    simp [List.append_assoc]
  have hname : cstring ((paramPrefix ++ s ++ '\x00' :: type ++ ['\x00']).drop prefixLen) = s := by
    rw [List.append_assoc, List.append_assoc, List.drop_left' (show paramPrefix.length = prefixLen from rfl),
      List.cons_append]
    exact cstring_append_nul (fun c hc => (identChar_ne (hs c hc)).1) _
  simp only [parseParam, hcolon, Option.map_some', hset, hname]

theorem nameStr_within (heap : Heap) {type : List Char} (hs : ∀ c ∈ s, identChar c) {k : Nat}
    (hk : k ≤ s.length) (number : Nat) :
    IgtKselftestList.nameStr heap
      ⟨paramPrefix ++ s ++ '\x00' :: type ++ ['\x00'], number, prefixLen + k⟩ = s.drop k := by
  rw [IgtKselftestList.nameStr, IgtKselftestList.bytes]
  dsimp only
  rw [List.append_assoc, List.append_assoc, List.append_assoc,
    show prefixLen = paramPrefix.length from rfl, List.drop_append, List.cons_append,
    List.drop_append_of_le_length hk]
  exact cstring_append_nul (fun c hc => (identChar_ne (hs c (List.mem_of_mem_drop hc))).1) _

/-- `igt__<digits>__<r>`: the number is the `%u` value of the digits, and the name is `r`. -/
theorem parseParam_numbered {d r : List Char} (type : List Char) (hd : d ≠ [])
    (hdig : ∀ c ∈ d, isDigit c) (hr : ∀ c ∈ r, identChar c) :
    ∃ tl, parseParam (paramPrefix ++ (d ++ '_' :: '_' :: r) ++ ':' :: type) = some tl ∧
      tl.number = scanU false (digitsValue d) ∧ ∀ heap, tl.nameStr heap = r := by
  have hs : ∀ c ∈ d ++ '_' :: '_' :: r, identChar c := fun c hc => by
    rcases List.mem_append.mp hc with hc | hc
    · simp [identChar, hdig c hc]
    · rcases List.mem_cons.mp hc with rfl | hc
      · decide
      rcases List.mem_cons.mp hc with rfl | hc
      exacts [by decide, hr c hc]
  have htake : (d ++ '_' :: '_' :: r).takeWhile isDigit = d := by
    rw [List.takeWhile_append_of_pos hdig, List.takeWhile_cons_of_neg (by decide), List.append_nil]
  have hscan : sscanfNumber (d ++ '_' :: '_' :: r) =
      ⟨1, some (scanU false (digitsValue d)), some (d.length + 2)⟩ := by
    rw [sscanfNumber_ident hs, htake, if_neg hd, List.drop_left]
    rfl
  refine ⟨_, parseParam_ident type hs, by rw [hscan]; rfl, fun heap => ?_⟩
  simp only [hscan, if_true, Option.getD_some]
  rw [nameStr_within heap hs (by simp)]
  simp [List.drop_append_of_le_length]

theorem parseParam_numbered_12foo :
    "12".toList ≠ [] ∧ (∀ c ∈ "12".toList, isDigit c) ∧ (∀ c ∈ "foo".toList, identChar c) ∧
      ∃ tl, parseParam (paramPrefix ++ ("12".toList ++ '_' :: '_' :: "foo".toList) ++
          ':' :: "bool".toList) = some tl ∧
        tl.number = scanU false (digitsValue "12".toList) ∧ ∀ heap, tl.nameStr heap = "foo".toList :=
  ⟨by decide, by decide, by decide,
    parseParam_numbered "bool".toList (by decide) (by decide) (by decide)⟩

/-- `igt__<s>` with no leading digit: the number is `0` and the name is `s`. -/
theorem parseParam_unnumbered (type : List Char) (hs : ∀ c ∈ s, identChar c)
    (hnum : s.takeWhile isDigit = []) :
    ∃ tl, parseParam (paramPrefix ++ s ++ ':' :: type) = some tl ∧
      tl.number = 0 ∧ ∀ heap, tl.nameStr heap = s := by
  have hcount : (sscanfNumber s).count ≠ 1 ∧ (sscanfNumber s).number = none := by
    rw [sscanfNumber_ident hs, if_pos hnum]
    split <;> decide
  refine ⟨_, parseParam_ident type hs, by simp [hcount.2], fun heap => ?_⟩
  simp only [if_neg hcount.1]
  exact nameStr_within heap hs (Nat.zero_le _) _

theorem parseParam_unnumbered_foo :
    (∀ c ∈ "foo".toList, identChar c) ∧ "foo".toList.takeWhile isDigit = [] ∧
      ∃ tl, parseParam (paramPrefix ++ "foo".toList ++ ':' :: "bool".toList) = some tl ∧
        tl.number = 0 ∧ ∀ heap, tl.nameStr heap = "foo".toList :=
  ⟨by decide, by decide, parseParam_unnumbered "bool".toList (by decide) (by decide)⟩

/-- `igt__1_foo`: the number is `1`, and the name starts past the 15 bytes of the copy. -/
theorem parseParam_igt1Foo :
    ∃ tl, parseParam "igt__1_foo:int".toList = some tl ∧ tl.number = 1 ∧
      tl.param.length < tl.name :=
  ⟨⟨"igt__1_foo\x00int\x00".toList, 1, 20⟩, by decide, rfl, by decide⟩

end IgtKmod.Kselftest
