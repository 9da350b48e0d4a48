import IgtKmod.Unload.Model

/-!
# When a visit requests the removal

The part of `igt_kmod_unload_r` after the holder loop (lines 275-317): the bounded retry loop,
and the two ways a visit reaches or skips it.

* `igtKmodUnload_retries`: against any answers `r₀, r₁, …` of the system, the loop makes
  `k` requests, `k` being the first non-busy answer counting from one or `MAX_TRIES`, sleeps
  between consecutive requests only, and returns `r_{k-1}`.
* A leaf module whose frame finds a negative value in its uninitialised `err` returns it with no
  removal request; a module still in its init when the wait gives up goes on to the retry loop,
  since the check of `igt_wait`'s result can never see a negative value.
-/

namespace IgtKmod.Unload

variable {σ μ : Type}

/-! ## The retry loop -/

/-- The answer to the `i + 1`-th of successive removal requests of `x` made from `s`. -/
def removeAnswer (os : Kmod σ μ) (x : μ) (flags : Nat) : σ → Nat → Int
  | s, 0 => (os.removeModule x flags s).1
  | s, i + 1 => removeAnswer os x flags (os.removeModule x flags s).2 i

/-- How many requests a loop of `n` iterations makes against the answers `r`: up to the first
answer that is not busy, or all `n`. -/
def settleCount (n : Nat) (r : Nat → Int) : Nat :=
  match (List.range n).find? (fun i => ¬ Busy (r i)) with
  | some i => i + 1
  | none => n

/-- `k` removal requests against the answers `r`, with a sleep between consecutive ones. -/
def retryTrace (x : μ) (r : Nat → Int) : Nat → List (Event μ)
  | 0 => []
  | 1 => [.remove x (r 0)]
  | k + 2 => .remove x (r 0) :: .sleep SLEEP_DURATION :: retryTrace x (fun i => r (i + 1)) (k + 1)

theorem settleCount_succ (n : Nat) (r : Nat → Int) :
    settleCount (n + 1) r = if Busy (r 0) then settleCount n (fun i => r (i + 1)) + 1 else 1 := by
  unfold settleCount
  rw [List.range_succ_eq_map, List.find?_cons]
  by_cases h : Busy (r 0)
  · simp only [h, not_true_eq_false, decide_False, if_true, List.find?_map, Function.comp_def]
    cases List.find? (fun i => decide ¬Busy (r (i + 1))) (List.range n) <;> rfl
  · simp [h]

theorem settleCount_pos {n : Nat} (r : Nat → Int) (hn : 0 < n) : 0 < settleCount n r := by
  cases n with
  | zero => omega
  | succ n => rw [settleCount_succ]; split <;> omega

theorem removeLoop_settle (os : Kmod σ μ) (x : μ) (flags : Nat) :
    ∀ left tries err s, tries + left = MAX_TRIES → 0 < left →
      (removeLoop os x flags left tries err s).1 =
          removeAnswer os x flags s (settleCount left (removeAnswer os x flags s) - 1) ∧
        (removeLoop os x flags left tries err s).2.2 =
          retryTrace x (removeAnswer os x flags s) (settleCount left (removeAnswer os x flags s))
  | left + 1, tries, err, s, htries, _ => by
    have hr0 : removeAnswer os x flags s 0 = (os.removeModule x flags s).1 := rfl
    have hrs : (fun i => removeAnswer os x flags s (i + 1)) =
        removeAnswer os x flags (os.removeModule x flags s).2 := rfl
    rw [settleCount_succ, hr0, hrs]
    unfold removeLoop
    dsimp only
    by_cases hb : Busy (os.removeModule x flags s).1
    · rw [if_pos hb, if_neg (not_not.mpr hb)]
      rcases left with _ | left
      · have hlast : ¬ tries < MAX_TRIES - 1 := by simp only [MAX_TRIES] at htries ⊢; omega
        simp [hlast, removeLoop, settleCount, retryTrace, hr0]
      · obtain ⟨h1, h2⟩ := removeLoop_settle os x flags (left + 1) (tries + 1)
          (os.removeModule x flags s).1 (os.removeModule x flags s).2 (by omega) (by omega)
        have hsleep : tries < MAX_TRIES - 1 := by simp only [MAX_TRIES] at htries ⊢; omega
        obtain ⟨j, hj⟩ : ∃ j, settleCount (left + 1)
            (removeAnswer os x flags (os.removeModule x flags s).2) = j + 1 :=
          ⟨_, (Nat.succ_pred_eq_of_pos (settleCount_pos _ (Nat.succ_pos left))).symm⟩
        rw [hj] at h1 h2
        simp only [hsleep, if_true, h1, h2, hj]
        exact ⟨rfl, rfl⟩
    · rw [if_neg hb, if_pos hb]
      simp [retryTrace, hr0]

/-- The retry loop makes `k` removal requests against the successive answers `r` of the system,
`k` being the first non-busy answer counting from one, or `MAX_TRIES`; it sleeps once between
consecutive requests and never after the last, and returns `r (k - 1)`. When the module is the
one `igt_kmod_unload` was called on, that answer is what `igt_kmod_unload` returns if negative,
and `0` otherwise. -/
theorem igtKmodUnload_retries (os : Kmod σ μ) (x : μ) (flags : Nat) (err : Int) (s : σ) :
    let r := removeAnswer os x flags s
    let k := settleCount MAX_TRIES r
    (removeLoop os x flags MAX_TRIES 0 err s).1 = r (k - 1) ∧
    (removeLoop os x flags MAX_TRIES 0 err s).2.2 = retryTrace x r k ∧
    ∀ fuel s0 e s1 t, os.newFromName x s0 = (e, s1) → 0 ≤ e →
      visitPrelude os (fun s it => igtKmodUnloadR os fuel it flags s) x s1 = some (.loop err s t) →
      (igtKmodUnload os (fuel + 1) x flags s0).map (·.1) =
        some (if r (k - 1) < 0 then r (k - 1) else 0) := by
  intro r k
  obtain ⟨h1, h2⟩ := removeLoop_settle os x flags MAX_TRIES 0 err s (by rfl) (by decide)
  refine ⟨h1, h2, fun fuel s0 e s1 t hnew he hpre => ?_⟩
  simp only [igtKmodUnload, hnew, if_neg (Int.not_lt.mpr he), igtKmodUnloadR, hpre,
    Option.map_some', finishVisit, h1]

def busyModule : Kmod Unit Unit where
  newFromName _ s := (0, s)
  getInitstate _ s := (.live, s)
  getHolders _ s := ([], s)
  removeModule _ _ s := (-EBUSY, s)
  waitInit _ s := (true, s)
  stackErr _ := 0

theorem igtKmodUnload_retries_busy :
    busyModule.newFromName () () = (0, ()) ∧ (0 : Int) ≤ 0 ∧
      visitPrelude busyModule (fun s it => igtKmodUnloadR busyModule 0 it 0 s) () () =
        some (.loop 0 () [.initstate () .live, .holders () [], .initstate () .live]) ∧
      (igtKmodUnload busyModule 1 () 0 ()).map (·.1) = some (-EBUSY) :=
  ⟨rfl, Int.le_refl 0, rfl,
    (igtKmodUnload_retries busyModule () 0 0 ()).2.2 0 () 0 () _ rfl (Int.le_refl 0) rfl⟩

/-! ## Reaching the loop -/

def uninitLeaf : Kmod Unit Unit where
  newFromName _ s := (0, s)
  getInitstate _ s := (.live, s)
  getHolders _ s := ([], s)
  removeModule _ _ s := (0, s)
  waitInit _ s := (true, s)
  stackErr _ := -1

theorem igtKmodUnloadR_uninitLeaf :
    igtKmodUnloadR uninitLeaf 1 () 0 () =
      some (-1, (), [.initstate () .live, .holders () [], .ret () (-1)]) := by
  decide

def stuckComing : Kmod Unit Unit where
  newFromName _ s := (0, s)
  getInitstate _ s := (.coming, s)
  getHolders _ s := ([], s)
  removeModule _ _ s := (-EBUSY, s)
  waitInit _ s := (false, s)
  stackErr _ := 0

theorem igtKmodUnloadR_stuckComing :
    igtKmodUnloadR stuckComing 1 () 0 () =
      some (-EBUSY, (), [.initstate () .coming, .holders () [], .initstate () .coming,
        .wait () false] ++ retryTrace () (fun _ => -EBUSY) MAX_TRIES ++ [.ret () (-EBUSY)]) := by
  decide

end IgtKmod.Unload
