import IgtKmod.Basic
import Mathlib.Order.Basic

/-!
# The unload path of `lib/igt_kmod.c`

`igt_kmod_unload_r` (lines 255-318) and `igt_kmod_unload` (lines 331-354) over a system that
answers the libkmod calls. The system is a state `σ`; every call may move it to a new state, so
initstates, holder lists and removal results can change arbitrarily between calls. Modules are
named by `μ`.

The recursion has no guard against cycles in the holder graph, so `igtKmodUnloadR` takes fuel:
with `fuel + 1` a visit may nest recursive visits `fuel` deep, and `none` means the fuel ran out.
A run records the calls it makes as a trace of `Event`s, closed by a `ret` for each visit.
-/

namespace IgtKmod.Unload

def MAX_TRIES : Nat := 20
def SLEEP_DURATION : Nat := 500000

/-- The libkmod calls of the unload path, answered by the running system; `waitInit` is
`igt_wait(!igt_kmod_is_loading(kmod), 10000, 100)`, whether the module left its init before the
timeout, and `stackErr` what the uninitialised local `err` of a new `igt_kmod_unload_r` frame
holds. -/
structure Kmod (σ μ : Type) where
  newFromName : μ → σ → Int × σ
  getInitstate : μ → σ → Initstate × σ
  getHolders : μ → σ → List μ × σ
  removeModule : μ → Nat → σ → Int × σ
  waitInit : μ → σ → Bool × σ
  stackErr : σ → Int

inductive Event (μ : Type) where
  | initstate (x : μ) (st : Initstate)
  | holders (x : μ) (hs : List μ)
  | wait (x : μ) (done : Bool)
  | remove (x : μ) (err : Int)
  | sleep (us : Nat)
  | ret (x : μ) (err : Int)
  deriving DecidableEq, Repr

/-- An answer of `kmod_module_remove_module` after which the retry loop goes on. -/
def Busy (err : Int) : Prop := err = -EBUSY ∨ err = -EAGAIN

instance : DecidablePred Busy := fun err =>
  inferInstanceAs (Decidable (err = -EBUSY ∨ err = -EAGAIN))

variable {σ μ : Type}

/-- The retry loop (lines 288-300) at iteration `tries`, with `left` iterations to go. -/
def removeLoop (os : Kmod σ μ) (kmod : μ) (flags : Nat) :
    (left tries : Nat) → Int → σ → Int × σ × List (Event μ)
  | 0, _, err, s => (err, s, [])
  | left + 1, tries, _, s =>
    let (r, s) := os.removeModule kmod flags s
    if ¬ Busy r then (r, s, [.remove kmod r])
    else
      let slept := if tries < MAX_TRIES - 1 then [Event.sleep SLEEP_DURATION] else []
      let (err, s, t) := removeLoop os kmod flags left (tries + 1) r s
      (err, s, .remove kmod r :: slept ++ t)

/-- `kmod_list_foreach` over a holder snapshot (lines 267-273): visit each holder in turn and
stop at the first negative `err`. `err` is what the local holds before the loop. -/
def holderLoop (visit : σ → μ → Option (Int × σ × List (Event μ))) :
    List μ → Int → σ → Option (Int × σ × List (Event μ))
  | [], err, s => some (err, s, [])
  | it :: hs, _, s => (visit s it).bind fun (err, s, t) =>
    if err < 0 then some (err, s, t)
    else (holderLoop visit hs err s).map fun (err, s, t') => (err, s, t ++ t')

/-- Where a visit stands when it leaves lines 263-286: returned early, or at the retry loop. -/
inductive Prelude (σ μ : Type) where
  | done (err : Int) (s : σ) (t : List (Event μ))
  | loop (err : Int) (s : σ) (t : List (Event μ))

/-- Lines 275-286, once the holder loop has left `err`: return it if negative, else wait for a
module still in its init and go on to the retry loop. -/
def afterHolders (os : Kmod σ μ) (kmod : μ) : Int × σ × List (Event μ) → Prelude σ μ
  | (err, s, t) =>
    if err < 0 then .done err s t else
    let (st, s) := os.getInitstate kmod s
    if st = .coming then
      let (ok, s) := os.waitInit kmod s
      let err : Int := if ok then 1 else 0
      let t := t ++ [.initstate kmod st, .wait kmod ok]
      if err < 0 then .done err s t else .loop err s t
    else .loop err s (t ++ [.initstate kmod st])

/-- Lines 261-286 of `igt_kmod_unload_r`: the builtin check, the holders, and the wait for a
module still in its init. -/
def visitPrelude (os : Kmod σ μ) (visit : σ → μ → Option (Int × σ × List (Event μ)))
    (kmod : μ) (s : σ) : Option (Prelude σ μ) :=
  let err := os.stackErr s
  let (st, s) := os.getInitstate kmod s
  if st = .builtin then some (.done 0 s [.initstate kmod st]) else
  let (hs, s) := os.getHolders kmod s
  (holderLoop visit hs err s).map fun (err, s, t) =>
    afterHolders os kmod (err, s, .initstate kmod st :: .holders kmod hs :: t)

/-- Lines 288-317: the retry loop, if the visit got there, and the return. -/
def finishVisit (os : Kmod σ μ) (kmod : μ) (flags : Nat) : Prelude σ μ → Int × σ × List (Event μ)
  | .done err s t => (err, s, t ++ [.ret kmod err])
  | .loop err s t =>
    let (err, s, t') := removeLoop os kmod flags MAX_TRIES 0 err s
    (err, s, t ++ t' ++ [.ret kmod err])

def igtKmodUnloadR (os : Kmod σ μ) : Nat → μ → Nat → σ → Option (Int × σ × List (Event μ))
  | 0, _, _, _ => none
  | fuel + 1, kmod, flags, s =>
    (visitPrelude os (fun s it => igtKmodUnloadR os fuel it flags s) kmod s).map
      (finishVisit os kmod flags)

def igtKmodUnload (os : Kmod σ μ) (fuel : Nat) (modName : μ) (flags : Nat) (s : σ) :
    Option (Int × σ × List (Event μ)) :=
  let (err, s) := os.newFromName modName s
  if err < 0 then some (err, s, [])
  else (igtKmodUnloadR os fuel modName flags s).map fun (err, s, t) =>
    (if err < 0 then err else 0, s, t)

/-! ## Equations and fuel -/

@[simp] theorem holderLoop_nil (visit : σ → μ → Option (Int × σ × List (Event μ))) (err : Int)
    (s : σ) : holderLoop visit [] err s = some (err, s, []) := rfl

theorem visitPrelude_eq (os : Kmod σ μ) (visit : σ → μ → Option (Int × σ × List (Event μ)))
    (x : μ) (s : σ) :
    visitPrelude os visit x s =
      if (os.getInitstate x s).1 = .builtin then
        some (.done 0 (os.getInitstate x s).2 [.initstate x (os.getInitstate x s).1])
      else
        (holderLoop visit (os.getHolders x (os.getInitstate x s).2).1 (os.stackErr s)
          (os.getHolders x (os.getInitstate x s).2).2).map fun r =>
            afterHolders os x (r.1, r.2.1, .initstate x (os.getInitstate x s).1 ::
              .holders x (os.getHolders x (os.getInitstate x s).2).1 :: r.2.2) :=
  rfl

theorem afterHolders_of_neg (os : Kmod σ μ) (x : μ) {err : Int} (s : σ) (t : List (Event μ))
    (h : err < 0) : afterHolders os x (err, s, t) = .done err s t := by
  simp [afterHolders, h]

theorem afterHolders_of_not_coming (os : Kmod σ μ) (x : μ) {err : Int} (s : σ)
    (t : List (Event μ)) (herr : 0 ≤ err) (hst : (os.getInitstate x s).1 ≠ .coming) :
    afterHolders os x (err, s, t) =
      .loop err (os.getInitstate x s).2 (t ++ [.initstate x (os.getInitstate x s).1]) := by
  simp [afterHolders, Int.not_lt.mpr herr, hst]

theorem removeLoop_settled (os : Kmod σ μ) (x : μ) (flags left tries : Nat) (err : Int) (s : σ)
    (h : ¬ Busy (os.removeModule x flags s).1) :
    removeLoop os x flags (left + 1) tries err s =
      ((os.removeModule x flags s).1, (os.removeModule x flags s).2,
        [.remove x (os.removeModule x flags s).1]) := by
  simp [removeLoop, h]

theorem holderLoop_mono {visit visit' : σ → μ → Option (Int × σ × List (Event μ))}
    (h : ∀ s x v, visit s x = some v → visit' s x = some v) :
    ∀ hs err s v, holderLoop visit hs err s = some v → holderLoop visit' hs err s = some v
  | [], _, _, _, hv => hv
  | it :: hs, err, s, v, hv => by
    simp only [holderLoop, Option.bind_eq_some] at hv ⊢
    obtain ⟨⟨e, s', t⟩, hvis, hrest⟩ := hv
    refine ⟨_, h _ _ _ hvis, ?_⟩
    split at hrest
    · rwa [if_pos ‹_›]
    · simp only [*, if_false] at hrest ⊢
      obtain ⟨w, hw, rfl⟩ := Option.map_eq_some'.mp hrest
      rw [holderLoop_mono h hs e s' w hw]
      rfl

theorem visitPrelude_mono {visit visit' : σ → μ → Option (Int × σ × List (Event μ))}
    (h : ∀ s x v, visit s x = some v → visit' s x = some v) (os : Kmod σ μ) (kmod : μ) (s : σ)
    (p : Prelude σ μ) : visitPrelude os visit kmod s = some p →
    visitPrelude os visit' kmod s = some p := by
  unfold visitPrelude
  rcases os.getInitstate kmod s with ⟨st, s1⟩
  rcases os.getHolders kmod s1 with ⟨hs, s2⟩
  dsimp only
  split
  · exact id
  · intro hp
    obtain ⟨w, hw, rfl⟩ := Option.map_eq_some'.mp hp
    rw [holderLoop_mono h _ _ _ w hw]
    rfl

theorem igtKmodUnloadR_succ (os : Kmod σ μ) :
    ∀ fuel kmod flags s v, igtKmodUnloadR os fuel kmod flags s = some v →
      igtKmodUnloadR os (fuel + 1) kmod flags s = some v
  | 0, _, _, _, _, hv => nomatch hv
  | fuel + 1, kmod, flags, s, v, hv => by
    obtain ⟨p, hp, rfl⟩ := Option.map_eq_some'.mp hv
    rw [igtKmodUnloadR, visitPrelude_mono (fun s x => igtKmodUnloadR_succ os fuel x flags s) os kmod s p hp]
    rfl

theorem igtKmodUnloadR_mono (os : Kmod σ μ) {fuel fuel' : Nat} (hle : fuel ≤ fuel') {kmod : μ}
    {flags : Nat} {s : σ} {v : Int × σ × List (Event μ)}
    (hv : igtKmodUnloadR os fuel kmod flags s = some v) :
    igtKmodUnloadR os fuel' kmod flags s = some v := by
  induction hle with
  | refl => exact hv
  | step _ ih => exact igtKmodUnloadR_succ os _ _ _ _ _ ih

theorem igtKmodUnload_mono (os : Kmod σ μ) {fuel fuel' : Nat} (hle : fuel ≤ fuel') {m : μ}
    {flags : Nat} {s : σ} {v : Int × σ × List (Event μ)}
    (hv : igtKmodUnload os fuel m flags s = some v) : igtKmodUnload os fuel' m flags s = some v := by
  revert hv
  unfold igtKmodUnload
  rcases os.newFromName m s with ⟨e, s1⟩
  dsimp only
  split
  · exact id
  · intro hv
    obtain ⟨w, hw, rfl⟩ := Option.map_eq_some'.mp hv
    rw [igtKmodUnloadR_mono os hle hw]
    rfl

end IgtKmod.Unload
