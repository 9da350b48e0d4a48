import IgtKmod.Unload.Model

/-!
# The order law of unload

Spec §4.2, steps 1-4, as a law over the trace of one visit of `igt_kmod_unload_r`: a module
that reads builtin is left alone; every member of the holder snapshot is visited before the
module itself is touched; the first member whose visit fails ends the visit with its error,
without visiting the later members or requesting the removal. `VisitTrace` states the law,
and `igtKmodUnload_trace` shows that every run of `igt_kmod_unload` obeys it, for every
system and every fuel.
-/

namespace IgtKmod.Unload

variable {σ μ : Type}

/-- The calls a visit of `x` makes about `x` itself once its holders are done. -/
def Event.OwnCall (x : μ) : Event μ → Prop
  | .initstate y _ | .wait y _ | .remove y _ => y = x
  | .sleep _ => True
  | .holders _ _ | .ret _ _ => False

mutual
/-- The trace `t` of one visit of `x` that returns `r`: a module that reads builtin is left
alone; the first holder whose visit fails ends the visit with its error, with the later holders
not visited and `x` not removed; and once the visit of every holder returned a non-negative
value, `x` only makes calls about itself: the loading check, the wait, and the removal requests
with the sleeps between them. -/
inductive VisitTrace : μ → List (Event μ) → Int → Prop
  | builtin (x : μ) : VisitTrace x [.initstate x .builtin, .ret x 0] 0
  | abort {x : μ} {st : Initstate} {done later : List μ} {it : μ} {tdone tit : List (Event μ)}
      {e : Int} (hst : st ≠ .builtin) (hdone : HoldersTrace done tdone)
      (hit : VisitTrace it tit e) (he : e < 0) :
      VisitTrace x
        (.initstate x st :: .holders x (done ++ it :: later) :: tdone ++ tit ++ [.ret x e]) e
  | settle {x : μ} {st : Initstate} {hs : List μ} {ths tail : List (Event μ)} (r : Int)
      (hst : st ≠ .builtin) (hall : HoldersTrace hs ths) (hown : ∀ ev ∈ tail, ev.OwnCall x) :
      VisitTrace x (.initstate x st :: .holders x hs :: ths ++ tail ++ [.ret x r]) r

/-- One visit per member of a holder snapshot, in order, each returning a non-negative value. -/
inductive HoldersTrace : List μ → List (Event μ) → Prop
  | nil : HoldersTrace [] []
  | cons {it : μ} {hs : List μ} {tit ths : List (Event μ)} {r : Int}
      (hit : VisitTrace it tit r) (hr : 0 ≤ r) (hrest : HoldersTrace hs ths) :
      HoldersTrace (it :: hs) (tit ++ ths)
end

theorem removeLoop_ownCall (os : Kmod σ μ) (x : μ) (flags : Nat) :
    ∀ left tries err s, ∀ ev ∈ (removeLoop os x flags left tries err s).2.2, ev.OwnCall x
  | 0, _, _, _ => by simp [removeLoop]
  | left + 1, tries, err, s => by
    have ih := removeLoop_ownCall os x flags left (tries + 1)
    unfold removeLoop
    rcases os.removeModule x flags s with ⟨r, s1⟩
    dsimp only
    split
    · simp [Event.OwnCall]
    · intro ev hev
      split at hev <;> simp only [List.mem_cons, List.mem_append, List.not_mem_nil,
        or_false] at hev
      · rcases hev with (rfl | rfl) | hev
        exacts [rfl, trivial, ih _ _ ev hev]
      · rcases hev with rfl | hev
        exacts [rfl, ih _ _ ev hev]

theorem holderLoop_trace {visit : σ → μ → Option (Int × σ × List (Event μ))}
    (hvisit : ∀ s x r s' t, visit s x = some (r, s', t) → VisitTrace x t r) :
    ∀ hs err s e s' t, holderLoop visit hs err s = some (e, s', t) →
      HoldersTrace hs t ∨
      ∃ done it later tdone tit, hs = done ++ it :: later ∧ HoldersTrace done tdone ∧
        VisitTrace it tit e ∧ e < 0 ∧ t = tdone ++ tit
  | [], _, _, _, _, _, h => by
    simp only [holderLoop_nil, Option.some.injEq, Prod.mk.injEq] at h
    exact .inl (h.2.2 ▸ .nil)
  | it :: hs, err, s, e, s', t, h => by
    simp only [holderLoop, Option.bind_eq_some] at h
    obtain ⟨⟨r, s1, tit⟩, hit, hrest⟩ := h
    have vit := hvisit _ _ _ _ _ hit
    by_cases hr : r < 0
    · simp only [hr, if_true, Option.some.injEq, Prod.mk.injEq] at hrest
      obtain ⟨rfl, rfl, rfl⟩ := hrest
      exact .inr ⟨[], it, hs, [], tit, rfl, .nil, vit, hr, rfl⟩
    · simp only [hr, if_false] at hrest
      obtain ⟨⟨e', s2, ths⟩, hloop, heq⟩ := Option.map_eq_some'.mp hrest
      simp only [Prod.mk.injEq] at heq
      obtain ⟨rfl, rfl, rfl⟩ := heq
      rcases holderLoop_trace hvisit hs r s1 e' s2 ths hloop with
        hall | ⟨done, it', later, tdone, tit', rfl, hdone, hit', he, rfl⟩
      · exact .inl (.cons vit (Int.not_lt.mp hr) hall)
      · exact .inr ⟨it :: done, it', later, tit ++ tdone, tit', rfl,
          .cons vit (Int.not_lt.mp hr) hdone, hit', he, by simp⟩

def Prelude.trace : Prelude σ μ → List (Event μ)
  | .done _ _ t | .loop _ _ t => t

theorem afterHolders_trace (os : Kmod σ μ) (x : μ) (err : Int) (s : σ) (t : List (Event μ)) :
    ∃ tail, (∀ ev ∈ tail, ev.OwnCall x) ∧ (afterHolders os x (err, s, t)).trace = t ++ tail := by
  unfold afterHolders
  dsimp only
  split
  · exact ⟨[], by simp, by simp [Prelude.trace]⟩
  · split
    · refine ⟨[.initstate x (os.getInitstate x s).1,
        .wait x (os.waitInit x (os.getInitstate x s).2).1], by simp [Event.OwnCall], ?_⟩
      split <;> rfl
    · exact ⟨[.initstate x (os.getInitstate x s).1], by simp [Event.OwnCall], rfl⟩

theorem finishVisit_trace (os : Kmod σ μ) (x : μ) (flags : Nat) (p : Prelude σ μ) :
    ∃ tail, (∀ ev ∈ tail, ev.OwnCall x) ∧
      (finishVisit os x flags p).2.2 = p.trace ++ tail ++ [.ret x (finishVisit os x flags p).1] := by
  cases p with
  | done err s t => exact ⟨[], by simp, by simp [finishVisit, Prelude.trace]⟩
  | loop err s t =>
    exact ⟨_, removeLoop_ownCall os x flags MAX_TRIES 0 err s,
      by simp [finishVisit, Prelude.trace]⟩

theorem igtKmodUnloadR_trace (os : Kmod σ μ) :
    ∀ fuel x flags s r s' t, igtKmodUnloadR os fuel x flags s = some (r, s', t) → VisitTrace x t r
  | 0, _, _, _, _, _, _, h => nomatch h
  | fuel + 1, x, flags, s, r, s', t, h => by
    have ih := igtKmodUnloadR_trace os fuel
    obtain ⟨p, hp, hpr⟩ := Option.map_eq_some'.mp h
    unfold visitPrelude at hp
    dsimp only at hp
    split at hp
    · rename_i hst
      cases hp
      simp only [finishVisit, Prod.mk.injEq] at hpr
      obtain ⟨rfl, -, rfl⟩ := hpr
      rw [hst]
      exact .builtin x
    · rename_i hst
      obtain ⟨⟨e, s3, ths⟩, hloop, rfl⟩ := Option.map_eq_some'.mp hp
      rcases holderLoop_trace (fun s x r s' t h => ih x flags s r s' t h) _ _ _ e s3 ths hloop with
        hall | ⟨done, it, later, tdone, tit, hhs, hdone, hit, he, rfl⟩
      · obtain ⟨tail, hown, htr⟩ := finishVisit_trace os x flags (afterHolders os x (e, s3, _))
        obtain ⟨tail', hown', htr'⟩ := afterHolders_trace os x e s3
          (.initstate x (os.getInitstate x s).1 :: .holders x (os.getHolders x (os.getInitstate x s).2).1 :: ths)
        rw [hpr, htr'] at htr
        dsimp only at htr
        subst htr
        simpa using @VisitTrace.settle _ _ _ _ _ (tail' ++ tail) r hst hall
          (fun ev hev => (List.mem_append.mp hev).elim (hown' ev) (hown ev))
      · rw [afterHolders_of_neg os x s3 _ he] at hpr
        simp only [finishVisit, Prod.mk.injEq] at hpr
        obtain ⟨rfl, -, rfl⟩ := hpr
        rw [hhs]
        simpa using @VisitTrace.abort _ _ _ _ later _ _ _ _ hst hdone hit he

/-- Every run of `igt_kmod_unload` obeys the order law, and a negative value returned by the
visit of the module, a failure of a holder's visit in particular, is what it returns. -/
theorem igtKmodUnload_trace (os : Kmod σ μ) (fuel : Nat) (m : μ) (flags : Nat) (s : σ)
    {ret : Int} {s' : σ} {t : List (Event μ)}
    (h : igtKmodUnload os fuel m flags s = some (ret, s', t)) :
    (t = [] ∧ ret < 0) ∨ ∃ r, VisitTrace m t r ∧ ret = if r < 0 then r else 0 := by
  unfold igtKmodUnload at h
  dsimp only at h
  split at h
  · simp only [Option.some.injEq, Prod.mk.injEq] at h
    obtain ⟨rfl, -, rfl⟩ := h
    exact .inl ⟨rfl, ‹_›⟩
  · obtain ⟨⟨r, s1, t1⟩, hr, heq⟩ := Option.map_eq_some'.mp h
    simp only [Prod.mk.injEq] at heq
    obtain ⟨rfl, -, rfl⟩ := heq
    exact .inr ⟨r, igtKmodUnloadR_trace os fuel m flags _ r s1 t1 hr, rfl⟩

def sndHoldsI915 : Kmod Unit String where
  newFromName _ s := (0, s)
  getInitstate _ s := (.live, s)
  getHolders x s := (if x = "i915" then ["snd_hda_intel"] else [], s)
  removeModule x _ s := (if x = "snd_hda_intel" then -1 else 0, s)
  waitInit _ s := (true, s)
  stackErr _ := 0

theorem igtKmodUnload_trace_i915 :
    let t : List (Event String) := [.initstate "i915" .live, .holders "i915" ["snd_hda_intel"],
      .initstate "snd_hda_intel" .live, .holders "snd_hda_intel" [],
      .initstate "snd_hda_intel" .live, .remove "snd_hda_intel" (-1),
      .ret "snd_hda_intel" (-1), .ret "i915" (-1)]
    igtKmodUnload sndHoldsI915 2 "i915" 0 () = some (-1, (), t) ∧
      ((t = [] ∧ (-1 : Int) < 0) ∨
        ∃ r, VisitTrace "i915" t r ∧ (-1 : Int) = if r < 0 then r else 0) := by
  intro t
  exact ⟨by decide, @igtKmodUnload_trace _ _ sndHoldsI915 2 "i915" 0 () (-1) () t (by decide)⟩

end IgtKmod.Unload
