import IgtKmod.Unload.Termination
import Mathlib.Data.Fintype.Card

/-!
# Unload completeness

A well-behaved system keeps a finite set of loaded modules and a holder relation: reads change
nothing, and a removal fails with `-ENOENT` for a module that is not loaded, with `-EBUSY` for
one that a loaded module holds, and otherwise unloads the module.

Unloading `m` there is meant to take out `m` and every module above it. It does not in general:
the walk visits the holder snapshot of a module as it was read, so when one holder of `m`
transitively holds an earlier one, the earlier visit removes it and its own visit finds it gone
and fails with `-ENOENT` (`igtKmodUnload_diamond`). When no module above `m` has two holders
one of which transitively holds the other, and the uninitialised `err` of a frame with no
holders is never negative, the unload succeeds and leaves exactly the modules not above `m`
loaded (`igtKmodUnload_removesAbove`).
-/

namespace IgtKmod.Unload

open Relation

variable {σ μ : Type}

/-- A well-behaved system: `loaded s` is the set of loaded modules, and `holds h x` says that
`h` holds `x`. -/
structure WellBehaved [DecidableEq μ] (os : Kmod σ μ) (loaded : σ → Finset μ)
    (holds : μ → μ → Prop) : Prop where
  newFromName : ∀ x s, (os.newFromName x s).1 = 0 ∧ loaded (os.newFromName x s).2 = loaded s
  initstate_loaded : ∀ x s, loaded (os.getInitstate x s).2 = loaded s
  initstate_live : ∀ x s, x ∈ loaded s → (os.getInitstate x s).1 = .live
  initstate_ne : ∀ x s, (os.getInitstate x s).1 ≠ .builtin ∧ (os.getInitstate x s).1 ≠ .coming
  holders_loaded : ∀ x s, loaded (os.getHolders x s).2 = loaded s
  holders_nodup : ∀ x s, (os.getHolders x s).1.Nodup
  mem_holders : ∀ x s h, h ∈ (os.getHolders x s).1 ↔ h ∈ loaded s ∧ holds h x
  wait_loaded : ∀ x s, loaded (os.waitInit x s).2 = loaded s
  remove_absent : ∀ x f s, x ∉ loaded s →
    (os.removeModule x f s).1 = -ENOENT ∧ loaded (os.removeModule x f s).2 = loaded s
  remove_held : ∀ x f s, x ∈ loaded s → (∃ h ∈ loaded s, holds h x) →
    (os.removeModule x f s).1 = -EBUSY ∧ loaded (os.removeModule x f s).2 = loaded s
  remove_free : ∀ x f s, x ∈ loaded s → (∀ h ∈ loaded s, ¬ holds h x) →
    (os.removeModule x f s).1 = 0 ∧ loaded (os.removeModule x f s).2 = (loaded s).erase x

/-- `h` holds `x`, both loaded in `L`. -/
def HoldsWithin (L : Finset μ) (holds : μ → μ → Prop) (h x : μ) : Prop :=
  h ∈ L ∧ x ∈ L ∧ holds h x

/-- `y` is `x` or transitively holds it within `L`: what unloading `x` has to take out. -/
def Above (L : Finset μ) (holds : μ → μ → Prop) (y x : μ) : Prop :=
  y = x ∨ TransGen (HoldsWithin L holds) y x

def Acyclic (L : Finset μ) (holds : μ → μ → Prop) : Prop :=
  ∀ x, ¬ TransGen (HoldsWithin L holds) x x

/-- No module above `m` has two holders one of which transitively holds the other. -/
def NoShortcut (L : Finset μ) (holds : μ → μ → Prop) (m : μ) : Prop :=
  ∀ y h h', Above L holds y m → HoldsWithin L holds h y → HoldsWithin L holds h' y →
    ¬ TransGen (HoldsWithin L holds) h' h

/-- What the completeness argument needs of a visit of `x` with the loaded set `L`, when the
holder chains above `x` have at most `d` modules. -/
structure Unloadable (L : Finset μ) (holds : μ → μ → Prop) (x : μ) (d : Nat) : Prop where
  mem : x ∈ L
  acyclic : Acyclic L holds
  noShortcut : NoShortcut L holds x
  bounded : ChainsBounded (HoldsWithin L holds) x d

/-! ## Systems given by a holder table -/

section Table

variable [DecidableEq μ]

/-- A system whose state is the set of loaded modules; the holders of `x` are read, in the
order of `table x`, off its loaded members. -/
def tableOs (table : μ → List μ) : Kmod (Finset μ) μ where
  newFromName _ L := (0, L)
  getInitstate x L := (if x ∈ L then .live else .error (-ENOENT), L)
  getHolders x L := ((table x).filter (· ∈ L), L)
  removeModule x _ L :=
    if x ∉ L then (-ENOENT, L)
    else if (table x).any (· ∈ L) then (-EBUSY, L)
    else (0, L.erase x)
  waitInit _ L := (true, L)
  stackErr _ := 0

def tableHolds (table : μ → List μ) (h x : μ) : Prop := h ∈ table x

theorem tableOs_wellBehaved (table : μ → List μ) (hnd : ∀ x, (table x).Nodup) :
    WellBehaved (tableOs table) id (tableHolds table) where
  newFromName _ _ := ⟨rfl, rfl⟩
  initstate_loaded _ _ := rfl
  initstate_live _ _ hx := if_pos hx
  initstate_ne x L := by dsimp only [tableOs]; split <;> exact ⟨nofun, nofun⟩
  holders_loaded _ _ := rfl
  holders_nodup x _ := (hnd x).filter _
  mem_holders x L h := by simp [tableOs, tableHolds, and_comm]
  wait_loaded _ _ := rfl
  remove_absent x _ L hx := by
    dsimp only [tableOs, id] at hx ⊢
    rw [if_pos hx]
    exact ⟨rfl, rfl⟩
  remove_held x _ L hx hheld := by
    obtain ⟨h, hh, hhx⟩ := hheld
    dsimp only [tableOs, id] at hx hh ⊢
    rw [if_neg (not_not.mpr hx), if_pos (List.any_eq_true.mpr ⟨h, hhx, decide_eq_true hh⟩)]
    exact ⟨rfl, rfl⟩
  remove_free x _ L hx hfree := by
    dsimp only [tableOs, id] at hx ⊢
    rw [if_neg (not_not.mpr hx), if_neg fun hany => by
      obtain ⟨h, hhx, hh⟩ := List.any_eq_true.mp hany
      exact hfree h (of_decide_eq_true hh) hhx]
    exact ⟨rfl, rfl⟩

end Table

theorem tableHolds_acyclic (table : μ → List μ) (L : Finset μ) (rank : μ → Nat)
    (hrank : ∀ x, ∀ h ∈ table x, rank x < rank h) : Acyclic L (tableHolds table) :=
  acyclic_of_rank rank fun h x hhx => hrank x h hhx.2.2

section Relations

variable {L L' : Finset μ} {holds : μ → μ → Prop}

theorem HoldsWithin.mono (hsub : L' ⊆ L) {h x : μ} (hw : HoldsWithin L' holds h x) :
    HoldsWithin L holds h x :=
  ⟨hsub hw.1, hsub hw.2.1, hw.2.2⟩

theorem Above.mono (hsub : L' ⊆ L) {y x : μ} : Above L' holds y x → Above L holds y x :=
  Or.imp_right (TransGen.mono fun _ _ => HoldsWithin.mono hsub)

theorem Above.of_transGen {y z x : μ} (hyz : TransGen (HoldsWithin L holds) y z)
    (hzx : Above L holds z x) : Above L holds y x := by
  rcases hzx with rfl | hzx
  exacts [.inr hyz, .inr (hyz.trans hzx)]

theorem above_iff {y x : μ} :
    Above L holds y x ↔ y = x ∨ ∃ h, HoldsWithin L holds h x ∧ Above L holds y h := by
  unfold Above
  rw [TransGen.tail'_iff]
  constructor
  · rintro (rfl | ⟨h, hyh, hhx⟩)
    · exact .inl rfl
    · exact .inr ⟨h, hhx, (reflTransGen_iff_eq_or_transGen.mp hyh).imp Eq.symm id⟩
  · rintro (rfl | ⟨h, hhx, hyh⟩)
    · exact .inl rfl
    · exact .inr ⟨h, reflTransGen_iff_eq_or_transGen.mpr (hyh.imp Eq.symm id), hhx⟩

theorem above_restrict {D : List μ}
    (hL' : ∀ y, y ∈ L' ↔ y ∈ L ∧ ¬ ∃ d ∈ D, Above L holds y d) {y h : μ} (hy : y ∈ L')
    (hh : h ∈ L') (hab : Above L holds y h) : Above L' holds y h := by
  rcases hab with rfl | hab
  · exact .inl rfl
  · refine .inr ?_
    induction hab using TransGen.head_induction_on with
    | base hyh => exact .single ⟨hy, hh, hyh.2.2⟩
    | ih hyz _ ih =>
      rename_i z _
      have hz : z ∈ L' := (hL' z).mpr ⟨hyz.2.1, fun ⟨d, hd, hzd⟩ =>
        ((hL' _).mp hy).2 ⟨d, hd, hzd.of_transGen (.single hyz)⟩⟩
      exact .head ⟨hy, hz, hyz.2.2⟩ (ih hz)

theorem unloaded_append {D : List μ} {h : μ} {L₁ L₂ : Finset μ}
    (h1 : ∀ y, y ∈ L₁ ↔ y ∈ L ∧ ¬ ∃ e ∈ D, Above L holds y e) (hh : h ∈ L₁)
    (h2 : ∀ y, y ∈ L₂ ↔ y ∈ L₁ ∧ ¬ Above L₁ holds y h) (y : μ) :
    y ∈ L₂ ↔ y ∈ L ∧ ¬ ∃ e ∈ D ++ [h], Above L holds y e := by
  have hsub : L₁ ⊆ L := fun y hy => ((h1 y).mp hy).1
  rw [h2 y]
  constructor
  · rintro ⟨hy, hyh⟩
    refine ⟨((h1 y).mp hy).1, fun ⟨e, he, hab⟩ => ?_⟩
    rcases List.mem_append.mp he with he | he
    · exact ((h1 y).mp hy).2 ⟨e, he, hab⟩
    · obtain rfl := List.mem_singleton.mp he
      exact hyh (above_restrict h1 hy hh hab)
  · rintro ⟨hyL, hy⟩
    have hy' : y ∈ L₁ := (h1 y).mpr ⟨hyL, fun ⟨e, he, hab⟩ => hy ⟨e, by simp [he], hab⟩⟩
    exact ⟨hy', fun hab => hy ⟨h, by simp, hab.mono hsub⟩⟩

theorem unloaded_erase [DecidableEq μ] {H : List μ} {x : μ} {L₃ : Finset μ}
    (hmem : ∀ h, h ∈ H ↔ HoldsWithin L holds h x)
    (h3 : ∀ y, y ∈ L₃ ↔ y ∈ L ∧ ¬ ∃ h ∈ H, Above L holds y h) (y : μ) :
    y ∈ L₃.erase x ↔ y ∈ L ∧ ¬ Above L holds y x := by
  rw [Finset.mem_erase, h3, above_iff]
  constructor
  · rintro ⟨hyx, hyL, hy⟩
    exact ⟨hyL, fun h => h.elim hyx fun ⟨h, hhx, hab⟩ => hy ⟨h, (hmem h).mpr hhx, hab⟩⟩
  · rintro ⟨hyL, hy⟩
    exact ⟨fun hyx => hy (.inl hyx), hyL, fun ⟨h, hh, hab⟩ => hy (.inr ⟨h, (hmem h).mp hh, hab⟩)⟩

end Relations

theorem Unloadable.holder {L L' : Finset μ} {holds : μ → μ → Prop} {D : List μ} {x h : μ}
    {d : Nat} (hx : Unloadable L holds x (d + 1))
    (hL' : ∀ y, y ∈ L' ↔ y ∈ L ∧ ¬ ∃ e ∈ D, Above L holds y e) (hh : h ∈ L')
    (hhx : HoldsWithin L holds h x) : Unloadable L' holds h d where
  mem := hh
  acyclic y hy := hx.acyclic y (hy.mono fun _ _ => HoldsWithin.mono hsub)
  noShortcut y a b hy ha hb hba := hx.noShortcut y a b
    (above_iff.mpr (.inr ⟨h, hhx, hy.mono hsub⟩)) (ha.mono hsub) (hb.mono hsub)
    (hba.mono fun _ _ => HoldsWithin.mono hsub)
  bounded c hc := chainsBounded_holder hx.bounded hhx c
    (@List.Chain.imp _ _ _ (fun _ _ => HoldsWithin.mono hsub) h c hc)
where
  hsub : L' ⊆ L := fun y hy => ((hL' y).mp hy).1

section Complete

variable {loaded : σ → Finset μ} {holds : μ → μ → Prop}

/-- A visit of `x` from `s` returns `0` and unloads exactly what is above `x`. -/
def UnloadsAbove (loaded : σ → Finset μ) (holds : μ → μ → Prop)
    (visit : σ → μ → Option (Int × σ × List (Event μ))) (x : μ) (s : σ) : Prop :=
  ∃ s' t, visit s x = some (0, s', t) ∧
    ∀ y, y ∈ loaded s' ↔ y ∈ loaded s ∧ ¬ Above (loaded s) holds y x

theorem holderLoop_unloadsAbove {visit : σ → μ → Option (Int × σ × List (Event μ))}
    {L : Finset μ} {x : μ} (hns : NoShortcut L holds x) :
    ∀ rest done err s,
      (∀ h ∈ rest, ∀ s (D : List μ), (∀ y, y ∈ loaded s ↔ y ∈ L ∧ ¬ ∃ e ∈ D, Above L holds y e) →
        h ∈ loaded s → UnloadsAbove loaded holds visit h s) →
      (∀ y, y ∈ loaded s ↔ y ∈ L ∧ ¬ ∃ e ∈ done, Above L holds y e) →
      (done ++ rest).Nodup → (∀ h ∈ done ++ rest, HoldsWithin L holds h x) → 0 ≤ err →
      ∃ e s' t, holderLoop visit rest err s = some (e, s', t) ∧ 0 ≤ e ∧
        ∀ y, y ∈ loaded s' ↔ y ∈ L ∧ ¬ ∃ h ∈ done ++ rest, Above L holds y h
  | [], done, err, s, _, hs, _, _, herr => ⟨err, s, [], rfl, herr, by simpa using hs⟩
  | h :: rest, done, err, s, hvisit, hs, hnd, hhx, _ => by
    have hhL : HoldsWithin L holds h x := hhx h (by simp)
    have hfresh : ¬ ∃ e ∈ done, Above L holds h e := fun ⟨e, he, hab⟩ => by
      rcases hab with rfl | hab
      · exact (List.nodup_append.mp hnd).2.2 he (.head _)
      · exact hns x e h (.inl rfl) (hhx e (by simp [he])) hhL hab
    have hloaded : h ∈ loaded s := (hs h).mpr ⟨hhL.1, hfresh⟩
    obtain ⟨s1, t1, hv, hs1⟩ := hvisit h (.head _) s done hs hloaded
    obtain ⟨e, s', t, hloop, he, hs'⟩ := holderLoop_unloadsAbove hns rest (done ++ [h]) 0 s1
      (fun h' hh' => hvisit h' (.tail _ hh')) (unloaded_append hs hloaded hs1)
      (by simpa using hnd) (by simpa using hhx) (Int.le_refl 0)
    refine ⟨e, s', t1 ++ t, ?_, he, by simpa using hs'⟩
    simp [holderLoop, hv, hloop]

theorem not_above_holder {L : Finset μ} (hac : Acyclic L holds) {x h : μ}
    (hhx : HoldsWithin L holds h x) : ¬ Above L holds x h := by
  rintro (rfl | hxh)
  exacts [hac _ (.single hhx), hac _ (hxh.tail hhx)]

variable [DecidableEq μ] {os : Kmod σ μ}

theorem igtKmodUnloadR_succ_unloadsAbove (wb : WellBehaved os loaded holds)
    (garbage : ∀ s, 0 ≤ os.stackErr s) (flags fuel : Nat) {x : μ} {s : σ} (hx : x ∈ loaded s)
    (hac : Acyclic (loaded s) holds) (hns : NoShortcut (loaded s) holds x)
    (hvisit : ∀ h, HoldsWithin (loaded s) holds h x → ∀ s' (D : List μ),
      (∀ y, y ∈ loaded s' ↔ y ∈ loaded s ∧ ¬ ∃ e ∈ D, Above (loaded s) holds y e) →
      h ∈ loaded s' → UnloadsAbove loaded holds (fun s x => igtKmodUnloadR os fuel x flags s) h s') :
    UnloadsAbove loaded holds (fun s x => igtKmodUnloadR os (fuel + 1) x flags s) x s := by
  have hlive0 : (os.getInitstate x s).1 = .live := wb.initstate_live x s hx
  have hL1 : loaded (os.getInitstate x s).2 = loaded s := wb.initstate_loaded x s
  have hmem : ∀ h, h ∈ (os.getHolders x (os.getInitstate x s).2).1 ↔
      HoldsWithin (loaded s) holds h x := fun h => by
    rw [wb.mem_holders, hL1]
    exact ⟨fun ⟨a, b⟩ => ⟨a, hx, b⟩, fun ⟨a, _, b⟩ => ⟨a, b⟩⟩
  obtain ⟨e, s3, t, hloop, he, hs3⟩ := holderLoop_unloadsAbove hns
    (os.getHolders x (os.getInitstate x s).2).1 [] (os.stackErr s)
    (os.getHolders x (os.getInitstate x s).2).2
    (fun h hh => hvisit h ((hmem h).mp hh))
    (by simp [wb.holders_loaded, hL1]) (by simpa using wb.holders_nodup x _)
    (fun h hh => (hmem h).mp (by simpa using hh)) (garbage s)
  simp only [List.nil_append] at hs3
  have hx3 : x ∈ loaded s3 := (hs3 x).mpr
    ⟨hx, fun ⟨h, hh, hab⟩ => not_above_holder hac ((hmem h).mp hh) hab⟩
  have hlive : (os.getInitstate x s3).1 = .live := wb.initstate_live x s3 hx3
  have hL4 : loaded (os.getInitstate x s3).2 = loaded s3 := wb.initstate_loaded x s3
  have hfree : ∀ h ∈ loaded (os.getInitstate x s3).2, ¬ holds h x := fun h hh hhx => by
    rw [hL4] at hh
    have hh3 := (hs3 h).mp hh
    exact hh3.2 ⟨h, (hmem h).mpr ⟨hh3.1, hx, hhx⟩, .inl rfl⟩
  obtain ⟨hr, hL5⟩ := wb.remove_free x flags _ (hL4 ▸ hx3) hfree
  exact ⟨_, _, by
    dsimp only
    rw [igtKmodUnloadR, visitPrelude_eq, hlive0, if_neg (by decide : Initstate.live ≠ .builtin),
      hloop, Option.map_some', Option.map_some',
      afterHolders_of_not_coming os x s3 _ he (by rw [hlive]; decide), finishVisit,
      show MAX_TRIES = 19 + 1 from rfl,
      removeLoop_settled os x flags 19 0 e _ (by rw [hr]; decide), hr],
    fun y => by rw [hL5, hL4]; exact unloaded_erase hmem hs3 y⟩

theorem igtKmodUnloadR_unloadsAbove (wb : WellBehaved os loaded holds)
    (garbage : ∀ s, 0 ≤ os.stackErr s) (flags : Nat) :
    ∀ d x s, Unloadable (loaded s) holds x d →
      UnloadsAbove loaded holds (fun s x => igtKmodUnloadR os (d + 1) x flags s) x s := by
  intro d
  induction d with
  | zero =>
    intro x s hx
    exact igtKmodUnloadR_succ_unloadsAbove wb garbage flags 0 hx.mem hx.acyclic hx.noShortcut
      fun h hhx => absurd (hx.bounded [h] (.cons hhx .nil)) (by simp)
  | succ k ih =>
    intro x s hx
    exact igtKmodUnloadR_succ_unloadsAbove wb garbage flags (k + 1) hx.mem hx.acyclic
      hx.noShortcut fun h hhx s' D hD hh => ih h s' (hx.holder hD hh hhx)

theorem chainsBounded_card {L : Finset μ} (hac : Acyclic L holds) {m : μ} (hm : m ∈ L) :
    ChainsBounded (HoldsWithin L holds) m (L.card - 1) := fun c hc => by
  have hsub : (m :: c).toFinset ⊆ L := fun y hy => by
    rcases List.mem_cons.mp (List.mem_toFinset.mp hy) with rfl | hy
    · exact hm
    · obtain ⟨x, hx⟩ := hc.holds_of_mem y hy
      exact hx.1
  have hcard := Finset.card_le_card hsub
  rw [List.toFinset_card_of_nodup (hc.nodup hac), List.length_cons] at hcard
  omega

/-- In a well-behaved system whose holder relation is acyclic on the loaded modules, where no
module above `m` has two holders one of which transitively holds the other, and where the
uninitialised `err` of a frame is never negative, `igt_kmod_unload` of a loaded `m` returns `0`
and leaves loaded exactly the modules that are not `m` and do not transitively hold it. Fuel
for as many nested visits as there are loaded modules is enough. -/
theorem igtKmodUnload_removesAbove (wb : WellBehaved os loaded holds)
    (garbage : ∀ s, 0 ≤ os.stackErr s) (m : μ) (flags : Nat) (s : σ) (hm : m ∈ loaded s)
    (hac : Acyclic (loaded s) holds) (hns : NoShortcut (loaded s) holds m) (fuel : Nat)
    (hfuel : (loaded s).card ≤ fuel) :
    ∃ s' t, igtKmodUnload os fuel m flags s = some (0, s', t) ∧
      ∀ y, y ∈ loaded s' ↔ y ∈ loaded s ∧ ¬ Above (loaded s) holds y m := by
  rcases hnew : os.newFromName m s with ⟨e, s1⟩
  obtain ⟨rfl, hL⟩ : e = 0 ∧ loaded s1 = loaded s := by simpa [hnew] using wb.newFromName m s
  have hx : Unloadable (loaded s1) holds m ((loaded s).card - 1) := by
    rw [hL]
    exact ⟨hm, hac, hns, chainsBounded_card hac hm⟩
  obtain ⟨s', t, hrun, hs'⟩ := igtKmodUnloadR_unloadsAbove wb garbage flags _ m s1 hx
  have hpos : 0 < (loaded s).card := Finset.card_pos.mpr ⟨m, hm⟩
  refine ⟨s', t, ?_, fun y => by rw [hs', hL]⟩
  simp only [igtKmodUnload, hnew, Int.lt_irrefl, if_false,
    igtKmodUnloadR_mono os (by omega : (loaded s).card - 1 + 1 ≤ fuel) hrun, Option.map_some',
    ite_self]

end Complete

def chain : Fin 2 → List (Fin 2)
  | 0 => [1]
  | 1 => []

theorem igtKmodUnload_removesAbove_chain :
    WellBehaved (tableOs chain) id (tableHolds chain) ∧ (∀ L, 0 ≤ (tableOs chain).stackErr L) ∧
      (0 : Fin 2) ∈ id Finset.univ ∧ Acyclic (id Finset.univ) (tableHolds chain) ∧
      NoShortcut (id Finset.univ) (tableHolds chain) 0 ∧ (id (Finset.univ : Finset (Fin 2))).card ≤ 2 ∧
      ∃ s' t, igtKmodUnload (tableOs chain) 2 0 0 Finset.univ = some (0, s', t) ∧
        ∀ y, y ∈ id s' ↔ y ∈ id Finset.univ ∧ ¬ Above (id Finset.univ) (tableHolds chain) y 0 := by
  have wb := tableOs_wellBehaved chain (by decide)
  have hac := tableHolds_acyclic chain (id Finset.univ) Fin.val (by decide)
  have hone : ∀ y h h' : Fin 2, h ∈ chain y → h' ∈ chain y → h = h' := by decide
  have hns : NoShortcut (id Finset.univ) (tableHolds chain) 0 := fun y h h' _ hh hh' hth => by
    obtain rfl := hone y h h' hh.2.2 hh'.2.2
    exact hac h hth
  exact ⟨wb, fun _ => Int.le_refl 0, Finset.mem_univ 0, hac, hns, Nat.le_refl 2,
    igtKmodUnload_removesAbove wb (fun _ => Int.le_refl 0) 0 0 Finset.univ (Finset.mem_univ 0)
      hac hns 2 (Nat.le_refl 2)⟩

def diamond : Fin 3 → List (Fin 3)
  | 0 => [1, 2]
  | 1 => [2]
  | 2 => []

theorem igtKmodUnload_diamond :
    WellBehaved (tableOs diamond) id (tableHolds diamond) ∧
      (∀ L, 0 ≤ (tableOs diamond).stackErr L) ∧ Acyclic Finset.univ (tableHolds diamond) ∧
      ∀ fuel, 3 ≤ fuel →
        (igtKmodUnload (tableOs diamond) fuel 0 0 Finset.univ).map (fun r => (r.1, r.2.1)) =
          some (-ENOENT, {0}) := by
  refine ⟨tableOs_wellBehaved diamond (by decide), fun _ => Int.le_refl 0,
    tableHolds_acyclic diamond Finset.univ Fin.val (by decide), fun fuel hfuel => ?_⟩
  obtain ⟨v, hv⟩ : ∃ v, igtKmodUnload (tableOs diamond) 3 0 0 Finset.univ = some v := ⟨_, rfl⟩
  rw [igtKmodUnload_mono _ hfuel hv, ← hv]
  decide

end IgtKmod.Unload
