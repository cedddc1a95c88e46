/-
  ArgusManager.Lib.Ratchet
  ────────────────────────
  **The one-way ratchet: what a controller that only ever tightens may say.**

  A ratchet holds at most one value.  While it holds one it may be replaced by
  a strictly smaller one, and the only way back is to let go of it.  The words
  over `Act` that such a controller may speak are read by `accept`; this file
  says what every accepted word looks like.

    • `windows` cuts a word at its releases,
    • `acceptAll_wellCut` — in an accepted word every window strictly
      decreases, no release closes an empty window, and the value still held
      is the last of the open window,
    • `length_le_card` — a strictly decreasing window drawn from a finite set
      of levels is no longer than the set.
-/
import ArgusManager.Lib.Mealy
import Mathlib.Data.Finset.Card
import Mathlib.Order.Basic

namespace Ratchet

/-! ## §1. The acceptor. -/

/-- What a ratchet says: a tighter value, or that it lets go. -/
inductive Act (β : Type*) where
  | tighten (b : β)
  | release
  deriving DecidableEq, Repr

/-- One letter of a ratchet's word: a value must undercut the one held, and
only a held value can be let go. -/
def accept {β : Type*} [LT β] [DecidableLT β] :
    Option β → Act β → Option (Option β)
  | none, .tighten b => some (some b)
  | some c, .tighten b => if b < c then some (some b) else none
  | some _, .release => some none
  | none, .release => none

variable {β : Type*} [LinearOrder β]

theorem accept_tighten {st st' : Option β} {b : β}
    (h : accept st (.tighten b) = some st') :
    st' = some b ∧ ∀ c, st = some c → b < c := by
  cases st with
  | none =>
      simp only [accept, Option.some.injEq] at h
      exact ⟨h.symm, by simp⟩
  | some c =>
      simp only [accept] at h
      split at h
      next hlt =>
        injection h with h
        refine ⟨h.symm, ?_⟩
        intro d hd
        injection hd with hd
        exact hd ▸ hlt
      next => exact absurd h (by simp)

theorem accept_release {st st' : Option β}
    (h : accept st .release = some st') : st' = none ∧ st ≠ none := by
  cases st with
  | none => exact absurd h (by simp [accept])
  | some c =>
      simp only [accept, Option.some.injEq] at h
      exact ⟨h.symm, by simp⟩

/-! ## §2. Windows. -/

/-- A word cut at its releases: the values of each closed window, and those
said since the last release. -/
structure Windows (β : Type*) where
  closed : List (List β)
  current : List β
  deriving DecidableEq, Repr

/-- Read one more letter. -/
def Windows.cut (w : Windows β) : Act β → Windows β
  | .tighten b => { w with current := w.current ++ [b] }
  | .release => { closed := w.closed ++ [w.current], current := [] }

/-- The windows of a word. -/
def windows (as : List (Act β)) : Windows β :=
  as.foldl Windows.cut { closed := [], current := [] }

/-- Every window strictly decreases, a closed one is never empty, and `st` is
the last value of the open one. -/
structure WellCut (st : Option β) (w : Windows β) : Prop where
  closed_decreasing : ∀ u ∈ w.closed, u.Pairwise (· > ·)
  closed_nonempty : ∀ u ∈ w.closed, u ≠ []
  current_decreasing : w.current.Pairwise (· > ·)
  held : w.current.getLast? = st

/-- The last value of a decreasing window is a lower bound of it. -/
theorem le_of_mem_decreasing {u : List β} {c : β}
    (hu : u.Pairwise (· > ·)) (hc : u.getLast? = some c) :
    ∀ x ∈ u, c ≤ x := by
  obtain ⟨init, rfl⟩ := List.getLast?_eq_some_iff.mp hc
  intro x hx
  rcases List.mem_append.mp hx with hx | hx
  · exact le_of_lt ((List.pairwise_append.mp hu).2.2 x hx c (by simp))
  · rw [List.mem_singleton.mp hx]

/-- One accepted letter keeps the windows well cut. -/
theorem accept_wellCut {st st' : Option β} {w : Windows β} {a : Act β}
    (hw : WellCut st w) (h : accept st a = some st') :
    WellCut st' (w.cut a) := by
  cases a with
  | tighten b =>
      obtain ⟨hst, hlt⟩ := accept_tighten h
      refine ⟨hw.closed_decreasing, hw.closed_nonempty, ?_, ?_⟩
      · -- everything in the open window is at least its last value, hence > b
        refine List.pairwise_append.mpr
          ⟨hw.current_decreasing, List.pairwise_singleton _ _, ?_⟩
        intro x hx y hy
        rw [List.mem_singleton.mp hy]
        obtain ⟨c, hc⟩ : ∃ c, w.current.getLast? = some c :=
          ⟨_, List.getLast?_eq_getLast_of_ne_nil (List.ne_nil_of_mem hx)⟩
        have hcx : c ≤ x :=
          le_of_mem_decreasing hw.current_decreasing hc x hx
        exact lt_of_lt_of_le (hlt c (hw.held ▸ hc)) hcx
      · simp [Windows.cut, hst]
  | release =>
      obtain ⟨hst, hne⟩ := accept_release h
      have hcur : w.current ≠ [] := by
        intro hnil
        exact hne (by rw [← hw.held, hnil]; rfl)
      refine ⟨?_, ?_, List.Pairwise.nil, by simp [Windows.cut, hst]⟩
      · intro u hu
        rcases List.mem_append.mp hu with hu | hu
        · exact hw.closed_decreasing u hu
        · exact List.mem_singleton.mp hu ▸ hw.current_decreasing
      · intro u hu
        rcases List.mem_append.mp hu with hu | hu
        · exact hw.closed_nonempty u hu
        · exact List.mem_singleton.mp hu ▸ hcur

theorem foldl_cut_wellCut :
    ∀ (as : List (Act β)) (st st' : Option β) (w : Windows β),
      WellCut st w → Mealy.acceptAll accept st as = some st' →
      WellCut st' (as.foldl Windows.cut w)
  | [], st, st', w, hw, h => by
      injection h with h
      exact h ▸ hw
  | a :: as, st, st', w, hw, h => by
      simp only [Mealy.acceptAll, Option.bind_eq_some_iff] at h
      obtain ⟨mid, ha, has⟩ := h
      exact foldl_cut_wellCut as mid st' (w.cut a) (accept_wellCut hw ha) has

/-- **The shape of an accepted word**: its windows are well cut and end in the
value still held. -/
theorem acceptAll_wellCut {as : List (Act β)} {st : Option β}
    (h : Mealy.acceptAll accept none as = some st) :
    WellCut st (windows as) :=
  foldl_cut_wellCut as none st _
    ⟨by simp, by simp, List.Pairwise.nil, rfl⟩ h

omit [LinearOrder β] in
/-- A property of every value said is a property of every value of a window. -/
theorem mem_windows {P : β → Prop} {as : List (Act β)}
    (h : ∀ b, Act.tighten b ∈ as → P b) :
    ∀ u ∈ (windows as).closed ++ [(windows as).current], ∀ b ∈ u, P b := by
  induction as using List.reverseRecOn with
  | nil => simp [windows]
  | append_singleton as a ih =>
      have ih' := ih fun b hb => h b (List.mem_append_left _ hb)
      rw [windows, List.foldl_append]
      show ∀ u ∈ ((windows as).cut a).closed ++ [((windows as).cut a).current], _
      intro u hu b hb
      cases a with
      | tighten c =>
          rcases List.mem_append.mp hu with hu | hu
          · exact ih' u (List.mem_append_left _ hu) b hb
          · rw [List.mem_singleton.mp hu] at hb
            rcases List.mem_append.mp hb with hb | hb
            · exact ih' _ (by simp) b hb
            · exact List.mem_singleton.mp hb ▸ h c (by simp)
      | release =>
          rcases List.mem_append.mp hu with hu | hu
          · exact ih' u hu b hb
          · rw [List.mem_singleton.mp hu] at hb
            simp [Windows.cut] at hb

/-- A strictly decreasing window drawn from `levels` is no longer than it. -/
theorem length_le_card {u : List β} {levels : Finset β}
    (hu : u.Pairwise (· > ·)) (hmem : ∀ b ∈ u, b ∈ levels) :
    u.length ≤ levels.card := by
  have hnodup : u.Nodup := hu.imp fun h => ne_of_gt h
  rw [← List.toFinset_card_of_nodup hnodup]
  exact Finset.card_le_card fun b hb => hmem b (List.mem_toFinset.mp hb)

end Ratchet
