/-
  ArgusManager.Lib.Ledger
  ───────────────────────
  **Ledgers: what a history has posted and not yet collected.**

  Each step of a history posts some entries and then collects all pending
  entries that it claims.

    • `pending`     — the entries posted and claimed by no step since,
    • `mem_pending` — an entry is pending until the first step that claims it,
    • `count_taken` — that step, and no other, collects it, once.
-/
import Mathlib.Data.List.Induction
import Mathlib.Data.List.Nodup
import Mathlib.Data.List.Count

namespace Ledger

variable {σ α : Type*} (adds : σ → List α) (takes : σ → α → Bool)

/-- Everything posted. -/
def added (h : List σ) : List α := h.flatMap adds

/-- What is posted and not collected. -/
def pending (h : List σ) : List α :=
  h.foldl (fun xs e => (xs ++ adds e).filter fun x => !takes e x) []

/-- What a step collects after a history. -/
def taken (h : List σ) (e : σ) : List α :=
  (pending adds takes h ++ adds e).filter (takes e)

@[simp] theorem pending_nil : pending adds takes [] = [] := rfl

@[simp] theorem pending_concat (h : List σ) (e : σ) :
    pending adds takes (h ++ [e])
      = (pending adds takes h ++ adds e).filter fun x => !takes e x := by
  unfold pending
  rw [List.foldl_append]
  rfl

@[simp] theorem added_nil : added adds [] = [] := rfl

@[simp] theorem added_append (h h' : List σ) :
    added adds (h ++ h') = added adds h ++ added adds h' :=
  List.flatMap_append

@[simp] theorem added_cons (e : σ) (h : List σ) :
    added adds (e :: h) = adds e ++ added adds h := rfl

theorem pending_sublist (h : List σ) :
    (pending adds takes h).Sublist (added adds h) := by
  induction h using List.reverseRecOn with
  | nil => exact .refl _
  | append_singleton h e ih =>
      rw [pending_concat, added_append]
      refine List.filter_sublist.trans (ih.append ?_)
      rw [added_cons, added_nil, List.append_nil]

/-- What a step collects was posted by then. -/
theorem taken_sublist (h : List σ) (e : σ) :
    (taken adds takes h e).Sublist (added adds (h ++ [e])) := by
  unfold taken
  rw [added_append, added_cons, added_nil, List.append_nil]
  exact List.filter_sublist.trans
    ((pending_sublist adds takes h).append (.refl _))

/-- A step neither loses nor invents entries. -/
theorem perm_balance (h : List σ) (e : σ) :
    (pending adds takes (h ++ [e]) ++ taken adds takes h e).Perm
      (pending adds takes h ++ adds e) := by
  unfold taken
  rw [pending_concat]
  exact List.perm_append_comm.trans (List.filter_append_perm (takes e) _)

variable {adds takes}

/-- A later step does not post an entry again. -/
theorem not_reposted {h t : List σ} {e d : σ} {x : α} (hx : x ∈ adds e)
    (hnd : (added adds (h ++ e :: t ++ [d])).Nodup) :
    (added adds (h ++ e :: t)).Nodup ∧ x ∉ adds d := by
  rw [added_append] at hnd
  obtain ⟨hnd, _, hdisj⟩ := List.nodup_append.mp hnd
  refine ⟨hnd, ?_⟩
  intro hxd
  refine hdisj x ?_ x ?_ rfl
  · rw [added_append]
    exact List.mem_append_right _ (List.mem_append_left _ hx)
  · rw [added_cons]
    exact List.mem_append_left _ hxd

/-- **An entry is pending until the first step that claims it.** -/
theorem mem_pending {h t : List σ} {e : σ} {x : α} (hx : x ∈ adds e)
    (he : takes e x = false) (hnd : (added adds (h ++ e :: t)).Nodup) :
    x ∈ pending adds takes (h ++ e :: t) ↔ ∀ d ∈ t, takes d x = false := by
  induction t using List.reverseRecOn with
  | nil =>
      rw [pending_concat, List.mem_filter, List.mem_append, he]
      simp [hx]
  | append_singleton t d ih =>
      rw [← List.cons_append, ← List.append_assoc] at hnd ⊢
      obtain ⟨hnd, hxd⟩ := not_reposted hx hnd
      rw [pending_concat, List.mem_filter, List.mem_append, ih hnd]
      constructor
      · rintro ⟨ht | hd, htake⟩
        · intro d' hd'
          rcases List.mem_append.mp hd' with hd' | hd'
          · exact ht d' hd'
          · rw [List.mem_singleton.mp hd']
            simpa using htake
        · exact absurd hd hxd
      · intro hall
        refine ⟨.inl fun d' hd' => hall d' (List.mem_append_left _ hd'), ?_⟩
        rw [hall d (List.mem_append_right _ (List.mem_singleton_self d))]
        rfl

/-- **An entry is collected once**, by the first step that claims it. -/
theorem count_taken [DecidableEq α] {h t : List σ} {e d : σ} {x : α}
    (hx : x ∈ adds e) (he : takes e x = false)
    (hnd : (added adds (h ++ e :: t ++ [d])).Nodup) :
    (taken adds takes (h ++ e :: t) d).count x
      = if takes d x = true ∧ ∀ d' ∈ t, takes d' x = false then 1 else 0 := by
  have htaken : (taken adds takes (h ++ e :: t) d).Nodup :=
    hnd.sublist (taken_sublist adds takes (h ++ e :: t) d)
  obtain ⟨hnd, hxd⟩ := not_reposted hx hnd
  have hmem : x ∈ taken adds takes (h ++ e :: t) d
      ↔ takes d x = true ∧ ∀ d' ∈ t, takes d' x = false := by
    unfold taken
    rw [List.mem_filter, List.mem_append, mem_pending hx he hnd,
      or_iff_left hxd, and_comm]
  split
  next hcond =>
    exact List.count_eq_one_of_mem htaken (hmem.mpr hcond)
  next hcond =>
    exact List.count_eq_zero.mpr fun hin => hcond (hmem.mp hin)

end Ledger
