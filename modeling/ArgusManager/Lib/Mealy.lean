/-
  ArgusManager.Lib.Mealy
  ──────────────────────
  **Deterministic machines, their runs, and the invariant rules.**

  A `Mealy` machine reads one input at a time and answers each with one
  output.  Whatever the environment decides (a clock reading, the outcome of a
  system call, which side moves next) is part of the input, so a theorem about
  every input list is a theorem about every behaviour of the environment.

    • `exec`   — the state a run ends in,
    • `trace`  — the run's steps, each with its pre-state, input, output and
      post-state,
    • `Along`  — a property of every step of a run, given the steps before it,
    • `along_of_invariant` — THE rule: an invariant over (history, state) that
      every step keeps gives a property of every step,
    • `acceptAll_outs` — a machine whose outputs an acceptor follows step by
      step emits only words that the acceptor accepts.
-/
import Mathlib.Data.List.Basic

/-- A deterministic machine with one output per input. -/
structure Mealy (σ ι ο : Type*) where
  /-- The next state and the answer to one input. -/
  step : σ → ι → σ × ο

namespace Mealy

variable {σ ι ο : Type*}

/-! ## §1. Runs. -/

/-- One step of a run: where it started, what it read, what it answered and
where it ended. -/
structure Step (σ ι ο : Type*) where
  pre : σ
  input : ι
  output : ο
  post : σ

variable (m : Mealy σ ι ο)

/-- The step the machine takes from `s` on `x`. -/
def stepAt (s : σ) (x : ι) : Step σ ι ο :=
  ⟨s, x, (m.step s x).2, (m.step s x).1⟩

/-- The state reached from `s` by reading the whole input list. -/
def exec (s : σ) (xs : List ι) : σ :=
  xs.foldl (fun s x => (m.step s x).1) s

/-- The steps of the run from `s` over the input list. -/
def trace : σ → List ι → List (Step σ ι ο)
  | _, [] => []
  | s, x :: xs => m.stepAt s x :: trace (m.step s x).1 xs

/-- The answers of the run from `s`. -/
def outs (s : σ) (xs : List ι) : List ο :=
  (m.trace s xs).map Step.output

@[simp] theorem stepAt_pre (s : σ) (x : ι) : (m.stepAt s x).pre = s := rfl
@[simp] theorem stepAt_input (s : σ) (x : ι) : (m.stepAt s x).input = x := rfl
@[simp] theorem stepAt_output (s : σ) (x : ι) :
    (m.stepAt s x).output = (m.step s x).2 := rfl
@[simp] theorem stepAt_post (s : σ) (x : ι) :
    (m.stepAt s x).post = (m.step s x).1 := rfl

@[simp] theorem exec_nil (s : σ) : m.exec s [] = s := rfl
@[simp] theorem exec_cons (s : σ) (x : ι) (xs : List ι) :
    m.exec s (x :: xs) = m.exec (m.step s x).1 xs := rfl
@[simp] theorem trace_nil (s : σ) : m.trace s [] = [] := rfl
@[simp] theorem trace_cons (s : σ) (x : ι) (xs : List ι) :
    m.trace s (x :: xs) = m.stepAt s x :: m.trace (m.step s x).1 xs := rfl
@[simp] theorem outs_nil (s : σ) : m.outs s [] = [] := rfl
@[simp] theorem outs_cons (s : σ) (x : ι) (xs : List ι) :
    m.outs s (x :: xs) = (m.step s x).2 :: m.outs (m.step s x).1 xs := rfl

theorem exec_append (s : σ) (xs ys : List ι) :
    m.exec s (xs ++ ys) = m.exec (m.exec s xs) ys :=
  List.foldl_append

theorem trace_append (s : σ) (xs ys : List ι) :
    m.trace s (xs ++ ys) = m.trace s xs ++ m.trace (m.exec s xs) ys := by
  induction xs generalizing s with
  | nil => rfl
  | cons x xs ih =>
      rw [List.cons_append, trace_cons, trace_cons, ih, exec_cons]
      rfl

theorem outs_append (s : σ) (xs ys : List ι) :
    m.outs s (xs ++ ys) = m.outs s xs ++ m.outs (m.exec s xs) ys := by
  unfold outs
  rw [trace_append, List.map_append]

/-- The answer to the input at a position, taken where the inputs before it
lead. -/
theorem outs_getElem? (s : σ) (xs : List ι) (i : ℕ) :
    (m.outs s xs)[i]?
      = (xs[i]?).map fun x => (m.step (m.exec s (xs.take i)) x).2 := by
  induction xs generalizing s i with
  | nil => rfl
  | cons x xs ih =>
      cases i with
      | zero => rfl
      | succ i =>
          rw [outs_cons, List.getElem?_cons_succ, List.getElem?_cons_succ,
            List.take_succ_cons, exec_cons]
          exact ih _ i

theorem outs_take (s : σ) (xs : List ι) (i : ℕ) :
    (m.outs s xs).take i = m.outs s (xs.take i) := by
  induction xs generalizing s i with
  | nil => rw [List.take_nil, outs_nil, List.take_nil]
  | cons x xs ih =>
      cases i with
      | zero => rfl
      | succ i =>
          rw [outs_cons, List.take_succ_cons, ih, List.take_succ_cons,
            outs_cons]

/-- **Deletion**: an input that leaves the state alone can be taken out of the
run, and only its own answer goes with it. -/
theorem outs_eraseIdx (s : σ) (xs : List ι) (i : ℕ)
    (h : ∀ x, xs[i]? = some x →
      (m.step (m.exec s (xs.take i)) x).1 = m.exec s (xs.take i)) :
    m.outs s (xs.eraseIdx i) = (m.outs s xs).eraseIdx i := by
  induction xs generalizing s i with
  | nil => rfl
  | cons x xs ih =>
      cases i with
      | zero =>
          have hx : (m.step s x).1 = s := h x rfl
          rw [outs_cons, List.eraseIdx_zero, List.eraseIdx_zero,
            List.tail_cons, List.tail_cons, hx]
      | succ i =>
          rw [List.eraseIdx_cons_succ, outs_cons, outs_cons,
            List.eraseIdx_cons_succ, ih (m.step s x).1 i h]

/-- Every step of a run is the machine's step on some input, taken where the
inputs before it lead. -/
theorem trace_split {s : σ} {xs : List ι} {h t : List (Step σ ι ο)}
    {e : Step σ ι ο} (htr : m.trace s xs = h ++ e :: t) :
    ∃ ys x zs, xs = ys ++ x :: zs ∧ h = m.trace s ys
      ∧ e = m.stepAt (m.exec s ys) x := by
  induction xs generalizing s h with
  | nil => simp at htr
  | cons x xs ih =>
      cases h with
      | nil =>
          injection htr with he _
          exact ⟨[], x, xs, rfl, rfl, he.symm⟩
      | cons f h =>
          injection htr with hf htl
          obtain ⟨ys, y, zs, hxs, hh, he⟩ := ih htl
          refine ⟨x :: ys, y, zs, ?_, ?_, ?_⟩
          · rw [hxs, List.cons_append]
          · rw [trace_cons, ← hf, hh]
          · rw [exec_cons, he]

theorem mem_trace_split {s : σ} {xs : List ι} {e : Step σ ι ο}
    (he : e ∈ m.trace s xs) :
    ∃ h t, m.trace s xs = h ++ e :: t :=
  List.append_of_mem he

/-- The inputs of the steps are those of the run. -/
theorem input_mem {s : σ} {xs : List ι} {e : Step σ ι ο}
    (he : e ∈ m.trace s xs) : e.input ∈ xs := by
  obtain ⟨h, t, htr⟩ := m.mem_trace_split he
  obtain ⟨ys, x, zs, rfl, _, rfl⟩ := m.trace_split htr
  simp

/-- Every answer of a run is the answer to one step. -/
theorem mem_outs {s : σ} {xs : List ι} {o : ο} (h : o ∈ m.outs s xs) :
    ∃ s' x, o = (m.step s' x).2 := by
  obtain ⟨e, he, rfl⟩ := List.mem_map.mp h
  obtain ⟨hist, t, htr⟩ := m.mem_trace_split he
  obtain ⟨ys, x, _, _, _, rfl⟩ := m.trace_split htr
  exact ⟨_, x, rfl⟩

/-- What the answers of some steps say, steps that say nothing left out. -/
def said {α : Type*} (f : ο → Option α) (h : List (Step σ ι ο)) : List α :=
  h.filterMap fun e => f e.output

@[simp] theorem said_nil {α : Type*} (f : ο → Option α) :
    said f ([] : List (Step σ ι ο)) = [] := rfl

@[simp] theorem said_concat {α : Type*} (f : ο → Option α)
    (h : List (Step σ ι ο)) (e : Step σ ι ο) :
    said f (h ++ [e]) = said f h ++ (f e.output).toList := by
  unfold said
  rw [List.filterMap_append]
  cases hf : f e.output <;> simp [hf]

theorem outs_filterMap {α : Type*} (f : ο → Option α) (s : σ) (xs : List ι) :
    (m.outs s xs).filterMap f = said f (m.trace s xs) := by
  unfold outs said
  rw [List.filterMap_map]
  rfl

/-! ## §2. Properties along a run. -/

/-- `P` holds of every step of the run, given the steps before it. -/
def Along (s : σ) (xs : List ι)
    (P : List (Step σ ι ο) → Step σ ι ο → Prop) : Prop :=
  ∀ h e t, m.trace s xs = h ++ e :: t → P h e

variable {m}

/-- A property of every step is one of the step after any part of the run. -/
theorem Along.at_step {s : σ} {xs ys : List ι} {x : ι}
    {P : List (Step σ ι ο) → Step σ ι ο → Prop}
    (h : m.Along s (xs ++ x :: ys) P) :
    P (m.trace s xs) (m.stepAt (m.exec s xs) x) :=
  h _ _ _ (m.trace_append s xs (x :: ys))

/-- A property of steps holds along a run if it holds of the first step and
along the rest. -/
theorem along_cons {s : σ} {x : ι} {xs : List ι} {P : Step σ ι ο → Prop} :
    (m.Along s (x :: xs) fun _ e => P e)
      ↔ P (m.stepAt s x) ∧ m.Along (m.step s x).1 xs fun _ e => P e := by
  constructor
  · intro h
    refine ⟨h [] _ _ (m.trace_cons s x xs), ?_⟩
    intro hist e t htr
    refine h (m.stepAt s x :: hist) e t ?_
    rw [trace_cons, htr]
    rfl
  · rintro ⟨hfirst, hrest⟩ hist e t htr
    rw [trace_cons] at htr
    cases hist with
    | nil =>
        injection htr with he _
        exact he ▸ hfirst
    | cons f hist =>
        injection htr with _ htr
        exact hrest hist e t htr

theorem along_nil {s : σ} {P : List (Step σ ι ο) → Step σ ι ο → Prop} :
    m.Along s [] P := by
  intro hist e t htr
  exact absurd htr (by simp)

/-- Two properties that agree on every step hold along the same runs. -/
theorem along_congr {s : σ} {xs : List ι}
    {P Q : List (Step σ ι ο) → Step σ ι ο → Prop}
    (h : m.Along s xs fun hist e => P hist e ↔ Q hist e) :
    m.Along s xs P ↔ m.Along s xs Q := by
  constructor
  · intro hP hist e t htr
    exact (h hist e t htr).mp (hP hist e t htr)
  · intro hQ hist e t htr
    exact (h hist e t htr).mpr (hQ hist e t htr)

/-- An invariant over (history, state) that every admissible step keeps holds
after the whole run. -/
theorem history_invariant {A : ι → Prop}
    {I : List (Step σ ι ο) → σ → Prop} {s : σ}
    (h0 : I [] s)
    (hstep : ∀ h s x, A x → I h s →
      I (h ++ [m.stepAt s x]) (m.step s x).1) :
    ∀ xs : List ι, (∀ x ∈ xs, A x) → I (m.trace s xs) (m.exec s xs) := by
  -- strengthened to a run that continues a history already seen
  have hgen : ∀ (xs : List ι) (h : List (Step σ ι ο)) (s : σ), I h s →
      (∀ x ∈ xs, A x) → I (h ++ m.trace s xs) (m.exec s xs) := by
    intro xs
    induction xs with
    | nil =>
        intro h s hinv _
        simpa using hinv
    | cons x xs ih =>
        intro h s hinv hok
        have hnext := hstep h s x (hok x List.mem_cons_self) hinv
        have := ih _ _ hnext (fun y hy => hok y (List.mem_cons_of_mem _ hy))
        simpa [List.append_assoc] using this
  intro xs hok
  simpa using hgen xs [] s h0 hok

/-- **THE INVARIANT RULE**: an invariant over (history, state) kept by every
admissible step gives a property of every step of every admissible run. -/
theorem along_of_invariant {A : ι → Prop}
    {I : List (Step σ ι ο) → σ → Prop}
    {P : List (Step σ ι ο) → Step σ ι ο → Prop} {s : σ}
    (h0 : I [] s)
    (hstep : ∀ h s x, A x → I h s →
      I (h ++ [m.stepAt s x]) (m.step s x).1)
    (hP : ∀ h s x, A x → I h s → P h (m.stepAt s x))
    {xs : List ι} (hok : ∀ x ∈ xs, A x) : m.Along s xs P := by
  intro h e t htr
  obtain ⟨ys, x, zs, hxs, hh, he⟩ := m.trace_split htr
  -- the inputs before the step are admissible too
  have hok' : ∀ y ∈ ys, A y := fun y hy => hok y (by simp [hxs, hy])
  rw [hh, he]
  exact hP _ _ x (hok x (by simp [hxs]))
    (history_invariant h0 hstep ys hok')

/-- The rule where every input is admissible. -/
theorem history_of_steps {I : List (Step σ ι ο) → σ → Prop} {s : σ}
    (h0 : I [] s)
    (hstep : ∀ h s x, I h s → I (h ++ [m.stepAt s x]) (m.step s x).1)
    (xs : List ι) : I (m.trace s xs) (m.exec s xs) :=
  history_invariant (A := fun _ => True) h0
    (fun h s x _ hinv => hstep h s x hinv) xs fun _ _ => trivial

theorem along_of_steps {I : List (Step σ ι ο) → σ → Prop}
    {P : List (Step σ ι ο) → Step σ ι ο → Prop} {s : σ}
    (h0 : I [] s)
    (hstep : ∀ h s x, I h s → I (h ++ [m.stepAt s x]) (m.step s x).1)
    (hP : ∀ h s x, I h s → P h (m.stepAt s x)) (xs : List ι) :
    m.Along s xs P :=
  along_of_invariant (A := fun _ => True) h0
    (fun h s x _ hinv => hstep h s x hinv)
    (fun h s x _ hinv => hP h s x hinv) fun _ _ => trivial

theorem exec_of_steps {I : σ → Prop} {s : σ} (h0 : I s)
    (hstep : ∀ s x, I s → I (m.step s x).1) (xs : List ι) :
    I (m.exec s xs) :=
  history_of_steps (I := fun _ s => I s) h0
    (fun _ s x hinv => hstep s x hinv) xs

/-- The rule for runs every step of which meets a condition: an invariant that
such steps keep holds after the run. -/
theorem Along.invariant {I : List (Step σ ι ο) → σ → Prop}
    {P : List (Step σ ι ο) → Step σ ι ο → Prop} {s : σ} {xs : List ι}
    (h : m.Along s xs P) (h0 : I [] s)
    (hstep : ∀ hist s x, P hist (m.stepAt s x) → I hist s →
      I (hist ++ [m.stepAt s x]) (m.step s x).1) :
    I (m.trace s xs) (m.exec s xs) := by
  -- the run goes on from a history already seen
  have hgen : ∀ (xs : List ι) (hist : List (Step σ ι ο)) (s : σ), I hist s →
      (∀ h' e t, m.trace s xs = h' ++ e :: t → P (hist ++ h') e) →
      I (hist ++ m.trace s xs) (m.exec s xs) := by
    intro xs
    induction xs with
    | nil =>
        intro hist s hinv _
        simpa using hinv
    | cons x xs ih =>
        intro hist s hinv hP
        have hnow := hP [] _ _ (m.trace_cons s x xs)
        rw [List.append_nil] at hnow
        have hrest := ih _ _ (hstep hist s x hnow hinv) fun h' e t htr => by
          rw [List.append_assoc]
          refine hP _ e t ?_
          rw [trace_cons, htr]
          rfl
        rw [List.append_assoc] at hrest
        exact hrest
  exact hgen xs [] s h0 h

/-- In such runs a property that the condition and the invariant give at a
step holds of every step. -/
theorem Along.of_invariant {I : List (Step σ ι ο) → σ → Prop}
    {P Q : List (Step σ ι ο) → Step σ ι ο → Prop} {s : σ} {xs : List ι}
    (h : m.Along s xs P) (h0 : I [] s)
    (hstep : ∀ hist s x, P hist (m.stepAt s x) → I hist s →
      I (hist ++ [m.stepAt s x]) (m.step s x).1)
    (hQ : ∀ hist s x, P hist (m.stepAt s x) → I hist s →
      Q hist (m.stepAt s x)) : m.Along s xs Q := by
  intro hist e t htr
  have hnow := h hist e t htr
  obtain ⟨ys, x, zs, hxs, rfl, rfl⟩ := m.trace_split htr
  -- the steps before meet the condition as well
  have hbefore : m.Along s ys P := by
    intro h' e' t' htr'
    refine h h' e' (t' ++ m.trace (m.exec s ys) (x :: zs)) ?_
    rw [hxs, trace_append, htr']
    simp
  exact hQ _ _ x hnow (hbefore.invariant h0 hstep)

/-- The rule for invariants of the state alone. -/
theorem exec_invariant {A : ι → Prop} {I : σ → Prop} {s : σ}
    (h0 : I s)
    (hstep : ∀ s x, A x → I s → I (m.step s x).1)
    {xs : List ι} (hok : ∀ x ∈ xs, A x) : I (m.exec s xs) :=
  history_invariant (I := fun _ s => I s) h0
    (fun _ s x hx hinv => hstep s x hx hinv) xs hok

/-! ## §3. Machines whose outputs an acceptor follows. -/

/-- Read a word with a partial acceptor: `none` as soon as a letter is
refused. -/
def acceptAll {τ α : Type*} (accept : τ → α → Option τ) :
    τ → List α → Option τ
  | t, [] => some t
  | t, a :: as => (accept t a).bind fun t' => acceptAll accept t' as

/-- If the acceptor follows every step of the machine (`abs` reads its state
off the machine's, `emit` the letters of an output), the whole output word is
accepted. -/
theorem acceptAll_outs {τ α : Type*} (accept : τ → α → Option τ)
    (abs : σ → τ) (emit : ο → Option α) {I : σ → Prop}
    (hinv : ∀ s x, I s → I (m.step s x).1)
    (hquiet : ∀ s x, I s → emit (m.step s x).2 = none →
      abs (m.step s x).1 = abs s)
    (hemit : ∀ s x a, I s → emit (m.step s x).2 = some a →
      accept (abs s) a = some (abs (m.step s x).1)) :
    ∀ (xs : List ι) (s : σ), I s →
      acceptAll accept (abs s) ((m.outs s xs).filterMap emit)
        = some (abs (m.exec s xs)) := by
  intro xs
  induction xs with
  | nil => intro s _; rfl
  | cons x xs ih =>
      intro s hs
      have hrest := ih (m.step s x).1 (hinv s x hs)
      rw [outs_cons, exec_cons]
      -- a silent step leaves the acceptor where it is
      cases hout : emit (m.step s x).2 with
      | none =>
          rw [List.filterMap_cons_none hout, ← hquiet s x hs hout]
          exact hrest
      | some a =>
          rw [List.filterMap_cons_some hout]
          show (accept (abs s) a).bind _ = _
          rw [hemit s x a hs hout]
          exact hrest

/-! ## §4. Components that read some of the inputs. -/

/-- One more input, of which a component sees what `pick` sees. -/
theorem exec_filterMap_concat {κ : Type*} (pick : κ → Option ι) (s : σ)
    (xs : List κ) (x : κ) :
    m.exec s ((xs ++ [x]).filterMap pick)
      = (pick x).elim (m.exec s (xs.filterMap pick)) fun y =>
          (m.step (m.exec s (xs.filterMap pick)) y).1 := by
  rw [List.filterMap_append, exec_append]
  cases hx : pick x with
  | none => rw [List.filterMap_cons_none hx]; rfl
  | some y => rw [List.filterMap_cons_some hx]; rfl

theorem outs_filterMap_concat {κ : Type*} (pick : κ → Option ι) (s : σ)
    (xs : List κ) (x : κ) :
    m.outs s ((xs ++ [x]).filterMap pick)
      = m.outs s (xs.filterMap pick)
        ++ ((pick x).map fun y =>
            (m.step (m.exec s (xs.filterMap pick)) y).2).toList := by
  rw [List.filterMap_append, outs_append]
  cases hx : pick x with
  | none => rw [List.filterMap_cons_none hx]; rfl
  | some y => rw [List.filterMap_cons_some hx]; rfl

/-- A component that is itself a machine, fed with what `pick` sees of an
input, runs on what `pick` sees of the run. -/
theorem exec_feeds {τ κ ο' : Type*} {n : Mealy τ κ ο'} {π : σ → τ}
    {pick : ι → Option κ}
    (hskip : ∀ s x, pick x = none → π (m.step s x).1 = π s)
    (hfeed : ∀ s x k, pick x = some k →
      π (m.step s x).1 = (n.step (π s) k).1)
    (s : σ) (xs : List ι) :
    π (m.exec s xs) = n.exec (π s) (xs.filterMap pick) := by
  induction xs generalizing s with
  | nil => rfl
  | cons x xs ih =>
      rw [exec_cons, ih]
      cases hx : pick x with
      | none => rw [hskip s x hx, List.filterMap_cons_none hx]
      | some k =>
          rw [hfeed s x k hx, List.filterMap_cons_some hx, exec_cons]

/-- If the answers are the component's too, those to what `pick` sees are all
that the component answers. -/
theorem outs_feeds {τ κ : Type*} {n : Mealy τ κ ο} {π : σ → τ}
    {pick : ι → Option κ}
    (hskip : ∀ s x, pick x = none → π (m.step s x).1 = π s)
    (hfeed : ∀ s x k, pick x = some k →
      n.step (π s) k = (π (m.step s x).1, (m.step s x).2))
    (s : σ) (xs : List ι) :
    ((m.trace s xs).filter fun e => (pick e.input).isSome).map Step.output
      = n.outs (π s) (xs.filterMap pick) := by
  induction xs generalizing s with
  | nil => rfl
  | cons x xs ih =>
      rw [trace_cons, List.filter_cons, stepAt_input]
      cases hx : pick x with
      | none =>
          rw [List.filterMap_cons_none hx, ← hskip s x hx]
          exact ih _
      | some k =>
          rw [List.filterMap_cons_some hx, outs_cons, hfeed s x k hx, ← ih]
          rfl

/-- **Refinement**: while an invariant holds each step of `m` is one of `n`,
seen through `π` and `ψ`, so the answers of a run are those of `n`. -/
theorem outs_refine {τ ο' : Type*} {n : Mealy τ ι ο'} {I : σ → Prop}
    {π : σ → τ} {ψ : ο → ο'}
    (hstep : ∀ s x, I s → I (m.step s x).1
      ∧ n.step (π s) x = (π (m.step s x).1, ψ (m.step s x).2))
    {s : σ} (hs : I s) (xs : List ι) :
    (m.outs s xs).map ψ = n.outs (π s) xs := by
  induction xs generalizing s with
  | nil => rfl
  | cons x xs ih =>
      obtain ⟨hnext, hn⟩ := hstep s x hs
      rw [outs_cons, outs_cons, List.map_cons, hn, ih hnext]

/-- **Unwinding**: a component of the state that every input outside `pick`
leaves alone, and that the others rewrite from what `pick` sees of them and
from the component itself, only depends on what `pick` sees of the run. -/
theorem exec_component {α β : Type*} {π : σ → α} {pick : ι → Option β}
    (hskip : ∀ s x, pick x = none → π (m.step s x).1 = π s)
    (hread : ∀ s t x y a, pick x = some a → pick y = some a → π s = π t →
      π (m.step s x).1 = π (m.step t y).1) :
    ∀ (xs ys : List ι) (s t : σ), π s = π t →
      xs.filterMap pick = ys.filterMap pick →
      π (m.exec s xs) = π (m.exec t ys) := by
  -- an input list the component does not see at all
  have hidle : ∀ (ys : List ι) (t : σ), ys.filterMap pick = [] →
      π (m.exec t ys) = π t := by
    intro ys
    induction ys with
    | nil => intro t _; rfl
    | cons y ys ih =>
        intro t hys
        cases hy : pick y with
        | none =>
            rw [List.filterMap_cons_none hy] at hys
            rw [exec_cons, ih _ hys, hskip t y hy]
        | some b =>
            rw [List.filterMap_cons_some hy] at hys
            exact absurd hys (by simp)
  intro xs
  induction xs with
  | nil =>
      intro ys s t hst hys
      rw [exec_nil, hidle ys t hys.symm, hst]
  | cons x xs ih =>
      intro ys s t hst heq
      cases hx : pick x with
      | none =>
          rw [List.filterMap_cons_none hx] at heq
          exact ih ys _ t ((hskip s x hx).trans hst) heq
      | some a =>
          rw [List.filterMap_cons_some hx] at heq
          -- the other run has idle inputs before its own copy of this one
          obtain ⟨pre, y, post, rfl, hpre, hy, hpost⟩ :=
            List.filterMap_eq_cons_iff.mp heq.symm
          have hpre' : pre.filterMap pick = [] :=
            List.filterMap_eq_nil_iff.mpr hpre
          rw [exec_append, exec_cons, exec_cons]
          refine ih post _ _ ?_ hpost.symm
          exact hread s _ x y a hx hy (hst.trans (hidle pre t hpre').symm)

end Mealy
