/-
  ArgusManager.Sim.DerivedOrder
  ─────────────────────────────
  When the order in which a scenario's derived metrics are iterated does not
  matter.

  An entry alone is the entry evaluated before all others.  The order does not
  matter exactly if no entry can be brought, by entries before it, to another
  value than alone, and none stops the loop before an entry that would still
  change its field (`evaluate_orderFree_iff`).
-/
import ArgusManager.Sim.Derived
import Mathlib.Data.List.Perm.Basic

namespace ArgusManager.Sim

variable (m : FloatVal.Libm)

/-! ## §1. Independence. -/

/-- What the name of an entry is left with if the entry is evaluated in `c`. -/
def leaves (d : String × DerivedExpr) (s : PhysicalState) (c : ExprContext) :
    FloatVal :=
  match verdict m d s c with
  | .value x => x
  | _ => (s.getF64 d.1).getD (.fin 0)

/-- The entry names a field of the state. -/
def NamesField (d : String × DerivedExpr) : Prop :=
  (Field.ofName? d.1).isSome

instance (d : String × DerivedExpr) : Decidable (NamesField d) :=
  inferInstanceAs (Decidable (_ = true))

/-- Under a field's name the value of its entry alone, else the entry's
value. -/
def alone (s : PhysicalState) (start : ExprContext)
    (d : String × DerivedExpr) (x : FloatVal) : FloatVal :=
  if NamesField d then leaves m d s start else x

/-- No entry's field depends on the entries before it. -/
structure Independent (s : PhysicalState)
    (entries : List (String × DerivedExpr)) (start : ExprContext) : Prop where
  /-- A field is left with what its entry alone would leave. -/
  leaves_eq : ∀ {used c}, Seen m s entries (alone m s start) start used c →
    ∀ d ∈ entries, d ∉ used → NamesField d →
      leaves m d s c = leaves m d s start
  /-- Where an entry stops the loop, no field is still to change. -/
  stop_idle : ∀ {used c}, Seen m s entries (alone m s start) start used c →
    ∀ d ∈ entries, d ∉ used → ∀ why, verdict m d s c = .stop why →
      ∀ e ∈ entries, e ∉ used → NamesField e →
        leaves m e s start = (s.getF64 e.1).getD (.fin 0)

/-- The state at the end is the same for every iteration order. -/
def OrderFree (cfg : ScenarioConfig) (engine : EngineStateModel)
    (s : PhysicalState) (ctx : ExprContext) : Prop :=
  ∀ derived : StrMap DerivedExpr, derived.Same cfg.derived →
    (evaluate m { cfg with derived := derived } engine s ctx).1.1
      = (evaluate m cfg engine s ctx).1.1

/-! ## §2. Entries by name. -/

variable {m} {s : PhysicalState} {start : ExprContext}
  {entries : List (String × DerivedExpr)}

theorem namesField_iff {d : String × DerivedExpr} :
    NamesField d ↔ ∃ f : Field, f.name = d.1 := by
  unfold NamesField
  rw [Option.isSome_iff_exists]
  constructor
  · rintro ⟨f, hf⟩
    exact ⟨f, Field.ofName?_eq_some.mp hf⟩
  · rintro ⟨f, hf⟩
    exact ⟨f, Field.ofName?_eq_some.mpr hf⟩

/-- Different entries of a map have different names. -/
theorem entry_eq (hnodup : (entries.map Prod.fst).Nodup)
    {d e : String × DerivedExpr} (hd : d ∈ entries) (he : e ∈ entries)
    (h : d.1 = e.1) : d = e :=
  List.inj_on_of_nodup_map hnodup hd he h

theorem others_ne (hnodup : (entries.map Prod.fst).Nodup)
    {before after : List (String × DerivedExpr)} {d : String × DerivedExpr}
    (h : (before ++ d :: after).Perm entries) :
    ∀ e ∈ before ++ after, e.1 ≠ d.1 := by
  intro e he heq
  have hfirst : (d :: (before ++ after)).Perm entries :=
    List.perm_middle.symm.trans h
  have hkeys := (hfirst.map Prod.fst).nodup_iff.mpr hnodup
  refine (List.nodup_cons.mp hkeys).1 ?_
  rw [← heq]
  exact List.mem_map_of_mem he

/-- A verdict only depends on the field its entry names. -/
theorem leaves_congr {d : String × DerivedExpr} {s s' : PhysicalState}
    {c : ExprContext} (h : s.getF64 d.1 = s'.getF64 d.1) :
    leaves m d s c = leaves m d s' c := by
  unfold leaves
  rw [verdict_congr h, h]

theorem leaves_value {d : String × DerivedExpr} {c : ExprContext}
    {x : FloatVal} (h : verdict m d s c = .value x) : leaves m d s c = x := by
  unfold leaves
  rw [h]

theorem leaves_text {d : String × DerivedExpr} {c : ExprContext}
    (h : verdict m d s c = .text) :
    leaves m d s c = (s.getF64 d.1).getD (.fin 0) := by
  unfold leaves
  rw [h]

theorem leaves_stop {d : String × DerivedExpr} {c : ExprContext} {why : Stop}
    (h : verdict m d s c = .stop why) :
    leaves m d s c = (s.getF64 d.1).getD (.fin 0) := by
  unfold leaves
  rw [h]

/-- The first entry of a loop leaves its field as it does on its own. -/
theorem evaluateLoop_head {d : String × DerivedExpr}
    {rest : List (String × DerivedExpr)} (c : ExprContext) {f : Field}
    (hf : f.name = d.1) (hrest : ∀ e ∈ rest, e.1 ≠ d.1) :
    (evaluateLoop m (d :: rest) s c).1.1.num f = leaves m d s c := by
  have hframe : ∀ e ∈ rest, e.1 ≠ f.name := fun e he => hf ▸ hrest e he
  have hcurrent : (s.getF64 d.1).getD (.fin 0) = s.num f := by
    rw [← hf, PhysicalState.getF64_name]
    rfl
  -- no entry after it names the field again
  cases hv : verdict m d s c with
  | value x =>
      rw [evaluateLoop_value hv, evaluateLoop_frame hframe, leaves_value hv,
        ← hf, PhysicalState.setF64_name, PhysicalState.setField_self]
  | text =>
      rw [evaluateLoop_text hv, evaluateLoop_frame hframe, leaves_text hv,
        hcurrent]
  | stop why => rw [evaluateLoop_stop hv, leaves_stop hv, hcurrent]

/-! ## §3. Independent entries. -/

/-- The state once the entries in `used` have left what they leave alone. -/
structure Holds (m : FloatVal.Libm) (s : PhysicalState) (start : ExprContext)
    (used : List (String × DerivedExpr)) (s' : PhysicalState) : Prop where
  used_eq : ∀ d ∈ used, ∀ f : Field, f.name = d.1 →
    s'.num f = leaves m d s start
  frame : ∀ f : Field, (∀ d ∈ used, d.1 ≠ f.name) → s'.num f = s.num f

namespace Holds

variable {used : List (String × DerivedExpr)} {s' : PhysicalState}

/-- An unused entry's field still has its first value. -/
theorem getF64_eq (h : Holds m s start used s') {d : String × DerivedExpr}
    (hd : ∀ e ∈ used, e.1 ≠ d.1) : s'.getF64 d.1 = s.getF64 d.1 := by
  unfold PhysicalState.getF64
  cases hf : Field.ofName? d.1 with
  | none => rfl
  | some f =>
      have hname : f.name = d.1 := Field.ofName?_eq_some.mp hf
      exact congrArg some (h.frame f fun e he => hname ▸ hd e he)

/-- An entry leaves in its field what it leaves alone. -/
theorem write (h : Holds m s start used s') {d : String × DerivedExpr}
    {x : FloatVal} (hd : ∀ e ∈ used, e.1 ≠ d.1)
    (hx : NamesField d → x = leaves m d s start) :
    Holds m s start (d :: used) (s'.setF64 d.1 x) := by
  constructor
  · intro e he f hf
    rcases List.mem_cons.mp he with rfl | he
    · rw [← hf, PhysicalState.setF64_name, PhysicalState.setField_self]
      exact hx (namesField_iff.mpr ⟨f, hf⟩)
    · rw [PhysicalState.setF64_of_ne s' (hf ▸ hd e he) x]
      exact h.used_eq e he f hf
  · intro f hf
    rw [PhysicalState.setF64_of_ne s' (hf d List.mem_cons_self).symm x]
    exact h.frame f fun e he => hf e (List.mem_cons_of_mem d he)

/-- So does one that leaves its field alone. -/
theorem skip (h : Holds m s start used s') {d : String × DerivedExpr}
    (hd : ∀ e ∈ used, e.1 ≠ d.1)
    (hx : NamesField d →
      leaves m d s start = (s.getF64 d.1).getD (.fin 0)) :
    Holds m s start (d :: used) s' := by
  constructor
  · intro e he f hf
    rcases List.mem_cons.mp he with rfl | he
    · have hframe : s'.num f = s.num f := h.frame f fun a ha => hf ▸ hd a ha
      rw [hframe, hx (namesField_iff.mpr ⟨f, hf⟩), ← hf,
        PhysicalState.getF64_name]
      rfl
    · exact h.used_eq e he f hf
  · intro f hf
    exact h.frame f fun e he => hf e (List.mem_cons_of_mem d he)

/-- With all entries used, a state is known but for its dtype. -/
theorem unique {used' : List (String × DerivedExpr)} {s'' : PhysicalState}
    (h : Holds m s start used s') (h' : Holds m s start used' s'')
    (hused : ∀ d, d ∈ used ↔ d ∈ used') (f : Field) :
    s'.num f = s''.num f := by
  by_cases hf : ∃ d ∈ used, f.name = d.1
  · obtain ⟨d, hd, hname⟩ := hf
    rw [h.used_eq d hd f hname, h'.used_eq d ((hused d).mp hd) f hname]
  · have hne : ∀ d ∈ used, d.1 ≠ f.name := fun d hd heq =>
      hf ⟨d, hd, heq.symm⟩
    rw [h.frame f hne, h'.frame f fun d hd => hne d ((hused d).mpr hd)]

end Holds

/-- Independent entries leave, in whatever order the rest of them comes, what
each leaves alone. -/
theorem evaluateLoop_holds (hindep : Independent m s entries start)
    (hnodup : (entries.map Prod.fst).Nodup)
    {rest used : List (String × DerivedExpr)} {s' : PhysicalState}
    {c : ExprContext}
    (hseen : Seen m s entries (alone m s start) start used c)
    (hs : Holds m s start used s')
    (hperm : (rest ++ used).Perm entries) :
    ∃ all, (∀ d, d ∈ all ↔ d ∈ entries) ∧
      Holds m s start all (evaluateLoop m rest s' c).1.1 := by
  induction rest generalizing used s' c with
  | nil => exact ⟨used, fun d => hperm.mem_iff, hs⟩
  | cons d rest ih =>
      have hmem : d ∈ entries := hperm.mem_iff.mp List.mem_cons_self
      have hfirst : ([] ++ d :: (rest ++ used)).Perm entries := hperm
      have hne : ∀ e ∈ used, e.1 ≠ d.1 := fun e he =>
        others_ne hnodup hfirst e (List.mem_append_right rest he)
      have hunused : d ∉ used := fun h => hne d h rfl
      have hverdict : verdict m d s' c = verdict m d s c :=
        verdict_congr (hs.getF64_eq hne)
      have hstay : NamesField d →
          leaves m d s c = (s.getF64 d.1).getD (.fin 0) →
          leaves m d s start = (s.getF64 d.1).getD (.fin 0) := by
        intro hfield h
        rw [← h]
        exact (hindep.leaves_eq hseen d hmem hunused hfield).symm
      have hperm' : (rest ++ d :: used).Perm entries :=
        List.perm_middle.trans hperm
      cases hv : verdict m d s c with
      | value x =>
          rw [evaluateLoop_value (hverdict.trans hv)]
          have hx : NamesField d → x = leaves m d s start := by
            intro hfield
            rw [← leaves_value hv]
            exact hindep.leaves_eq hseen d hmem hunused hfield
          have hout : alone m s start d x = x := by
            unfold alone
            split
            next hfield => exact (hx hfield).symm
            next => rfl
          have hseen' := hseen.value hmem hunused hv
          rw [hout] at hseen'
          exact ih hseen' (hs.write hne hx) hperm'
      | text =>
          rw [evaluateLoop_text (hverdict.trans hv)]
          refine ih (hseen.text hmem hunused hv) (hs.skip hne ?_) hperm'
          exact fun hfield => hstay hfield (leaves_text hv)
      | stop why =>
          rw [evaluateLoop_stop (hverdict.trans hv)]
          -- nothing that is left would have changed its field
          refine ⟨entries, fun _ => Iff.rfl, ⟨?_, ?_⟩⟩
          · intro e he f hf
            by_cases hused : e ∈ used
            · exact hs.used_eq e hused f hf
            · have hfield := namesField_iff.mpr ⟨f, hf⟩
              have hfresh : ∀ a ∈ used, a.1 ≠ f.name := by
                intro a ha heq
                have hae := entry_eq hnodup
                  (hperm.mem_iff.mp (List.mem_append_right _ ha)) he
                  (heq.trans hf)
                exact hused (hae ▸ ha)
              show s'.num f = _
              rw [hs.frame f hfresh, hindep.stop_idle hseen d hmem hunused why
                hv e he hused hfield, ← hf, PhysicalState.getF64_name]
              rfl
          · intro f hf
            exact hs.frame f fun a ha =>
              hf a (hperm.mem_iff.mp (List.mem_append_right _ ha))

/-! ## §4. Entries whose order does not matter. -/

namespace Seen

variable {out : String × DerivedExpr → FloatVal → FloatVal}
  {used : List (String × DerivedExpr)} {c : ExprContext}

theorem subset (h : Seen m s entries out start used c) : used ⊆ entries := by
  induction h with
  | start => exact List.nil_subset _
  | value _ mem _ _ ih => exact List.cons_subset.mpr ⟨mem, ih⟩
  | text _ mem _ _ ih => exact List.cons_subset.mpr ⟨mem, ih⟩

theorem nodup (h : Seen m s entries out start used c) : used.Nodup := by
  induction h with
  | start => exact List.nodup_nil
  | value _ _ unused _ ih => exact List.nodup_cons.mpr ⟨unused, ih⟩
  | text _ _ unused _ ih => exact List.nodup_cons.mpr ⟨unused, ih⟩

/-- An entry that is not used yet has none of the names used. -/
theorem ne_of_unused (h : Seen m s entries out start used c)
    (hnodup : (entries.map Prod.fst).Nodup) {d : String × DerivedExpr}
    (hd : d ∈ entries) (hunused : d ∉ used) : ∀ e ∈ used, e.1 ≠ d.1 := by
  intro e he heq
  have hsame : e = d := entry_eq hnodup (h.subset he) hd heq
  exact hunused (hsame ▸ he)

/-- The loop may go on with any entry that is not used yet. -/
theorem exists_next (h : Seen m s entries out start used c)
    {d : String × DerivedExpr} (hd : d ∈ entries) (hunused : d ∉ used) :
    ∃ rest, (used.reverse ++ d :: rest).Perm entries := by
  have hnodup : (d :: used).Nodup := List.nodup_cons.mpr ⟨hunused, h.nodup⟩
  have hsubset : d :: used ⊆ entries := List.cons_subset.mpr ⟨hd, h.subset⟩
  obtain ⟨xs, hxs, hsub⟩ := List.subperm_of_subset hnodup hsubset
  obtain ⟨rest, hrest⟩ := hsub.exists_perm_append
  have hcons : (used.reverse ++ d :: rest).Perm (d :: used ++ rest) :=
    (used.reverse_perm.append_right _).trans List.perm_middle
  exact ⟨rest, hcons.trans ((hxs.symm.append_right rest).trans hrest.symm)⟩

end Seen

/-- The loop over the used entries, the last of them first, gets to `s'` and
`c` and goes on from there. -/
def Reaches (m : FloatVal.Libm) (s : PhysicalState) (start : ExprContext)
    (used : List (String × DerivedExpr)) (s' : PhysicalState)
    (c : ExprContext) : Prop :=
  ∀ rest, evaluateLoop m (used.reverse ++ rest) s start
    = evaluateLoop m rest s' c

theorem Reaches.value {used : List (String × DerivedExpr)}
    {s' : PhysicalState} {c : ExprContext} {d : String × DerivedExpr}
    {x : FloatVal} (h : Reaches m s start used s' c)
    (hv : verdict m d s' c = .value x) :
    Reaches m s start (d :: used) (s'.setF64 d.1 x) (c.withNum d.1 x) := by
  intro rest
  rw [List.reverse_cons, List.append_assoc, h, List.singleton_append,
    evaluateLoop_value hv]

theorem Reaches.text {used : List (String × DerivedExpr)}
    {s' : PhysicalState} {c : ExprContext} {d : String × DerivedExpr}
    (h : Reaches m s start used s' c) (hv : verdict m d s' c = .text) :
    Reaches m s start (d :: used) s' c := by
  intro rest
  rw [List.reverse_cons, List.append_assoc, h, List.singleton_append,
    evaluateLoop_text hv]

section Free

variable (hnodup : (entries.map Prod.fst).Nodup)
  (hfree : ∀ es es', es.Perm entries → es'.Perm entries →
    (evaluateLoop m es s start).1.1 = (evaluateLoop m es' s start).1.1)
include hnodup hfree

/-- Whatever comes before an entry, its field ends as if it came first. -/
theorem final_eq_alone {es : List (String × DerivedExpr)}
    (hes : es.Perm entries) {d : String × DerivedExpr} (hd : d ∈ entries)
    {f : Field} (hf : f.name = d.1) :
    (evaluateLoop m es s start).1.1.num f = leaves m d s start := by
  obtain ⟨before, after, hsplit⟩ := List.append_of_mem hd
  have hsame : (before ++ d :: after).Perm entries := by rw [hsplit]
  -- the order in which `d` comes first ends in the same state
  rw [hfree es _ hes (List.perm_middle.symm.trans hsame)]
  exact evaluateLoop_head start hf (others_ne hnodup hsame)

/-- **An entry leaves what it leaves alone**, wherever the loop gets to it. -/
theorem leaves_eq_of_reaches {used : List (String × DerivedExpr)}
    {s' : PhysicalState} {c : ExprContext}
    {out : String × DerivedExpr → FloatVal → FloatVal}
    (hseen : Seen m s entries out start used c)
    (hs : Holds m s start used s') (hreach : Reaches m s start used s' c)
    {d : String × DerivedExpr} (hd : d ∈ entries) (hunused : d ∉ used)
    (hfield : NamesField d) : leaves m d s c = leaves m d s start := by
  obtain ⟨f, hf⟩ := namesField_iff.mp hfield
  have hne := hseen.ne_of_unused hnodup hd hunused
  obtain ⟨rest, hnext⟩ := hseen.exists_next hd hunused
  have hlater : ∀ e ∈ rest, e.1 ≠ d.1 := fun e he =>
    others_ne hnodup hnext e (List.mem_append_right _ he)
  calc leaves m d s c
      = leaves m d s' c := leaves_congr (hs.getF64_eq hne).symm
    _ = (evaluateLoop m (d :: rest) s' c).1.1.num f :=
        (evaluateLoop_head c hf hlater).symm
    _ = (evaluateLoop m (used.reverse ++ d :: rest) s start).1.1.num f := by
        rw [hreach]
    _ = leaves m d s start := final_eq_alone hnodup hfree hnext hd hf

/-- Every context that is seen is one the loop gets to. -/
theorem exists_reaches {used : List (String × DerivedExpr)} {c : ExprContext}
    (hseen : Seen m s entries (alone m s start) start used c) :
    ∃ s', Holds m s start used s' ∧ Reaches m s start used s' c := by
  induction hseen with
  | start =>
      refine ⟨s, ⟨?_, fun _ _ => rfl⟩, fun _ => rfl⟩
      intro d hd
      exact absurd hd List.not_mem_nil
  | @value used c d x seen mem unused comes ih =>
      obtain ⟨s', hs, hreach⟩ := ih
      have hne := seen.ne_of_unused hnodup mem unused
      -- what an entry alone would write is what it writes here
      have hx : NamesField d → x = leaves m d s start := by
        intro hfield
        rw [← leaves_value comes]
        exact leaves_eq_of_reaches hnodup hfree seen hs hreach mem unused
          hfield
      have hout : alone m s start d x = x := by
        unfold alone
        split
        next hfield => exact (hx hfield).symm
        next => rfl
      rw [hout]
      exact ⟨s'.setF64 d.1 x, hs.write hne hx,
        hreach.value ((verdict_congr (hs.getF64_eq hne)).trans comes)⟩
  | @text used c d seen mem unused comes ih =>
      obtain ⟨s', hs, hreach⟩ := ih
      have hne := seen.ne_of_unused hnodup mem unused
      refine ⟨s', hs.skip hne ?_,
        hreach.text ((verdict_congr (hs.getF64_eq hne)).trans comes)⟩
      intro hfield
      rw [← leaves_text comes]
      exact (leaves_eq_of_reaches hnodup hfree seen hs hreach mem unused
        hfield).symm

theorem independent_of_free : Independent m s entries start := by
  constructor
  · intro used c hseen d hd hunused hfield
    obtain ⟨s', hs, hreach⟩ := exists_reaches hnodup hfree hseen
    exact leaves_eq_of_reaches hnodup hfree hseen hs hreach hd hunused hfield
  · intro used c hseen d hd hunused why hstop e he heunused hfield
    obtain ⟨s', hs, hreach⟩ := exists_reaches hnodup hfree hseen
    obtain ⟨f, hf⟩ := namesField_iff.mp hfield
    have hned := hseen.ne_of_unused hnodup hd hunused
    have hnee := hseen.ne_of_unused hnodup he heunused
    obtain ⟨rest, hnext⟩ := hseen.exists_next hd hunused
    have hfinal := final_eq_alone hnodup hfree hnext he hf
    -- the loop stops at `d`, before it gets to `e`
    rw [hreach, evaluateLoop_stop
      ((verdict_congr (hs.getF64_eq hned)).trans hstop)] at hfinal
    rw [← hfinal, ← hf, PhysicalState.getF64_name]
    exact hs.frame f fun a ha => hf ▸ hnee a ha

end Free

/-! ## §5. The order of the map. -/

/-- **The order of the derived metrics does not matter** exactly if they are
independent of each other. -/
theorem evaluate_orderFree_iff (m : FloatVal.Libm) (cfg : ScenarioConfig)
    (engine : EngineStateModel) (s : PhysicalState) (ctx : ExprContext) :
    OrderFree m cfg engine s ctx
      ↔ Independent m s cfg.derived.entries (bound s engine ctx) := by
  have hnodup := cfg.derived.nodup
  constructor
  · intro hfree
    refine independent_of_free hnodup ?_
    intro es es' hes hes'
    have hkeys : ∀ xs : List (String × DerivedExpr),
        xs.Perm cfg.derived.entries → (xs.map Prod.fst).Nodup :=
      fun xs hxs => (hxs.map Prod.fst).nodup_iff.mpr hnodup
    exact (hfree ⟨es, hkeys es hes⟩ hes).trans
      (hfree ⟨es', hkeys es' hes'⟩ hes').symm
  · intro hindep derived hsame
    have hstart : Holds m s (bound s engine ctx) [] s := by
      refine ⟨?_, fun _ _ => rfl⟩
      intro d hd
      exact absurd hd List.not_mem_nil
    have hend : ∀ es : List (String × DerivedExpr),
        es.Perm cfg.derived.entries →
        ∃ all, (∀ d, d ∈ all ↔ d ∈ cfg.derived.entries) ∧
          Holds m s (bound s engine ctx) all
            (evaluateLoop m es s (bound s engine ctx)).1.1 := by
      intro es hes
      exact evaluateLoop_holds hindep hnodup .start hstart
        ((List.append_nil es).symm ▸ hes)
    obtain ⟨all, hall, hs⟩ := hend derived.entries hsame
    obtain ⟨all', hall', hs'⟩ := hend cfg.derived.entries (.refl _)
    refine PhysicalState.ext_num ?_ ?_
    · exact hs.unique hs' fun d => (hall d).trans (hall' d).symm
    · exact (evaluateLoop_kvDtype ..).trans (evaluateLoop_kvDtype ..).symm

/-- Two metrics, of which the second reads the first. -/
def chained : ScenarioConfig where
  __ := ScenarioConfig.still
  derived :=
    ⟨[("tbt_ms", ⟨.ident "thermal_c", .fin 0⟩),
      ("latency_degradation", ⟨.ident "tbt_ms", .fin 0⟩)], by decide⟩

theorem verdict_ident {name source : String} {c : ExprContext} {x : FloatVal}
    (hname : StrVar.ofName? name = none)
    (h : c.get source = some (.float x)) :
    verdict m (name, ⟨.ident source, .fin 0⟩) s c = .value x := by
  have hfloat : (CompiledExpr.ident source).evalFloat c = .ok x := by
    simp only [CompiledExpr.evalFloat, CompiledExpr.ident, h]
  simp only [verdict, hfloat, hname, derivedLag, lagStep_zero]

/-- Evaluated first, the second metric still reads the old value of the
first. -/
theorem chained_order_matters :
    chained.Accepted ∧
      ¬ OrderFree .flat chained (engineFromConfig chained.initialState)
        (.fromConfig chained.initialState) .new := by
  refine ⟨⟨by decide, rfl⟩, ?_⟩
  intro hfree
  let tbt : String × DerivedExpr := ("tbt_ms", ⟨.ident "thermal_c", .fin 0⟩)
  let latency : String × DerivedExpr :=
    ("latency_degradation", ⟨.ident "tbt_ms", .fin 0⟩)
  have h := hfree ⟨[latency, tbt], by decide⟩ (.swap ..)
  have hnum := congrArg (fun s => s.num .latencyDegradation) h
  let s := PhysicalState.fromConfig chained.initialState
  let c := bound s (engineFromConfig chained.initialState) .new
  have hfirst : (evaluateLoop .flat [latency, tbt] s c).1.1.num
      .latencyDegradation = .fin 0 := by
    have hv : verdict .flat latency s c = .value (.fin 0) :=
      verdict_ident rfl rfl
    rw [evaluateLoop_head c rfl (by decide), leaves_value hv]
  have hsecond : (evaluateLoop .flat [tbt, latency] s c).1.1.num
      .latencyDegradation = .fin 40 := by
    have hv : verdict .flat tbt s c = .value (.fin 40) := verdict_ident rfl rfl
    have hv' : verdict .flat latency (s.setF64 "tbt_ms" (.fin 40))
        (c.withNum "tbt_ms" (.fin 40)) = .value (.fin 40) :=
      verdict_ident rfl rfl
    rw [evaluateLoop_value hv, evaluateLoop_head _ rfl (by decide),
      leaves_value hv']
  have heq : FloatVal.fin 0 = .fin 40 := hfirst.symm.trans (hnum.trans hsecond)
  exact absurd (FloatVal.fin.inj heq) (by norm_num)

end ArgusManager.Sim
