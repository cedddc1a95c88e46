/-
  ArgusManager.Monitor.ProcStat
  ─────────────────────────────
  **The CPU usage of the compute monitor** (`read_once`,
  `read_cpu_snapshot`, `src/monitor/compute.rs`), from the text of
  `/proc/stat` on.

  Both deltas between two snapshots saturate, the difference of the deltas
  does not.  It underflows exactly if the counters other than `idle` fall
  together while the total rises (`cpu_percentage_iff`).
-/
import ArgusManager.Lib.StrScan
import ArgusManager.Monitor.Levels
import Mathlib.Algebra.Order.BigOperators.Group.List
import Mathlib.Data.List.Chain

namespace ArgusManager

open StrScan

/-! ## §1. Counters. -/

/-- How the program was built: with overflow checks an arithmetic overflow
panics, without them it wraps. -/
inductive Build where
  | debug
  | release
  deriving DecidableEq, Repr

namespace Build

/-- A result that does not fit; `none` is a panic. -/
def overflow (b : Build) (wrapped : Nat) : Option Nat :=
  match b with
  | .debug => none
  | .release => some wrapped

/-- `iter().sum()` of `u64`s. -/
def sum (b : Build) (xs : List Nat) : Option Nat :=
  if xs.sum < 2 ^ 64 then some xs.sum else b.overflow (xs.sum % 2 ^ 64)

/-- `x - y` of `u64`s. -/
def sub (b : Build) (x y : Nat) : Option Nat :=
  if y ≤ x then some (x - y) else b.overflow (x + 2 ^ 64 - y)

theorem sum_of_lt (b : Build) {xs : List Nat} (h : xs.sum < 2 ^ 64) :
    b.sum xs = some xs.sum :=
  if_pos h

theorem sub_of_le (b : Build) {x y : Nat} (h : y ≤ x) :
    b.sub x y = some (x - y) :=
  if_pos h

end Build

structure CpuSnapshot where
  total : Nat
  idle : Nat
  deriving DecidableEq, Repr

/-- All counters but `idle`. -/
def CpuSnapshot.busy (s : CpuSnapshot) : Nat := s.total - s.idle

/-- The counters of a line; what is no `u64` is dropped. -/
def counters (line : Text) : List Nat :=
  ((splitWhitespace line).drop 1).filterMap (parseUnsigned 64)

/-- `read_cpu_snapshot`, from what the file says or why it cannot be read;
`none` is a panic. -/
def readCpuSnapshot (b : Build) (file : Except String Text) :
    Option (Except String CpuSnapshot) :=
  match file with
  | .error err => some (.error err)
  | .ok content =>
      match firstLine content with
      | none => some (.error "Empty /proc/stat")
      | some line =>
          match (counters line)[3]? with
          | none =>
              some (.error "Unexpected /proc/stat format: too few fields")
          | some idle =>
              (b.sum (counters line)).map fun total => .ok { total, idle }

/-! ## §2. The monitor. -/

/-- What one round finds: the file, and what the GPU provider says. -/
structure StatRead where
  stat : Except String Text
  utilPct : Option ℚ

/-- The fields of `ComputeMonitor` that `read_once` writes. -/
structure ComputeReader where
  prevSnapshot : Option CpuSnapshot
  lastCpu : ℚ
  lastGpu : ℚ

inductive ReadResult where
  | ok (hasDelta : Bool)
  | failed (err : String)
  | panicked
  deriving DecidableEq, Repr

namespace ComputeReader

def new : ComputeReader where
  prevSnapshot := none
  lastCpu := 0
  lastGpu := 0

/-- The usage between two snapshots, in percent. -/
def cpuPct (b : Build) (prev snap : CpuSnapshot) : Option ℚ :=
  -- `saturating_sub`
  let totalDelta := snap.total - prev.total
  let idleDelta := snap.idle - prev.idle
  if totalDelta > 0 then
    (b.sub totalDelta idleDelta).map fun busy =>
      (busy : ℚ) / (totalDelta : ℚ) * 100
  else some 0

def readOnce (b : Build) (m : ComputeReader) (r : StatRead) :
    ComputeReader × ReadResult :=
  match readCpuSnapshot b r.stat with
  | none => (m, .panicked)
  | some (.error err) => (m, .failed err)
  | some (.ok snap) =>
      match m.prevSnapshot with
      | none => ({ m with prevSnapshot := some snap }, .ok false)
      | some prev =>
          match cpuPct b prev snap with
          | none => (m, .panicked)
          | some cpu =>
              ({ prevSnapshot := some snap
                 lastCpu := cpu
                 lastGpu := r.utilPct.getD 0 }, .ok true)

/-- The rounds of the monitor. -/
def machine (b : Build) : Mealy ComputeReader StatRead ReadResult :=
  ⟨readOnce b⟩

end ComputeReader

/-! ## §3. What a file holds. -/

namespace StatRead

/-- The counters of the first line. -/
def fields (r : StatRead) : List Nat :=
  match r.stat with
  | .error _ => []
  | .ok content => ((firstLine content).map counters).getD []

/-- The sum of the counters is a `u64`. -/
def Fits (r : StatRead) : Prop := r.fields.sum < 2 ^ 64

instance (r : StatRead) : Decidable r.Fits :=
  inferInstanceAs (Decidable (_ < _))

/-- The snapshot in the file, if there are enough counters. -/
def snapshot? (r : StatRead) : Option CpuSnapshot :=
  (r.fields[3]?).map fun idle => { total := r.fields.sum, idle }

/-- A snapshot is read exactly if there is one. -/
theorem readCpuSnapshot_eq (b : Build) {r : StatRead} (h : r.Fits) :
    (∃ snap, r.snapshot? = some snap
        ∧ readCpuSnapshot b r.stat = some (.ok snap))
      ∨ (r.snapshot? = none
        ∧ ∃ err, readCpuSnapshot b r.stat = some (.error err)) := by
  obtain ⟨stat, utilPct⟩ := r
  unfold Fits at h
  unfold readCpuSnapshot
  cases stat with
  | error err => exact .inr ⟨rfl, err, rfl⟩
  | ok content =>
      unfold snapshot?
      unfold fields at h ⊢
      dsimp only at h ⊢
      cases hline : firstLine content with
      | none => exact .inr ⟨rfl, _, rfl⟩
      | some line =>
          rw [hline] at h
          dsimp only [Option.map_some, Option.getD_some] at h ⊢
          cases hidle : (counters line)[3]? with
          | none => exact .inr ⟨rfl, _, rfl⟩
          | some idle =>
              rw [b.sum_of_lt h]
              exact .inl ⟨_, rfl, rfl⟩

/-- `idle` is one of the counters. -/
theorem snapshot_bounds {r : StatRead} (h : r.Fits) {snap : CpuSnapshot}
    (hs : r.snapshot? = some snap) :
    snap.idle ≤ snap.total ∧ snap.total < 2 ^ 64 := by
  obtain ⟨idle, hidle, rfl⟩ := Option.map_eq_some_iff.mp hs
  exact ⟨List.le_sum_of_mem (List.mem_of_getElem? hidle), h⟩

end StatRead

/-! ## §4. Two snapshots. -/

/-- The total rises by less than `idle` does, so the difference underflows. -/
def Underflows (p q : CpuSnapshot) : Prop :=
  0 < q.total - p.total ∧ q.total - p.total < q.idle - p.idle

/-- The busy counters do not fall together while the total rises. -/
def NoDip (p q : CpuSnapshot) : Prop := q.total ≤ p.total ∨ p.busy ≤ q.busy

instance (p q : CpuSnapshot) : Decidable (NoDip p q) :=
  inferInstanceAs (Decidable (_ ∨ _))

theorem noDip_iff {p q : CpuSnapshot} (hp : p.idle ≤ p.total)
    (hq : q.idle ≤ q.total) : NoDip p q ↔ ¬ Underflows p q := by
  unfold NoDip Underflows CpuSnapshot.busy
  omega

/-- A percentage. -/
def IsPct (x : ℚ) : Prop := 0 ≤ x ∧ x ≤ 100

/-- A part of a whole. -/
theorem isPct_part {part whole : Nat} (hpos : 0 < whole) (h : part ≤ whole) :
    IsPct ((part : ℚ) / (whole : ℚ) * 100) := by
  have hwhole : (0 : ℚ) < whole := Nat.cast_pos.mpr hpos
  have hpart : (part : ℚ) ≤ whole := Nat.cast_le.mpr h
  have hratio : (part : ℚ) / (whole : ℚ) ≤ 1 := (div_le_one hwhole).mpr hpart
  have hnonneg : 0 ≤ (part : ℚ) / (whole : ℚ) := by positivity
  exact ⟨by linarith, by linarith⟩

/-- Without a dip the usage is a percentage, in either build. -/
theorem cpuPct_of_noDip (b : Build) {p q : CpuSnapshot}
    (h : ¬ Underflows p q) :
    ∃ cpu, ComputeReader.cpuPct b p q = some cpu ∧ IsPct cpu := by
  unfold ComputeReader.cpuPct
  dsimp only
  by_cases hpos : q.total - p.total > 0
  · have hle : q.idle - p.idle ≤ q.total - p.total := by
      unfold Underflows at h
      omega
    rw [if_pos hpos, b.sub_of_le hle]
    exact ⟨_, rfl, isPct_part hpos (Nat.sub_le _ _)⟩
  · rw [if_neg hpos]
    exact ⟨0, rfl, le_refl 0, by norm_num⟩

/-! ## §5. One read. -/

/-- The step does not panic, its subtraction does not underflow, and the usage
after it is a percentage. -/
structure CpuSound (e : Mealy.Step ComputeReader StatRead ReadResult) :
    Prop where
  no_panic : e.output ≠ .panicked
  no_underflow : ∀ p q, e.pre.prevSnapshot = some p →
    e.input.snapshot? = some q → ¬ Underflows p q
  pct : IsPct e.post.lastCpu

/-- **Everything a read can do**: nothing, keep a first snapshot, measure a
usage, or underflow. -/
theorem readOnce_cases (b : Build) (m : ComputeReader) {r : StatRead}
    (hfit : r.Fits) :
    (r.snapshot? = none ∧ ∃ err, m.readOnce b r = (m, .failed err))
    ∨ (∃ q, r.snapshot? = some q ∧ m.prevSnapshot = none
        ∧ m.readOnce b r = ({ m with prevSnapshot := some q }, .ok false))
    ∨ (∃ p q cpu, r.snapshot? = some q ∧ m.prevSnapshot = some p
        ∧ ¬ Underflows p q ∧ IsPct cpu
        ∧ m.readOnce b r = (⟨some q, cpu, r.utilPct.getD 0⟩, .ok true))
    ∨ ∃ p q, r.snapshot? = some q ∧ m.prevSnapshot = some p
        ∧ Underflows p q := by
  unfold ComputeReader.readOnce
  rcases StatRead.readCpuSnapshot_eq b hfit with
    ⟨q, hq, hread⟩ | ⟨hnone, err, hread⟩
  · rw [hread]
    cases hp : m.prevSnapshot with
    | none => exact .inr (.inl ⟨q, hq, rfl, rfl⟩)
    | some p =>
        by_cases hunder : Underflows p q
        · exact .inr (.inr (.inr ⟨p, q, hq, rfl, hunder⟩))
        · obtain ⟨cpu, hcpu, hpct⟩ := cpuPct_of_noDip b hunder
          dsimp only
          rw [hcpu]
          exact .inr (.inr (.inl ⟨p, q, cpu, hq, rfl, hunder, hpct, rfl⟩))
  · rw [hread]
    exact .inl ⟨hnone, err, rfl⟩

/-- The last snapshot counts its idle time in its total. -/
def ComputeReader.Counted (m : ComputeReader) : Prop :=
  ∀ p, m.prevSnapshot = some p → p.idle ≤ p.total

/-- What a sound read leaves: a percentage, and the last snapshot. -/
structure Kept (m : ComputeReader) (r : StatRead) (m' : ComputeReader) :
    Prop where
  pct : IsPct m'.lastCpu
  counted : m'.Counted
  prev : m'.prevSnapshot = r.snapshot?.or m.prevSnapshot

/-- **A read after a percentage is sound exactly if there is no dip since the
last snapshot.** -/
theorem read_sound_iff (b : Build) {m : ComputeReader} {r : StatRead}
    (hfit : r.Fits) (hpct : IsPct m.lastCpu) (hprev : m.Counted) :
    (CpuSound ((ComputeReader.machine b).stepAt m r)
      ↔ ∀ p q, m.prevSnapshot = some p → r.snapshot? = some q → NoDip p q)
    ∧ (CpuSound ((ComputeReader.machine b).stepAt m r) →
        Kept m r (m.readOnce b r).1) := by
  have hcount : ∀ q, r.snapshot? = some q → q.idle ≤ q.total :=
    fun q hq => (StatRead.snapshot_bounds hfit hq).1
  -- a sound step underflows nowhere, and an underflow is a dip
  have honly : CpuSound ((ComputeReader.machine b).stepAt m r) →
      ∀ p q, m.prevSnapshot = some p → r.snapshot? = some q → NoDip p q :=
    fun h p q hp hq =>
      (noDip_iff (hprev p hp) (hcount q hq)).mpr (h.no_underflow p q hp hq)
  have hstep : ∀ m' result, m.readOnce b r = (m', result) →
      result ≠ .panicked → Kept m r m' →
      (∀ p q, m.prevSnapshot = some p → r.snapshot? = some q →
        ¬ Underflows p q) →
      CpuSound ((ComputeReader.machine b).stepAt m r)
        ∧ Kept m r (m.readOnce b r).1 := by
    intro m' result heq hresult hkept hunder
    refine ⟨⟨?_, hunder, ?_⟩, ?_⟩
    · show (m.readOnce b r).2 ≠ .panicked
      rw [heq]
      exact hresult
    · show IsPct (m.readOnce b r).1.lastCpu
      rw [heq]
      exact hkept.pct
    · rw [heq]
      exact hkept
  rcases readOnce_cases b m hfit with
    ⟨hnone, err, heq⟩ | ⟨q, hq, hp, heq⟩ | ⟨p, q, cpu, hq, hp, hunder, hcpu, heq⟩
      | ⟨p, q, hq, hp, hunder⟩
  · -- nothing is read
    have h := hstep m _ heq nofun ⟨hpct, hprev, by rw [hnone]; rfl⟩
      fun p q _ hq => by rw [hnone] at hq; cases hq
    exact ⟨⟨honly, fun _ => h.1⟩, fun _ => h.2⟩
  · -- a first snapshot: the usage stays
    have h := hstep _ _ heq nofun
      ⟨hpct, fun p hp => hcount p (hq.trans hp), by rw [hq]; rfl⟩
      fun p' _ hp' _ => by rw [hp] at hp'; cases hp'
    exact ⟨⟨honly, fun _ => h.1⟩, fun _ => h.2⟩
  · -- a usage is measured
    have h := hstep _ _ heq nofun
      ⟨hcpu, fun p hp => hcount p (hq.trans hp), by rw [hq]; rfl⟩
      fun p' q' hp' hq' => by
        obtain rfl := Option.some.inj (hp.symm.trans hp')
        obtain rfl := Option.some.inj (hq.symm.trans hq')
        exact hunder
    exact ⟨⟨honly, fun _ => h.1⟩, fun _ => h.2⟩
  · -- an underflow: whatever the build does, the step is not sound
    have hnot : ¬ CpuSound ((ComputeReader.machine b).stepAt m r) :=
      fun h => h.no_underflow p q hp hq hunder
    refine ⟨⟨honly, fun h => absurd hunder ?_⟩, fun h => absurd h hnot⟩
    exact (noDip_iff (hprev p hp) (hcount q hq)).mp (h p q hp hq)

/-! ## §6. Runs. -/

/-- From any state with a percentage: the reads are sound exactly if there is
no dip between two snapshots in a row, the one before the run included. -/
theorem reads_sound_iff (b : Build) {reads : List StatRead}
    (hfit : ∀ r ∈ reads, r.Fits) {m : ComputeReader} (hpct : IsPct m.lastCpu)
    (hprev : m.Counted) :
    ((ComputeReader.machine b).Along m reads fun _ e => CpuSound e)
      ↔ (m.prevSnapshot.toList
          ++ reads.filterMap StatRead.snapshot?).IsChain NoDip := by
  induction reads generalizing m with
  | nil =>
      rw [List.filterMap_nil, List.append_nil]
      refine iff_of_true Mealy.along_nil ?_
      cases m.prevSnapshot with
      | none => exact .nil
      | some p => exact .singleton p
  | cons r reads ih =>
      obtain ⟨hr, hrest⟩ := List.forall_mem_cons.mp hfit
      obtain ⟨hiff, hkept⟩ := read_sound_iff b hr hpct hprev
      have hnext : CpuSound ((ComputeReader.machine b).stepAt m r) →
          (((ComputeReader.machine b).Along
              ((ComputeReader.machine b).step m r).1 reads
                fun _ e => CpuSound e)
            ↔ ((r.snapshot?.or m.prevSnapshot).toList
              ++ reads.filterMap StatRead.snapshot?).IsChain NoDip) := by
        intro h
        have hk := hkept h
        rw [← hk.prev]
        exact ih hrest hk.pct hk.counted
      rw [Mealy.along_cons, and_congr_right hnext, hiff]
      cases hq : r.snapshot? with
      | none =>
          -- the snapshot before is still the last one
          rw [List.filterMap_cons_none hq]
          exact and_iff_right fun p q _ h => absurd h nofun
      | some q =>
          rw [List.filterMap_cons_some hq]
          cases hp : m.prevSnapshot with
          | none => exact and_iff_right fun p q h _ => absurd h nofun
          | some p =>
              show _ ↔ (p :: q :: _).IsChain NoDip
              rw [List.isChain_cons_cons]
              refine and_congr_left fun _ => ?_
              exact ⟨fun h => h p q rfl rfl, fun h p' q' hp' hq' =>
                Option.some.inj hp' ▸ Option.some.inj hq' ▸ h⟩

/-- **When the CPU usage is a percentage**, over every sequence of contents
whose sums fit and in either build: no read panics or underflows and every
usage is between 0 and 100 exactly if the busy counters never fall together
from one snapshot to the next while the total rises. -/
theorem cpu_percentage_iff (b : Build) (reads : List StatRead)
    (hfit : ∀ r ∈ reads, r.Fits) :
    ((ComputeReader.machine b).Along .new reads fun _ e => CpuSound e)
      ↔ (reads.filterMap StatRead.snapshot?).IsChain NoDip :=
  reads_sound_iff b hfit ⟨le_refl 0, by norm_num [ComputeReader.new]⟩ nofun

/-- Work goes on while `iowait` loses some of its time. -/
def steadyReads : List StatRead :=
  [⟨.ok "cpu  100 0 0 100 50\n".toList, none⟩,
    ⟨.ok "cpu  110 0 0 160 40\n".toList, none⟩]

theorem steady_percentage :
    (ComputeReader.machine .debug).Along .new steadyReads
      fun _ e => CpuSound e :=
  (cpu_percentage_iff .debug steadyReads (by decide)).mpr (by decide)

/-- `iowait` falls from 50 to 0 while `idle` rises by 60. -/
def dippingReads : List StatRead :=
  [⟨.ok "cpu  100 0 0 100 50\n".toList, none⟩,
    ⟨.ok "cpu  100 0 0 160 0\n".toList, none⟩]

/-- In either build: a debug build panics, a release build wraps. -/
theorem iowait_dip_underflows :
    ¬ ∀ (b : Build) (reads : List StatRead), (∀ r ∈ reads, r.Fits) →
        (ComputeReader.machine b).Along .new reads fun _ e => CpuSound e := by
  intro h
  have hsound := h .release dippingReads (by decide)
  obtain ⟨_, hrest⟩ := Mealy.along_cons.mp hsound
  obtain ⟨hdip, _⟩ := Mealy.along_cons.mp hrest
  have hunder : Underflows ⟨250, 100⟩ ⟨260, 160⟩ := ⟨by decide, by decide⟩
  exact hdip.no_underflow _ _ (by decide) (by decide) hunder

end ArgusManager
