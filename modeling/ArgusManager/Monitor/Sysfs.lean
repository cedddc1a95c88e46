/-
  ArgusManager.Monitor.Sysfs
  ──────────────────────────
  **How the thermal monitor reads a device** (`discover_zones`, `read_once`,
  `read_thermal_state`, `src/monitor/thermal.rs`).

  The scan of the thermal zones passes over what it cannot read.  The scan of
  the cooling devices stops there, and at index 64: it misses an active device
  exactly if every active one has an unreadable one below it or an index of 64
  or more (`thermal_state_iff`).
-/
import ArgusManager.Lib.StrScan
import ArgusManager.Monitor.Thermal
import Mathlib.Order.Bounds.Basic

namespace ArgusManager

open StrScan

/-! ## §1. The layout. -/

/-- A file, as the scans can find it. -/
inductive SysfsFile where
  | absent
  | unreadable
  | text (content : Text)
  deriving DecidableEq, Repr

namespace SysfsFile

/-- `Path::exists`. -/
def present : SysfsFile → Bool
  | .absent => false
  | _ => true

/-- `fs::read_to_string`. -/
def read : SysfsFile → Option Text
  | .text content => some content
  | _ => none

end SysfsFile

/-- The files of a thermal directory, by the index in their paths. -/
structure Sysfs where
  /-- `thermal_zone{i}/type`. -/
  zoneType : Nat → SysfsFile
  /-- `thermal_zone{i}/temp`. -/
  zoneTemp : Nat → SysfsFile
  /-- `cooling_device{i}/cur_state`. -/
  curState : Nat → SysfsFile

namespace Sysfs

/-- The temperature a zone reports, if it can be parsed. -/
def temp? (sys : Sysfs) (i : Nat) : Option Int :=
  (sys.zoneTemp i).read.bind fun content => parseSigned 32 (trim content)

/-- The state a cooling device reports, if it can be parsed. -/
def state? (sys : Sysfs) (i : Nat) : Option Nat :=
  (sys.curState i).read.bind fun content => parseUnsigned 32 (trim content)

/-- A cooling device with a state above 0. -/
def Active (sys : Sysfs) (i : Nat) : Prop := ∃ n, sys.state? i = some n ∧ 0 < n

/-! ## §2. The scans. -/

/-- One zone of the loop in `read_thermal_state`; what cannot be read or
parsed is passed over. -/
def hotter (sys : Sysfs) (maxTemp : Option Int) (i : Nat) : Option Int :=
  match (sys.zoneTemp i).read with
  | some content =>
      match parseSigned 32 (trim content) with
      | some temp =>
          some (match maxTemp with
            | some cur => max cur temp
            | none => temp)
      | none => maxTemp
  | none => maxTemp

/-- The loop over the cooling devices: it ends at the first active one, and at
the first one that cannot be read. -/
def throttling (sys : Sysfs) : List Nat → Bool
  | [] => false
  | i :: rest =>
      match (sys.curState i).read with
      | some content =>
          match parseUnsigned 32 (trim content) with
          | some state => if state > 0 then true else sys.throttling rest
          | none => sys.throttling rest
      | none => false

def readThermalState (sys : Sysfs) (zoneIndices : List Nat) :
    Except String ThermalReading :=
  match zoneIndices.foldl sys.hotter none with
  | none => .error "No thermal zones found"
  | some maxTempMc =>
      .ok { maxTempMc, throttling := sys.throttling (List.range 64) }

/-- The zones that exist, with their types. -/
def allZones (sys : Sysfs) : List (Nat × Text) :=
  (List.range 256).filterMap fun i =>
    if (sys.zoneTemp i).present then
      some (i, ((sys.zoneType i).read.map trim).getD [])
    else none

/-- `discover_zones`: the zones of the wanted types, or all if there are none
such. -/
def discoverZones (sys : Sysfs) (zoneTypeFilter : List Text) : List Nat :=
  if zoneTypeFilter.isEmpty then sys.allZones.map Prod.fst
  else
    let matching := (sys.allZones.filter fun z =>
      zoneTypeFilter.any fun f => z.2 == f).map Prod.fst
    if matching.isEmpty then sys.allZones.map Prod.fst else matching

/-! ## §3. What the scans find. -/

variable (sys : Sysfs)

/-- One more temperature, if the zone has one. -/
theorem hotter_eq (maxTemp : Option Int) (i : Nat) :
    sys.hotter maxTemp i
      = (maxTemp.toList ++ (sys.temp? i).toList).max? := by
  unfold hotter temp?
  cases (sys.zoneTemp i).read with
  | none => cases maxTemp <;> rfl
  | some content =>
      dsimp only [Option.bind_some]
      cases parseSigned 32 (trim content) with
      | none => cases maxTemp <;> rfl
      | some temp => cases maxTemp <;> rfl

/-- **The zone scan is a maximum** over what can be parsed. -/
theorem foldl_hotter (zones : List Nat) (maxTemp : Option Int) :
    zones.foldl sys.hotter maxTemp
      = (maxTemp.toList ++ zones.filterMap sys.temp?).max? := by
  induction zones generalizing maxTemp with
  | nil => cases maxTemp <;> rfl
  | cons i zones ih =>
      rw [List.foldl_cons, ih, hotter_eq]
      cases htemp : sys.temp? i with
      | none =>
          rw [List.filterMap_cons_none htemp]
          cases maxTemp <;> rfl
      | some temp =>
          rw [List.filterMap_cons_some htemp]
          cases maxTemp <;> rfl

/-- A maximum is read exactly if something can be parsed, and it is the
greatest of what can be. -/
theorem readThermalState_ok {zones : List Nat}
    (h : ∃ i ∈ zones, (sys.temp? i).isSome = true) :
    ∃ maxTempMc, sys.readThermalState zones
        = .ok ⟨maxTempMc, sys.throttling (List.range 64)⟩
      ∧ IsGreatest (fun t => ∃ i ∈ zones, sys.temp? i = some t) maxTempMc := by
  obtain ⟨i, hi, hsome⟩ := h
  obtain ⟨t, ht⟩ := Option.isSome_iff_exists.mp hsome
  have hmem : t ∈ zones.filterMap sys.temp? :=
    List.mem_filterMap.mpr ⟨i, hi, ht⟩
  have hfold : zones.foldl sys.hotter none
      = (zones.filterMap sys.temp?).max? := sys.foldl_hotter zones none
  unfold readThermalState
  rw [hfold]
  cases hmax : (zones.filterMap sys.temp?).max? with
  | none =>
      rw [List.max?_eq_none_iff.mp hmax] at hmem
      exact absurd hmem List.not_mem_nil
  | some m =>
      obtain ⟨hm, hle⟩ := List.max?_eq_some_iff.mp hmax
      exact ⟨m, rfl, List.mem_filterMap.mp hm,
        fun _ h => hle _ (List.mem_filterMap.mpr h)⟩

/-- One more device of the loop. -/
theorem throttling_cons (i : Nat) (rest : List Nat) :
    sys.throttling (i :: rest) = true
      ↔ (sys.curState i).read.isSome = true
        ∧ (sys.Active i ∨ sys.throttling rest = true) := by
  rw [throttling]
  unfold Active state?
  cases (sys.curState i).read with
  | none => simp
  | some content =>
      dsimp only [Option.bind_some]
      cases parseUnsigned 32 (trim content) with
      | none => simp
      | some state =>
          by_cases hpos : state > 0
          · simp [hpos]
          · simp [hpos]

/-- **The cooling scan finds an active device that only readable ones
precede.** -/
theorem throttling_iff (start count : Nat) :
    sys.throttling (List.range' start count) = true
      ↔ ∃ i, start ≤ i ∧ i < start + count ∧ sys.Active i
        ∧ ∀ j, start ≤ j → j < i → (sys.curState j).read.isSome = true := by
  induction count generalizing start with
  | zero =>
      refine iff_of_false Bool.false_ne_true ?_
      rintro ⟨i, hlo, hhi, _⟩
      omega
  | succ count ih =>
      rw [List.range'_succ, throttling_cons, ih]
      constructor
      · rintro ⟨hread, hact | ⟨i, hlo, hhi, hact, hbelow⟩⟩
        -- the first device, or one of the rest behind it
        · exact ⟨start, le_rfl, by omega, hact, fun j hj hj' => by omega⟩
        · refine ⟨i, by omega, by omega, hact, fun j hj hj' => ?_⟩
          rcases Nat.eq_or_lt_of_le hj with rfl | hj
          · exact hread
          · exact hbelow j hj hj'
      · rintro ⟨i, hlo, hhi, hact, hbelow⟩
        rcases Nat.eq_or_lt_of_le hlo with rfl | hlo
        · -- an active device is readable itself
          refine ⟨?_, .inl hact⟩
          obtain ⟨n, hn, _⟩ := hact
          unfold state? at hn
          cases hread : (sys.curState start).read with
          | none => rw [hread] at hn; cases hn
          | some content => rfl
        · exact ⟨hbelow start le_rfl hlo, .inr ⟨i, hlo, by omega, hact,
            fun j hj hj' => hbelow j (by omega) hj'⟩⟩

end Sysfs

/-! ## §4. The monitor. -/

/-- The fields of `ThermalMonitor` that choose the zones. -/
structure ThermalReader where
  zoneIndices : List Nat
  zoneTypeFilter : List Text
  zonesDiscovered : Bool

namespace ThermalReader

def new (zoneTypes : List Text) : ThermalReader where
  zoneIndices := []
  zoneTypeFilter := zoneTypes
  zonesDiscovered := false

def discoverZones (m : ThermalReader) (sys : Sysfs) : ThermalReader :=
  { m with
    zoneIndices := sys.discoverZones m.zoneTypeFilter
    zonesDiscovered := true }

/-- The reading goes to `ThermalMonitor.poll`; an error is only logged. -/
def readOnce (m : ThermalReader) (sys : Sysfs) :
    ThermalReader × Except String ThermalReading :=
  let m := if !m.zonesDiscovered then m.discoverZones sys else m
  (m, sys.readThermalState m.zoneIndices)

/-- The rounds of the monitor; the layout may change between them. -/
def machine : Mealy ThermalReader Sysfs (Except String ThermalReading) :=
  ⟨readOnce⟩

/-- Once discovered the zones stay. -/
theorem outs_discovered (zones : List Nat) (types : List Text)
    (layouts : List Sysfs) :
    machine.outs ⟨zones, types, true⟩ layouts
      = layouts.map fun sys => sys.readThermalState zones := by
  induction layouts with
  | nil => rfl
  | cons sys layouts ih =>
      rw [Mealy.outs_cons, List.map_cons]
      exact congrArg _ ih

/-- **Every round reads the zones that the first round found.** -/
theorem outs_new (types : List Text) (first : Sysfs) (layouts : List Sysfs) :
    machine.outs (new types) (first :: layouts)
      = (first :: layouts).map fun sys =>
          sys.readThermalState (first.discoverZones types) := by
  rw [Mealy.outs_cons, List.map_cons]
  exact congrArg _ (outs_discovered _ _ layouts)

end ThermalReader

/-! ## §5. The whole device. -/

namespace Sysfs

variable (sys : Sysfs)

/-- What the monitor should find: the greatest temperature of the monitored
zones that can be parsed, and whether any cooling device is active. -/
def ReadsDevice (zoneIndices : List Nat) : Prop :=
  ∃ reading, sys.readThermalState zoneIndices = .ok reading
    ∧ IsGreatest (fun t => ∃ i ∈ zoneIndices, sys.temp? i = some t)
        reading.maxTempMc
    ∧ (reading.throttling = true ↔ ∃ i, sys.Active i)

/-- If any cooling device is active, one is that has an index below 64 and
only readable ones below it. -/
def ActiveInReach : Prop :=
  (∃ i, sys.Active i) →
    ∃ i < 64, sys.Active i ∧ ∀ j < i, (sys.curState j).read.isSome = true

/-- What the cooling scan finds is active. -/
theorem throttling_range :
    sys.throttling (List.range 64) = true
      ↔ ∃ i < 64, sys.Active i
        ∧ ∀ j < i, (sys.curState j).read.isSome = true := by
  rw [List.range_eq_range', throttling_iff]
  constructor
  · rintro ⟨i, _, hi, hact, hbelow⟩
    exact ⟨i, by omega, hact, fun j hj => hbelow j (Nat.zero_le j) hj⟩
  · rintro ⟨i, hi, hact, hbelow⟩
    exact ⟨i, Nat.zero_le i, by omega, hact, fun j _ hj => hbelow j hj⟩

end Sysfs

/-- **When the thermal state reads the whole device**, for every layout and
every list of monitored zones of which one can be parsed: exactly if an active
cooling device is in reach. -/
theorem thermal_state_iff (sys : Sysfs) (zoneIndices : List Nat)
    (h : ∃ i ∈ zoneIndices, (sys.temp? i).isSome = true) :
    sys.ReadsDevice zoneIndices ↔ sys.ActiveInReach := by
  obtain ⟨maxTempMc, hread, hgreatest⟩ := sys.readThermalState_ok h
  have hfound := sys.throttling_range
  constructor
  · rintro ⟨reading, hread', _, hthrottling⟩ hactive
    rw [hread] at hread'
    rw [← Except.ok.inj hread'] at hthrottling
    exact hfound.mp (hthrottling.mpr hactive)
  · intro hreach
    refine ⟨_, hread, hgreatest, fun hseen => ?_, fun hactive => ?_⟩
    · obtain ⟨i, _, hact, _⟩ := hfound.mp hseen
      exact ⟨i, hact⟩
    · exact hfound.mpr (hreach hactive)

/-- Two zones, one of them malformed, and some cooling devices. -/
def twoZones (curState : Nat → SysfsFile) : Sysfs where
  zoneType i := if i < 2 then .text "acpitz\n".toList else .absent
  zoneTemp
    | 0 => .text "45000\n".toList
    | 1 => .text "n/a\n".toList
    | _ => .absent
  curState := curState

/-- The second device is active, the first idle. -/
def secondActive : Nat → SysfsFile
  | 0 => .text "0\n".toList
  | 1 => .text "5\n".toList
  | _ => .absent

theorem thermal_state_second :
    (twoZones secondActive).ReadsDevice [0, 1] :=
  (thermal_state_iff _ [0, 1] ⟨0, by simp, by decide⟩).mpr fun _ =>
    ⟨1, by decide, ⟨5, by decide, by decide⟩, by decide⟩

/-- The second device is active, the first cannot be read. -/
def firstUnreadable : Nat → SysfsFile
  | 0 => .unreadable
  | 1 => .text "5\n".toList
  | _ => .absent

/-- The scan stops at the first device. -/
theorem unreadable_hides_active :
    ¬ ∀ (sys : Sysfs) (zoneIndices : List Nat),
        (∃ i ∈ zoneIndices, (sys.temp? i).isSome = true) →
          sys.ReadsDevice zoneIndices := by
  intro h
  obtain ⟨reading, hread, _, hthrottling⟩ :=
    h (twoZones firstUnreadable) [0, 1] ⟨0, by simp, by decide⟩
  have hread' : (twoZones firstUnreadable).readThermalState [0, 1]
      = .ok ⟨45000, false⟩ := by decide
  rw [hread'] at hread
  rw [← Except.ok.inj hread] at hthrottling
  exact Bool.false_ne_true (hthrottling.mpr ⟨1, 5, by decide, by decide⟩)

end ArgusManager
