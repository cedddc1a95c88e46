/-
  ArgusManager.Sim.Noise
  ──────────────────────
  **Gaussian noise** (`src/sim/noise.rs`).

  Every key has a generator of its own, seeded from the master seed and the
  key when its first sample is drawn.  A sample takes as many words as it
  takes to find one that is not zero, and one more; a sample without deviation
  takes none and does not even make the generator.  So what a key's generator
  is about to give only depends on the calls of that key (`stream_gaussian`),
  and a key is answered as by its own generator alone (`answers_stream`).
-/
import ArgusManager.Float
import ArgusManager.Lib.Mealy
import Mathlib.Order.Basic

namespace ArgusManager.Sim

/-! ## §1. Words. -/

/-- The word after so many others. -/
def wordAt {σ : Type} (nextU32 : σ → UInt32 × σ) : ℕ → σ → UInt32
  | 0, g => (nextU32 g).1
  | n + 1, g => wordAt nextU32 n (nextU32 g).2

/-- A seeded generator of words (`ChaCha8Rng`).  It does not give zeros for
ever. -/
structure WordRng where
  State : Type
  seedFromU64 : UInt64 → State
  nextU32 : State → UInt32 × State
  nonzero : ∀ g, ∃ n, wordAt nextU32 n g ≠ 0

namespace WordRng

variable (gen : WordRng)

/-- After a zero there are fewer left before the first other word. -/
theorem find_lt {g : gen.State} (h : (gen.nextU32 g).1 = 0) :
    Nat.find (gen.nonzero (gen.nextU32 g).2) < Nat.find (gen.nonzero g) := by
  have hfirst := Nat.find_spec (gen.nonzero g)
  cases hn : Nat.find (gen.nonzero g) with
  | zero =>
      rw [hn] at hfirst
      exact absurd h hfirst
  | succ n =>
      rw [hn] at hfirst
      exact Nat.lt_succ_of_le (Nat.find_min' _ hfirst)

/-- The rejection loop: words are drawn until one is not zero. -/
def nextNonzero (g : gen.State) : UInt32 × gen.State :=
  if _hraw : (gen.nextU32 g).1 ≠ 0 then gen.nextU32 g
  else nextNonzero (gen.nextU32 g).2
  termination_by Nat.find (gen.nonzero g)
  decreasing_by exact gen.find_lt (not_not.mp _hraw)

theorem nextNonzero_ne_zero (g : gen.State) : (gen.nextNonzero g).1 ≠ 0 := by
  fun_induction gen.nextNonzero g with
  | case1 g hraw => exact hraw
  | case2 g hraw ih => exact ih

end WordRng

/-- Words that count up from the seed. -/
def WordRng.counting : WordRng where
  State := UInt32
  seedFromU64 seed := seed.toUInt32
  nextU32 g := (g, g + 1)
  nonzero g := by
    by_cases hg : g = 0
    · subst hg
      exact ⟨1, by decide⟩
    · exact ⟨0, hg⟩

/-- A zero is passed over. -/
example : (WordRng.counting.nextNonzero (0 : UInt32)).1 = 1 := by
  decide +kernel

/-! ## §2. Samples. -/

/-- The functions of the mathematical library that the transform calls. -/
structure NormalMath where
  ln : FloatVal → FloatVal
  sqrt : FloatVal → FloatVal
  cos : FloatVal → FloatVal

/-- `std::f64::consts::TAU`. -/
def TAU : FloatVal := .fin (884279719003555 / 140737488355328)

def FNV_OFFSET : UInt64 := 14695981039346656037
def FNV_PRIME : UInt64 := 1099511628211

/-- One byte of FNV-1a. -/
def fnvByte (hash : UInt64) (byte : UInt8) : UInt64 :=
  (hash ^^^ byte.toUInt64) * FNV_PRIME

/-- `u64::to_le_bytes`. -/
def toLeBytes (x : UInt64) : List UInt8 :=
  (List.range 8).map fun i => (x >>> (8 * UInt64.ofNat i)).toUInt8

/-- `derive_stream_seed`. -/
def deriveStreamSeed (masterSeed : UInt64) (key : String) : UInt64 :=
  key.toUTF8.toList.foldl fnvByte
    ((toLeBytes masterSeed).foldl fnvByte FNV_OFFSET)

example : deriveStreamSeed 42 "key_a" = 4775442020655604190 := by
  decide +kernel

/-- A word as a share of the greatest. -/
def uniform (raw : UInt32) : FloatVal :=
  .fin raw.toNat / .fin (2 ^ 32 - 1)

variable (gen : WordRng) (math : NormalMath)

/-- **The logarithm is only taken of shares in (0, 1].** -/
theorem uniform_nextNonzero (g : gen.State) :
    ∃ q : ℚ, uniform (gen.nextNonzero g).1 = .fin q ∧ 0 < q ∧ q ≤ 1 := by
  have hne := gen.nextNonzero_ne_zero g
  have hpos : 0 < (gen.nextNonzero g).1.toNat := by
    rw [Nat.pos_iff_ne_zero]
    intro h
    exact hne (UInt32.toNat_inj.mp h)
  have hle : (gen.nextNonzero g).1.toNat ≤ 2 ^ 32 - 1 := by
    have hlt := (gen.nextNonzero g).1.toNat_lt
    omega
  have hmax : (0 : ℚ) < 2 ^ 32 - 1 := by norm_num
  have hcast : ((gen.nextNonzero g).1.toNat : ℚ) ≤ 2 ^ 32 - 1 := by
    have hle' : ((gen.nextNonzero g).1.toNat : ℚ) ≤ (2 ^ 32 - 1 : ℕ) :=
      Nat.cast_le.mpr hle
    norm_num at hle' ⊢
    exact hle'
  exact ⟨_, FloatVal.fin_div _ hmax.ne',
    div_pos (Nat.cast_pos.mpr hpos) hmax, (div_le_one hmax).mpr hcast⟩

/-- `box_muller`. -/
def boxMuller (g : gen.State) : FloatVal × gen.State :=
  let (raw1, g) := gen.nextNonzero g
  let (raw2, g) := gen.nextU32 g
  (math.sqrt (.fin (-2) * math.ln (uniform raw1))
    * math.cos (TAU * uniform raw2), g)

structure NoiseRng where
  streams : String → Option gen.State
  masterSeed : UInt64

/-- A call of `gaussian`. -/
structure NoiseCall where
  key : String
  sigma : FloatVal

namespace NoiseRng

variable {gen}

def new (masterSeed : UInt64) : NoiseRng gen where
  streams _ := none
  masterSeed := masterSeed

/-- `entry(key).or_insert_with(..)`: the generator of a key, a fresh one if
there is none yet. -/
def stream (rng : NoiseRng gen) (key : String) : gen.State :=
  (rng.streams key).getD
    (gen.seedFromU64 (deriveStreamSeed rng.masterSeed key))

def gaussian (rng : NoiseRng gen) (seedKey : String) (sigma : FloatVal) :
    NoiseRng gen × FloatVal :=
  if sigma == .fin 0 then (rng, .fin 0)
  else
    let (z, g) := boxMuller gen math (rng.stream seedKey)
    ({ rng with streams := Function.update rng.streams seedKey (some g) },
      z * sigma)

end NoiseRng

/-- The calls of a generator. -/
def noiseMachine : Mealy (NoiseRng gen) NoiseCall FloatVal :=
  ⟨fun rng call => rng.gaussian math call.key call.sigma⟩

/-! ## §3. One key alone. -/

/-- The calls of one key, on a generator of words. -/
def keyMachine : Mealy gen.State FloatVal FloatVal where
  step g sigma :=
    if sigma == .fin 0 then (g, .fin 0)
    else
      let (z, g) := boxMuller gen math g
      (g, z * sigma)

/-- What a call of this key asks. -/
def NoiseCall.sigmaFor (key : String) (call : NoiseCall) : Option FloatVal :=
  if call.key = key then some call.sigma else none

theorem sigmaFor_isSome (key : String) (call : NoiseCall) :
    (call.sigmaFor key).isSome = decide (call.key = key) := by
  unfold NoiseCall.sigmaFor
  by_cases h : call.key = key
  · simp [h]
  · simp [h]

variable {gen}

/-- **A call moves the generator of its own key**, and no other. -/
theorem stream_gaussian (rng : NoiseRng gen) (seedKey : String)
    (sigma : FloatVal) (key : String) :
    (rng.gaussian math seedKey sigma).1.stream key
      = if seedKey = key then
          ((keyMachine gen math).step (rng.stream key) sigma).1
        else rng.stream key := by
  unfold NoiseRng.gaussian keyMachine
  dsimp only
  cases hsigma : sigma == .fin 0 with
  | true => simp
  | false =>
      by_cases hkey : seedKey = key
      · subst hkey
        simp [NoiseRng.stream]
      · simp [NoiseRng.stream, hkey, Ne.symm hkey]

/-- And is answered by it. -/
theorem gaussian_answer (rng : NoiseRng gen) (seedKey : String)
    (sigma : FloatVal) :
    (rng.gaussian math seedKey sigma).2
      = ((keyMachine gen math).step (rng.stream seedKey) sigma).2 := by
  unfold NoiseRng.gaussian keyMachine
  dsimp only
  cases hsigma : sigma == .fin 0 with
  | true => simp
  | false => simp

/-- What a run answers a key. -/
def answersTo (key : String) (rng : NoiseRng gen) (calls : List NoiseCall) :
    List FloatVal :=
  (((noiseMachine gen math).trace rng calls).filter
    fun e => e.input.key = key).map Mealy.Step.output

/-- **A key is answered as by its own generator**, over every run. -/
theorem answers_stream (key : String) (rng : NoiseRng gen)
    (calls : List NoiseCall) :
    answersTo math key rng calls
      = (keyMachine gen math).outs (rng.stream key)
          (calls.filterMap (NoiseCall.sigmaFor key)) := by
  have hskip : ∀ (rng : NoiseRng gen) (call : NoiseCall),
      call.sigmaFor key = none →
      ((noiseMachine gen math).step rng call).1.stream key
        = rng.stream key := by
    intro rng call hcall
    have hkey : ¬ call.key = key := by simpa [NoiseCall.sigmaFor] using hcall
    exact (stream_gaussian ..).trans (if_neg hkey)
  have hfeed : ∀ (rng : NoiseRng gen) (call : NoiseCall) (sigma : FloatVal),
      call.sigmaFor key = some sigma →
      (keyMachine gen math).step (rng.stream key) sigma
        = (((noiseMachine gen math).step rng call).1.stream key,
            ((noiseMachine gen math).step rng call).2) := by
    intro rng call sigma hcall
    obtain ⟨rfl, rfl⟩ : call.key = key ∧ call.sigma = sigma := by
      simpa [NoiseCall.sigmaFor] using hcall
    have hstream := stream_gaussian math rng call.key call.sigma call.key
    rw [if_pos rfl] at hstream
    exact (Prod.ext hstream (gaussian_answer ..)).symm
  rw [← Mealy.outs_feeds hskip hfeed]
  unfold answersTo
  simp only [sigmaFor_isSome]

/-- The calls of a key only: every answer is to that key. -/
theorem outs_own (key : String) (rng : NoiseRng gen) (calls : List NoiseCall) :
    (noiseMachine gen math).outs rng (calls.filter fun c => c.key = key)
      = answersTo math key rng (calls.filter fun c => c.key = key) := by
  unfold answersTo Mealy.outs
  congr 1
  refine (List.filter_eq_self.mpr fun e he => ?_).symm
  exact (List.mem_filter.mp (Mealy.input_mem _ he)).2

/-! ## §4. Independence. -/

/-- **Noise streams are independent per key**, for every generator of words,
every master seed and every interleaving of calls: a key is answered what its
calls alone are answered, and a call without deviation is answered 0 and
changes nothing. -/
theorem noise_streams_independent (gen : WordRng) (math : NormalMath)
    (masterSeed : UInt64) :
    (∀ (calls : List NoiseCall) (key : String),
      (((noiseMachine gen math).trace (.new masterSeed) calls).filter
          fun e => e.input.key = key).map Mealy.Step.output
        = (noiseMachine gen math).outs (.new masterSeed)
            (calls.filter fun c => c.key = key))
    ∧ ∀ (rng : NoiseRng gen) (key : String),
        rng.gaussian math key (.fin 0) = (rng, .fin 0) := by
  constructor
  · intro calls key
    have hown : (calls.filter fun c => c.key = key).filterMap
        (NoiseCall.sigmaFor key)
          = calls.filterMap (NoiseCall.sigmaFor key) := by
      rw [List.filterMap_filter]
      refine List.filterMap_congr fun c _ => ?_
      unfold NoiseCall.sigmaFor
      by_cases hkey : c.key = key
      · simp [hkey]
      · simp [hkey]
    rw [outs_own, answers_stream, hown]
    exact answers_stream math key _ calls
  · intro rng key
    rfl

end ArgusManager.Sim
