/-
  ArgusManager.Sim.Yaml
  ─────────────────────
  **YAML values and their merge** (`deep_merge`, `src/sim/config.rs`).

  A mapping is an insertion-ordered map without a key twice.  What a merge
  holds at a path of keys is decided level by level (`lookup_mergeEntries`),
  and from that by an induction along the path (`deep_merge_paths`).
-/
import ArgusManager.Lib.EntryMap
import ArgusManager.Shared

namespace ArgusManager.Sim

open EntryMap

/-! ## §1. Values. -/

/-- `serde_yaml::Value`.  Keys are values too; only their equality matters
here. -/
inductive Yaml (κ : Type) where
  | null
  | bool (b : Bool)
  | number (n : FloatVal)
  | string (s : String)
  | sequence (items : List (Yaml κ))
  | mapping (entries : List (κ × Yaml κ))
  | tagged (tag : String) (value : Yaml κ)

namespace Yaml

variable {κ : Type}

/-- No mapping has a key twice, at any depth. -/
inductive Valid : Yaml κ → Prop where
  | null : Valid .null
  | bool (b : Bool) : Valid (.bool b)
  | number (n : FloatVal) : Valid (.number n)
  | string (s : String) : Valid (.string s)
  | sequence {items : List (Yaml κ)} (h : ∀ v ∈ items, Valid v) :
      Valid (.sequence items)
  | mapping {entries : List (κ × Yaml κ)} (keys : Distinct entries)
      (h : ∀ e ∈ entries, Valid e.2) : Valid (.mapping entries)
  | tagged {tag : String} {value : Yaml κ} (h : Valid value) :
      Valid (.tagged tag value)

/-- `is_mapping`. -/
def isMapping : Yaml κ → Bool
  | .mapping _ => true
  | _ => false

theorem isMapping_iff {y : Yaml κ} :
    y.isMapping = true ↔ ∃ es, y = .mapping es := by
  cases y <;> simp [isMapping]

variable [DecidableEq κ]

/-! ## §2. The merge. -/

mutual

/-- Mappings are merged entry by entry, anything else is replaced. -/
def deepMerge (base : Yaml κ) : Yaml κ → Yaml κ
  | .mapping o =>
      match base with
      | .mapping b => .mapping (mergeEntries b o)
      | _ => .mapping o
  | override => override

/-- The loop over the entries of the override. -/
def mergeEntries (b : List (κ × Yaml κ)) :
    List (κ × Yaml κ) → List (κ × Yaml κ)
  | [] => b
  | e :: o => mergeEntries (mergeEntry b e) o

/-- `entry`: an occupied one is merged in place, a vacant one is appended. -/
def mergeEntry (b : List (κ × Yaml κ)) : κ × Yaml κ → List (κ × Yaml κ)
  | (k, v) => upsert k (fun old => deepMerge old v) v b

end

/-- A value that is no mapping replaces everything. -/
theorem deepMerge_of_not_mapping {o : Yaml κ} (h : o.isMapping = false)
    (b : Yaml κ) : deepMerge b o = o := by
  cases o with
  | mapping o => cases h
  | _ => rfl

/-- A mapping replaces everything that is none. -/
theorem deepMerge_onto {b : Yaml κ} (h : b.isMapping = false)
    (o : List (κ × Yaml κ)) : deepMerge b (.mapping o) = .mapping o := by
  cases b with
  | mapping b => cases h
  | _ => rfl

/-- **One level of a merge**: a key of both is merged, any other kept. -/
theorem lookup_mergeEntries {o : List (κ × Yaml κ)} (ho : Distinct o)
    (b : List (κ × Yaml κ)) (k : κ) :
    (mergeEntries b o).lookup k
      = match o.lookup k with
        | none => b.lookup k
        | some v => some ((b.lookup k).elim v fun old => deepMerge old v) := by
  induction o generalizing b with
  | nil => rfl
  | cons e o ih =>
      obtain ⟨j, v⟩ := e
      obtain ⟨hj, ho⟩ := List.nodup_cons.mp ho
      rw [mergeEntries, ih ho, mergeEntry, lookup_upsert, List.lookup_cons]
      by_cases hk : k = j
      · subst hk
        -- the entries after this one have other keys
        rw [lookup_eq_none.mpr hj, if_pos rfl, beq_self_eq_true]
      · rw [if_neg hk, beq_false_of_ne hk]

theorem distinct_mergeEntries (o : List (κ × Yaml κ)) {b : List (κ × Yaml κ)}
    (hb : Distinct b) : Distinct (mergeEntries b o) := by
  induction o generalizing b with
  | nil => exact hb
  | cons e o ih =>
      obtain ⟨k, v⟩ := e
      exact ih (hb.upsert k _ v)

/-- **A merge has no key twice.** -/
theorem valid_deepMerge {o : Yaml κ} (ho : o.Valid) {b : Yaml κ}
    (hb : b.Valid) : (deepMerge b o).Valid := by
  induction ho generalizing b with
  | mapping keys h ih =>
      cases hb with
      | mapping keysB hB =>
          refine .mapping (distinct_mergeEntries _ keysB) ?_
          clear keys keysB
          rename_i o b
          -- along the loop every value is one of `b`, of `o`, or merged
          induction o generalizing b with
          | nil => exact hB
          | cons e o ihLoop =>
              obtain ⟨k, v⟩ := e
              obtain ⟨he, ho⟩ := List.forall_mem_cons.mp h
              obtain ⟨ihe, iho⟩ := List.forall_mem_cons.mp ih
              refine ihLoop ho iho fun x hx => ?_
              rcases mem_upsert hx with hx | hx | ⟨old, hold, hx⟩
              · exact hB x hx
              · exact hx ▸ he
              · exact hx ▸ ihe (hB _ hold)
      | _ => exact .mapping keys h
  | null => exact .null
  | bool x => exact .bool x
  | number n => exact .number n
  | string s => exact .string s
  | sequence h _ => exact .sequence h
  | tagged h _ => exact .tagged h

/-! ## §3. Paths. -/

/-- What a value holds at a path of keys through its mappings. -/
def at? : Yaml κ → List κ → Option (Yaml κ)
  | y, [] => some y
  | .mapping es, k :: p => (es.lookup k).bind fun v => v.at? p
  | _, _ :: _ => none

/-- The path leads to this value, which is no mapping. -/
def Leaf (y : Yaml κ) (p : List κ) (v : Yaml κ) : Prop :=
  y.at? p = some v ∧ v.isMapping = false

/-- Wherever a value is defined on the way it is a mapping. -/
def OnlyMappingsOn (y : Yaml κ) (p : List κ) : Prop :=
  ∀ q, q <+: p → ∀ w, y.at? q = some w → w.isMapping = true

@[simp] theorem at?_nil (y : Yaml κ) : y.at? [] = some y := by
  cases y <;> rfl

theorem at?_mapping (es : List (κ × Yaml κ)) (k : κ) (p : List κ) :
    (mapping es).at? (k :: p) = (es.lookup k).bind fun v => v.at? p :=
  rfl

theorem at?_of_not_mapping {y : Yaml κ} (h : y.isMapping = false) (k : κ)
    (p : List κ) : y.at? (k :: p) = none := by
  cases y with
  | mapping es => cases h
  | _ => rfl

/-- Along a path through a mapping, one key at a time. -/
theorem onlyMappingsOn_cons (es : List (κ × Yaml κ)) (k : κ) (p : List κ) :
    (mapping es).OnlyMappingsOn (k :: p)
      ↔ ∀ v, es.lookup k = some v → v.OnlyMappingsOn p := by
  constructor
  · intro h v hv q hq w hw
    refine h (k :: q) (List.cons_prefix_cons.mpr ⟨rfl, hq⟩) w ?_
    rw [at?_mapping, hv]
    exact hw
  · intro h q hq w hw
    cases q with
    | nil =>
        rw [at?_nil] at hw
        rw [← Option.some.inj hw]
        rfl
    | cons j q =>
        obtain ⟨rfl, hprefix⟩ := List.cons_prefix_cons.mp hq
        rw [at?_mapping] at hw
        obtain ⟨v, hv, hw⟩ := Option.bind_eq_some_iff.mp hw
        exact h v hv q hprefix w hw

/-- What survives a merge at a path: the leaf of the override, else the leaf
of the base that nothing of the override covers. -/
def Survives (b o : Yaml κ) (p : List κ) (v : Yaml κ) : Prop :=
  o.Leaf p v ∨ (b.Leaf p v ∧ o.at? p = none ∧ o.OnlyMappingsOn p)

/-- One level down a mapping. -/
theorem leaf_mapping {es : List (κ × Yaml κ)} {k : κ} {p : List κ}
    {v y : Yaml κ} (h : es.lookup k = some y) :
    (mapping es).Leaf (k :: p) v ↔ y.Leaf p v := by
  unfold Leaf
  rw [at?_mapping, h]
  rfl

/-- A key that is not there leads nowhere. -/
theorem not_leaf_of_absent {es : List (κ × Yaml κ)} {k : κ} {p : List κ}
    {v : Yaml κ} (h : es.lookup k = none) : ¬ (mapping es).Leaf (k :: p) v := by
  unfold Leaf
  rw [at?_mapping, h]
  exact fun hleaf => absurd hleaf.1 (by simp)

/-- Nor does any key of what is no mapping. -/
theorem not_leaf_of_not_mapping {y : Yaml κ} (h : y.isMapping = false) {k : κ}
    {p : List κ} {v : Yaml κ} : ¬ y.Leaf (k :: p) v := by
  unfold Leaf
  rw [at?_of_not_mapping h]
  exact fun hleaf => absurd hleaf.1 (by simp)

/-- A value that is no mapping covers every path. -/
theorem survives_of_not_mapping {o : Yaml κ} (h : o.isMapping = false)
    {b : Yaml κ} {p : List κ} {v : Yaml κ} :
    Survives b o p v ↔ o.Leaf p v := by
  refine or_iff_left ?_
  rintro ⟨_, _, honly⟩
  have hroot := honly [] List.nil_prefix o (at?_nil o)
  rw [h] at hroot
  cases hroot

/-- **The path law**, by induction along the path. -/
theorem leaf_deepMerge (p : List κ) (b : Yaml κ) {o : Yaml κ} (ho : o.Valid)
    (v : Yaml κ) : (deepMerge b o).Leaf p v ↔ Survives b o p v := by
  induction p generalizing b o with
  | nil =>
      -- nothing of the base is left at the root
      have hroot : Survives b o [] v ↔ o.Leaf [] v := by
        refine or_iff_left ?_
        rintro ⟨_, hnone, _⟩
        rw [at?_nil] at hnone
        cases hnone
      rw [hroot]
      cases ho with
      | @mapping o keys h =>
          have hno : ∀ {y : Yaml κ}, y.isMapping = true → ¬ y.Leaf [] v := by
            rintro y hy ⟨hat, hv⟩
            rw [at?_nil] at hat
            rw [← Option.some.inj hat, hy] at hv
            cases hv
          refine iff_of_false (hno ?_) (hno rfl)
          cases b <;> rfl
      | _ => rw [deepMerge_of_not_mapping rfl]
  | cons k p ih =>
      cases ho with
      | @mapping o keys h =>
          cases b with
          | mapping b =>
              -- two mappings: the key is of the base only, of the override
              -- only, or of both, and then the merge goes on below it
              have hlevel := lookup_mergeEntries keys b k
              show (mapping (mergeEntries b o)).Leaf _ _ ↔ _
              unfold Survives
              rw [onlyMappingsOn_cons, at?_mapping]
              cases hy : o.lookup k with
              | none =>
                  rw [or_iff_right (not_leaf_of_absent hy), and_iff_left
                    ⟨rfl, nofun⟩]
                  rw [hy] at hlevel
                  unfold Leaf
                  rw [at?_mapping, at?_mapping, hlevel]
              | some y =>
                  rw [hy] at hlevel
                  rw [leaf_mapping hlevel, leaf_mapping hy]
                  cases hx : b.lookup k with
                  | none =>
                      rw [or_iff_left fun hleaf =>
                        not_leaf_of_absent hx hleaf.1]
                      rfl
                  | some x =>
                      have hvalid := h _ ((lookup_eq_some keys).mp hy)
                      rw [leaf_mapping hx]
                      refine (ih x hvalid).trans (or_congr_right ?_)
                      refine and_congr_right fun _ => and_congr_right fun _ => ?_
                      exact ⟨fun hon w hw => Option.some.inj hw ▸ hon,
                        fun hon => hon y rfl⟩
          | _ =>
              -- the override's mapping replaces a base that is none
              rw [deepMerge_onto rfl]
              exact (or_iff_left fun hleaf =>
                not_leaf_of_not_mapping rfl hleaf.1).symm
      | _ =>
          rw [deepMerge_of_not_mapping rfl, survives_of_not_mapping rfl]

/-! ## §4. Merging the same. -/

/-- Merging entries with themselves changes nothing. -/
theorem mergeEntries_fixed {o b : List (κ × Yaml κ)}
    (h : ∀ e ∈ o, b.lookup e.1 = some e.2 ∧ deepMerge e.2 e.2 = e.2) :
    mergeEntries b o = b := by
  induction o with
  | nil => rfl
  | cons e o ih =>
      obtain ⟨k, v⟩ := e
      obtain ⟨⟨hlookup, hself⟩, hrest⟩ := List.forall_mem_cons.mp h
      rw [mergeEntries, mergeEntry,
        upsert_of_fixed (f := fun old => deepMerge old v) hlookup hself]
      exact ih hrest

/-- **Merging a value with itself changes nothing.** -/
theorem deepMerge_self {b : Yaml κ} (h : b.Valid) : deepMerge b b = b := by
  induction h with
  | @mapping b keys _ ih =>
      exact congrArg mapping (mergeEntries_fixed fun e he =>
        ⟨(lookup_eq_some keys).mpr he, ih e he⟩)
  | _ => rfl

/-- Entries with other keys are appended. -/
theorem mergeEntries_append {o b : List (κ × Yaml κ)}
    (h : Distinct (b ++ o)) : mergeEntries b o = b ++ o := by
  induction o generalizing b with
  | nil => rw [mergeEntries, List.append_nil]
  | cons e o ih =>
      obtain ⟨k, v⟩ := e
      have hk : k ∉ keys b := by
        unfold Distinct keys at h
        rw [List.map_append, List.map_cons] at h
        exact fun hmem => List.disjoint_of_nodup_append h hmem
          List.mem_cons_self
      -- the entry moves from the override to the base
      have happend : b ++ (k, v) :: o = (b ++ [(k, v)]) ++ o := by simp
      rw [mergeEntries, mergeEntry, upsert_of_vacant hk, happend]
      rw [happend] at h
      exact ih h

/-- **An empty mapping adds nothing, on either side.** -/
theorem deepMerge_empty {es : List (κ × Yaml κ)} (h : Distinct es) :
    deepMerge (.mapping []) (.mapping es) = .mapping es
      ∧ deepMerge (.mapping es) (.mapping []) = .mapping es :=
  ⟨congrArg mapping (mergeEntries_append (b := []) h), rfl⟩

end Yaml

/-! ## §5. Values without a key twice. -/

/-- A value as the parser gives it. -/
structure YamlValue (κ : Type) where
  tree : Yaml κ
  valid : tree.Valid

namespace YamlValue

variable {κ : Type}

@[ext] theorem ext {v w : YamlValue κ} (h : v.tree = w.tree) : v = w := by
  obtain ⟨tree, valid⟩ := v
  obtain rfl : tree = w.tree := h
  rfl

variable [DecidableEq κ]

/-- `deep_merge`. -/
def deepMerge (base override : YamlValue κ) : YamlValue κ where
  tree := base.tree.deepMerge override.tree
  valid := Yaml.valid_deepMerge override.valid base.valid

/-- `{}`. -/
def empty : YamlValue κ := ⟨.mapping [], .mapping .nil (by simp)⟩

end YamlValue

/-- **The path law of a merge**: what a merge holds at every path of keys, and
so that merging a value with itself, or a mapping with an empty one on either
side, changes nothing. -/
theorem deep_merge_paths {κ : Type} [DecidableEq κ] (b o : YamlValue κ) :
    (∀ (p : List κ) (v : Yaml κ), (b.deepMerge o).tree.Leaf p v
      ↔ o.tree.Leaf p v
        ∨ (b.tree.Leaf p v ∧ o.tree.at? p = none
          ∧ ∀ q, q <+: p → ∀ w, o.tree.at? q = some w → w.isMapping = true))
    ∧ b.deepMerge b = b
    ∧ (b.tree.isMapping = true →
        YamlValue.empty.deepMerge b = b ∧ b.deepMerge .empty = b) := by
  refine ⟨fun p v => Yaml.leaf_deepMerge p b.tree o.valid v,
    YamlValue.ext (Yaml.deepMerge_self b.valid), fun hb => ?_⟩
  obtain ⟨es, hes⟩ := Yaml.isMapping_iff.mp hb
  have hdistinct : Distinct es := by
    have hvalid := b.valid
    rw [hes] at hvalid
    cases hvalid with
    | mapping keys _ => exact keys
  obtain ⟨hleft, hright⟩ := Yaml.deepMerge_empty hdistinct
  constructor
  · refine YamlValue.ext ?_
    show Yaml.deepMerge (.mapping []) b.tree = b.tree
    rw [hes, hleft]
  · refine YamlValue.ext ?_
    show Yaml.deepMerge b.tree (.mapping []) = b.tree
    rw [hes, hright]

/-- A nested mapping over a scalar and beside one. -/
def nested : YamlValue String where
  tree := .mapping [("a", .mapping [("x", .bool true)]), ("b", .null)]
  valid := by
    refine .mapping (by decide) fun e he => ?_
    rcases List.mem_pair.mp he with rfl | rfl
    · refine .mapping (by decide) fun e he => ?_
      rw [List.mem_singleton.mp he]
      exact .bool true
    · exact .null

theorem deep_merge_paths_nested :
    nested.tree.isMapping = true
      ∧ YamlValue.empty.deepMerge nested = nested :=
  ⟨rfl, ((deep_merge_paths nested nested).2.2 rfl).1⟩

end ArgusManager.Sim
